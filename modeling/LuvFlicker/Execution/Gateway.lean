import LuvFlicker.Execution.Ouch
import LuvFlicker.Execution.Risk
import LuvFlicker.Recovery.Ledger
import LuvFlicker.Safety.Controls
import LuvFlicker.Safety.Reconciliation

/-!
# The execution gateway

Submission of orders and of replacements, the reports of the venue, and the
simulator-local cancel, over one state: the order slots and the risk state of every
symbol, the reconciliation ledger, the limit on pending orders, the circuit breaker
and the write-ahead log.
-/

namespace LuvFlicker

open Exec Scan Function Config

/-- What the surroundings answer during one call. -/
structure GatewayEnv where
  /-- The append to the audit log; true when none is attached. -/
  audit : Bool := true
  /-- The system calls of the append to the write-ahead log. -/
  io : AppendIo := ⟨[.wrote 64], true⟩
  /-- `now_ns()`. -/
  nowNs : UInt64 := 0
  /-- The system clock read by `next_utc_fill_timestamp_ns()`. -/
  utcNs : UInt64 := 0
  /-- The answer of the fill callback, if one is registered. -/
  notify : Option Bool := none
  deriving DecidableEq, Repr

namespace SymbolExecState

variable (st : SymbolExecState)

def setOrder (slot : Nat) (order : ActiveOrder) : SymbolExecState := { st with orders := update st.orders slot order }

def book (delta notional : Int) : SymbolExecState :=
  { st with
    risk := { st.risk with
      netPosition := st.risk.netPosition + delta, grossExposure := st.risk.grossExposure + notional } }

def setOrderCount (orderCount : Nat) : SymbolExecState := { st with risk := { st.risk with orderCount := orderCount } }

def countReject : SymbolExecState := { st with risk := { st.risk with rejectCount := st.risk.rejectCount + 1 } }

def setHalted (halted : Bool) : SymbolExecState := { st with risk := { st.risk with halted := halted } }

def findOrder (orderId : UInt64) : Option Nat :=
  firstIndex (fun i => (st.orders i).orderId = orderId && (st.orders i).state ≠ .pending) kMaxActiveOrders

def findLive (orderId : UInt64) : Option Nat :=
  firstIndex (fun i => (st.orders i).orderId = orderId && (st.orders i).state ≠ .pending &&
    (st.orders i).state ≠ .done) kMaxActiveOrders

def findFree : Option Nat :=
  firstIndex (fun i => (st.orders i).state = .pending || (st.orders i).state = .done) kMaxActiveOrders

end SymbolExecState

def OrderIntent.order (intent : OrderIntent) : ActiveOrder where
  orderId := intent.clientOrderId.toUInt64
  price := intent.price.toInt
  qty := intent.qty.toInt
  filledQty := 0
  symbolIdx := intent.symbolIdx
  side := intent.side &&& 1
  state := .live
  timeInForce := intent.timeInForce

namespace SymbolExecState

variable (st : SymbolExecState) (slot : Nat)

def reserveAt (intent : OrderIntent) : SymbolExecState :=
  let booked := (st.setOrder slot intent.order).book (signedQtyDelta intent.side intent.qty.toInt)
    (intent.price.toInt * intent.qty.toInt)
  booked.setOrderCount (st.risk.orderCount + 1)

def releaseAt (intent : OrderIntent) : SymbolExecState :=
  let booked := (st.setOrder slot {}).book (-signedQtyDelta intent.side intent.qty.toInt)
    (-(intent.price.toInt * intent.qty.toInt))
  booked.setOrderCount (st.risk.orderCount - 1)

def unbook (order : ActiveOrder) : SymbolExecState :=
  st.book (-signedQtyDelta order.side order.qty) (-(order.price * order.qty))

def dropAt : SymbolExecState :=
  ((st.unbook (st.orders slot)).setOrder slot {}).setOrderCount (st.risk.orderCount - 1)

def amendAt (newQty newPrice : Int) : SymbolExecState :=
  let order := st.orders slot
  (st.setOrder slot { order with qty := newQty, price := newPrice }).book
    (signedQtyDelta order.side newQty - signedQtyDelta order.side order.qty)
    (newPrice * newQty - order.price * order.qty)

def fillAt (report : ExecutionReport) : SymbolExecState :=
  let order := st.orders slot
  let filled := { order with
    filledQty := order.filledQty + report.filledQuantity, qty := order.qty - report.filledQuantity }
  if report.terminal ∨ filled.qty = 0 then
    -- the venue cancels what a terminal report leaves open
    let released := if report.terminal ∧ filled.qty > 0 then st.unbook filled else st
    (released.setOrder slot { filled with state := .done }).setOrderCount (st.risk.orderCount - 1)
  else st.setOrder slot { filled with state := .partlyFilled }

end SymbolExecState

abbrev kReconciliationBits : Fin 32 := 16

structure ExecutionGateway where
  limits : Nat → ValidLimits
  breaker : CircuitBreaker
  reconciliation : ReconciliationLedger kReconciliationBits
  rateLimiter : OrderRateLimiter
  recovery : Option RecoveryLedger
  states : Nat → SymbolExecState
  fillReportCount : UInt64
  droppedFillNotifications : UInt64
  lastFillTimestampNs : UInt64

namespace ExecutionGateway

def init (rateLimit : Nat) (limits : Nat → ValidLimits) (breaker : CircuitBreaker)
    (recovery : Option RecoveryLedger) : ExecutionGateway where
  limits := limits
  breaker := breaker.reset
  reconciliation := .init
  rateLimiter := { maxPending := rateLimit }
  recovery := recovery
  states := fun _ => {}
  fillReportCount := 0
  droppedFillNotifications := 0
  lastFillTimestampNs := 0

variable (g : ExecutionGateway)

@[simps]
def setState (symbol : Nat) (st : SymbolExecState) : ExecutionGateway := { g with states := update g.states symbol st }

@[simps]
def setReconciliation (ledger : ReconciliationLedger kReconciliationBits) : ExecutionGateway :=
  { g with reconciliation := ledger }

@[simps]
def setBreaker (breaker : CircuitBreaker) : ExecutionGateway := { g with breaker := breaker }

@[simps]
def setRateLimiter (rateLimiter : OrderRateLimiter) : ExecutionGateway := { g with rateLimiter := rateLimiter }

def countReject (symbol : Nat) : ExecutionGateway := g.setState symbol (g.states symbol).countReject

def setHalted (symbol : Nat) (halted : Bool) : ExecutionGateway :=
  g.setState symbol ((g.states symbol).setHalted halted)

def recordFailure (timestampNs : UInt64) : ExecutionGateway := g.setBreaker (g.breaker.recordFailure timestampNs)

def trip : ExecutionGateway := g.setBreaker (g.breaker.trip 0)

def releasePending : ExecutionGateway := g.setRateLimiter g.rateLimiter.release

section

variable (intent : OrderIntent)

def evaluate : RiskDecision :=
  PreTradeRisk.evaluate (g.states intent.symbolIdx).risk (g.limits intent.symbolIdx).val intent

def appendRecovery (event : RecoveryEvent) (io : AppendIo) : Bool × ExecutionGateway :=
  match g.recovery with
  | none => (true, g)
  | some ledger => ((ledger.appendWithSide event io).1, { g with recovery := some (ledger.appendWithSide event io).2 })

def reserveOrderSlot : Bool × ExecutionGateway :=
  let st := g.states intent.symbolIdx
  if st.risk.orderCount ≥ kMaxActiveOrders then
    (false, (g.setHalted intent.symbolIdx true).countReject intent.symbolIdx)
  else
    match st.findFree with
    | none => (false, g)
    | some slot => (true, g.setState intent.symbolIdx (st.reserveAt slot intent))

def releaseOrderSlot : ExecutionGateway :=
  let st := g.states intent.symbolIdx
  match firstIndex (fun i => (st.orders i).orderId = intent.clientOrderId.toUInt64) kMaxActiveOrders with
  | none => g
  | some slot => g.setState intent.symbolIdx (st.releaseAt slot intent)

def rollback : ExecutionGateway :=
  let g := g.setReconciliation (g.reconciliation.cancel intent.clientOrderId.toUInt64).2
  (((g.releaseOrderSlot intent).releasePending).countReject intent.symbolIdx).recordFailure intent.nowNs

def addEvent : RecoveryEvent where
  type := .kAdd
  orderId := intent.clientOrderId.toUInt64
  quantity := intent.qty
  price := intent.price
  side := intent.side
  timestampNs := intent.nowNs

end

def refused (decision : RiskDecision) (bit : UInt8) (packet : OutboundPacket) : RiskDecision × OutboundPacket :=
  (⟨false, decision.rejectMask ||| bit⟩, { packet with len := 0 })

section

variable (env : GatewayEnv)

def submit (intent : OrderIntent) (decision : RiskDecision)
    (packet : OutboundPacket) : (RiskDecision × OutboundPacket) × ExecutionGateway :=
  let (registered, ledger) := g.reconciliation.registerOrder intent.clientOrderId.toUInt64 intent.qty.toInt
  let g := g.setReconciliation ledger
  if !registered then
    (refused decision kRejectPosition packet,
      (g.releasePending.countReject intent.symbolIdx).recordFailure intent.nowNs)
  else
    let (reserved, g) := g.reserveOrderSlot intent
    if !reserved then
      let g := g.setReconciliation (g.reconciliation.cancel intent.clientOrderId.toUInt64).2
      (refused decision kRejectPosition packet, g.releasePending.recordFailure intent.nowNs)
    else if !env.audit then (refused decision kRejectHalted packet, g.rollback intent)
    else
      let (logged, g) := g.appendRecovery (addEvent intent) env.io
      if !logged then (refused decision kRejectHalted packet, g.rollback intent)
      else ((decision, packet), g)

def tryBuild (intent : OrderIntent) (packet : OutboundPacket) : (RiskDecision × OutboundPacket) × ExecutionGateway :=
  let packet := { packet with len := 0 }
  let symbol := intent.symbolIdx
  if symbol ≥ kSymbols then ((⟨false, kRejectInvalidSymbol⟩, packet), g)
  else
    let (allowed, breaker) := g.breaker.allow intent.nowNs
    let g := g.setBreaker breaker
    if !allowed then ((⟨false, kRejectHalted⟩, packet), (g.countReject symbol).setHalted symbol true)
    else
      let (acquired, rateLimiter) := g.rateLimiter.tryAcquire
      let g := g.setRateLimiter rateLimiter
      if !acquired then ((⟨false, kRejectHalted⟩, packet), (g.countReject symbol).setHalted symbol true)
      else
        let decision := g.evaluate intent
        let capacityOk := (g.states symbol).risk.orderCount < kMaxActiveOrders
        let checked : RiskDecision :=
          ⟨decision.pass && capacityOk, decision.rejectMask ||| if capacityOk then 0 else kRejectOrderCapacity⟩
        if !decision.pass then ((checked, packet), g.releasePending.countReject symbol)
        else if ¬ capacityOk then
          ((checked, packet), (g.releasePending.countReject symbol).setHalted symbol true)
        else
          match Ouch.buildEnterOrder intent packet with
          | none => (refused checked kRejectFlatSignal packet, g.releasePending.countReject symbol)
          | some packet => g.submit env intent checked packet

def tryReplace (intent : OrderReplaceIntent) (packet : OutboundPacket) :
    (RiskDecision × OutboundPacket) × ExecutionGateway :=
  let packet := { packet with len := 0 }
  let symbol := intent.symbolIdx
  if symbol ≥ kSymbols then ((⟨false, kRejectInvalidSymbol⟩, packet), g)
  else
    let (allowed, breaker) := g.breaker.allow intent.nowNs
    let g := g.setBreaker breaker
    if !allowed then ((⟨false, kRejectHalted⟩, packet), (g.countReject symbol).setHalted symbol true)
    else if !g.reconciliation.contains intent.originalOrderId.toUInt64 then
      ((⟨false, kRejectPosition⟩, packet), g.countReject symbol)
    else
      match (g.states symbol).findLive intent.originalOrderId.toUInt64 with
      | none => ((⟨false, kRejectPosition⟩, packet), g.countReject symbol)
      | some slot =>
        let testIntent : OrderIntent :=
          { symbolIdx := symbol, side := ((g.states symbol).orders slot).side, qty := intent.newQty,
            price := intent.newPrice, alphaTimestampNs := intent.alphaTimestampNs, nowNs := intent.nowNs,
            clientOrderId := intent.replacementOrderId, timeInForce := intent.timeInForce }
        let decision := g.evaluate testIntent
        if !decision.pass then ((decision, packet), g.countReject symbol)
        else
          match Ouch.buildReplaceOrder intent with
          | none => (refused decision kRejectFlatSignal packet, g.countReject symbol)
          | some packet =>
            if !env.audit then
              (refused decision kRejectHalted packet, (g.countReject symbol).recordFailure intent.nowNs)
            else ((decision, packet), g)

/-! ## Reports -/

section

variable (symbol : Nat)

def fail : ExecutionGateway := (g.setHalted symbol true).trip

def nextUtcFillTimestampNs : UInt64 :=
  if env.utcNs ≤ g.lastFillTimestampNs ∧ g.lastFillTimestampNs ≠ 0xFFFFFFFFFFFFFFFF then
    g.lastFillTimestampNs + 1
  else env.utcNs

def notifyFill (order : ActiveOrder) : Option FillEvent × ExecutionGateway :=
  let g := { g with fillReportCount := g.fillReportCount + 1 }
  match env.notify with
  | none => (none, g)
  | some taken =>
    let timestampNs := g.nextUtcFillTimestampNs env
    let dropped := if taken then g.droppedFillNotifications else g.droppedFillNotifications + 1
    (some ⟨order.orderId, order.filledQty, order.price, timestampNs⟩,
      { g with lastFillTimestampNs := timestampNs, droppedFillNotifications := dropped })

def orderEvent (type : RecoveryEventType) (order : ActiveOrder) (quantity price : Int) (timestampNs : UInt64) :
    RecoveryEvent where
  type := type
  orderId := order.orderId
  quantity := .ofInt quantity
  price := .ofInt price
  side := order.side
  timestampNs := timestampNs

def fillEvent (order : ActiveOrder) (report : ExecutionReport) (timestampNs : UInt64) : RecoveryEvent :=
  let type := if report.terminal ∧ order.qty - report.filledQuantity > 0 then .kTerminalFill else .kFill
  orderEvent type order report.filledQuantity order.price timestampNs

def applyExecutionReport (report : ExecutionReport) : (Bool × Option FillEvent) × ExecutionGateway :=
  if symbol ≥ kSymbols then ((false, none), g.trip)
  else
    match (g.states symbol).findOrder report.orderId with
    | none => ((false, none), g.fail symbol)
    | some slot =>
      let order := (g.states symbol).orders slot
      if report.filledQuantity ≤ 0 ∨ report.filledQuantity > order.qty ∨ !g.reconciliation.contains report.orderId then
        ((false, none), g.fail symbol)
      else
        let (logged, g) := g.appendRecovery (fillEvent order report env.nowNs) env.io
        if !logged then ((false, none), g.fail symbol)
        else
          let (applied, ledger) := g.reconciliation.apply report
          let g := g.setReconciliation ledger
          if !applied then ((false, none), g.fail symbol)
          else
            let st := (g.states symbol).fillAt slot report
            let (event, g) := (g.setState symbol st).notifyFill env (st.orders slot)
            let finished := report.terminal ∨ order.qty - report.filledQuantity = 0
            ((true, event), if finished then g.releasePending else g)

def applyCancelReport (orderId : UInt64) : Bool × ExecutionGateway :=
  if symbol ≥ kSymbols then (false, g.trip)
  else
    match (g.states symbol).findOrder orderId with
    | none => (false, g.fail symbol)
    | some slot =>
      let order := (g.states symbol).orders slot
      if order.state = .done then (false, g)
      else if !g.reconciliation.contains orderId then (false, g.fail symbol)
      else
        let (logged, g) := g.appendRecovery (orderEvent .kCancel order order.qty order.price env.nowNs) env.io
        if !logged then (false, g.fail symbol)
        else
          let (cancelled, ledger) := g.reconciliation.cancel orderId
          let g := g.setReconciliation ledger
          if !cancelled then (false, g.fail symbol)
          else (true, (g.setState symbol ((g.states symbol).dropAt slot)).releasePending)

def applyReplaceReport (orderId : UInt64) (newQty newPrice : Int64) : Bool × ExecutionGateway :=
  if symbol ≥ kSymbols then (false, g.trip)
  else
    match (g.states symbol).findLive orderId with
    | none => (false, g.fail symbol)
    | some slot =>
      let order := (g.states symbol).orders slot
      if !g.reconciliation.contains orderId ∨ newQty ≤ 0 ∨ newPrice ≤ 0 then (false, g.fail symbol)
      else
        let (logged, g) := g.appendRecovery (orderEvent .kReplace order newQty.toInt newPrice.toInt env.nowNs) env.io
        if !logged then (false, g.fail symbol)
        else
          let (replaced, ledger) := g.reconciliation.replace orderId newQty.toInt
          let g := g.setReconciliation ledger
          if !replaced then (false, g.fail symbol)
          else (true, g.setState symbol ((g.states symbol).amendAt slot newQty.toInt newPrice.toInt))

def noteRejection : ExecutionGateway :=
  let g := g.countReject symbol
  let g := g.setBreaker (g.breaker.recordRejection env.nowNs)
  if (g.states symbol).risk.rejectCount ≥ (g.limits symbol).val.maxConsecutiveRejections then g.setHalted symbol true
  else g

def applyRejectReport (orderId : UInt64) : Bool × ExecutionGateway :=
  if symbol ≥ kSymbols then (false, g.recordFailure env.nowNs)
  else
    match (g.states symbol).findOrder orderId with
    | none => (false, g.noteRejection env symbol)
    | some slot =>
      if ((g.states symbol).orders slot).state = .done then (false, g)
      else
        let g := g.noteRejection env symbol
        let g := g.setReconciliation (g.reconciliation.cancel orderId).2
        (true, (g.setState symbol ((g.states symbol).dropAt slot)).releasePending)

end

def cancelOrder (orderId : UInt64) : Bool × ExecutionGateway :=
  if orderId = 0 then (false, g)
  else
    match firstIndex (fun symbol => ((g.states symbol).findLive orderId).isSome) kSymbols with
    | none => (false, g)
    | some symbol => g.applyCancelReport env symbol orderId

end

def queryOrder (orderId : UInt64) : Option ActiveOrder :=
  if orderId = 0 then none
  else
    (List.range kSymbols).findSome? fun symbol =>
      ((g.states symbol).findOrder orderId).map (g.states symbol).orders

def queryPosition (symbol : Nat) : Option RiskState :=
  if symbol ≥ kSymbols then none else some (g.states symbol).risk

def setLimits (symbol : Nat) (limits : RiskLimits) : Bool × ExecutionGateway :=
  if h : symbol < kSymbols ∧ limits.isValid = true then
    (true, { g with limits := update g.limits symbol ⟨limits, h.2⟩ })
  else (false, g)

end ExecutionGateway

/-! ## Runs -/

inductive GatewayOp where
  | tryBuild (intent : OrderIntent) (packet : OutboundPacket)
  | tryReplace (intent : OrderReplaceIntent) (packet : OutboundPacket)
  | executionReport (symbol : Nat) (report : ExecutionReport)
  | cancelReport (symbol : Nat) (orderId : UInt64)
  | replaceReport (symbol : Nat) (orderId : UInt64) (newQty newPrice : Int64)
  | rejectReport (symbol : Nat) (orderId : UInt64)
  | cancelOrder (orderId : UInt64)
  | haltSymbol (symbol : Nat)
  | resumeSymbol (symbol : Nat)
  | setLimits (symbol : Nat) (limits : RiskLimits)
  /-- Any use of the breaker that `circuit_breaker()` exposes. -/
  | setBreaker (breaker : CircuitBreaker)

structure GatewayCall where
  op : GatewayOp
  env : GatewayEnv := {}

inductive GatewayReply where
  | decision (decision : RiskDecision) (packet : OutboundPacket)
  | report (ok : Bool) (event : Option FillEvent)
  | void

namespace ExecutionGateway

def step (call : GatewayCall) (g : ExecutionGateway) : GatewayReply × ExecutionGateway :=
  match call.op with
  | .tryBuild intent packet =>
    let ((decision, packet), g) := g.tryBuild call.env intent packet
    (.decision decision packet, g)
  | .tryReplace intent packet =>
    let ((decision, packet), g) := g.tryReplace call.env intent packet
    (.decision decision packet, g)
  | .executionReport symbol report =>
    let ((ok, event), g) := g.applyExecutionReport call.env symbol report
    (.report ok event, g)
  | .cancelReport symbol orderId =>
    let (ok, g) := g.applyCancelReport call.env symbol orderId
    (.report ok none, g)
  | .replaceReport symbol orderId newQty newPrice =>
    let (ok, g) := g.applyReplaceReport call.env symbol orderId newQty newPrice
    (.report ok none, g)
  | .rejectReport symbol orderId =>
    let (ok, g) := g.applyRejectReport call.env symbol orderId
    (.report ok none, g)
  | .cancelOrder orderId =>
    let (ok, g) := g.cancelOrder call.env orderId
    (.report ok none, g)
  | .haltSymbol symbol => (.void, if symbol < kSymbols then g.setHalted symbol true else g)
  | .resumeSymbol symbol => (.void, if symbol < kSymbols then g.setHalted symbol false else g)
  | .setLimits symbol limits =>
    let (ok, g) := g.setLimits symbol limits
    (.report ok none, g)
  | .setBreaker breaker => (.void, g.setBreaker breaker)

end ExecutionGateway

end LuvFlicker
