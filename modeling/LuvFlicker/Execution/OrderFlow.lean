import LuvFlicker.Execution.Gateway

/-!
# The order flow of the venue

The parser of inbound frames and the adapter that turns a frame into a report to the
gateway, and the runs in which all reports come through the adapter.
-/

namespace LuvFlicker

open Exec Bytes Config

namespace Ouch

inductive EventType where
  | kAccepted
  | kRejected
  | kExecuted
  | kCanceled
  | kReplaced
  deriving DecidableEq, Repr

structure Event where
  type : EventType := .kRejected
  orderId : UInt64 := 0
  quantity : Int64 := 0
  price : Int64 := 0
  reason : UInt8 := 0
  deriving DecidableEq, Repr

def kAcceptedLength : Nat := 9
def kRejectedLength : Nat := 10
def kExecutedLength : Nat := 13
def kCanceledLength : Nat := 9
def kReplacedLength : Nat := 17
def kMaxBodyLength : Nat := kReplacedLength

def be32 (data : List UInt8) (offset : Nat) : Int64 := .ofNat (beField data offset 4)

def parseBody (body : List UInt8) (bodyLength : Nat) (orderId : UInt64) : Option Event :=
  match byteAt body 0 with
  | 0x41 =>
    if bodyLength ≠ kAcceptedLength then none
    else some { type := .kAccepted, orderId := orderId }
  | 0x4A =>
    if bodyLength ≠ kRejectedLength then none
    else some { type := .kRejected, orderId := orderId, reason := byteAt body 9 }
  | 0x45 =>
    if bodyLength ≠ kExecutedLength ∨ be32 body 9 ≤ 0 then none
    else some { type := .kExecuted, orderId := orderId, quantity := be32 body 9 }
  | 0x43 =>
    if bodyLength ≠ kCanceledLength then none
    else some { type := .kCanceled, orderId := orderId }
  | 0x55 =>
    if bodyLength ≠ kReplacedLength ∨ be32 body 9 ≤ 0 ∨ be32 body 13 ≤ 0 then none
    else some { type := .kReplaced, orderId := orderId, quantity := be32 body 9, price := be32 body 13 }
  | _ => none

def parse (data : List UInt8) : Option (Event × Nat) :=
  if data.length < 2 then none
  else
    let bodyLength := beField data 0 2
    if bodyLength < 9 ∨ bodyLength > kMaxBodyLength ∨ data.length < bodyLength + 2 then none
    else
      let body := data.drop 2
      let orderId := UInt64.ofNat (beField body 1 8)
      if orderId = 0 then none else (parseBody body bodyLength orderId).map fun event => (event, bodyLength + 2)

/-- `OrderFlowAdapter::consume`: whether the frame was applied, and the bytes consumed. -/
def consume (data : List UInt8) (symbol : Nat) (env : GatewayEnv) (g : ExecutionGateway) :
    (Bool × Nat) × ExecutionGateway :=
  match parse data with
  | none => ((false, 0), g)
  | some (event, consumed) =>
    match event.type with
    | .kExecuted =>
      let ((ok, _), g) := g.applyExecutionReport env symbol ⟨event.orderId, event.quantity.toInt, false⟩
      ((ok, consumed), g)
    | .kCanceled =>
      let (ok, g) := g.applyCancelReport env symbol event.orderId
      ((ok, consumed), g)
    | .kReplaced =>
      let (ok, g) := g.applyReplaceReport env symbol event.orderId event.quantity event.price
      ((ok, consumed), g)
    | .kRejected =>
      let (ok, g) := g.applyRejectReport env symbol event.orderId
      ((ok, consumed), g)
    | .kAccepted => ((true, consumed), g)

def Event.report (event : Event) (symbol : Nat) : Option GatewayOp :=
  match event.type with
  | .kExecuted => some (.executionReport symbol ⟨event.orderId, event.quantity.toInt, false⟩)
  | .kCanceled => some (.cancelReport symbol event.orderId)
  | .kReplaced => some (.replaceReport symbol event.orderId event.quantity event.price)
  | .kRejected => some (.rejectReport symbol event.orderId)
  | .kAccepted => none

end Ouch

/-! ## Arithmetic -/

namespace SymbolExecState

variable (st : SymbolExecState)

def reserveArithmetic (intent : OrderIntent) : List Int :=
  let delta := signedQtyDelta intent.side intent.qty.toInt
  let notional := intent.price.toInt * intent.qty.toInt
  [delta, st.risk.netPosition + delta, notional, st.risk.grossExposure + notional]

def releaseArithmetic (intent : OrderIntent) : List Int :=
  let delta := signedQtyDelta intent.side intent.qty.toInt
  let notional := intent.price.toInt * intent.qty.toInt
  [delta, st.risk.netPosition - delta, notional, st.risk.grossExposure - notional]

def unbookArithmetic (order : ActiveOrder) : List Int :=
  let delta := signedQtyDelta order.side order.qty
  let notional := order.price * order.qty
  [delta, st.risk.netPosition - delta, notional, st.risk.grossExposure - notional]

def amendArithmetic (order : ActiveOrder) (newQty newPrice : Int) : List Int :=
  let oldSigned := signedQtyDelta order.side order.qty
  let newSigned := signedQtyDelta order.side newQty
  let change := newPrice * newQty - order.price * order.qty
  [oldSigned, newSigned, newSigned - oldSigned, st.risk.netPosition + (newSigned - oldSigned), newPrice * newQty,
    order.price * order.qty, change, st.risk.grossExposure + change]

end SymbolExecState

namespace ExecutionGateway

variable (g : ExecutionGateway) (env : GatewayEnv)

def reachesSlots (intent : OrderIntent) (packet : OutboundPacket) : Bool :=
  intent.symbolIdx < kSymbols && (g.breaker.allow intent.nowNs).1 && g.rateLimiter.tryAcquire.1 &&
    (g.evaluate intent).pass && (g.states intent.symbolIdx).risk.orderCount < kMaxActiveOrders &&
    (Ouch.buildEnterOrder intent { packet with len := 0 }).isSome &&
    (g.reconciliation.registerOrder intent.clientOrderId.toUInt64 intent.qty.toInt).1

def tryBuildArithmetic (intent : OrderIntent) (packet : OutboundPacket) : List Int :=
  if g.reachesSlots intent packet then
    let st := g.states intent.symbolIdx
    match st.findFree with
    | none => []
    | some slot =>
      -- the way back follows when the audit record or the log record fails
      let back := if env.audit && (g.appendRecovery (addEvent intent) env.io).1 then []
        else (st.reserveAt slot intent).releaseArithmetic intent
      st.reserveArithmetic intent ++ back
  else []

section

variable (symbol : Nat)

def executionArithmetic (report : ExecutionReport) : List Int :=
  if symbol ≥ kSymbols then []
  else
    match (g.states symbol).findOrder report.orderId with
    | none => []
    | some slot =>
      let order := (g.states symbol).orders slot
      if report.filledQuantity ≤ 0 ∨ report.filledQuantity > order.qty ∨
          !g.reconciliation.contains report.orderId then []
      else
        let remaining := order.qty - report.filledQuantity
        let applied := (g.appendRecovery (fillEvent order report env.nowNs) env.io).1 &&
          (g.reconciliation.apply report).1
        remaining ::
          if !applied then []
          else
            (order.filledQty + report.filledQuantity) ::
              if report.terminal ∧ remaining > 0 then
                (g.states symbol).unbookArithmetic { order with qty := remaining }
              else []

def dropArithmetic (applied : Bool) (symbol : Nat) (orderId : UInt64) : List Int :=
  match (g.states symbol).findOrder orderId with
  | none => []
  | some slot => if applied then (g.states symbol).unbookArithmetic ((g.states symbol).orders slot) else []

def cancelArithmetic (orderId : UInt64) : List Int :=
  g.dropArithmetic (g.applyCancelReport env symbol orderId).1 symbol orderId

def rejectArithmetic (orderId : UInt64) : List Int :=
  g.dropArithmetic (g.applyRejectReport env symbol orderId).1 symbol orderId

def replaceArithmetic (orderId : UInt64) (newQty newPrice : Int64) : List Int :=
  match (g.states symbol).findLive orderId with
  | none => []
  | some slot =>
    if (g.applyReplaceReport env symbol orderId newQty newPrice).1 then
      (g.states symbol).amendArithmetic ((g.states symbol).orders slot) newQty.toInt newPrice.toInt
    else []

end

def arithmetic (call : GatewayCall) (g : ExecutionGateway) : List Int :=
  match call.op with
  | .tryBuild intent packet => g.tryBuildArithmetic call.env intent packet
  | .executionReport symbol report => g.executionArithmetic call.env symbol report
  | .cancelReport symbol orderId => g.cancelArithmetic call.env symbol orderId
  | .replaceReport symbol orderId newQty newPrice => g.replaceArithmetic call.env symbol orderId newQty newPrice
  | .rejectReport symbol orderId => g.rejectArithmetic call.env symbol orderId
  | .cancelOrder orderId =>
    match Scan.firstIndex (fun symbol => ((g.states symbol).findLive orderId).isSome) kSymbols with
    | none => []
    | some symbol => if orderId = 0 then [] else g.cancelArithmetic call.env symbol orderId
  -- the check of a replacement only uses checked operations
  | .tryReplace _ _ => []
  | .haltSymbol _ => []
  | .resumeSymbol _ => []
  | .setLimits _ _ => []
  | .setBreaker _ => []

end ExecutionGateway

/-! ## Runs -/

def GatewayOp.isReport : GatewayOp → Bool
  | .executionReport _ _ => true
  | .cancelReport _ _ => true
  | .replaceReport _ _ _ _ => true
  | .rejectReport _ _ => true
  | _ => false

inductive FlowOp where
  | call (op : GatewayOp) (noReport : op.isReport = false)
  | consume (data : List UInt8) (symbol : Nat)

structure FlowCall where
  op : FlowOp
  env : GatewayEnv := {}

inductive FlowReply where
  | gateway (reply : GatewayReply)
  | consumed (ok : Bool) (bytes : Nat)

namespace FlowCall

def step (call : FlowCall) (g : ExecutionGateway) : FlowReply × ExecutionGateway :=
  match call.op with
  | .call op _ =>
    let (reply, g) := g.step ⟨op, call.env⟩
    (.gateway reply, g)
  | .consume data symbol =>
    let ((ok, bytes), g) := Ouch.consume data symbol call.env g
    (.consumed ok bytes, g)

def gatewayCall (call : FlowCall) : Option GatewayCall :=
  match call.op with
  | .call op _ => some ⟨op, call.env⟩
  | .consume data symbol => (Ouch.parse data).bind fun parsed => (parsed.1.report symbol).map fun op => ⟨op, call.env⟩

theorem step_gateway (call : FlowCall) (g : ExecutionGateway) : (call.step g).2 = match call.gatewayCall with
      | none => g
      | some call => (g.step call).2 := by
  obtain ⟨op, _⟩ := call
  cases op with
  | call op _ => rfl
  | consume data symbol =>
    simp only [step, gatewayCall, Ouch.consume]
    cases Ouch.parse data with
    | none => rfl
    | some parsed =>
      obtain ⟨event, _⟩ := parsed
      simp only [Option.bind_some, Ouch.Event.report]
      cases event.type <;> rfl

def Meets (condition : GatewayCall → ExecutionGateway → Prop) (call : FlowCall) (g : ExecutionGateway) : Prop :=
  match call.gatewayCall with
  | none => True
  | some call => condition call g

instance decidableMeets (condition : GatewayCall → ExecutionGateway → Prop) [∀ call g, Decidable (condition call g)]
    (call : FlowCall) (g : ExecutionGateway) : Decidable (call.Meets condition g) :=
  match h : call.gatewayCall with
  | none => isTrue (by rw [Meets, h]; trivial)
  | some reached => decidable_of_iff (condition reached g) (by rw [Meets, h])

end FlowCall

end LuvFlicker
