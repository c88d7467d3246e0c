import LuvFlicker.Execution.Gateway
import LuvFlicker.Lib.Run
import LuvFlicker.Lib.Spsc

/-!
# The bridge between the HTTP thread and the execution thread

Requests go one way and responses the other, each through a ring.
-/

namespace LuvFlicker

def takeOrderId (nextOrderId : UInt32) : UInt32 × UInt32 :=
  if nextOrderId = 0 then (0, 0) else (nextOrderId, if nextOrderId = 0xFFFFFFFF then 0 else nextOrderId + 1)

namespace Http

open Exec Spsc

inductive Command where
  | kSubmit
  | kQuery
  | kCancel
  | kPositions
  deriving DecidableEq, Repr

inductive OrderStatus where
  | kPending
  | kLive
  | kPartial
  | kCancelled
  | kDone
  | kRejected
  | kNotFound
  deriving DecidableEq, Repr

structure OrderSnapshot where
  orderId : UInt64 := 0
  price : Int := 0
  quantity : Int := 0
  filledQuantity : Int := 0
  symbolIdx : UInt16 := 0
  side : UInt8 := kBuy
  status : OrderStatus := .kNotFound
  rejectMask : UInt8 := 0
  deriving DecidableEq, Repr

structure PositionSnapshot where
  symbolIdx : Nat := 0
  netPosition : Int := 0
  grossExposure : Int := 0
  deriving DecidableEq, Repr

structure Request where
  command : Command := .kSubmit
  requestId : UInt64 := 0
  orderId : UInt64 := 0
  order : OrderIntent := {}
  deriving DecidableEq, Repr

def Request.asks (request : Request) : Bool := request.command ≠ .kSubmit

structure AcceptedSubmission where
  orderId : UInt64 := 0
  quantity : Int64 := 0
  symbolIdx : Nat := 0
  accepted : Bool := false
  deriving DecidableEq, Repr

/-- The position snapshots are those before `position_count`. -/
structure Response where
  requestId : UInt64 := 0
  order : OrderSnapshot := {}
  positions : List PositionSnapshot := []
  deriving DecidableEq, Repr

def snapshot (order : ActiveOrder) : OrderSnapshot where
  orderId := order.orderId
  price := order.price
  quantity := order.qty + order.filledQty
  filledQuantity := order.filledQty
  symbolIdx := .ofNat order.symbolIdx
  side := order.side
  status :=
    match order.state with
    | .live => .kLive
    | .partlyFilled => .kPartial
    | .done => .kDone
    | .pending => .kNotFound

def positions (g : ExecutionGateway) : List PositionSnapshot := (List.range Config.kSymbols).filterMap fun symbol =>
    match g.queryPosition symbol with
    | none => none
    | some state =>
      if state.netPosition ≠ 0 ∨ state.grossExposure ≠ 0 then
        some ⟨symbol, state.netPosition, state.grossExposure⟩
      else none

def answer (env : GatewayEnv) (request : Request) (g : ExecutionGateway) : Response × ExecutionGateway :=
  match request.command with
  | .kSubmit => ({ requestId := request.requestId }, g)
  | .kQuery =>
    let order := match g.queryOrder request.orderId with
      | some order => snapshot order
      | none => { orderId := request.orderId }
    ({ requestId := request.requestId, order := order }, g)
  | .kCancel =>
    let (cancelled, g) := g.cancelOrder env request.orderId
    let status := if cancelled then .kCancelled else .kNotFound
    ({ requestId := request.requestId, order := { orderId := request.orderId, status := status } }, g)
  | .kPositions => ({ requestId := request.requestId, positions := positions g }, g)

theorem answer_requestId {env : GatewayEnv} {request : Request} {g : ExecutionGateway} :
    (answer env request g).1.requestId = request.requestId := by
  unfold answer
  cases request.command <;> rfl

inductive Phase where
  /-- Between two calls. -/
  | idle
  /-- Next is the pop of a request. -/
  | polling (flushed : Bool)
  /-- Next is the push of the response. -/
  | replying (response : Response)
  deriving DecidableEq

def Phase.reply : Phase → Option Response
  | .replying response => some response
  | _ => none

structure Bridge where
  requests : Channel Request 8
  responses : Channel Response 3
  /-- `deferred_response_`, when `has_deferred_response_` is set. -/
  deferred : Option Response
  phase : Phase
  gateway : ExecutionGateway

inductive Action where
  /-- HTTP thread: `submit`. -/
  | submit (request : Request)
  /-- HTTP thread: `try_take_response`. -/
  | take
  /-- Execution thread: `process_one` up to and with its next queue operation. -/
  | process (env : GatewayEnv) (outbound : OutboundPacket)
  /-- Execution thread: a use of the gateway between two calls of `process_one`. -/
  | call (call : GatewayCall)

inductive Output where
  | submitted (ok : Bool)
  | took (response : Option Response)
  | running
  | returned (progress : Bool)
  /-- `process_one` returned true after it handed the order to `try_build`. -/
  | built (intent : OrderIntent) (decision : RiskDecision) (packet : OutboundPacket) (accepted : AcceptedSubmission)
  | called (reply : GatewayReply)
  | busy

namespace Bridge

def init (gateway : ExecutionGateway) : Bridge where
  requests := .new (fun _ => {}) (by decide)
  responses := .new (fun _ => {}) (by decide)
  deferred := none
  phase := .idle
  gateway := gateway

def accepted (intent : OrderIntent) (decision : RiskDecision) : AcceptedSubmission :=
  if decision.pass then ⟨intent.clientOrderId.toUInt64, intent.qty, intent.symbolIdx, true⟩ else {}

def processOne (env : GatewayEnv) (outbound : OutboundPacket) (b : Bridge) : Output × Bridge :=
  match b.phase with
  | .idle =>
    match b.deferred with
    | none => (.running, { b with phase := .polling false })
    | some response =>
      match b.responses.tryPush response with
      | none => (.returned false, b)
      | some responses => (.running, { b with responses := responses, deferred := none, phase := .polling true })
  | .polling flushed =>
    match b.requests.tryPop with
    | none => (.returned flushed, { b with phase := .idle })
    | some (request, requests) =>
      if request.command = .kSubmit then
        let ((decision, packet), gateway) := b.gateway.tryBuild env request.order outbound
        (.built request.order decision packet (accepted request.order decision),
          { b with requests := requests, phase := .idle, gateway := gateway })
      else
        let (response, gateway) := answer env request b.gateway
        (.running, { b with requests := requests, phase := .replying response, gateway := gateway })
  | .replying response =>
    match b.responses.tryPush response with
    | none => (.returned true, { b with deferred := some response, phase := .idle })
    | some responses => (.returned true, { b with responses := responses, phase := .idle })

def step (action : Action) (b : Bridge) : Output × Bridge :=
  match action with
  | .submit request =>
    match b.requests.tryPush request with
    | none => (.submitted false, b)
    | some requests => (.submitted true, { b with requests := requests })
  | .take =>
    match b.responses.tryPop with
    | none => (.took none, b)
    | some (response, responses) => (.took (some response), { b with responses := responses })
  | .process env outbound => b.processOne env outbound
  | .call call =>
    match b.phase with
    | .idle =>
      let (reply, gateway) := b.gateway.step call
      (.called reply, { b with gateway := gateway })
    | _ => (.busy, b)

inductive Moves (b : Bridge) : Action → Output × Bridge → Prop
  | refused {request} (push : b.requests.tryPush request = none) : Moves b (.submit request) (.submitted false, b)
  | submitted {request requests} (push : b.requests.tryPush request = some requests) :
      Moves b (.submit request) (.submitted true, { b with requests := requests })
  | nothing (pop : b.responses.tryPop = none) : Moves b .take (.took none, b)
  | took {response responses} (pop : b.responses.tryPop = some (response, responses)) :
      Moves b .take (.took (some response), { b with responses := responses })
  | started {env outbound} (phase : b.phase = .idle) (empty : b.deferred = none) :
      Moves b (.process env outbound) (.running, { b with phase := .polling false })
  | blocked {env outbound response} (phase : b.phase = .idle) (full : b.deferred = some response)
      (push : b.responses.tryPush response = none) : Moves b (.process env outbound) (.returned false, b)
  | flushed {env outbound response responses} (phase : b.phase = .idle) (full : b.deferred = some response)
      (push : b.responses.tryPush response = some responses) :
      Moves b (.process env outbound)
        (.running, { b with responses := responses, deferred := none, phase := .polling true })
  | drained {env outbound flushed} (phase : b.phase = .polling flushed) (pop : b.requests.tryPop = none) :
      Moves b (.process env outbound) (.returned flushed, { b with phase := .idle })
  | built {env outbound flushed request requests decision packet gateway} (phase : b.phase = .polling flushed)
      (pop : b.requests.tryPop = some (request, requests)) (submits : request.command = .kSubmit)
      (calls : b.gateway.tryBuild env request.order outbound = ((decision, packet), gateway)) :
      Moves b (.process env outbound) (.built request.order decision packet (accepted request.order decision),
          { b with requests := requests, phase := .idle, gateway := gateway })
  | answered {env outbound flushed request requests response gateway} (phase : b.phase = .polling flushed)
      (pop : b.requests.tryPop = some (request, requests)) (asks : request.command ≠ .kSubmit)
      (answers : answer env request b.gateway = (response, gateway)) :
      Moves b (.process env outbound)
        (.running, { b with requests := requests, phase := .replying response, gateway := gateway })
  | spilled {env outbound response} (phase : b.phase = .replying response)
      (push : b.responses.tryPush response = none) :
      Moves b (.process env outbound) (.returned true, { b with deferred := some response, phase := .idle })
  | replied {env outbound response responses} (phase : b.phase = .replying response)
      (push : b.responses.tryPush response = some responses) :
      Moves b (.process env outbound) (.returned true, { b with responses := responses, phase := .idle })
  | called {call reply gateway} (phase : b.phase = .idle) (calls : b.gateway.step call = (reply, gateway)) :
      Moves b (.call call) (.called reply, { b with gateway := gateway })
  | busy {call} (phase : b.phase ≠ .idle) : Moves b (.call call) (.busy, b)

theorem processOne_moves (env : GatewayEnv) (outbound : OutboundPacket) (b : Bridge) :
    Moves b (.process env outbound) (b.processOne env outbound) := by
  unfold processOne
  cases hPhase : b.phase with
  | idle =>
    cases hDeferred : b.deferred with
    | none =>
      have hMoves : Moves b (.process env outbound) _ := .started hPhase hDeferred
      simpa only [hDeferred] using hMoves
    | some response =>
      cases hPush : b.responses.tryPush response with
      | none => simpa only [hPush] using .blocked hPhase hDeferred hPush
      | some responses => simpa only [hPush] using .flushed hPhase hDeferred hPush
  | polling flushed =>
    cases hPop : b.requests.tryPop with
    | none => simpa only [hPop] using .drained hPhase hPop
    | some popped =>
      obtain ⟨request, _⟩ := popped
      by_cases hSubmit : request.command = .kSubmit
      · simpa only [if_pos hSubmit] using .built hPhase hPop hSubmit rfl
      · simpa only [if_neg hSubmit] using .answered hPhase hPop hSubmit rfl
  | replying response =>
    cases hPush : b.responses.tryPush response with
    | none => simpa only [hPush] using .spilled hPhase hPush
    | some responses => simpa only [hPush] using .replied hPhase hPush

theorem step_moves (action : Action) (b : Bridge) : Moves b action (step action b) := by
  cases action with
  | submit request =>
    unfold step
    cases hPush : b.requests.tryPush request with
    | none => simpa only [hPush] using .refused hPush
    | some requests => simpa only [hPush] using .submitted hPush
  | take =>
    unfold step
    cases hPop : b.responses.tryPop with
    | none => simpa only [hPop] using .nothing hPop
    | some popped => simpa only [hPop] using .took hPop
  | process env outbound => exact processOne_moves env _ b
  | call call =>
    unfold step
    cases hPhase : b.phase with
    | idle =>
      have hMoves : Moves b (.call call) _ := .called hPhase (Prod.mk.eta (p := b.gateway.step call)).symm
      simpa only [hPhase] using hMoves
    | polling | replying => exact .busy (by simp [hPhase])

end Bridge

end Http

end LuvFlicker
