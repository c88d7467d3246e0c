import LuvFlicker.Engine.Loop
import LuvFlicker.Execution.FailedOperations

/-!
# Client order ids

The two sources of orders count their ids on their own, both from 1. While only
one of them is switched on, the ids handed to `try_build` are distinct and none
is registered already; with both on, the first orders of the two collide.
-/

namespace LuvFlicker

open Http Run Spsc List Channel ReconciliationLedger ExecutionGateway

def submittedIds (requests : List Request) : List UInt32 :=
  (requests.filter fun request => !request.asks).map fun request => request.order.clientOrderId

theorem submittedIds_append (before rest : List Request) :
    submittedIds (before ++ rest) = submittedIds before ++ submittedIds rest := by
  rw [submittedIds, filter_append, map_append, submittedIds, submittedIds]

variable {request : Request}

theorem submittedIds_ask (h : request.asks = true) (rest : List Request) :
    submittedIds (request :: rest) = submittedIds rest := by
  simp [submittedIds, h]

theorem submittedIds_submit (h : request.command = .kSubmit) (rest : List Request) :
    submittedIds (request :: rest) = request.order.clientOrderId :: submittedIds rest := by
  simp [submittedIds, Request.asks, h]

def EngineOutput.handed : EngineOutput → Option OrderIntent
  | .bridge (.built intent _ _ _) => some intent
  | .built intent _ => some intent
  | _ => none

structure Handed where
  id : UInt32
  /-- The id was registered when the order was handed over. -/
  registered : Bool
  deriving DecidableEq, Repr

structure NoCollision (handed : List Handed) : Prop where
  distinct : (handed.map Handed.id).Nodup
  unregistered : ∀ order ∈ handed, order.registered = false

namespace Engine

def record (_ : EngineAction) (e : Engine) (output : EngineOutput) (handed : List Handed) : List Handed :=
  match output.handed with
  | none => handed
  | some intent => handed ++ [⟨intent.clientOrderId, e.gateway.reconciliation.contains intent.clientOrderId.toUInt64⟩]

/-- Neither counter is exhausted. -/
def Counting (_ : EngineAction) (e : Engine) : Prop := e.nextOrderId ≠ 0 ∧ e.clientOrderId ≠ 0

def queued (e : Engine) : List UInt32 := submittedIds e.bridge.requests.ring.contents

/-! ## What a step does to the ids -/

inductive Shift (config : RunConfig) (e : Engine) : Option OrderIntent → Engine → Prop
  | quiet {e'} (nextOrderId : e'.nextOrderId = e.nextOrderId) (clientOrderId : e'.clientOrderId = e.clientOrderId)
      (queued : e'.queued = e.queued)
      (gateway : e'.gateway = e.gateway ∨
        ∃ call, (∀ intent packet, call.op ≠ .tryBuild intent packet) ∧ e'.gateway = (e.gateway.step call).2) :
      Shift config e none e'
  | posted {e'} (http : config.httpPort ≠ 0) (nextOrderId : e'.nextOrderId = (takeOrderId e.nextOrderId).2)
      (clientOrderId : e'.clientOrderId = e.clientOrderId)
      (queued : e'.queued = e.queued ∨ e'.queued = e.queued ++ [e.nextOrderId]) (gateway : e'.gateway = e.gateway) :
      Shift config e none e'
  | popped {e' intent packet env} (nextOrderId : e'.nextOrderId = e.nextOrderId)
      (clientOrderId : e'.clientOrderId = e.clientOrderId) (queued : e.queued = intent.clientOrderId :: e'.queued)
      (gateway : e'.gateway = (e.gateway.step ⟨.tryBuild intent packet, env⟩).2) : Shift config e (some intent) e'
  | traded {e' intent packet env} (model : config.modelPath ≠ none) (id : intent.clientOrderId = e.clientOrderId)
      (nextOrderId : e'.nextOrderId = e.nextOrderId) (clientOrderId : e'.clientOrderId = e.clientOrderId + 1)
      (queued : e'.queued = e.queued)
      (gateway : e'.gateway = (e.gateway.step ⟨.tryBuild intent packet, env⟩).2) : Shift config e (some intent) e'

variable {config : RunConfig}

theorem post_shift (hHttp : config.httpPort ≠ 0) (order : OrderIntent) (e : Engine) :
    Shift config e (e.post order).1.handed (e.post order).2 := by
  unfold post takeOrderId
  by_cases hZero : e.nextOrderId = 0
  · simp only [if_pos hZero, if_true]
    exact .posted hHttp (by rw [takeOrderId, if_pos hZero]) rfl (.inl rfl) rfl
  simp only [if_neg hZero]
  cases hPush : e.bridge.requests.tryPush { order := { order with clientOrderId := e.nextOrderId } } with
  | none => exact .posted hHttp (by rw [takeOrderId, if_neg hZero]) rfl (.inl rfl) rfl
  | some requests =>
    refine .posted hHttp (by rw [takeOrderId, if_neg hZero]) rfl (.inr ?_) rfl
    rw [queued, (contents_push hPush).2, submittedIds_append]
    rfl

theorem answer_gateway (env : GatewayEnv) (request : Request) (g : ExecutionGateway) : (answer env request g).2 = g ∨
      ∃ call : GatewayCall, (∀ intent packet, call.op ≠ .tryBuild intent packet) ∧
        (answer env request g).2 = (g.step call).2 := by
  unfold answer
  cases request.command with
  | kSubmit | kQuery | kPositions => exact .inl rfl
  | kCancel => exact .inr ⟨⟨.cancelOrder _, env⟩, by simp, rfl⟩

theorem onBridge_shift {action : Action} (e : Engine)
    (hSubmit : ∀ request, action = .submit request → request.asks = true)
    (hCall : ∀ call, action = .call call → ∀ intent packet, call.op ≠ .tryBuild intent packet) :
    Shift config e (e.onBridge action).1.handed (e.onBridge action).2 := by
  have hMoves := Bridge.step_moves action e.bridge
  unfold onBridge
  generalize e.bridge.step action = result at hMoves
  cases hMoves with
  | submitted push =>
    refine .quiet rfl rfl ?_ (.inl rfl)
    rw [queued, (contents_push push).2, submittedIds_append, submittedIds_ask (hSubmit _ rfl)]
    exact append_nil _
  | @built env outbound _ request requests decision packet gateway _ pop submits calls =>
    have hQueued : e.queued = request.order.clientOrderId :: submittedIds requests.ring.contents := by
      rw [queued, (contents_pop pop).2, submittedIds_submit submits]
    have hGateway : gateway = (e.gateway.step ⟨.tryBuild request.order outbound, env⟩).2 := by
      simp [Engine.gateway, ExecutionGateway.step, calls]
    exact .popped rfl rfl hQueued hGateway
  | @answered env _ _ request _ _ _ _ pop asks answers =>
    have hGateway := answer_gateway env request e.bridge.gateway
    rw [answers] at hGateway
    refine .quiet rfl rfl ?_ hGateway
    rw [queued, queued, (contents_pop pop).2, submittedIds_ask (by simpa [Request.asks] using asks)]
  | called phase calls => exact .quiet rfl rfl rfl (.inr ⟨_, hCall _ rfl, by rw [gateway, gateway, calls]⟩)
  | _ => exact .quiet rfl rfl rfl (.inl rfl)

section

variable (config : RunConfig)

theorem step_shift (action : EngineAction) (e : Engine) :
    Shift config e (step config action e).1.handed (step config action e).2 := by
  have hIdle : Shift config e (EngineOutput.idle).handed e := .quiet rfl rfl rfl (.inl rfl)
  cases action with
  | post order =>
    rw [step]
    split_ifs with hHttp
    · exact hIdle
    · exact post_shift hHttp _ e
  | ask request asks =>
    rw [step]
    split_ifs
    · exact hIdle
    · exact onBridge_shift e (by rintro _ ⟨⟩; exact asks) (by simp)
  | take | process => exact onBridge_shift e (by simp) (by simp)
  | tick signal env =>
    rw [step]
    split_ifs with hNone
    · exact hIdle
    · exact .traded (fun hModel => hNone (.inr (.inl hModel))) rfl rfl rfl rfl rfl
  | fill | reject => exact onBridge_shift e (by simp) (by rintro _ ⟨⟩; simp)

/-! ## Runs with one source -/

def counter (e : Engine) : UInt32 :=
  if config.httpPort ≠ 0 then e.nextOrderId else e.clientOrderId

def used (e : Engine) (handed : List Handed) : List UInt32 := handed.map Handed.id ++ e.queued

structure Separate (e : Engine) (handed : List Handed) : Prop where
  nodup : (e.used handed).Nodup
  below : counter config e ≠ 0 → ∀ id ∈ e.used handed, id.toNat < (counter config e).toNat
  unique : e.gateway.reconciliation.Unique
  stored : ∀ id, e.gateway.reconciliation.Stores id → ∃ order ∈ handed, id = order.id.toUInt64
  unregistered : ∀ order ∈ handed, order.registered = false

theorem separate_init {rateLimit : Nat} {limits : Nat → ValidLimits} {breaker : CircuitBreaker}
    {recovery : Option RecoveryLedger} : Separate config (init (.init rateLimit limits breaker recovery)) [] where
  nodup := by simp [used, queued, init, Bridge.init, new, submittedIds]
  below _ := by simp [used, queued, init, Bridge.init, new, submittedIds]
  unique := unique_init
  stored _ hStores := absurd hStores.choose_spec not_holds_init
  unregistered := by simp

end

theorem toNat_succ {c : UInt32} (h : c + 1 ≠ 0) : (c + 1).toNat = c.toNat + 1 := by
  have hLt := c.toNat_lt
  have hNe : (c + 1).toNat ≠ 0 := fun hZero => h (UInt32.toNat_inj.mp hZero)
  change (c.toNat + 1) % 2 ^ 32 ≠ 0 at hNe
  change (c.toNat + 1) % 2 ^ 32 = _
  omega

theorem toNat_takeOrderId {c : UInt32} (hc : c ≠ 0) (h : (takeOrderId c).2 ≠ 0) :
    (takeOrderId c).2.toNat = c.toNat + 1 := by
  rw [takeOrderId, if_neg hc] at h ⊢
  by_cases hLast : c = 0xFFFFFFFF
  · exact absurd (if_pos hLast) h
  · simp only [if_neg hLast] at h ⊢
    exact toNat_succ h

namespace Separate

variable {config : RunConfig} {e : Engine} {handed : List Handed} (h : Separate config e handed)

include h

theorem not_stores {id : UInt32} (hId : id ∉ handed.map Handed.id) : ¬ e.gateway.reconciliation.Stores id.toUInt64 := by
  intro hStores
  obtain ⟨_, hOrder, hEq⟩ := h.stored _ hStores
  rw [UInt32.toUInt64_inj] at hEq
  exact hId (mem_map.mpr ⟨_, hOrder, hEq.symm⟩)

theorem build {intent : OrderIntent} (hId : intent.clientOrderId ∉ handed.map Handed.id)
    {packet : OutboundPacket} {env : GatewayEnv} {g : ExecutionGateway}
    (hGateway : g = (e.gateway.step ⟨.tryBuild intent packet, env⟩).2) :
    e.gateway.reconciliation.contains intent.clientOrderId.toUInt64 = false ∧ g.reconciliation.Unique ∧
      ∀ registered id, g.reconciliation.Stores id →
        ∃ order ∈ handed ++ [⟨intent.clientOrderId, registered⟩], id = order.id.toUInt64 := by
  have hNew := h.not_stores hId
  have hLost : ExecutionGateway.NoLostId ⟨.tryBuild intent packet, env⟩ e.gateway := fun hLost => hNew hLost.1
  refine ⟨?_, by rw [hGateway]; exact unique_step hLost h.unique, fun registered id hStores => ?_⟩
  · rw [Bool.eq_false_iff]
    intro hContains
    obtain ⟨hZero, _, hFind⟩ := contains_iff.mp hContains
    exact hNew ⟨_, holds_of_find hZero hFind⟩
  · rw [hGateway] at hStores
    obtain hOld | ⟨intent', packet', hOp, rfl⟩ := stores_step hLost h.unique hStores
    · obtain ⟨order, hOrder, hEq⟩ := h.stored id hOld
      exact ⟨_, mem_append_left _ hOrder, hEq⟩
    · obtain ⟨rfl, _⟩ := GatewayOp.tryBuild.inj hOp
      exact ⟨_, mem_append_right _ mem_cons_self, rfl⟩

theorem unregistered_snoc {id : UInt32} {registered : Bool} (hNew : registered = false) :
    ∀ order ∈ handed ++ [⟨id, registered⟩], order.registered = false := by
  intro order hOrder
  obtain hOld | hLast := mem_append.mp hOrder
  · exact h.unregistered _ hOld
  · rw [mem_singleton.mp hLast]
    exact hNew

theorem keep {e' : Engine} (hNodup : (e'.used handed).Nodup)
    (hBelow : counter config e' ≠ 0 → ∀ id ∈ e'.used handed, id.toNat < (counter config e').toNat)
    (hGateway : e'.gateway = e.gateway ∨
      ∃ call, (∀ intent packet, call.op ≠ .tryBuild intent packet) ∧ e'.gateway = (e.gateway.step call).2) :
    Separate config e' handed := by
  obtain hSame | ⟨call, hOp, hCall⟩ := hGateway
  · exact ⟨hNodup, hBelow, by rw [hSame]; exact h.unique, by rw [hSame]; exact h.stored, h.unregistered⟩
  have hLost : ExecutionGateway.NoLostId call e.gateway := by
    rw [ExecutionGateway.NoLostId]
    split
    · exact absurd ‹_› (hOp _ _)
    · trivial
  refine ⟨hNodup, hBelow, by rw [hCall]; exact unique_step hLost h.unique, fun id hStores => ?_, h.unregistered⟩
  rw [hCall] at hStores
  obtain hOld | ⟨intent, packet, hBuild, _⟩ := stores_step hLost h.unique hStores
  · exact h.stored id hOld
  · exact absurd hBuild (hOp _ _)

theorem step (hOne : ¬ (config.modelPath ≠ none ∧ config.httpPort ≠ 0))
    (action : EngineAction) (hCounting : Counting action e) :
    Separate config (Engine.step config action e).2 (record action e (Engine.step config action e).1 handed) := by
  have hShift := step_shift config action e
  rw [record]
  generalize (Engine.step config action e).1.handed = order at hShift ⊢
  generalize (Engine.step config action e).2 = e' at hShift ⊢
  cases hShift with
  | quiet nextOrderId clientOrderId queued gateway =>
    have hUsed : e'.used handed = e.used handed := by rw [used, queued, used]
    have hCounter : counter config e' = counter config e := by rw [counter, nextOrderId, clientOrderId, counter]
    exact h.keep (by rw [hUsed]; exact h.nodup) (by rw [hUsed, hCounter]; exact h.below) gateway
  | posted http nextOrderId clientOrderId queued gateway =>
    have hOld : counter config e = e.nextOrderId := if_pos http
    have hNew : counter config e' = (takeOrderId e.nextOrderId).2 := (if_pos http).trans nextOrderId
    have hBelow := h.below (hOld ▸ hCounting.1)
    rw [hOld] at hBelow
    have hFresh : e.nextOrderId ∉ e.used handed := fun hMem => lt_irrefl _ (hBelow _ hMem)
    obtain ⟨hNodup, hMem⟩ : (e'.used handed).Nodup ∧ ∀ id ∈ e'.used handed, id ∈ e.used handed ∨ id = e.nextOrderId := by
      rcases queued with hFull | hPushed
      · rw [used, hFull]
        exact ⟨h.nodup, fun _ hId => .inl hId⟩
      · rw [used, hPushed, ← append_assoc]
        exact ⟨List.Nodup.append h.nodup (nodup_singleton _) (disjoint_singleton.mpr hFresh),
          fun _ hId => (mem_append.mp hId).imp_right mem_singleton.mp⟩
    refine h.keep hNodup (fun hCounter id hId => ?_) (.inl gateway)
    rw [hNew] at hCounter ⊢
    rw [toNat_takeOrderId hCounting.1 hCounter]
    rcases hMem id hId with hOldId | rfl
    · exact Nat.lt_succ_of_lt (hBelow id hOldId)
    · exact Nat.lt_succ_self _
  | @popped _ intent packet env nextOrderId clientOrderId queued gateway =>
    -- the id moves from the queue to the orders handed over
    have hUsed : ∀ registered, e'.used (handed ++ [⟨intent.clientOrderId, registered⟩]) = e.used handed := by
      intro registered
      rw [used, used, queued, map_append, append_assoc]
      rfl
    have hCounter : counter config e' = counter config e := by rw [counter, nextOrderId, clientOrderId, counter]
    have hId : intent.clientOrderId ∉ handed.map Handed.id := by
      have hNodup := h.nodup
      rw [used, queued] at hNodup
      exact fun hMem => (nodup_append.mp hNodup).2.2 _ hMem _ mem_cons_self rfl
    obtain ⟨hContains, hUnique, hStored⟩ := h.build hId gateway
    exact ⟨by rw [hUsed]; exact h.nodup, by rw [hUsed, hCounter]; exact h.below, hUnique, hStored _,
      h.unregistered_snoc hContains⟩
  | @traded _ intent packet env model id nextOrderId clientOrderId queued gateway =>
    have hHttp : ¬ config.httpPort ≠ 0 := fun hHttp => hOne ⟨model, hHttp⟩
    have hOld : counter config e = e.clientOrderId := if_neg hHttp
    have hNew : counter config e' = e.clientOrderId + 1 := (if_neg hHttp).trans clientOrderId
    have hBelow := h.below (hOld ▸ hCounting.2)
    rw [hOld] at hBelow
    have hFresh : e.clientOrderId ∉ e.used handed := fun hMem => lt_irrefl _ (hBelow _ hMem)
    have hUsed : ∀ registered, e'.used (handed ++ [⟨intent.clientOrderId, registered⟩]) =
        handed.map Handed.id ++ e.clientOrderId :: e.queued := by
      intro registered
      rw [used, queued, map_append, append_assoc, map_singleton, id, singleton_append]
    obtain ⟨hContains, hUnique, hStored⟩ := h.build (fun hMem => hFresh (mem_append_left _ (id ▸ hMem))) gateway
    refine ⟨?_, fun hCounter x hx => ?_, hUnique, hStored _, h.unregistered_snoc hContains⟩
    · rw [hUsed, nodup_middle]
      exact nodup_cons.mpr ⟨hFresh, h.nodup⟩
    rw [hUsed, perm_middle.mem_iff] at hx
    rw [hNew] at hCounter ⊢
    rw [toNat_succ hCounter]
    obtain rfl | hOldId := mem_cons.mp hx
    · exact Nat.lt_succ_self _
    · exact Nat.lt_succ_of_lt (hBelow x hOldId)

end Separate

/-! ## Both sources -/

def bothSources (signal : Signal) (order : OrderIntent) : List EngineAction :=
  [.tick signal {}, .post order, .process {}, .process {}]

theorem post_afterTrade (signal : Signal) (order : OrderIntent) (g : ExecutionGateway) :
    ∃ e requests, ((init g).trade signal {}).2.post order = (.accepted 1, e) ∧ e.nextOrderId = 2 ∧
      e.clientOrderId = 2 ∧ e.bridge.phase = .idle ∧ e.bridge.deferred = none ∧
      e.bridge.requests.tryPop = some ({ order := { order with clientOrderId := 1 } }, requests) := by
  have hEmpty : (init g).bridge.requests.ring.contents = [] := Ring.contents_new _ _
  have hRoom : ((init g).trade signal {}).2.bridge.requests.isFull = false := by
    rw [isFull, Bool.eq_false_iff, Ne, Ring.isFull_iff]
    exact fun hFull => absurd (hEmpty ▸ hFull) (by decide)
  obtain ⟨requests, hPush, _, hContents⟩ := tryPush_of_room hRoom _
  have hContents' : requests.ring.contents = [{ order := { order with clientOrderId := 1 } }] := by
    rw [hContents]
    exact congrArg (· ++ _) hEmpty
  cases hPop : requests.tryPop with
  | none =>
    rw [(tryPop_eq_none_iff _).mp hPop] at hContents'
    cases hContents'
  | some popped =>
    obtain ⟨_, _⟩ := popped
    obtain ⟨rfl, _⟩ := List.cons.inj ((contents_pop hPop).2.symm.trans hContents')
    have hNext : takeOrderId ((init g).trade signal {}).2.nextOrderId = (1, 2) := show takeOrderId 1 = (1, 2) by decide
    refine ⟨{ ((init g).trade signal {}).2 with
      bridge := { ((init g).trade signal {}).2.bridge with requests := requests }, nextOrderId := 2 }, _, ?_,
      rfl, rfl, rfl, rfl, hPop⟩
    unfold post
    simp [hNext, hPush]

theorem process_submission {e : Engine} (hPhase : e.bridge.phase = .idle) (hDeferred : e.bridge.deferred = none)
    {requests : Channel Request 8} (hPop : e.bridge.requests.tryPop = some (request, requests))
    (hSubmit : request.command = .kSubmit) :
    ∃ e', e.onBridge (.process {} {}) = (.bridge .running, e') ∧ e'.nextOrderId = e.nextOrderId ∧
      e'.clientOrderId = e.clientOrderId ∧ (e'.onBridge (.process {} {})).1.handed = some request.order := by
  refine ⟨{ e with bridge := { e.bridge with phase := .polling false } }, ?_, rfl, rfl, ?_⟩
  · simp [onBridge, Bridge.step, Bridge.processOne, hPhase, hDeferred]
  · simp [onBridge, Bridge.step, Bridge.processOne, hPop, if_pos hSubmit, EngineOutput.handed]

theorem history_bothSources (hModel : config.modelPath ≠ none) (hHttp : config.httpPort ≠ 0)
    (signal : Signal) (hDirection : signal.direction ≠ 0) (hPrice : ¬ signal.price ≤ 0) (order : OrderIntent)
    (g : ExecutionGateway) :
    (history (step config) record (bothSources signal order) (init g) []).map Handed.id = [1, 1] ∧
      Always (step config) Counting (bothSources signal order) (init g) := by
  have hTick : step config (.tick signal {}) (init g) = (init g).trade signal {} := by
    refine if_neg ?_
    rintro (hBusy | hNone | hFlat | hFree)
    exacts [hBusy rfl, hModel hNone, hDirection hFlat, hPrice hFree]
  have hPost : ∀ e, step config (.post order) e = e.post order := fun e => if_neg hHttp
  have hProcess : ∀ e, step config (.process {}) e = e.onBridge (.process {} {}) := fun e => rfl
  obtain ⟨e, _, hPosted, hNext, hClient, hPhase, hDeferred, hPop⟩ := post_afterTrade signal order g
  obtain ⟨_, hFirst, hNext', hClient', hSecond⟩ := process_submission hPhase hDeferred hPop rfl
  have hOne : (1 : UInt32) ≠ 0 := by decide
  have hTwo : (2 : UInt32) ≠ 0 := by decide
  constructor
  · simp only [bothSources, history, hTick, hPost, hProcess, hPosted, hFirst, record, hSecond]
    rfl
  · simp only [bothSources, Always, hTick, hPost, hProcess, hPosted, hFirst, Counting, hNext', hClient', hNext, hClient]
    exact ⟨⟨hOne, hOne⟩, ⟨hOne, hTwo⟩, ⟨hTwo, hTwo⟩, ⟨hTwo, hTwo⟩, trivial⟩

/-- The ids handed to `try_build` are distinct in every run, and none is registered already, exactly when at most one of
the two sources is switched on. -/
theorem noCollision_iff (config : RunConfig) (rateLimit : Nat) (limits : Nat → ValidLimits) (breaker : CircuitBreaker)
    (recovery : Option RecoveryLedger) :
    (∀ actions, Always (step config) Counting actions (init (.init rateLimit limits breaker recovery)) →
      NoCollision (history (step config) record actions (init (.init rateLimit limits breaker recovery)) [])) ↔
    ¬ (config.modelPath ≠ none ∧ config.httpPort ≠ 0) := by
  constructor
  · rintro h ⟨hModel, hHttp⟩
    obtain ⟨hIds, hCounting⟩ := history_bothSources hModel hHttp ⟨0, 1, 100, 0, 0⟩ (by decide) (by decide) {} _
    have hDistinct := (h _ hCounting).distinct
    rw [hIds] at hDistinct
    exact absurd hDistinct (by decide)
  · intro hOne actions hRun
    have hSeparate := hRun.invariant_history _ (fun _ e _ hCounting h => h.step hOne _ hCounting)
      (separate_init _)
    exact ⟨(nodup_append.mp hSeparate.nodup).1, hSeparate.unregistered⟩

def engineGateway : ExecutionGateway :=
  .init 10000 (fun _ => ⟨{ maxOrderQty := 1000, maxAbsPosition := 100000, maxAlphaAgeNs := 1000000000 }, by decide⟩) {} none

/-- With a model and the HTTP server, the order over HTTP meets the strategy's order under id 1 and trips the breaker. -/
theorem bothSources_collide :
    history (step ⟨8080, some "model"⟩) record (bothSources ⟨0, 1, 100, 5000, 5000⟩ { qty := 1, price := 100 })
      (init engineGateway) [] = [⟨1, false⟩, ⟨1, true⟩] ∧
    (final (step ⟨8080, some "model"⟩) (bothSources ⟨0, 1, 100, 5000, 5000⟩ { qty := 1, price := 100 })
      (init engineGateway)).gateway.breaker.state = .kOpen ∧
    ¬ NoCollision [⟨1, false⟩, ⟨1, true⟩] :=
  ⟨by decide +kernel, by decide +kernel, fun h => absurd h.distinct (by decide)⟩

end Engine

end LuvFlicker
