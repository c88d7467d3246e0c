import LuvFlicker.Execution.Balance
import LuvFlicker.Execution.Moves

/-!
# The accounting invariant

The history of a run lists the ids that were accepted and adds up the fills that
were applied. As long as no id is accepted twice and no submission carries a lost
id, the counters of the gateway are what the live orders and the history say.
-/

namespace LuvFlicker

open Exec Scan Run Tally Function Config Account ReconciliationLedger List

/-- What the replies of a run say about accepted orders and applied fills. -/
structure History where
  accepted : List UInt64 := []
  filledQty : Nat → Int := fun _ => 0
  filledValue : Nat → Int := fun _ => 0

namespace History

def addFill (h : History) (symbol : Nat) (order : ActiveOrder) (qty : Int) : History where
  accepted := h.accepted
  filledQty := update h.filledQty symbol (h.filledQty symbol + signedQtyDelta order.side qty)
  filledValue := update h.filledValue symbol (h.filledValue symbol + order.price * qty)

theorem addFill_of_ne (h : History) {symbol : Nat} {order : ActiveOrder} {qty : Int} (s : Nat) (hne : s ≠ symbol) :
    (h.addFill symbol order qty).filledQty s = h.filledQty s ∧
      (h.addFill symbol order qty).filledValue s = h.filledValue s :=
  ⟨update_of_ne hne .., update_of_ne hne ..⟩

def record (call : GatewayCall) (g : ExecutionGateway) (reply : GatewayReply) (h : History) : History :=
  match reply.acceptedId call, reply.appliedFill call with
  | some id, _ => { h with accepted := id :: h.accepted }
  | none, none => h
  | none, some (symbol, report) =>
    match (g.states symbol).findOrder report.orderId with
    | none => h
    | some slot => h.addFill symbol ((g.states symbol).orders slot) report.filledQuantity

variable {call : GatewayCall} {g : ExecutionGateway} {reply : GatewayReply} {h : History}

theorem record_quiet (hQuiet : ExecutionGateway.Quiet call reply) : h.record call g reply = h := by
  rw [record, hQuiet.accepted, hQuiet.filled]

theorem record_accepted {id : UInt64} (hAccepted : reply.acceptedId call = some id) :
    h.record call g reply = { h with accepted := id :: h.accepted } := by
  rw [record, hAccepted]

variable {symbol slot : Nat}

theorem record_filled {report : ExecutionReport} (hAccepted : reply.acceptedId call = none)
    (hFilled : reply.appliedFill call = some (symbol, report)) (hMatches : g.Matches symbol report slot) :
    h.record call g reply = h.addFill symbol ((g.accounts symbol).orders slot) report.filledQuantity := by
  rw [record, hAccepted, hFilled]
  dsimp only
  rw [hMatches.found]
  rfl

theorem accepted_suffix_record : h.accepted <:+ (h.record call g reply).accepted := by
  rw [record]
  split
  · exact suffix_cons ..
  · exact suffix_rfl
  · split <;> exact suffix_rfl

end History

open History

namespace ExecutionGateway

structure Booked (g : ExecutionGateway) (h : History) : Prop where
  sound : g.Sound
  balanced : ∀ symbol, (g.accounts symbol).Balanced (h.filledQty symbol) (h.filledValue symbol)
  pending : (g.rateLimiter.pending : Int) = total kSymbols (fun a : Account => (a.count : Int)) g.accounts
  order_ids : ∀ symbol i, ((g.accounts symbol).orders i).orderId ≠ 0 →
    ((g.accounts symbol).orders i).orderId ∈ h.accepted
  stored_ids : ∀ id, g.reconciliation.Stores id → id ∈ h.accepted
  done_ids : ∀ symbol i, ((g.accounts symbol).orders i).state = .done →
    ¬ g.reconciliation.Stores ((g.accounts symbol).orders i).orderId

theorem booked_init {rateLimit : Nat} {limits : Nat → ValidLimits} {breaker : CircuitBreaker}
    {recovery : Option RecoveryLedger} : (init rateLimit limits breaker recovery).Booked {} where
  sound := sound_init ..
  balanced _ := balanced_empty
  pending := (total_eq_zero fun _ => rfl).symm
  order_ids _ _ hId := absurd rfl hId
  stored_ids _ := fun ⟨_, hHolds⟩ => absurd hHolds not_holds_init
  done_ids _ _ hDone := by cases hDone

namespace Booked

variable {call : GatewayCall} {g : ExecutionGateway} {h : History}

theorem noTerminalFill (hBooked : g.Booked h) (call : GatewayCall) : NoTerminalFill call g := by
  unfold NoTerminalFill
  split
  · intro _ hMatches hDone
    obtain ⟨_, hId, _⟩ := hMatches.order
    obtain ⟨hne, _, hFind⟩ := contains_iff.mp hMatches.contains
    refine hBooked.done_ids _ _ hDone ?_
    rw [hId]
    exact ⟨_, holds_of_find hne hFind⟩
  · trivial

theorem count_le_pending (hBooked : g.Booked h) {symbol : Nat} (hSymbol : symbol < kSymbols) :
    (g.accounts symbol).count ≤ g.rateLimiter.pending := by
  have hLe : ((g.accounts symbol).count : Int) ≤ total kSymbols (fun a : Account => (a.count : Int)) g.accounts :=
    le_total (fun _ _ => Int.natCast_nonneg _) hSymbol
  have hPending := hBooked.pending
  omega

section Write

variable (hBooked : g.Booked h) {g' : ExecutionGateway} {h' : History} (hSound : g'.Sound) {symbol slot : Nat}
  {account : Account} {order : ActiveOrder} (hSymbol : symbol < kSymbols)
  (hAccounts : g'.accounts = update g.accounts symbol account)
  (hOrders : account.orders = update (g.accounts symbol).orders slot order)
  (hBalanced : account.Balanced (h'.filledQty symbol) (h'.filledValue symbol))
  (hFills : ∀ s ≠ symbol, h'.filledQty s = h.filledQty s ∧ h'.filledValue s = h.filledValue s)
  (hPending : (g'.rateLimiter.pending : Int) = g.rateLimiter.pending - (g.accounts symbol).count + account.count)
include hBooked hSound hSymbol hAccounts hOrders hBalanced hFills hPending

theorem write (hAccepted : h.accepted <:+ h'.accepted) (hOrder : order.orderId ≠ 0 → order.orderId ∈ h'.accepted)
    (hStored : ∀ id, g'.reconciliation.Stores id → id ∈ h'.accepted)
    (hNewDone : order.state = .done → ¬ g'.reconciliation.Stores order.orderId)
    (hOldDone : ∀ s i, ((g.accounts s).orders i).state = .done →
      ¬ g'.reconciliation.Stores ((g.accounts s).orders i).orderId) : g'.Booked h' := by
  have hSlots := orders_update (f := g.accounts) hOrders
  rw [← hAccounts] at hSlots
  refine ⟨hSound, fun s => ?_, ?_, fun s i hId => ?_, hStored, fun s i hDone => ?_⟩
  · rw [hAccounts]
    rcases eq_or_ne s symbol with rfl | hne
    · rw [update_self]
      exact hBalanced
    · rw [update_of_ne hne, (hFills s hne).1, (hFills s hne).2]
      exact hBooked.balanced s
  · rw [hAccounts, total_update hSymbol, ← hBooked.pending, hPending]
  · rcases hSlots s i with ⟨_, hNew⟩ | ⟨_, hOld⟩
    · rw [hNew] at hId ⊢
      exact hOrder hId
    · rw [hOld] at hId ⊢
      exact hAccepted.subset (hBooked.order_ids s i hId)
  · rcases hSlots s i with ⟨_, hNew⟩ | ⟨_, hOld⟩
    · rw [hNew] at hDone ⊢
      exact hNewDone hDone
    · rw [hOld] at hDone ⊢
      exact hOldDone s i hDone

theorem rewrite (hAccepted : h'.accepted = h.accepted)
    (hOrder : order.orderId = 0 ∨ order.orderId = ((g.accounts symbol).orders slot).orderId)
    (hSub : ∀ id, g'.reconciliation.Stores id → g.reconciliation.Stores id)
    (hDone : order.state = .done → ¬ g'.reconciliation.Stores order.orderId) : g'.Booked h' := by
  refine hBooked.write hSound hSymbol hAccounts hOrders hBalanced hFills hPending (by rw [hAccepted]) ?_ ?_ hDone ?_
  · intro hId
    rw [hAccepted]
    rcases hOrder with hZero | hSame
    · exact absurd hZero hId
    · rw [hSame] at hId ⊢
      exact hBooked.order_ids _ slot hId
  · intro id hStores
    rw [hAccepted]
    exact hBooked.stored_ids id (hSub id hStores)
  · exact fun s i hOld hStores => hBooked.done_ids s i hOld (hSub _ hStores)

end Write

theorem pending_release (hBooked : g.Booked h) (hSymbol : symbol < kSymbols)
    (hSlot : slot < kMaxActiveOrders) (hLive : ((g.accounts symbol).orders slot).isLive = true) :
    (g.rateLimiter.release.pending : Int) =
      g.rateLimiter.pending - (g.accounts symbol).count + ((g.accounts symbol).count - 1 : Nat) := by
  have hPos := (hBooked.balanced _).count_pos hSlot hLive
  have hLe := hBooked.count_le_pending hSymbol
  rw [OrderRateLimiter.release_pending]
  omega

theorem step (hBooked : g.Booked h) (hLost : NoLostId call g)
    (hNodup : (h.record call g (ExecutionGateway.step call g).1).accepted.Nodup) :
    (ExecutionGateway.step call g).2.Booked (h.record call g (ExecutionGateway.step call g).1) := by
  have hTerminal := hBooked.noTerminalFill call
  have hSound := hBooked.sound.step hLost hTerminal
  have hMove := hBooked.sound.move hLost hTerminal
  generalize ExecutionGateway.step call g = result at hMove hSound hNodup
  cases hMove with
  | idle quiet accounts rateLimiter holds =>
    rw [record_quiet quiet]
    have hStores : ∀ id, _ ↔ g.reconciliation.Stores id := fun id => exists_congr (holds id)
    refine ⟨hSound, ?_, ?_, ?_, fun id hId => hBooked.stored_ids id ((hStores id).mp hId), ?_⟩
    · rw [accounts]
      exact hBooked.balanced
    · rw [accounts, rateLimiter]
      exact hBooked.pending
    · rw [accounts]
      exact hBooked.order_ids
    · rw [accounts]
      exact fun s i hDone hId => hBooked.done_ids s i hDone ((hStores _).mp hId)
  | cleared quiet symbol_lt free accounts rateLimiter holds =>
    rw [record_quiet quiet]
    refine hBooked.rewrite hSound symbol_lt accounts rfl ((hBooked.balanced _).clear free) (fun _ _ => ⟨rfl, rfl⟩) ?_ rfl
      (.inl rfl) (fun id => (exists_congr (holds id)).mp) (fun hDone => by cases hDone)
    rw [rateLimiter, setOrder_count]
    omega
  | admitted _ accepted _ admits fresh holds =>
    rw [record_accepted accepted] at hNodup ⊢
    obtain ⟨hSlot, hFree, _⟩ := SymbolExecState.findFree_spec admits.reserves.free
    refine hBooked.write hSound admits.reserves.symbol_lt admits.accounts rfl ((hBooked.balanced _).enter hSlot hFree _)
      (fun _ _ => ⟨rfl, rfl⟩) ?_ (suffix_cons ..) (fun _ => mem_cons_self) ?_ (fun hDone => by cases hDone) ?_
    · simp only [admits.rateLimiter, enter_count]
      omega
    · rintro id ⟨r, hHolds⟩
      rcases (holds id r).mp hHolds with ⟨rfl, _⟩ | hOld
      · exact mem_cons_self
      · exact mem_cons_of_mem _ (hBooked.stored_ids id ⟨r, hOld⟩)
    · rintro s i hDone ⟨r, hHolds⟩
      rcases (holds _ r).mp hHolds with ⟨hId, _⟩ | hOld
      · -- a terminal order of the id would make this its second acceptance
        have hMem := hBooked.order_ids s i hHolds.id_ne
        rw [hId] at hMem
        exact (nodup_cons.mp hNodup).1 hMem
      · exact hBooked.done_ids s i hDone ⟨r, hOld⟩
  | @filled _ g' symbol report slot _ accepted filled fills live holds =>
    obtain ⟨matched, _, accounts, rateLimiter, _, _⟩ := fills
    rw [record_filled accepted filled matched]
    obtain ⟨hSlot, hId, _⟩ := matched.order
    have hOpen := hBooked.sound.holds _ _ live
    rw [hId] at hOpen
    have hSub : ∀ id, g'.reconciliation.Stores id → g.reconciliation.Stores id := by
      rintro id ⟨r, hHolds⟩
      rcases (holds id r).mp hHolds with ⟨_, rfl, _⟩ | ⟨_, hOld⟩
      · exact ⟨_, hOpen⟩
      · exact ⟨r, hOld⟩
    split_ifs at accounts rateLimiter with hFinish
    · refine hBooked.rewrite hSound matched.symbol_lt accounts rfl ?_ h.addFill_of_ne ?_ rfl (.inr rfl) hSub ?_
      · simp only [addFill, update_self]
        exact (hBooked.balanced _).finish hSlot live _
      · rw [rateLimiter]
        exact hBooked.pending_release matched.symbol_lt hSlot live
      · rintro - ⟨r, hHolds⟩
        rcases (holds _ r).mp hHolds with ⟨hOpen, _⟩ | ⟨hne, _⟩
        · exact hOpen hFinish
        · exact hne hId
    · refine hBooked.rewrite hSound matched.symbol_lt accounts rfl ?_ h.addFill_of_ne ?_ rfl (.inr rfl) hSub ?_
      · simp only [addFill, update_self]
        exact (hBooked.balanced _).fill hSlot live _
      · rw [rateLimiter, fill, setOrder_count]
        omega
      · exact fun hDone => by cases hDone
  | dropped quiet drops sub =>
    rw [record_quiet quiet]
    obtain ⟨hSlot, _, live⟩ := drops.opened.order
    refine hBooked.rewrite hSound drops.opened.symbol_lt drops.accounts rfl ((hBooked.balanced _).drop hSlot live)
      (fun _ _ => ⟨rfl, rfl⟩) ?_ rfl (.inl rfl) (fun id => Exists.imp (sub id)) (fun hDone => by cases hDone)
    rw [drops.rateLimiter]
    exact hBooked.pending_release drops.opened.symbol_lt hSlot live
  | amended _ quiet replaced holds =>
    rw [record_quiet quiet]
    obtain ⟨hSlot, hId, live⟩ := replaced.amends.order
    refine hBooked.rewrite hSound replaced.amends.symbol_lt replaced.accounts rfl ((hBooked.balanced _).amend hSlot live _ _)
      (fun _ _ => ⟨rfl, rfl⟩) ?_ rfl (.inr rfl) ?_ ?_
    · rw [replaced.rateLimiter, amend_count]
      omega
    · rintro id ⟨r, hHolds⟩
      rcases (holds id r).mp hHolds with ⟨rfl, _⟩ | ⟨_, hOld⟩
      · rw [← hId]
        exact ⟨_, hBooked.sound.holds _ _ live⟩
      · exact ⟨r, hOld⟩
    · exact fun hDone => absurd hDone (ActiveOrder.state_ne_done live)

end Booked

/-! ## The counters after a run -/

def liveSlots (g : ExecutionGateway) (symbol : Nat) : Finset Nat :=
  (Finset.range kMaxActiveOrders).filter fun i => ((g.states symbol).orders i).isLive

/-- The counters of the gateway agree with its live orders and the history of the run. -/
structure Accounted (g : ExecutionGateway) (h : History) : Prop where
  count : ∀ symbol < kSymbols, (g.states symbol).risk.orderCount = (g.liveSlots symbol).card
  net : ∀ symbol < kSymbols, (g.states symbol).risk.netPosition = h.filledQty symbol +
    ∑ i ∈ g.liveSlots symbol, signedQtyDelta ((g.states symbol).orders i).side ((g.states symbol).orders i).qty
  gross : ∀ symbol < kSymbols, (g.states symbol).risk.grossExposure = h.filledValue symbol +
    ∑ i ∈ g.liveSlots symbol, ((g.states symbol).orders i).price * ((g.states symbol).orders i).qty
  distinct : ∀ symbol < kSymbols, ∀ i ∈ g.liveSlots symbol, ∀ symbol' < kSymbols,
    ∀ i' ∈ g.liveSlots symbol', ((g.states symbol).orders i).orderId = ((g.states symbol').orders i').orderId →
    symbol = symbol' ∧ i = i'
  pending : g.rateLimiter.pending = ∑ symbol ∈ Finset.range kSymbols, (g.states symbol).risk.orderCount

theorem Booked.accounted {g : ExecutionGateway} {h : History} (hBooked : g.Booked h) : g.Accounted h where
  count symbol _ := by
    have hCount := (hBooked.balanced symbol).count
    rw [show total _ ActiveOrder.openCount _ = _ from total_ite_eq_card ..] at hCount
    exact Int.natCast_inj.mp hCount
  net symbol _ := by
    rw [liveSlots, Finset.sum_filter]
    exact (hBooked.balanced _).net
  gross symbol _ := by
    rw [liveSlots, Finset.sum_filter]
    exact (hBooked.balanced _).gross
  distinct symbol _ i hi symbol' _ i' hi' hSame :=
    hBooked.sound.distinct symbol i symbol' i' (Finset.mem_filter.mp hi).2 (Finset.mem_filter.mp hi').2 hSame
  pending := by
    have hPending := hBooked.pending
    rw [total, ← Nat.cast_sum] at hPending
    exact Int.natCast_inj.mp hPending

/-- In every run that accepts no id twice and submits no lost id, the counters agree with the live orders and the
applied fills. -/
theorem run_accounted (rateLimit : Nat) (limits : Nat → ValidLimits) (breaker : CircuitBreaker)
    (recovery : Option RecoveryLedger) (calls : List GatewayCall)
    (hRun : Always step NoLostId calls (init rateLimit limits breaker recovery))
    (hOnce : (history step History.record calls (init rateLimit limits breaker recovery) {}).accepted.Nodup) :
    (final step calls (init rateLimit limits breaker recovery)).Accounted
      (history step History.record calls (init rateLimit limits breaker recovery) {}) := by
  have hInv := hRun.invariant_history (fun g h => h.accepted.Nodup → g.Booked h)
    (fun _ g h hLost hBooked hNodup =>
      (hBooked (hNodup.sublist accepted_suffix_record.sublist)).step hLost hNodup)
    (fun _ => booked_init)
  exact (hInv hOnce).accounted

theorem run_accounted_sampleCalls :
    Always step NoLostId sampleCalls start ∧ (history step History.record sampleCalls start {}).accepted.Nodup ∧
      (final step sampleCalls start).Accounted (history step History.record sampleCalls start {}) := by
  have hRun := noLostId_sampleCalls
  have hOnce : (history step record sampleCalls start {}).accepted.Nodup := by decide +kernel
  exact ⟨hRun, hOnce, run_accounted _ _ _ _ _ hRun hOnce⟩

def misreleasingCalls : List GatewayCall :=
  [submission kBuy 7 10 true, submission kBuy 185 10 true, ⟨.cancelReport 0 7, {}⟩, submission kBuy 585 10 true,
    fillReport 185 10 false, submission kBuy 585 20 false]

/-- No id is accepted twice, but the second submission of 585, whose audit record fails, passes the ledger and its
way back releases the slot of the live order. -/
theorem misreleasingCalls_not_accounted : (history step History.record misreleasingCalls start {}).accepted.Nodup ∧
      ¬ (final step misreleasingCalls start).Accounted (history step History.record misreleasingCalls start {}) := by
  refine ⟨by decide +kernel, fun h => ?_⟩
  exact absurd (h.net 0 (by decide)) (by decide +kernel)

end ExecutionGateway

end LuvFlicker
