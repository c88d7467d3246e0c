import LuvFlicker.Execution.Moves

/-!
# Looking up an order

`query_order` takes the first order of an id that is not pending, `cancel_order` the
first live one. Within a symbol the two agree: an order goes into the first free
slot, so none that is done stands before a live one of its id.
-/

namespace LuvFlicker.ExecutionGateway

open Exec Scan Run Config ActiveOrder SymbolExecState

/-! ## The slots of a symbol -/

def LiveFirst (g : ExecutionGateway) : Prop :=
  ∀ symbol i j, i < j → ((g.accounts symbol).orders i).state = .done → ((g.accounts symbol).orders j).isLive = true →
    ((g.accounts symbol).orders i).orderId ≠ ((g.accounts symbol).orders j).orderId

variable {g g' : ExecutionGateway} {call : GatewayCall} {symbol slot : Nat} {account : Account} {order : ActiveOrder}

theorem LiveFirst.write (h : g.LiveFirst) (hAccounts : g'.accounts = Function.update g.accounts symbol account)
    (hOrders : account.orders = Function.update (g.accounts symbol).orders slot order)
    (hDone : order.state = .done → ∀ j, slot < j → ((g.accounts symbol).orders j).isLive = true →
      order.orderId ≠ ((g.accounts symbol).orders j).orderId)
    (hNew : order.isLive = true → ∀ i < slot, ((g.accounts symbol).orders i).state = .done →
      ((g.accounts symbol).orders i).orderId ≠ order.orderId) : g'.LiveFirst := by
  have hSlots := Account.orders_update hOrders
  rw [← hAccounts] at hSlots
  intro s i j hLt hState hLive
  rcases hSlots s i with ⟨⟨rfl, rfl⟩, hAt⟩ | ⟨_, hOldI⟩
  · rcases hSlots s j with ⟨⟨_, rfl⟩, _⟩ | ⟨_, hOldJ⟩
    · exact absurd hLt (lt_irrefl _)
    rw [hAt] at hState ⊢
    rw [hOldJ] at hLive ⊢
    exact hDone hState j hLt hLive
  · rcases hSlots s j with ⟨⟨rfl, rfl⟩, hAt⟩ | ⟨_, hOldJ⟩
    · rw [hOldI] at hState ⊢
      rw [hAt] at hLive ⊢
      exact hNew hLive i hLt hState
    · rw [hOldI] at hState ⊢
      rw [hOldJ] at hLive ⊢
      exact h s i j hLt hState hLive

theorem LiveFirst.step (h : g.LiveFirst) (hSound : g.Sound) (hLost : NoLostId call g)
    (hTerminal : NoTerminalFill call g) : (ExecutionGateway.step call g).2.LiveFirst := by
  have hMove := hSound.move hLost hTerminal
  generalize ExecutionGateway.step call g = result at hMove
  cases hMove with
  | idle _ accounts =>
    rw [LiveFirst, accounts]
    exact h
  | cleared _ _ _ accounts =>
    exact h.write accounts rfl (fun hState => by cases hState) fun hLive => absurd hLive Bool.false_ne_true
  | dropped _ drops =>
    exact h.write drops.accounts rfl (fun hState => by cases hState) fun hLive => absurd hLive Bool.false_ne_true
  | admitted _ _ _ admits =>
    refine h.write admits.accounts rfl (fun hState => by cases hState) fun _ i hi hState => ?_
    -- all slots before the one that is taken are live
    have hLive := (findFree_spec admits.reserves.free).2.2 i hi
    exact absurd hState (state_ne_done hLive)
  | filled _ _ _ fills live =>
    have accounts := fills.accounts
    split_ifs at accounts
    · refine h.write accounts rfl (fun _ j hLt hLive => ?_) fun hLive => absurd hLive Bool.false_ne_true
      exact (hSound.other_id live (fun hAt => ne_of_gt hLt hAt.2) hLive).symm
    · refine h.write accounts rfl (fun hState => by cases hState) fun _ i hi hState => ?_
      exact h _ i _ hi hState live
  | amended _ _ replaced =>
    have hLive := (findLive_spec replaced.amends.found).2.2
    refine h.write replaced.accounts rfl (fun hState => ?_) fun _ i hi hState => ?_
    · exact absurd hState (state_ne_done hLive)
    · exact h _ i _ hi hState hLive

/-! ## Queries -/

variable {id : UInt64} {i : Nat}

structure LiveAt (g : ExecutionGateway) (id : UInt64) (symbol i : Nat) : Prop where
  symbol_lt : symbol < kSymbols
  slot_lt : i < kMaxActiveOrders
  live : ((g.states symbol).orders i).isLive = true
  order_id : ((g.states symbol).orders i).orderId = id

def HoldsDone (g : ExecutionGateway) (id : UInt64) (symbol : Nat) : Prop :=
  ∃ j < kMaxActiveOrders, ((g.states symbol).orders j).state = .done ∧ ((g.states symbol).orders j).orderId = id

instance : Decidable (g.HoldsDone id symbol) := inferInstanceAs (Decidable (∃ j < kMaxActiveOrders, _))

theorem findOrder_eq_none_iff {st : SymbolExecState} : st.findOrder id = none ↔
    ∀ j < kMaxActiveOrders, (st.orders j).orderId = id → (st.orders j).state = .pending := by
  rw [findOrder, firstIndex_eq_none_iff]
  refine forall₂_congr fun j _ => ?_
  rw [Bool.and_eq_false_iff, decide_eq_false_iff_not, decide_eq_false_iff_not, not_not, imp_iff_not_or]

section

variable (h : g.LiveAt id symbol i)
include h

theorem LiveAt.findOrder (hSound : g.Sound) (hFirst : g.LiveFirst) : (g.states symbol).findOrder id = some i := by
  rw [SymbolExecState.findOrder, firstIndex_eq_some_iff]
  refine ⟨h.slot_lt, ?_, fun j hj => ?_⟩
  · rw [Bool.and_eq_true, decide_eq_true_iff, decide_eq_true_iff]
    refine ⟨h.order_id, fun hPending => ?_⟩
    have hLive := h.live
    rw [isLive_eq_false_iff.mpr (.inl hPending)] at hLive
    cases hLive
  · rw [Bool.and_eq_false_iff, decide_eq_false_iff_not, decide_eq_false_iff_not, ← imp_iff_not_or]
    intro hId
    by_contra hPending
    by_cases hDone : ((g.states symbol).orders j).state = .done
    · exact hFirst _ j i hj hDone h.live (hId.trans h.order_id.symm)
    · have hOther := hSound.other_id h.live (fun hAt => ne_of_lt hj hAt.2) (isLive_of_ne hPending hDone)
      exact hOther (hId.trans h.order_id.symm)

theorem LiveAt.done_of_other (hSound : g.Sound) {s j : Nat} (hne : s ≠ symbol)
    (hId : ((g.states s).orders j).orderId = id) (hPending : ((g.states s).orders j).state ≠ .pending) :
    ((g.states s).orders j).state = .done := by
  by_contra hDone
  have hOther := hSound.other_id h.live (fun hAt => hne hAt.1) (isLive_of_ne hPending hDone)
  exact hOther (hId.trans h.order_id.symm)

theorem LiveAt.id_ne_zero (hSound : g.Sound) : id ≠ 0 := by
  have hHolds := hSound.holds _ i h.live
  rw [accounts_orders, h.order_id] at hHolds
  exact hHolds.id_ne

end

theorem queryOrder_eq_some_iff (hId : id ≠ 0) : g.queryOrder id = some order ↔
    ∃ s < kSymbols, (∃ j, (g.states s).findOrder id = some j ∧ (g.states s).orders j = order) ∧
      ∀ t < s, (g.states t).findOrder id = none := by
  rw [queryOrder, if_neg hId, findSome?_range_eq_some_iff]
  simp only [Option.map_eq_some_iff, Option.map_eq_none_iff]

section

variable (h : g.LiveAt id symbol i)
include h

theorem LiveAt.queryOrder_iff (hSound : g.Sound) (hFirst : g.LiveFirst) :
    g.queryOrder id = some ((g.states symbol).orders i) ↔ ∀ s < symbol, ¬ g.HoldsDone id s := by
  rw [queryOrder_eq_some_iff (h.id_ne_zero hSound)]
  constructor
  · rintro ⟨s, _, ⟨j, hFound, hOrder⟩, hBefore⟩ t ht ⟨k, hk, hDone, hId⟩
    have hSame : s = symbol := by
      by_contra hne
      obtain ⟨_, hAt, hPending⟩ := findOrder_spec hFound
      have hState := h.done_of_other hSound hne hAt hPending
      rw [hOrder] at hState
      exact state_ne_done h.live hState
    have hNone := findOrder_eq_none_iff.mp (hBefore t (by rwa [hSame])) k hk hId
    rw [hDone] at hNone
    cases hNone
  · intro hNone
    refine ⟨_, h.symbol_lt, ⟨i, h.findOrder hSound hFirst, rfl⟩, fun t ht => ?_⟩
    rw [findOrder_eq_none_iff]
    intro j hj hId
    by_contra hPending
    exact hNone t ht ⟨j, hj, h.done_of_other hSound (ne_of_lt ht) hId hPending, hId⟩

theorem LiveAt.findLive : ((g.states symbol).findLive id).isSome = true := by
  rw [SymbolExecState.findLive, firstIndex_isSome_iff]
  refine ⟨i, h.slot_lt, ?_⟩
  rw [Bool.and_eq_true, Bool.and_eq_true, decide_eq_true_iff, decide_eq_true_iff, decide_eq_true_iff]
  refine ⟨⟨h.order_id, fun hPending => ?_⟩, state_ne_done h.live⟩
  have hLive := h.live
  rw [isLive_eq_false_iff.mpr (.inl hPending)] at hLive
  cases hLive

theorem LiveAt.cancelOrder_eq (hSound : g.Sound) (env : GatewayEnv) :
    g.cancelOrder env id = g.applyCancelReport env symbol id := by
  have hSymbol : firstIndex (fun s => ((g.states s).findLive id).isSome) kSymbols = some symbol := by
    rw [firstIndex_eq_some_iff]
    refine ⟨h.symbol_lt, h.findLive, fun s hs => ?_⟩
    rw [← Bool.not_eq_true, Option.isSome_iff_exists]
    rintro ⟨j, hFound⟩
    obtain ⟨_, hAt, hLive⟩ := findLive_spec hFound
    exact hSound.other_id h.live (fun hSame => ne_of_lt hs hSame.1) hLive (hAt.trans h.order_id.symm)
  rw [cancelOrder, if_neg (h.id_ne_zero hSound), hSymbol]

end

/-- The query returns the order, and the cancellation goes to its symbol and finds it there. -/
structure ActsOn (g : ExecutionGateway) (id : UInt64) (symbol i : Nat) : Prop where
  query : g.queryOrder id = some ((g.states symbol).orders i)
  cancel : ∀ env, g.cancelOrder env id = g.applyCancelReport env symbol id
  slot : (g.states symbol).findOrder id = some i

/-- **Lookups and live orders.** After a run without lost ids and without fills of done orders, the query and the
cancellation act on a live order exactly if no lower symbol holds an order of its id that is done. -/
theorem lookup_run_iff (rateLimit : Nat) (limits : Nat → ValidLimits) (breaker : CircuitBreaker)
    (recovery : Option RecoveryLedger) (calls : List GatewayCall)
    (hRun : Always step (fun call g => NoLostId call g ∧ NoTerminalFill call g) calls
      (init rateLimit limits breaker recovery))
    {id : UInt64} {symbol i : Nat} (hLive : (final step calls (init rateLimit limits breaker recovery)).LiveAt id symbol i) :
    (final step calls (init rateLimit limits breaker recovery)).ActsOn id symbol i ↔
      ∀ s < symbol, ¬ (final step calls (init rateLimit limits breaker recovery)).HoldsDone id s := by
  have hInv : (final step calls (init rateLimit limits breaker recovery)).Sound ∧
      (final step calls (init rateLimit limits breaker recovery)).LiveFirst := by
    refine hRun.invariant (fun g => g.Sound ∧ g.LiveFirst) ?_
      ⟨sound_init .., fun _ _ _ _ _ hLive => absurd hLive Bool.false_ne_true⟩
    rintro call g ⟨hLost, hTerminal⟩ ⟨hSound, hFirst⟩
    exact ⟨hSound.step hLost hTerminal, hFirst.step hSound hLost hTerminal⟩
  obtain ⟨hSound, hFirst⟩ := hInv
  rw [← hLive.queryOrder_iff hSound hFirst]
  constructor
  · intro hActs
    exact hActs.query
  · intro hQuery
    exact ⟨hQuery, hLive.cancelOrder_eq hSound, hLive.findOrder hSound hFirst⟩

def placed (symbol : Nat) : GatewayCall :=
  ⟨.tryBuild { symbolIdx := symbol, qty := 10, price := 101, clientOrderId := 1 } {}, {}⟩

theorem placed_actsOn : (final step [placed 4] start).ActsOn 1 4 0 :=
  (lookup_run_iff 100 (fun _ => .default) {} none [placed 4] ⟨⟨not_lost_start 1, trivial⟩, trivial⟩
    ⟨by decide, by decide, by decide +kernel, by decide +kernel⟩).mpr (by decide +kernel)

def reusedId : List GatewayCall := [placed 3, ⟨.executionReport 3 ⟨1, 10, true⟩, {}⟩, placed 4]

/-- The query still returns the order that is done. -/
theorem reusedId_shadowed : (final step reusedId start).LiveAt 1 4 0 ∧
      (final step reusedId start).queryOrder 1 = some (((final step reusedId start).states 3).orders 0) ∧
      (((final step reusedId start).states 3).orders 0).state = .done := by
  refine ⟨⟨by decide, by decide, by decide +kernel, by decide +kernel⟩, by decide +kernel, by decide +kernel⟩

end LuvFlicker.ExecutionGateway
