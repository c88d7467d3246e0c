import LuvFlicker.Lob.AbstractBook
import LuvFlicker.Lob.Invariant

/-!
# The engine refines the abstract book

As long as no event is turned away for lack of room, every event changes the
displayed queues as it changes the abstract book. Best prices and depths are
then read off the sorted levels.
-/

namespace LuvFlicker

open List Numeric OrderRefMap AbstractBook

def Outcome.isCapacity : Outcome → Bool
  | .maxDepth | .levelFull => true
  | .mapRefused reason => reason.isCapacity
  | _ => false

namespace LobEngine

open Config

def outcomes (e : LobEngine) : List TickMsg → List Outcome
  | [] => []
  | tick :: ticks => (e.step tick).2 :: (e.process tick).outcomes ticks

variable {e : LobEngine} {b : AbstractBook} {ref : UInt64} {tick : TickMsg}

theorem SameBook.shows {e' : LobEngine} (h : SameBook e e') (hShows : Shows e.bookQueue b) : Shows e'.bookQueue b := by
  rw [h.bookQueue]
  exact hShows

theorem Inv.orders_eq_none_iff (h : e.Inv noVacancy) (hShows : Shows e.bookQueue b) :
    b.orders ref = none ↔ e.orderMap.lookup ref = none :=
  hShows.orders_eq_none_iff.trans h.lookup_eq_none_iff.symm

/-! ## The events -/

theorem placeOrder_shows (order : BookOrder) (h : e.Inv noVacancy) (hShows : Shows e.bookQueue b)
    (hSym : order.symbolIdx < kSymbols) (hNew : b.orders ref = none) (hRef : ref ≠ kEmptyKey)
    (hQty : 0 < order.qty ∧ order.qty ≤ kMaxQuantity)
    (hRoom : (e.placeOrder order.symbolIdx order.side ref order.price order.qty).2.isCapacity = false) :
    Shows (e.placeOrder order.symbolIdx order.side ref order.price order.qty).1.bookQueue
      (if ref ≠ kTombstone then b.append ref order else b) := by
  have hPlaced := placeOrder_spec order.side order.price h hSym ((h.orders_eq_none_iff hShows).mp hNew) hQty
  cases hResult : e.placeOrder order.symbolIdx order.side ref order.price order.qty with
  | mk e' outcome =>
    rw [hResult] at hPlaced hRoom
    cases hPlaced with
    | applied _ hBook hLive =>
      rw [if_pos hLive.2]
      exact hBook ▸ hShows.append hNew
    | maxDepth | levelFull => cases hRoom
    | mapRefused _ hBook hReason =>
      have hNot : ¬ ref ≠ kTombstone := by
        intro hne
        rw [Outcome.isCapacity, hReason ⟨hRef, hne⟩] at hRoom
        cases hRoom
      rw [if_neg hNot]
      exact hBook ▸ hShows

section

variable (h : e.Inv noVacancy)

include h

variable (hShows : Shows e.bookQueue b)
include hShows

theorem onAddOrder_shows (hSym : tick.symbolIdx < kSymbols)
    (hRef : tick.orderRef ≠ kEmptyKey) (hQty : 0 < tick.qty ∧ tick.qty ≤ kMaxQuantity)
    (hRoom : (e.onAddOrder tick).2.isCapacity = false) : Shows (e.onAddOrder tick).1.bookQueue
      (b.apply (.add tick.orderRef ⟨tick.symbolIdx, sideOf tick.flags, tick.price, tick.qty⟩)) := by
  have hSame := SameBook.setStats e { e.stats with adds := e.stats.adds + 1 }
  have hStart := hSame.inv h
  rw [← hSame.bookQueue] at hShows
  simp only [onAddOrder] at hRoom
  simp only [onAddOrder, apply]
  generalize e.setStats { e.stats with adds := e.stats.adds + 1 } = e₀ at *
  cases hLookup : e₀.orderMap.lookup tick.orderRef with
  | some loc =>
    have hSome : b.orders tick.orderRef ≠ none := by
      rw [Ne, hStart.orders_eq_none_iff hShows, hLookup]
      exact Option.some_ne_none loc
    simp only [hSome]
    exact (SameBook.setStats _ _).shows hShows
  | none =>
    simp only [hLookup] at hRoom ⊢
    have hNew := (hStart.orders_eq_none_iff hShows).mpr hLookup
    have hPlaced := placeOrder_shows ⟨_, _, _, _⟩ hStart hShows hSym hNew hRef hQty (by split at hRoom <;> exact hRoom)
    simp only [hNew, true_and]
    split
    · exact hPlaced
    · exact (SameBook.setStats _ _).shows hPlaced

theorem reduceOrder_shows (hQty : 0 < tick.qty) :
    Shows (e.reduceOrder tick).1.bookQueue (b.apply (.reduce tick.orderRef tick.qty)) := by
  simp only [apply]
  rcases reduceOrder_spec h hQty with ⟨hNone, hEq⟩ | ⟨_, s, t, p, q, hEq, hMem, _, _, hBook⟩
  · rw [hEq, (h.orders_eq_none_iff hShows).mpr hNone]
    exact hShows
  have hOrder := (hShows.orders _ ⟨s, t, p, q⟩).mpr hMem
  rw [hEq, hOrder]
  simp only [hBook]
  split
  · rename_i hPartial
    rw [if_neg (by omega), min_eq_left hPartial.le]
    exact hShows.setQty hOrder _
  · rw [if_pos (by omega)]
    exact hShows.remove

theorem onOrderDelete_shows : Shows (e.onOrderDelete tick).1.bookQueue (b.apply (.delete tick.orderRef)) := by
  have hSame := SameBook.setStats e { e.stats with deletes := e.stats.deletes + 1 }
  have hStart := hSame.inv h
  rw [← hSame.bookQueue] at hShows
  simp only [onOrderDelete, apply]
  generalize e.setStats { e.stats with deletes := e.stats.deletes + 1 } = e₀ at *
  cases hLocate : e₀.locate tick.orderRef with
  | none =>
    rw [hStart.locate_eq_lookup] at hLocate
    rw [if_pos ((hStart.orders_eq_none_iff hShows).mpr hLocate)]
    exact hShows
  | some loc =>
    have hHolds := hStart.locate_eq_some_iff.mp hLocate
    rw [if_neg fun hNone =>
      hStart.located.lookup_ne_none hHolds ((hStart.orders_eq_none_iff hShows).mp hNone)]
    exact (deleteOrder_spec hStart hHolds).book ▸ hShows.remove

theorem onOrderReplace_shows (hRef : tick.matchNum ≠ kEmptyKey) (hQty : 0 < tick.qty ∧ tick.qty ≤ kMaxQuantity)
    (hRoom : (e.onOrderReplace tick).2.isCapacity = false) :
    Shows (e.onOrderReplace tick).1.bookQueue (b.apply (.replace tick.orderRef tick.matchNum tick.price tick.qty)) := by
  have hSame := SameBook.setStats e { e.stats with replaces := e.stats.replaces + 1 }
  have hStart := hSame.inv h
  rw [← hSame.bookQueue] at hShows
  simp only [onOrderReplace] at hRoom
  simp only [onOrderReplace, apply]
  generalize e.setStats { e.stats with replaces := e.stats.replaces + 1 } = e₀ at *
  cases hLocate : e₀.locate tick.orderRef with
  | none =>
    have hNone := (hStart.orders_eq_none_iff hShows).mpr (hStart.locate_eq_lookup ▸ hLocate)
    simp only [hNone]
    exact (SameBook.setStats _ _).shows hShows
  | some loc =>
    have hHolds := hStart.locate_eq_some_iff.mp hLocate
    have hMem := hStart.mem_bookQueue.mpr ⟨_, _, hHolds, rfl, rfl⟩
    have hOrder := (hShows.orders _ ⟨_, _, _, _⟩).mpr hMem
    simp only [hLocate] at hRoom ⊢
    rw [hOrder]
    by_cases hPreflight : e₀.orderMap.canInsert tick.matchNum = .ok
    · rw [if_neg (not_not.mpr hPreflight)] at hRoom ⊢
      obtain ⟨hLive, hNew, _⟩ := canInsert_ok hPreflight
      have hRetired := deleteOrder_spec hStart hHolds
      have hNewOrders := (hStart.orders_eq_none_iff hShows).mpr hNew
      have hShows' := hRetired.book ▸ hShows.remove
      have hNew' := (hRetired.inv.orders_eq_none_iff hShows').mpr (hRetired.lookup_eq_none hStart hNew)
      rw [replaceExit_outcome] at hRoom
      have hPlaced := placeOrder_shows ⟨_, _, _, _⟩ hRetired.inv hShows' (hStart.symbol_lt hHolds) hNew' hRef hQty hRoom
      rw [if_pos hLive.2] at hPlaced
      simp only [hNewOrders, hLive.2, ne_eq]
      exact (SameBook.replaceExit _).shows hPlaced
    · rw [if_pos hPreflight] at hRoom ⊢
      have hRefuse : ¬ (b.orders tick.matchNum = none ∧ tick.matchNum ≠ kTombstone) := by
        rintro ⟨hNone, hTombstone⟩
        rcases canInsert_refused hStart.located.wf hPreflight with hCap | hLive | hStored
        · rw [Outcome.isCapacity, hCap] at hRoom
          cases hRoom
        · exact hLive ⟨hRef, hTombstone⟩
        · exact hStored ((hStart.orders_eq_none_iff hShows).mp hNone)
      simp only [if_neg hRefuse]
      exact (SameBook.setStats _ _).shows hShows

end

/-! ## The dispatch -/

inductive Dispatched (e : LobEngine) (tick : TickMsg) : BookEvent → LobEngine × Outcome → Prop
  | ignored {result : LobEngine × Outcome} (hSame : SameBook e result.1) : Dispatched e tick .ignored result
  | add (hSym : tick.symbolIdx < kSymbols) (hRef : tick.orderRef ≠ OrderRefMap.kEmptyKey)
      (hQty : 0 < tick.qty ∧ tick.qty ≤ kMaxQuantity) :
      Dispatched e tick (.add tick.orderRef ⟨tick.symbolIdx, sideOf tick.flags, tick.price, tick.qty⟩)
        ((e.touch tick).onAddOrder tick)
  | reduce {e₀ : LobEngine} (hSame : SameBook e e₀) (hQty : 0 < tick.qty) :
      Dispatched e tick (.reduce tick.orderRef tick.qty) (e₀.reduceOrder tick)
  | delete : Dispatched e tick (.delete tick.orderRef) ((e.touch tick).onOrderDelete tick)
  | replace (hRef : tick.matchNum ≠ OrderRefMap.kEmptyKey) (hOther : tick.orderRef ≠ tick.matchNum)
      (hQty : 0 < tick.qty ∧ tick.qty ≤ kMaxQuantity) :
      Dispatched e tick (.replace tick.orderRef tick.matchNum tick.price tick.qty) ((e.touch tick).onOrderReplace tick)

theorem step_dispatched (e : LobEngine) (tick : TickMsg) : Dispatched e tick (eventOf tick) (e.step tick) := by
  have hTouch := SameBook.touch e tick
  have hReject : ∀ outcome, Dispatched e tick .ignored ((e.touch tick).reject outcome) :=
    fun _ => .ignored (hTouch.trans (SameBook.setStats _ _))
  unfold step eventOf
  by_cases hSymbol : kSymbols ≤ tick.symbolIdx
  · rw [if_pos hSymbol, if_pos hSymbol]
    exact .ignored (SameBook.setStats _ _)
  simp only
  split_ifs with _ hFields _ hFields _ hFields _ hFields _ hFields _ hFields
  · exact hReject _
  · simp at hFields
    exact .add (by omega) hFields.1.1 (isValidQuantity_iff.mp hFields.1.2)
  · exact hReject _
  · simp at hFields
    exact .reduce (hTouch.trans (SameBook.setStats _ _)) (isValidQuantity_iff.mp hFields.2).1
  · exact hReject _
  · simp at hFields
    exact .reduce (hTouch.trans (SameBook.setStats _ _)) (isValidQuantity_iff.mp hFields.2).1
  · exact hReject _
  · exact .delete
  · exact hReject _
  · simp at hFields
    exact .replace hFields.1.1.1.2 hFields.1.1.2 (isValidQuantity_iff.mp hFields.1.2)
  · exact hReject _
  · exact .ignored (hTouch.trans (SameBook.setStats _ _))
  · exact hReject _

section

variable (h : e.Inv noVacancy) (hShows : Shows e.bookQueue b)
include h hShows

theorem step_shows (hRoom : (e.step tick).2.isCapacity = false) :
    Shows (e.step tick).1.bookQueue (b.apply (eventOf tick)) := by
  have hTouch := SameBook.touch e tick
  have hStep := step_dispatched e tick
  generalize eventOf tick = event at hStep ⊢
  generalize e.step tick = result at hStep hRoom ⊢
  cases hStep with
  | ignored hSame => exact hSame.shows hShows
  | add hSym hRef hQty => exact onAddOrder_shows (hTouch.inv h) (hTouch.shows hShows) hSym hRef hQty hRoom
  | reduce hSame hQty => exact reduceOrder_shows (hSame.inv h) (hSame.shows hShows) hQty
  | delete => exact onOrderDelete_shows (hTouch.inv h) (hTouch.shows hShows)
  | replace hRef _ hQty => exact onOrderReplace_shows (hTouch.inv h) (hTouch.shows hShows) hRef hQty hRoom

theorem run_shows (ticks : List TickMsg) (hRoom : ∀ outcome ∈ e.outcomes ticks, outcome.isCapacity = false) :
    Shows (e.run ticks).bookQueue (b.run ticks) := by
  induction ticks generalizing e b with
  | nil => exact hShows
  | cons tick ticks ih =>
    refine ih (step_inv h tick) (step_shows h hShows (hRoom _ mem_cons_self)) ?_
    exact fun outcome hMem => hRoom _ (mem_cons_of_mem _ hMem)

end

/-! ## The queries -/

/-- The engine displays the abstract book, level by level and through its queries. -/
structure Refines (e : LobEngine) (b : AbstractBook) : Prop where
  /-- The list of each level, read from its head, is the arrival queue of its price. -/
  queue : ∀ sym side d, d < e.levelCount sym side →
    (e.lob sym side d).queue.map Prod.fst = b.queue sym side (e.lob sym side d).price
  complete : ∀ sym side price, b.queue sym side price ≠ [] →
    ∃ d < e.levelCount sym side, (e.lob sym side d).price = price
  orders : ∀ ref order, b.orders ref = some order ↔ ∃ d < e.levelCount order.symbolIdx order.side,
    (e.lob order.symbolIdx order.side d).price = order.price ∧
      (ref, order.qty) ∈ (e.lob order.symbolIdx order.side d).queue
  bestBid : ∀ sym, (b.occupied sym .bid = ∅ ∧ e.bestBidPrice sym = 0) ∨
    IsGreatest (b.occupied sym .bid) (e.bestBidPrice sym)
  bestAsk : ∀ sym, (b.occupied sym .ask = ∅ ∧ e.bestAskPrice sym = 0) ∨
    IsLeast (b.occupied sym .ask) (e.bestAskPrice sym)
  bidDepth : ∀ sym, ∃ prices, b.Ladder sym .bid prices ∧
    ∀ n, e.bidDepthQty sym n = ((prices.take n).map (b.totalAt sym .bid)).sum
  askDepth : ∀ sym, ∃ prices, b.Ladder sym .ask prices ∧
    ∀ n, e.askDepthQty sym n = ((prices.take n).map (b.totalAt sym .ask)).sum

def levelPrices (e : LobEngine) (sym : Nat) (side : Side) : List Int :=
  (List.range (e.levelCount sym side)).map fun d => (e.lob sym side d).price

variable {side : Side} {sym d : Nat}

theorem depthQty_eq (levels : Nat → PriceLevel) (n : Nat) :
    depthQty levels n = ((List.range n).map fun i => (levels i).totalQty).sum := by
  have hFold : ∀ (l : List Nat) (start : Int), l.foldl (fun total i => total + (levels i).totalQty) start =
      start + (l.map fun i => (levels i).totalQty).sum := by
    intro l
    induction l with
    | nil => simp
    | cons i l ih =>
      intro start
      rw [foldl_cons, ih, map_cons, sum_cons, add_assoc]
  rw [depthQty, hFold, zero_add]

theorem levelCount_zero_or (h : e.Inv noVacancy) (sym : Nat) (side : Side) : e.levelCount sym side = 0 ∨ sym < kSymbols := by
  by_cases hSym : sym < kSymbols
  · exact .inr hSym
  · exact .inl (h.bounded sym side (not_lt.mp hSym))

section

variable (h : e.Inv noVacancy) (hShows : Shows e.bookQueue b)
include h hShows

theorem queue_of_shows (hd : d < e.levelCount sym side) :
    (e.lob sym side d).queue.map Prod.fst = b.queue sym side (e.lob sym side d).price := by
  rw [hShows.queue, bookQueue, (h.sides sym side).sideQueue_eq hd rfl]

theorem mem_occupied_iff {sym : Nat} {price : Int} :
    price ∈ b.occupied sym side ↔ ∃ d < e.levelCount sym side, (e.lob sym side d).price = price := by
  change b.queue sym side price ≠ [] ↔ _
  constructor
  · intro hQueue
    rw [hShows.queue] at hQueue
    rcases (h.sides sym side).sideQueue_cases price with ⟨d, hd, hPrice, _⟩ | ⟨_, hNil⟩
    · exact ⟨d, hd, hPrice⟩
    · exact absurd (by rw [bookQueue, hNil]; rfl) hQueue
  · rintro ⟨d, hd, rfl⟩
    obtain ⟨_, hPath, hVacant⟩ := (h.sides sym side).level d hd
    rw [← queue_of_shows h hShows hd, hPath.queue_eq]
    intro hNil
    exact hVacant (by simpa using hNil)

theorem ladder_levelPrices (sym : Nat) (side : Side) : b.Ladder sym side (e.levelPrices sym side) where
  sorted := by
    rw [levelPrices, pairwise_map]
    refine List.Pairwise.imp_of_mem ?_ (pairwise_lt_range (n := e.levelCount sym side))
    intro i j _ hj hij
    exact (h.sides sym side).sorted i j hij (mem_range.mp hj)
  mem_iff := by
    intro _
    rw [mem_occupied_iff h hShows]
    simp [levelPrices]

theorem totalAt_eq (hd : d < e.levelCount sym side) :
    b.totalAt sym side (e.lob sym side d).price = (e.lob sym side d).totalQty := by
  obtain ⟨_, hPath, _⟩ := (h.sides sym side).level d hd
  rw [totalAt, ← queue_of_shows h hShows hd, hPath.totals_queue.total_eq, map_map]
  congr 1
  refine map_congr_left ?_
  rintro ⟨ref, q⟩ hMem
  rw [← (h.sides sym side).sideQueue_eq hd rfl] at hMem
  have hOrder := (hShows.orders ref ⟨sym, side, _, q⟩).mpr hMem
  simp [qtyOf, hOrder]

theorem depthQty_ladder (sym : Nat) (side : Side) (n : Nat) :
    depthQty (e.lob sym side) (min n (e.levelCount sym side)) =
      (((e.levelPrices sym side).take n).map (b.totalAt sym side)).sum := by
  rw [depthQty_eq, levelPrices, ← map_take, take_range, map_map]
  congr 1
  refine map_congr_left fun d hd => ?_
  rw [mem_range] at hd
  exact (totalAt_eq h hShows (by omega)).symm

theorem best_of_shows (sym : Nat) (side : Side) : (e.levelCount sym side = 0 ∧ b.occupied sym side = ∅) ∨
    (0 < e.levelCount sym side ∧ sym < kSymbols ∧ (e.lob sym side 0).price ∈ b.occupied sym side ∧
      ∀ price ∈ b.occupied sym side, price ≠ (e.lob sym side 0).price →
        outranks side (e.lob sym side 0).price price = true) := by
  rcases Nat.eq_zero_or_pos (e.levelCount sym side) with hZero | hPos
  · refine .inl ⟨hZero, Set.eq_empty_iff_forall_notMem.mpr fun price hMem => ?_⟩
    obtain ⟨d, hd, _⟩ := (mem_occupied_iff h hShows).mp hMem
    omega
  refine .inr ⟨hPos, (levelCount_zero_or h sym side).resolve_left (by omega),
    (mem_occupied_iff h hShows).mpr ⟨0, hPos, rfl⟩, fun price hMem hne => ?_⟩
  obtain ⟨d, hd, rfl⟩ := (mem_occupied_iff h hShows).mp hMem
  rcases Nat.eq_zero_or_pos d with rfl | hdPos
  · exact absurd rfl hne
  · exact (h.sides sym side).sorted 0 d hdPos hd

theorem refines_of_shows : e.Refines b where
  queue := fun _ _ _ hd => queue_of_shows h hShows hd
  complete := fun _ _ _ hQueue => (mem_occupied_iff h hShows).mp hQueue
  orders := by
    intro _ order
    rw [hShows.orders]
    constructor
    · intro hMem
      rcases (h.sides order.symbolIdx order.side).sideQueue_cases order.price with ⟨d, hd, hPrice, hQueue⟩ | ⟨_, hNil⟩
      · exact ⟨d, hd, hPrice, hQueue ▸ hMem⟩
      · rw [bookQueue, hNil] at hMem
        cases hMem
    · rintro ⟨d, hd, hPrice, hMem⟩
      rw [bookQueue, (h.sides _ _).sideQueue_eq hd hPrice]
      exact hMem
  bestBid := by
    intro sym
    have hCount : e.levelCount sym .bid = (e.symbolMeta sym).bidLevels := rfl
    rcases best_of_shows h hShows sym .bid with ⟨hZero, hEmpty⟩ | ⟨hPos, hSym, hMem, hBest⟩
    · refine .inl ⟨hEmpty, ?_⟩
      rw [bestBidPrice, ← hCount, hZero]
      simp
    have hPrice : e.bestBidPrice sym = (e.lob sym .bid 0).price := by
      rw [bestBidPrice, if_neg (by omega), if_neg (by omega)]
    refine .inr (hPrice ▸ ⟨hMem, fun price hPrice => ?_⟩)
    by_cases hne : price = (e.lob sym .bid 0).price
    · exact hne.le
    have hLt := hBest _ hPrice hne
    simp only [outranks, decide_eq_true_eq] at hLt
    exact hLt.le
  bestAsk := by
    intro sym
    have hCount : e.levelCount sym .ask = (e.symbolMeta sym).askLevels := rfl
    rcases best_of_shows h hShows sym .ask with ⟨hZero, hEmpty⟩ | ⟨hPos, hSym, hMem, hBest⟩
    · refine .inl ⟨hEmpty, ?_⟩
      rw [bestAskPrice, ← hCount, hZero]
      simp
    have hPrice : e.bestAskPrice sym = (e.lob sym .ask 0).price := by
      rw [bestAskPrice, if_neg (by omega), if_neg (by omega)]
    refine .inr (hPrice ▸ ⟨hMem, fun price hPrice => ?_⟩)
    by_cases hne : price = (e.lob sym .ask 0).price
    · exact hne.ge
    have hLt := hBest _ hPrice hne
    simp only [outranks, decide_eq_true_eq] at hLt
    exact hLt.le
  bidDepth := by
    intro sym
    refine ⟨_, ladder_levelPrices h hShows sym .bid, fun n => ?_⟩
    rw [← depthQty_ladder h hShows, bidDepthQty]
    have hCount : e.levelCount sym .bid = (e.symbolMeta sym).bidLevels := rfl
    rcases levelCount_zero_or h sym .bid with hZero | hSym
    · rw [← hCount, hZero]
      simp [depthQty]
    · rw [if_neg (by omega)]
      congr 1
      split <;> omega
  askDepth := by
    intro sym
    refine ⟨_, ladder_levelPrices h hShows sym .ask, fun n => ?_⟩
    rw [← depthQty_ladder h hShows, askDepthQty]
    have hCount : e.levelCount sym .ask = (e.symbolMeta sym).askLevels := rfl
    rcases levelCount_zero_or h sym .ask with hZero | hSym
    · rw [← hCount, hZero]
      simp [depthQty]
    · rw [if_neg (by omega)]
      congr 1
      split <;> omega

end

theorem run_refines (lob : Nat → Side → Nat → PriceLevel) (values : Nat → OrderLocation) (ticks : List TickMsg)
    (hRoom : ∀ outcome ∈ (init lob values).outcomes ticks, outcome.isCapacity = false) :
    ((init lob values).run ticks).Refines (AbstractBook.empty.run ticks) := by
  have hInit : (init lob values).bookQueue = fun _ _ _ => [] := by
    funext s t p
    refine sideQueue_eq_nil fun d hd => absurd hd ?_
    cases t <;> exact Nat.not_lt_zero d
  exact refines_of_shows (run_inv (init_inv lob _) _) (run_shows (init_inv lob values) (hInit ▸ Shows.empty) _ hRoom)

def fresh : LobEngine := init (fun _ _ _ => PriceLevel.cleared) (fun _ => ⟨0, .bid, 0, 0⟩)

def sampleTicks : List TickMsg :=
  [{ msgType := Itch.kAddOrder, flags := TickFlags.kBuy, symbolIdx := 3, price := 100, qty := 5, orderRef := 7 },
    { msgType := Itch.kAddOrder, flags := TickFlags.kBuy, symbolIdx := 3, price := 100, qty := 6, orderRef := 8 },
    { msgType := Itch.kAddOrder, flags := TickFlags.kBuy, symbolIdx := 3, price := 101, qty := 6, orderRef := 9 },
    { msgType := Itch.kOrderExecuted, symbolIdx := 3, qty := 5, orderRef := 7 },
    { msgType := Itch.kOrderReplace, symbolIdx := 3, price := 99, qty := 2, orderRef := 8, matchNum := 10 }]

theorem run_refines_sampleTicks : (∀ outcome ∈ fresh.outcomes sampleTicks, outcome.isCapacity = false) ∧
      (fresh.run sampleTicks).Refines (AbstractBook.empty.run sampleTicks) :=
  ⟨by decide +kernel, run_refines _ _ _ (by decide +kernel)⟩

end LobEngine

end LuvFlicker
