import LuvFlicker.Lob.Refinement

/-!
# Replacing an order

The handler deletes the original before it knows that the replacement has a
place. It is all-or-nothing exactly when the level or the side the replacement
goes to has room once the original is gone.
-/

namespace LuvFlicker.LobEngine

open Config List Numeric BookView Itch

/-- The original left the book and the replacement rests on its symbol and side, all else unchanged. -/
def Replaced (e e' : LobEngine) (tick : TickMsg) : Prop :=
  ∃ loc, e.locate tick.orderRef = some loc ∧ e'.bookQueue = BookView.append
    (BookView.erase e.bookQueue tick.orderRef) loc.symbolIdx loc.side tick.price (tick.matchNum, tick.qty)

/-- Either the order is replaced, or the book is as it was and the event is counted as rejected. -/
def AllOrNothing (e e' : LobEngine) (tick : TickMsg) : Prop :=
  Replaced e e' tick ∨ (SameBook e e' ∧ e'.stats.rejected = e.stats.rejected + 1)

/-- If the event passes the checks made in advance and moves the order to another price, there is
room: fewer than sixteen orders rest there, and if none does, a level is free or becomes free. -/
def ReplaceFits (e : LobEngine) (tick : TickMsg) : Prop :=
  ∀ loc, eventOf tick ≠ .ignored → e.locate tick.orderRef = some loc → e.orderMap.canInsert tick.matchNum = .ok →
    tick.price ≠ (e.lob loc.symbolIdx loc.side loc.levelIdx).price →
      (e.bookQueue loc.symbolIdx loc.side tick.price).length < kMaxOrdersPerLevel ∧
      (e.bookQueue loc.symbolIdx loc.side tick.price = [] → e.levelCount loc.symbolIdx loc.side < kLevelsPerSide ∨
        (e.lob loc.symbolIdx loc.side loc.levelIdx).orderCount = 1)

variable {e e' : LobEngine} {ref : UInt64} {loc : OrderLocation} {tick : TickMsg}

section

variable (h : e.Inv noVacancy)

include h

section

variable (hHolds : e.Holds ref loc)
include hHolds

theorem erase_of_ne {price : Int} (hPrice : price ≠ (e.levelAt loc).price) :
    erase e.bookQueue ref loc.symbolIdx loc.side price = e.bookQueue loc.symbolIdx loc.side price := by
  refine filter_eq_self.mpr ?_
  rintro ⟨r, q⟩ hMem
  refine decide_eq_true ?_
  rintro rfl
  exact hPrice (h.eq_of_mem_bookQueue hHolds hMem).2

theorem erase_self : (erase e.bookQueue ref loc.symbolIdx loc.side (e.levelAt loc).price).length < kMaxOrdersPerLevel ∧
    (erase e.bookQueue ref loc.symbolIdx loc.side (e.levelAt loc).price = [] →
      (e.levelAt loc).orderCount = 1) := by
  obtain ⟨_, hPath, _⟩ := (h.sides _ _).level _ hHolds.1
  obtain ⟨hi, _⟩ := hPath.chain.holdsAt_iff.mp hHolds.2
  obtain ⟨l, r, rfl⟩ := append_of_mem hi
  have hErase : erase e.bookQueue ref loc.symbolIdx loc.side (e.levelAt loc).price =
      (l ++ r).map (e.levelAt loc).entryOf := by
    rw [← h.filter_level hHolds hPath, erase, bookQueue, (h.sides _ _).sideQueue_eq hHolds.1 rfl, hPath.queue_eq]
  have hLength := hPath.chain.length_le
  rw [hErase, hPath.totals.count_eq]
  simp only [length_map, length_append, length_cons, map_eq_nil_iff] at hLength ⊢
  refine ⟨by omega, fun hNil => ?_⟩
  have := congrArg List.length hNil
  simp only [length_append, length_nil] at this
  omega

theorem fits_iff (hRetired : Retired e e' ref loc) (price : Int) :
    ((e'.bookQueue loc.symbolIdx loc.side price).length < kMaxOrdersPerLevel ∧
      (e'.bookQueue loc.symbolIdx loc.side price = [] → e'.levelCount loc.symbolIdx loc.side < kLevelsPerSide)) ↔
    (price ≠ (e.levelAt loc).price → (e.bookQueue loc.symbolIdx loc.side price).length < kMaxOrdersPerLevel ∧
      (e.bookQueue loc.symbolIdx loc.side price = [] → e.levelCount loc.symbolIdx loc.side < kLevelsPerSide ∨
        (e.levelAt loc).orderCount = 1)) := by
  have hDepth := (h.sides loc.symbolIdx loc.side).depth
  have hLevel : e'.levelCount loc.symbolIdx loc.side < kLevelsPerSide ↔
      e.levelCount loc.symbolIdx loc.side < kLevelsPerSide ∨
        (e.levelAt loc).orderCount = 1 := by
    rw [hRetired.depth]
    have hUsed := hHolds.1
    split
    next hCount =>
      simp only [hCount, or_true, iff_true]
      omega
    next hCount => simp only [hCount, or_false]
  rw [hRetired.book]
  by_cases hPrice : price = (e.levelAt loc).price
  · subst hPrice
    obtain ⟨hLength, hLast⟩ := erase_self h hHolds
    refine ⟨fun _ hne => absurd rfl hne, fun _ => ⟨hLength, fun hNil => hLevel.mpr (.inr (hLast hNil))⟩⟩
  · rw [erase_of_ne h hHolds hPrice, hLevel]
    exact ⟨fun hFits _ => hFits, fun hFits => hFits hPrice⟩

end

theorem not_allOrNothing_of_erased (hHolds : e.Holds tick.orderRef loc) (hNew : e.orderMap.lookup tick.matchNum = none)
    (hErased : e'.bookQueue = erase e.bookQueue tick.orderRef) : ¬ AllOrNothing e e' tick := by
  rintro (⟨loc', _, hBook⟩ | ⟨hSame, _⟩)
  · have hMem : (tick.matchNum, tick.qty) ∈ e'.bookQueue loc'.symbolIdx loc'.side tick.price := by
      rw [hBook, append]
      simp
    rw [hErased] at hMem
    exact h.lookup_eq_none_iff.mp hNew _ _ _ _ (mem_of_mem_filter hMem)
  · have hMem := h.mem_bookQueue.mpr ⟨_, _, hHolds, rfl, rfl⟩
    rw [← hSame.bookQueue, hErased] at hMem
    simp [erase] at hMem

theorem placeOrder_replaced_iff (hHolds : e.Holds tick.orderRef loc)
    (hLocate : e.locate tick.orderRef = some loc) (hPreflight : e.orderMap.canInsert tick.matchNum = .ok)
    (hQty : 0 < tick.qty ∧ tick.qty ≤ kMaxQuantity) :
    AllOrNothing e (replaceExit ((e.deleteOrder tick.orderRef loc).placeOrder loc.symbolIdx loc.side tick.matchNum
      tick.price tick.qty)).1 tick ↔
    (tick.price ≠ (e.levelAt loc).price → (e.bookQueue loc.symbolIdx loc.side tick.price).length < kMaxOrdersPerLevel ∧
      (e.bookQueue loc.symbolIdx loc.side tick.price = [] → e.levelCount loc.symbolIdx loc.side < kLevelsPerSide ∨
        (e.levelAt loc).orderCount = 1)) := by
  have hRetired := deleteOrder_spec h hHolds
  obtain ⟨hLive, hNew, hRoom⟩ := OrderRefMap.canInsert_ok hPreflight
  have hPlaced := placeOrder_spec loc.side tick.price hRetired.inv (h.symbol_lt hHolds)
    (hRetired.lookup_eq_none h hNew) hQty
  rw [← fits_iff h hHolds hRetired]
  generalize e.deleteOrder tick.orderRef loc = e₁ at *
  cases hResult : e₁.placeOrder loc.symbolIdx loc.side tick.matchNum tick.price tick.qty with
  | mk e₂ outcome =>
    rw [hResult] at hPlaced
    cases hPlaced with
    | applied hInv hBook _ hLength hDepth =>
      refine ⟨fun _ => ⟨hLength, hDepth⟩, fun _ => .inl ⟨loc, hLocate, ?_⟩⟩
      rw [(SameBook.replaceExit _).bookQueue, hBook, hRetired.book]
    | maxDepth hNone hDepth =>
      refine ⟨fun hAtomic => absurd hAtomic (not_allOrNothing_of_erased h hHolds hNew ?_), fun hFits => ?_⟩
      · rw [(SameBook.replaceExit _).bookQueue, hRetired.book]
      · have := hFits.2 hNone
        omega
    | levelFull hFull =>
      refine ⟨fun hAtomic => absurd hAtomic (not_allOrNothing_of_erased h hHolds hNew ?_), fun hFits => ?_⟩
      · rw [(SameBook.replaceExit _).bookQueue, hRetired.book]
      · omega
    | mapRefused _ _ _ hNoRoom => exact absurd ⟨hLive, hRetired.room _ hRoom⟩ hNoRoom

end

/-! ## The event -/

variable {e₀ : LobEngine}

theorem SameBook.allOrNothing_iff (h : SameBook e e₀) (hStats : e₀.stats.rejected = e.stats.rejected) :
    AllOrNothing e e' tick ↔ AllOrNothing e₀ e' tick := by
  unfold AllOrNothing Replaced
  rw [h.locate, h.bookQueue, hStats]
  refine or_congr_right (and_congr_left fun _ => ⟨fun hSame => ?_, h.trans⟩)
  exact ⟨hSame.lob.trans h.lob.symm, hSame.orderMap.trans h.orderMap.symm, hSame.levelCount.trans h.levelCount.symm⟩

theorem SameBook.replaceFits_iff (h : SameBook e e₀) : ReplaceFits e tick ↔ ReplaceFits e₀ tick := by
  unfold ReplaceFits
  rw [h.locate, h.bookQueue, h.orderMap, h.lob, h.levelCount]

theorem allOrNothing_reject (hSame : SameBook e e') (hStats : e'.stats.rejected = e.stats.rejected) :
    AllOrNothing e e'.countRejected tick :=
  Or.inr ⟨hSame.trans (SameBook.setStats _ _), congrArg _ hStats⟩

theorem onOrderReplace_allOrNothing_iff (h : e.Inv noVacancy) (hEvent : eventOf tick ≠ .ignored)
    (hQty : 0 < tick.qty ∧ tick.qty ≤ kMaxQuantity) :
    AllOrNothing e (e.onOrderReplace tick).1 tick ↔ ReplaceFits e tick := by
  have hSame := SameBook.setStats e { e.stats with replaces := e.stats.replaces + 1 }
  have hStart := hSame.inv h
  rw [hSame.allOrNothing_iff rfl, hSame.replaceFits_iff]
  simp only [onOrderReplace]
  generalize e.setStats { e.stats with replaces := e.stats.replaces + 1 } = e₀ at *
  cases hLocate : e₀.locate tick.orderRef with
  | none =>
    refine ⟨fun _ loc _ hLoc => ?_, fun _ => allOrNothing_reject (SameBook.refl e₀) rfl⟩
    rw [hLocate] at hLoc
    cases hLoc
  | some loc =>
    simp only
    by_cases hPreflight : e₀.orderMap.canInsert tick.matchNum = .ok
    · rw [if_neg (not_not.mpr hPreflight),
        placeOrder_replaced_iff hStart (hStart.locate_eq_some_iff.mp hLocate) hLocate hPreflight hQty]
      constructor
      · intro hFits _ _ hLoc' _
        rw [hLocate] at hLoc'
        cases hLoc'
        exact hFits
      · intro hFits
        exact hFits loc hEvent hLocate hPreflight
    · rw [if_pos hPreflight]
      exact ⟨fun _ _ _ _ hOk => absurd hOk hPreflight, fun _ => allOrNothing_reject (SameBook.refl e₀) rfl⟩

theorem touch_stats (e : LobEngine) (tick : TickMsg) : (e.touch tick).stats = e.stats := by
  unfold touch
  split <;> rfl

/-- In every reachable state a Replace event is all-or-nothing iff the replacement has room. -/
theorem replace_allOrNothing_iff (lob : Nat → Side → Nat → PriceLevel) (values : Nat → OrderLocation)
    (ticks : List TickMsg) (tick : TickMsg) (hType : tick.msgType = Itch.kOrderReplace) :
    AllOrNothing ((init lob values).run ticks) (((init lob values).run ticks).process tick) tick ↔
      ReplaceFits ((init lob values).run ticks) tick := by
  have h := run_inv (init_inv lob values) ticks
  generalize (init lob values).run ticks = e at *
  have hAdd : ¬ (tick.msgType = kAddOrder ∨ tick.msgType = kAddOrderMPID) := by
    rw [hType]
    decide
  have hExecuted : ¬ (tick.msgType = kOrderExecuted ∨ tick.msgType = kOrderExecPrice) := by
    rw [hType]
    decide
  have hCancel : ¬ tick.msgType = kOrderCancel := by
    rw [hType]
    decide
  have hDelete : ¬ tick.msgType = kOrderDelete := by
    rw [hType]
    decide
  have hTouch := SameBook.touch e tick
  have hIgnored : eventOf tick = .ignored → ReplaceFits e tick := fun hEvent _ hNot => absurd hEvent hNot
  by_cases hSym : kSymbols ≤ tick.symbolIdx
  · have hStep : e.process tick = e.countRejected := by
      rw [process, step, if_pos hSym]
      rfl
    rw [hStep]
    refine ⟨fun _ => hIgnored ?_, fun _ => allOrNothing_reject (SameBook.refl e) rfl⟩
    rw [eventOf, if_pos hSym]
  by_cases hFields : (tick.orderRef = 0 || tick.matchNum = 0 || tick.orderRef = tick.matchNum ||
      !isValidQuantity tick.qty || !isValidPrice tick.price) = true
  · have hStep : e.process tick = (e.touch tick).countRejected := by
      simp only [process, step, if_neg hSym, if_neg hAdd, if_neg hExecuted, if_neg hCancel, if_neg hDelete,
        if_pos hType, if_pos hFields]
      rfl
    rw [hStep]
    refine ⟨fun _ => hIgnored ?_, fun _ => allOrNothing_reject hTouch (by rw [touch_stats])⟩
    simp only [eventOf, if_neg hSym, if_neg hAdd, if_neg hExecuted, if_neg hCancel, if_neg hDelete,
      if_pos hType, if_pos hFields]
  · have hStep : e.process tick = ((e.touch tick).onOrderReplace tick).1 := by
      simp only [process, step, if_neg hSym, if_neg hAdd, if_neg hExecuted, if_neg hCancel, if_neg hDelete,
        if_pos hType, if_neg hFields]
    have hEvent : eventOf tick ≠ .ignored := by
      simp only [eventOf, if_neg hSym, if_neg hAdd, if_neg hExecuted, if_neg hCancel, if_neg hDelete,
        if_pos hType, if_neg hFields]
      exact BookEvent.noConfusion
    have hQty : 0 < tick.qty ∧ tick.qty ≤ kMaxQuantity := by
      simp at hFields
      exact isValidQuantity_iff.mp hFields.1.2
    rw [hStep, hTouch.allOrNothing_iff (by rw [touch_stats]), hTouch.replaceFits_iff]
    exact onOrderReplace_allOrNothing_iff (hTouch.inv h) hEvent hQty

def fullLevelTicks : List TickMsg :=
  { msgType := Itch.kAddOrder, flags := TickFlags.kBuy, price := 100, qty := 5, orderRef := 100 } ::
    (List.range 16).map fun i =>
      { msgType := Itch.kAddOrder, flags := TickFlags.kBuy, price := 101, qty := 1, orderRef := UInt64.ofNat (i + 1) }

def moveToFullLevel : TickMsg :=
  { msgType := Itch.kOrderReplace, price := 101, qty := 5, orderRef := 100, matchNum := 200 }

theorem not_allOrNothing_of_lost (h : e'.Inv noVacancy) (hStored : e.orderMap.lookup tick.orderRef ≠ none)
    (hLost : e'.orderMap.lookup tick.orderRef = none) (hMissing : e'.orderMap.lookup tick.matchNum = none) :
    ¬ AllOrNothing e e' tick := by
  rintro (⟨loc, _, hBook⟩ | ⟨hSame, _⟩)
  · refine h.lookup_eq_none_iff.mp hMissing loc.symbolIdx loc.side tick.price tick.qty ?_
    rw [hBook, append]
    simp
  · rw [hSame.orderMap] at hLost
    exact hStored hLost

theorem replace_allOrNothing_iff_full : moveToFullLevel.msgType = Itch.kOrderReplace ∧
    (AllOrNothing (fresh.run fullLevelTicks) ((fresh.run fullLevelTicks).process moveToFullLevel) moveToFullLevel ↔
      ReplaceFits (fresh.run fullLevelTicks) moveToFullLevel) :=
  ⟨rfl, replace_allOrNothing_iff _ _ fullLevelTicks moveToFullLevel rfl⟩

/-- The bid is gone and its replacement is nowhere. -/
theorem replace_loses_order : (fresh.run fullLevelTicks).orderMap.lookup 100 = some ⟨0, .bid, 1, 0⟩ ∧
    ((fresh.run fullLevelTicks).process moveToFullLevel).orderMap.lookup 100 = none ∧
    ((fresh.run fullLevelTicks).process moveToFullLevel).orderMap.lookup 200 = none ∧
    ¬ AllOrNothing (fresh.run fullLevelTicks) ((fresh.run fullLevelTicks).process moveToFullLevel)
      moveToFullLevel := by
  have hBefore : (fresh.run fullLevelTicks).orderMap.lookup 100 = some ⟨0, .bid, 1, 0⟩ := by decide +kernel
  have hLost : ((fresh.run fullLevelTicks).process moveToFullLevel).orderMap.lookup 100 = none := by decide +kernel
  have hMissing : ((fresh.run fullLevelTicks).process moveToFullLevel).orderMap.lookup 200 = none := by decide +kernel
  refine ⟨hBefore, hLost, hMissing, not_allOrNothing_of_lost (step_inv (run_inv (init_inv _ _) _) _) ?_ hLost hMissing⟩
  rw [show moveToFullLevel.orderRef = 100 from rfl, hBefore]
  exact Option.some_ne_none _

end LuvFlicker.LobEngine
