import LuvFlicker.Lob.Refinement

/-!
# The symbols an event touches

A new order goes to the symbol of its event. Every other event finds its order
through the reference map and changes the symbol the map names, which no handler
compares with the symbol of the event.
-/

namespace LuvFlicker.LobEngine

open Config

/-- The levels, their slots and the level counts of every symbol but `sym` are the same. -/
structure SameElsewhere (e e' : LobEngine) (sym : Nat) : Prop where
  lob : ∀ s, s ≠ sym → e'.lob s = e.lob s
  levelCount : ∀ s, s ≠ sym → e'.levelCount s = e.levelCount s

namespace SameElsewhere

variable {e e' e'' : LobEngine} {sym : Nat}

theorem trans (h : SameElsewhere e e' sym) (h' : SameElsewhere e' e'' sym) : SameElsewhere e e'' sym :=
  ⟨fun s hs => (h'.lob s hs).trans (h.lob s hs), fun s hs => (h'.levelCount s hs).trans (h.levelCount s hs)⟩

theorem of_sameBook (h : SameBook e e') (sym : Nat) : SameElsewhere e e' sym :=
  ⟨fun _ _ => by rw [h.lob], fun _ _ => by rw [h.levelCount]⟩

theorem bookQueue (h : SameElsewhere e e' sym) {s : Nat} (hs : s ≠ sym) : e'.bookQueue s = e.bookQueue s := by
  funext t p
  rw [LobEngine.bookQueue, LobEngine.bookQueue, h.lob s hs, h.levelCount s hs]

section

variable (e : LobEngine)

theorem setMap (m : OrderRefMap) (sym : Nat) : SameElsewhere e (e.setMap m) sym :=
  ⟨fun _ _ => rfl, fun _ _ => rfl⟩

variable (sym : Nat) (side : Side)

theorem setSide (levels : Nat → PriceLevel) : SameElsewhere e (e.setSide sym side levels) sym := by
  refine ⟨fun s hs => ?_, fun _ _ => rfl⟩
  funext t
  exact e.lob_setSide_of_ne _ fun hst => hs hst.1

theorem setLevel (d : Nat) (lvl : PriceLevel) : SameElsewhere e (e.setLevel sym side d lvl) sym := setSide e sym side _

theorem setLevelCount (n : Nat) : SameElsewhere e (e.setLevelCount sym side n) sym := by
  refine ⟨fun s _ => by rw [lob_setLevelCount], fun s hs => ?_⟩
  funext t
  exact e.levelCount_setLevelCount_of_ne n fun hst => hs hst.1

theorem shift (levels : Nat → PriceLevel) (first last : Nat) :
    SameElsewhere e ((e.setSide sym side levels).refreshLevelLocations sym side first last) sym :=
  (setSide e sym side _).trans (setMap _ _ sym)

end

theorem insertLevelImpl {side : Side} {price : Int} {d : Nat}
    (hInsert : e.insertLevelImpl sym side price = some (e', d)) : SameElsewhere e e' sym := by
  unfold LobEngine.insertLevelImpl at hInsert
  simp only at hInsert
  split at hInsert
  · cases hInsert
  obtain ⟨rfl, -⟩ := Prod.mk.inj (Option.some.inj hInsert)
  refine trans ?_ (setLevelCount _ sym side _)
  refine trans ?_ (setLevel _ sym side _ _)
  split
  · exact shift e sym side _ _ _
  · exact of_sameBook (SameBook.refl e) sym

variable (e : LobEngine)

section

variable (sym : Nat) (side : Side)

theorem removeLevelIfEmpty (d : Nat) : SameElsewhere e (e.removeLevelIfEmpty sym side d) sym := by
  unfold LobEngine.removeLevelIfEmpty
  simp only
  split
  · exact of_sameBook (SameBook.refl e) sym
  split
  · exact of_sameBook (SameBook.refl e) sym
  refine trans ?_ (setLevelCount _ sym side _)
  refine trans ?_ (setLevel _ sym side _ _)
  split
  · exact shift e sym side _ _ _
  · exact of_sameBook (SameBook.refl e) sym

theorem rollbackSlot (d : Nat) (lvl : PriceLevel) (i : Nat) : SameElsewhere e (e.rollbackSlot sym side d lvl i) sym :=
  (setLevel e sym side d _).trans (removeLevelIfEmpty _ sym side d)

theorem placeAt (ref : UInt64) (qty : Int) (d : Nat) : SameElsewhere e (e.placeAt sym side ref qty d).1 sym := by
  unfold LobEngine.placeAt
  split
  · exact of_sameBook (SameBook.refl e) sym
  simp only
  split
  · exact rollbackSlot e sym side d _ _
  split
  · exact (setLevel e sym side d _).trans (setMap _ _ sym)
  · exact rollbackSlot e sym side d _ _

theorem placeOrder (ref : UInt64) (price qty : Int) : SameElsewhere e (e.placeOrder sym side ref price qty).1 sym := by
  unfold LobEngine.placeOrder
  split
  · exact placeAt e sym side ref qty _
  split
  · exact of_sameBook (SameBook.refl e) sym
  next hInsert => exact (insertLevelImpl hInsert).trans (placeAt _ sym side ref qty _)

end

theorem retireOrder (ref : UInt64) (loc : OrderLocation) : SameElsewhere e (e.retireOrder ref loc) loc.symbolIdx :=
  ((setLevel e _ _ _ _).trans (setMap _ _ _)).trans (removeLevelIfEmpty _ _ _ _)

theorem deleteOrder (ref : UInt64) (loc : OrderLocation) : SameElsewhere e (e.deleteOrder ref loc) loc.symbolIdx :=
  (setLevel e _ _ _ _).trans (retireOrder _ ref loc)

end SameElsewhere

/-! ## The order an event reaches -/

def reached (e : LobEngine) (tick : TickMsg) : Option OrderLocation :=
  match eventOf tick with
  | .reduce ref _ | .delete ref => e.locate ref
  | .replace ref newRef _ _ => if e.orderMap.canInsert newRef = .ok then e.locate ref else none
  | .ignored | .add _ _ => none

/-- The order an event reaches rests on the event's own symbol. -/
def OwnSymbol (e : LobEngine) (tick : TickMsg) : Prop :=
  ∀ loc, e.reached tick = some loc → loc.symbolIdx = tick.symbolIdx

variable {e e₀ : LobEngine} {tick : TickMsg} {sym : Nat} {loc : OrderLocation}

open SameElsewhere

theorem onAddOrder_frame {e : LobEngine} (tick : TickMsg) : SameElsewhere e (e.onAddOrder tick).1 tick.symbolIdx := by
  have hStats := SameElsewhere.of_sameBook
    (SameBook.setStats e { e.stats with adds := e.stats.adds + 1 }) tick.symbolIdx
  refine hStats.trans ?_
  simp only [onAddOrder]
  generalize e.setStats { e.stats with adds := e.stats.adds + 1 } = e₀
  have hCount : ∀ e' : LobEngine, SameElsewhere e' e'.countRejected tick.symbolIdx :=
    fun _ => .of_sameBook (SameBook.setStats _ _) _
  split
  · exact hCount e₀
  have hPlaced := SameElsewhere.placeOrder e₀ tick.symbolIdx (sideOf tick.flags) tick.orderRef tick.price tick.qty
  split
  · exact hPlaced
  · exact hPlaced.trans (hCount _)

section

variable (hLocate : ∀ loc, e.locate tick.orderRef = some loc → loc.symbolIdx = sym)

include hLocate

theorem reduceOrder_frame : SameElsewhere e (e.reduceOrder tick).1 sym := by
  unfold reduceOrder
  split
  · exact .of_sameBook (SameBook.refl e) sym
  rename_i loc hLoc
  obtain rfl := hLocate loc hLoc
  have hLevel := SameElsewhere.setLevel e loc.symbolIdx loc.side loc.levelIdx
  simp only
  split
  · exact (hLevel _).trans (SameElsewhere.retireOrder _ _ loc)
  · exact hLevel _

theorem onOrderDelete_frame : SameElsewhere e (e.onOrderDelete tick).1 sym := by
  have hStats := SameBook.setStats e { e.stats with deletes := e.stats.deletes + 1 }
  refine (of_sameBook hStats sym).trans ?_
  unfold onOrderDelete
  simp only
  split
  · exact .of_sameBook (SameBook.refl _) sym
  next loc hLoc =>
    obtain rfl := hLocate loc hLoc
    exact SameElsewhere.deleteOrder _ _ loc

end

theorem onOrderReplace_frame (hLocate : e.orderMap.canInsert tick.matchNum = .ok →
    ∀ loc, e.locate tick.orderRef = some loc → loc.symbolIdx = sym) :
    SameElsewhere e (e.onOrderReplace tick).1 sym := by
  have hStats := SameBook.setStats e { e.stats with replaces := e.stats.replaces + 1 }
  have hCount : ∀ e' : LobEngine, SameElsewhere e' e'.countRejected sym :=
    fun _ => .of_sameBook (SameBook.setStats _ _) sym
  refine (SameElsewhere.of_sameBook hStats sym).trans ?_
  unfold onOrderReplace
  simp only
  split
  · exact hCount _
  rename_i loc hLoc
  split
  · exact hCount _
  rename_i hPreflight
  obtain rfl := hLocate (not_not.mp hPreflight) loc hLoc
  have hDeleted := SameElsewhere.deleteOrder
    (e.setStats { e.stats with replaces := e.stats.replaces + 1 }) tick.orderRef loc
  have hPlaced := hDeleted.trans (SameElsewhere.placeOrder _ _ loc.side tick.matchNum tick.price tick.qty)
  exact hPlaced.trans (.of_sameBook (SameBook.replaceExit _) _)

theorem process_frame (hOwn : e.OwnSymbol tick) : SameElsewhere e (e.process tick) tick.symbolIdx := by
  have hTouch := SameBook.touch e tick
  have hStep := step_dispatched e tick
  unfold OwnSymbol reached at hOwn
  unfold process
  generalize eventOf tick = event at hStep hOwn
  generalize e.step tick = result at hStep ⊢
  cases hStep with
  | ignored hSame => exact .of_sameBook hSame _
  | add => exact (of_sameBook hTouch _).trans (onAddOrder_frame tick)
  | reduce hSame =>
    rw [← hSame.locate] at hOwn
    exact (of_sameBook hSame _).trans (reduceOrder_frame hOwn)
  | delete =>
    rw [← hTouch.locate] at hOwn
    exact (of_sameBook hTouch _).trans (onOrderDelete_frame hOwn)
  | replace =>
    rw [← hTouch.locate, ← hTouch.orderMap] at hOwn
    refine (of_sameBook hTouch _).trans (onOrderReplace_frame fun hPreflight loc hLoc => hOwn loc ?_)
    simp [if_pos hPreflight, hLoc]

/-! ## The reached order changes -/

def Disturbed (e e' : LobEngine) (sym : Nat) : Prop :=
  ∃ t p order, order ∈ e.bookQueue sym t p ∧ order ∉ e'.bookQueue sym t p

variable {e' : LobEngine}

theorem disturbed_of_lost {ref : UInt64} (h : e.Inv noVacancy) (hHolds : e.Holds ref loc)
    (hLost : ∀ s t p q, (ref, q) ∉ e'.bookQueue s t p) : Disturbed e e' loc.symbolIdx :=
  ⟨_, _, _, h.mem_bookQueue.mpr ⟨_, _, hHolds, rfl, rfl⟩, hLost _ _ _ _⟩

theorem not_mem_erase {q : BookView} {ref : UInt64} {s : Nat} {t : Side} {p x : Int} : (ref, x) ∉ q.erase ref s t p := by
  simp [BookView.erase]

section

variable (h : e.Inv noVacancy)
include h

theorem reduceOrder_disturbs (hQty : 0 < tick.qty) (hHolds : e.Holds tick.orderRef loc) :
    Disturbed e (e.reduceOrder tick).1 loc.symbolIdx := by
  rcases reduceOrder_spec h hQty with ⟨hNone, _⟩ | ⟨_, s, t, p, q, hEq, hMem, _, _, hBook⟩
  · exact absurd hNone (h.located.lookup_ne_none hHolds)
  obtain ⟨⟨rfl, rfl⟩, rfl⟩ := h.eq_of_mem_bookQueue hHolds hMem
  refine ⟨_, _, _, hMem, ?_⟩
  rw [hEq, hBook]
  split
  · intro hAfter
    obtain ⟨⟨_, x⟩, _, hEntry⟩ := List.mem_map.mp hAfter
    split at hEntry
    · have hSame := congrArg Prod.snd hEntry
      omega
    next hOther => exact hOther (congrArg _ hEntry)
  · exact not_mem_erase

theorem onOrderDelete_disturbs (hHolds : e.Holds tick.orderRef loc) :
    Disturbed e (e.onOrderDelete tick).1 loc.symbolIdx := by
  have hSame := SameBook.setStats e { e.stats with deletes := e.stats.deletes + 1 }
  refine disturbed_of_lost h hHolds fun s t p q => ?_
  have hStart := hSame.inv h
  have hHolds' := (hSame.holds_iff _ _).mpr hHolds
  simp only [onOrderDelete, hStart.locate_eq_some_iff.mpr hHolds']
  rw [(deleteOrder_spec hStart hHolds').book]
  exact not_mem_erase

theorem onOrderReplace_disturbs (hOther : tick.orderRef ≠ tick.matchNum)
    (hQty : 0 < tick.qty ∧ tick.qty ≤ Numeric.kMaxQuantity) (hHolds : e.Holds tick.orderRef loc)
    (hPreflight : e.orderMap.canInsert tick.matchNum = .ok) : Disturbed e (e.onOrderReplace tick).1 loc.symbolIdx := by
  have hSame := SameBook.setStats e { e.stats with replaces := e.stats.replaces + 1 }
  refine disturbed_of_lost h hHolds fun s t p q => ?_
  have hStart := hSame.inv h
  have hHolds' := (hSame.holds_iff _ _).mpr hHolds
  rw [← hSame.orderMap] at hPreflight
  simp only [onOrderReplace, hStart.locate_eq_some_iff.mpr hHolds', if_neg (not_not.mpr hPreflight)]
  have hRetired := deleteOrder_spec hStart hHolds'
  obtain ⟨_, hNew, _⟩ := OrderRefMap.canInsert_ok hPreflight
  have hPlaced := placeOrder_spec loc.side tick.price hRetired.inv (hStart.symbol_lt hHolds')
    (hRetired.lookup_eq_none hStart hNew) hQty
  rw [(SameBook.replaceExit _).bookQueue]
  generalize LobEngine.deleteOrder _ tick.orderRef loc = e₁ at *
  have hGone : ∀ s t p q, (tick.orderRef, q) ∉ e₁.bookQueue s t p := by
    intro s t p q
    rw [hRetired.book]
    exact not_mem_erase
  generalize e₁.placeOrder loc.symbolIdx loc.side tick.matchNum tick.price tick.qty = result at hPlaced ⊢
  cases hPlaced with
  | applied _ hBook =>
    intro hMem
    rw [hBook, BookView.append] at hMem
    split at hMem
    · rcases List.mem_append.mp hMem with hMem | hMem
      · exact hGone _ _ _ _ hMem
      · exact hOther (congrArg Prod.fst (List.mem_singleton.mp hMem))
    · exact hGone _ _ _ _ hMem
  | maxDepth | levelFull => exact hGone _ _ _ _
  | mapRefused _ hBook =>
    rw [hBook]
    exact hGone _ _ _ _

end

theorem Disturbed.of_sameBook (hSame : SameBook e e₀) (h : Disturbed e₀ e' sym) : Disturbed e e' sym := by
  obtain ⟨t, p, _, hBefore, hAfter⟩ := h
  rw [hSame.bookQueue] at hBefore
  exact ⟨t, p, _, hBefore, hAfter⟩

theorem process_disturbs (h : e.Inv noVacancy) (hReached : e.reached tick = some loc) :
    Disturbed e (e.process tick) loc.symbolIdx := by
  have hTouch := SameBook.touch e tick
  have hStep := step_dispatched e tick
  unfold reached at hReached
  unfold process
  generalize eventOf tick = event at hStep hReached
  generalize e.step tick = result at hStep ⊢
  cases hStep with
  | ignored | add => cases hReached
  | reduce hSame hQty =>
    have hHolds := (hSame.holds_iff _ _).mpr (h.locate_eq_some_iff.mp hReached)
    exact (reduceOrder_disturbs (hSame.inv h) hQty hHolds).of_sameBook hSame
  | delete =>
    have hHolds := (hTouch.holds_iff _ _).mpr (h.locate_eq_some_iff.mp hReached)
    exact (onOrderDelete_disturbs (hTouch.inv h) hHolds).of_sameBook hTouch
  | replace _ hOther hQty =>
    simp only [Option.ite_none_right_eq_some] at hReached
    have hHolds := (hTouch.holds_iff _ _).mpr (h.locate_eq_some_iff.mp hReached.2)
    rw [← hTouch.orderMap] at hReached
    exact (onOrderReplace_disturbs (hTouch.inv h) hOther hQty hHolds hReached.1).of_sameBook hTouch

/-- In every reachable state an event leaves all symbols but its own as they were iff the order it
reaches, if any, rests on its own symbol. -/
theorem process_sameElsewhere_iff (lob : Nat → Side → Nat → PriceLevel) (values : Nat → OrderLocation)
    (ticks : List TickMsg) (tick : TickMsg) :
    SameElsewhere ((init lob values).run ticks) (((init lob values).run ticks).process tick) tick.symbolIdx ↔
      ((init lob values).run ticks).OwnSymbol tick := by
  have h := run_inv (init_inv lob values) ticks
  refine ⟨fun hFrame _ hReached => ?_, process_frame⟩
  by_contra hForeign
  obtain ⟨t, p, _, hBefore, hAfter⟩ := process_disturbs h hReached
  rw [hFrame.bookQueue hForeign] at hAfter
  exact hAfter hBefore

def restingBid : List TickMsg :=
  [{ msgType := Itch.kAddOrder, flags := TickFlags.kBuy, symbolIdx := 3, price := 100, qty := 5, orderRef := 7 }]

def foreignDelete : TickMsg := { msgType := Itch.kOrderDelete, symbolIdx := 5, orderRef := 7 }

/-- The event of symbol 5 closes the bid level of symbol 3. -/
theorem foreignDelete_touches_symbol : (fresh.run restingBid).levelCount 3 .bid = 1 ∧
    ((fresh.run restingBid).process foreignDelete).levelCount 3 .bid = 0 ∧
    ¬ SameElsewhere (fresh.run restingBid) ((fresh.run restingBid).process foreignDelete) foreignDelete.symbolIdx := by
  have hBefore : (fresh.run restingBid).levelCount 3 .bid = 1 := by decide +kernel
  have hAfter : ((fresh.run restingBid).process foreignDelete).levelCount 3 .bid = 0 := by decide +kernel
  refine ⟨hBefore, hAfter, fun hFrame => ?_⟩
  have hSame := congrFun (hFrame.levelCount 3 (by decide)) Side.bid
  exact absurd hSame (by decide)

end LuvFlicker.LobEngine
