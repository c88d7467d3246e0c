import LuvFlicker.Lob.Shift

/-!
# Placing, reducing and taking out an order

The three ways the handlers change the orders of a level, with their effect on
the queues of the book: an order is appended, its quantity is rewritten in
place, or it is erased.
-/

namespace LuvFlicker.LobEngine

open Config Function List PriceLevel

/-- What a book shows: the orders at each price of each symbol and side, in time priority. -/
abbrev BookView := Nat → Side → Int → List (UInt64 × Int)

namespace BookView

def append (q : BookView) (sym : Nat) (side : Side) (price : Int) (order : UInt64 × Int) : BookView :=
  fun s t p => if (s = sym ∧ t = side) ∧ p = price then q s t p ++ [order] else q s t p

def erase (q : BookView) (ref : UInt64) : BookView :=
  fun s t p => (q s t p).filter fun order => order.1 ≠ ref

def setQty (q : BookView) (ref : UInt64) (qty : Int) : BookView :=
  fun s t p => (q s t p).map fun order => if order.1 = ref then (ref, qty) else order

end BookView

variable {e : LobEngine} {Vacant : Nat → Side → Nat → Prop} {sym d : Nat} {side : Side}
  {lvl : PriceLevel} {path : List Nat} {m : OrderRefMap} {ref : UInt64} {loc : OrderLocation}

variable {i : Nat}

theorem holds_setLevel_self : ((e.setLevel sym side d lvl).setMap m).Holds ref ⟨sym, side, d, i⟩ ↔
      d < e.levelCount sym side ∧ lvl.HoldsAt ref i := by
  simp [Holds]

theorem holds_setLevel_of_ne (hLoc : ¬ ((loc.symbolIdx = sym ∧ loc.side = side) ∧ loc.levelIdx = d)) :
    ((e.setLevel sym side d lvl).setMap m).Holds ref loc ↔ e.Holds ref loc := by
  by_cases hSide : loc.symbolIdx = sym ∧ loc.side = side
  · obtain ⟨rfl, rfl⟩ := hSide
    have hd : loc.levelIdx ≠ d := fun h => hLoc ⟨⟨rfl, rfl⟩, h⟩
    simp [Holds, setLevel, hd]
  · rw [Holds, Holds, lob_setMap, levelCount_setMap, setLevel, lob_setSide_of_ne _ _ hSide, levelCount_setSide]

theorem Inv.setLevel (Vacant' : Nat → Side → Nat → Prop) (h : e.Inv Vacant) (hSym : sym < kSymbols)
    (hd : d < e.levelCount sym side)
    (hInv : lvl.LevelInv path) (hPrice : lvl.price = (e.lob sym side d).price)
    (hVacant : ∀ s t i, ¬ ((s = sym ∧ t = side) ∧ i = d) → Vacant s t i → Vacant' s t i)
    (hEmpty : path = [] → Vacant' sym side d) (hLocated : ((e.setLevel sym side d lvl).setMap m).Located) :
    ((e.setLevel sym side d lvl).setMap m).Inv Vacant' ∧
    ∀ s t p, ((e.setLevel sym side d lvl).setMap m).bookQueue s t p =
      if (s = sym ∧ t = side) ∧ p = (e.lob sym side d).price then lvl.queue else e.bookQueue s t p := by
  have hOnly : OnlySide e ((e.setLevel sym side d lvl).setMap m) sym side :=
    ⟨fun _ _ hst => e.lob_setSide_of_ne _ hst, fun _ _ _ => rfl, rfl⟩
  obtain ⟨hSide, hQueue⟩ := (h.sides sym side).setLevel _ hd hInv hPrice
    (fun i _ hi => hVacant sym side i fun hEq => hi hEq.2) hEmpty
  refine ⟨hOnly.inv h hSym ?_ (fun s t i hst => hVacant s t i fun hEq => hst hEq.1) hLocated, fun s t p => ?_⟩
  · simpa [LobEngine.setLevel] using hSide
  by_cases hst : s = sym ∧ t = side
  · obtain ⟨rfl, rfl⟩ := hst
    simpa [bookQueue, LobEngine.setLevel] using hQueue p
  · rw [hOnly.bookQueue_of_ne hst, if_neg fun hEq => hst hEq.1]

theorem Inv.mem_bookQueue (h : e.Inv Vacant) {s : Nat} {t : Side} {p q : Int} :
    (ref, q) ∈ e.bookQueue s t p ↔ ∃ d i, e.Holds ref ⟨s, t, d, i⟩ ∧ (e.lob s t d).price = p ∧
      ((e.lob s t d).orders i).qty = q := by
  constructor
  · intro hMem
    rcases (h.sides s t).sideQueue_cases p with ⟨d, hd, hPrice, hQueue⟩ | ⟨_, hQueue⟩
    · obtain ⟨path, hPath, _⟩ := (h.sides s t).level d hd
      rw [bookQueue, hQueue, hPath.queue_eq] at hMem
      obtain ⟨i, hi, hEntry⟩ := mem_map.mp hMem
      cases hEntry
      exact ⟨d, i, ⟨hd, hPath.chain.holdsAt_iff.mpr ⟨hi, rfl⟩⟩, hPrice, rfl⟩
    · rw [bookQueue, hQueue] at hMem
      cases hMem
  · rintro ⟨d, i, ⟨hd, hAt⟩, hPrice, hQty⟩
    obtain ⟨path, hPath, _⟩ := (h.sides s t).level d hd
    obtain ⟨hi, hRef⟩ := hPath.chain.holdsAt_iff.mp hAt
    rw [bookQueue, (h.sides s t).sideQueue_eq hd hPrice, hPath.queue_eq]
    exact mem_map.mpr ⟨i, hi, Prod.ext hRef hQty⟩

theorem Inv.eq_of_mem_bookQueue (h : e.Inv Vacant) (hHolds : e.Holds ref loc) {s : Nat} {t : Side} {p q : Int}
    (hMem : (ref, q) ∈ e.bookQueue s t p) :
    (s = loc.symbolIdx ∧ t = loc.side) ∧ p = (e.levelAt loc).price := by
  obtain ⟨d, i, hHolds', hPrice, _⟩ := h.mem_bookQueue.mp hMem
  obtain rfl := h.located.unique hHolds hHolds'
  exact ⟨⟨rfl, rfl⟩, hPrice.symm⟩

/-! ## Placing -/

variable {qty : Int}

theorem located_place (h : e.Located) (hd : d < e.levelCount sym side)
    (hPath : (e.lob sym side d).LevelInv path) (hNew : e.orderMap.lookup ref = none) (hChain : lvl.Chain (path ++ [i]))
    (hEntry : lvl.entryOf = update (e.lob sym side d).entryOf i (ref, qty)) (hFresh : i ∉ path)
    (hWf : m.Wf) (hLookup : m.lookup = update e.orderMap.lookup ref (some ⟨sym, side, d, i⟩)) :
    ((e.setLevel sym side d lvl).setMap m).Located := by
  refine ⟨hWf, fun r loc => ?_⟩
  rw [orderMap_setMap, hLookup]
  have hIff : ((e.setLevel sym side d lvl).setMap m).Holds r loc ↔
      e.Holds r loc ∨ r = ref ∧ loc = ⟨sym, side, d, i⟩ := by
    by_cases hLoc : (loc.symbolIdx = sym ∧ loc.side = side) ∧ loc.levelIdx = d
    · obtain ⟨s, t, d', j⟩ := loc
      obtain ⟨⟨rfl, rfl⟩, rfl⟩ := hLoc
      rw [holds_setLevel_self, hChain.holdsAt_iff, hEntry, Holds, hPath.chain.holdsAt_iff]
      by_cases hj : j = i
      · subst hj
        simp [hd, hFresh, eq_comm]
      · simp [hj, hd]
    · rw [holds_setLevel_of_ne hLoc]
      refine (or_iff_left ?_).symm
      rintro ⟨-, rfl⟩
      exact hLoc ⟨⟨rfl, rfl⟩, rfl⟩
  rw [hIff]
  by_cases hr : r = ref
  · subst hr
    rw [update_self, or_iff_right fun hHolds => h.lookup_ne_none hHolds hNew]
    simp [eq_comm]
  · rw [update_of_ne hr, h.lookup_iff]
    simp [hr]

open BookView

theorem Inv.place (h : e.Inv (vacantAt sym side d)) (hSym : sym < kSymbols) (hd : d < e.levelCount sym side)
    (hPath : (e.lob sym side d).LevelInv path) (hAlloc : (e.lob sym side d).allocSlot = some i)
    (hNew : e.orderMap.lookup ref = none) (hQty : 0 < qty ∧ qty ≤ Numeric.kMaxQuantity)
    (hLvl : lvl = { ((e.lob sym side d).fillSlot i side ref qty).linkSlot i with
      totalQty := (e.lob sym side d).totalQty + qty, orderCount := (e.lob sym side d).orderCount + 1 })
    (hWf : m.Wf) (hLookup : m.lookup = update e.orderMap.lookup ref (some ⟨sym, side, d, i⟩)) :
    ((e.setLevel sym side d lvl).setMap m).Inv noVacancy ∧ ((e.setLevel sym side d lvl).setMap m).bookQueue =
      append e.bookQueue sym side (e.lob sym side d).price (ref, qty) := by
  obtain ⟨hi, hFresh⟩ := allocSlot_eq_some hPath.chain hAlloc
  have hPlaced : lvl.LevelInv (path ++ [i]) := hLvl ▸ hPath.place hi hFresh side ref hQty
  have hEntry : lvl.entryOf = update (e.lob sym side d).entryOf i (ref, qty) := by
    rw [← entryOf_link i side ref qty, hLvl]
    rfl
  have hPrice : lvl.price = (e.lob sym side d).price := by
    rw [hLvl]
    exact (linkSlot_sameOrders _ i).price
  have hQueue : lvl.queue = (e.lob sym side d).queue ++ [(ref, qty)] := by
    rw [hPlaced.queue_eq, hPath.queue_eq, hEntry, map_append, map_update_of_not_mem hFresh]
    simp
  obtain ⟨hInv, hBook⟩ := h.setLevel _ hSym hd hPlaced hPrice (fun _ _ _ hNe hV => hNe hV)
    (fun hNil => absurd hNil (by simp)) (located_place h.located hd hPath hNew hPlaced.chain hEntry hFresh hWf hLookup)
  refine ⟨hInv, ?_⟩
  funext s t p
  rw [hBook, append]
  split
  next hEq =>
    obtain ⟨⟨rfl, rfl⟩, rfl⟩ := hEq
    rw [hQueue, bookQueue, (h.sides _ _).sideQueue_eq hd rfl]
  · rfl

/-! ## Rewriting a level in place -/

theorem located_same (h : e.Located) (hPath : (e.lob sym side d).Chain path) (hChain : lvl.Chain path)
    (hIds : ∀ j ∈ path, (lvl.entryOf j).1 = ((e.lob sym side d).entryOf j).1) :
    ((e.setLevel sym side d lvl).setMap e.orderMap).Located := by
  refine ⟨h.wf, fun r loc => ?_⟩
  rw [orderMap_setMap, h.lookup_iff]
  by_cases hLoc : (loc.symbolIdx = sym ∧ loc.side = side) ∧ loc.levelIdx = d
  · obtain ⟨s, t, d', j⟩ := loc
    obtain ⟨⟨rfl, rfl⟩, rfl⟩ := hLoc
    rw [holds_setLevel_self, hChain.holdsAt_iff]
    refine and_congr_right fun _ => hPath.holdsAt_iff.trans (and_congr_right fun hj => ?_)
    rw [hIds j hj]
  · rw [holds_setLevel_of_ne hLoc]

theorem Inv.rewrite (h : e.Inv Vacant) (hSym : sym < kSymbols) (hd : d < e.levelCount sym side)
    (hPath : (e.lob sym side d).LevelInv path) (hInv : lvl.LevelInv path)
    (hPrice : lvl.price = (e.lob sym side d).price)
    (hEntry : ∀ j ∈ path, lvl.entryOf j = (e.lob sym side d).entryOf j) :
    (e.setLevel sym side d lvl).Inv Vacant ∧ (e.setLevel sym side d lvl).bookQueue = e.bookQueue := by
  have hVacant : path = [] → Vacant sym side d := by
    obtain ⟨path', hPath', hVacant⟩ := (h.sides sym side).level d hd
    rwa [hPath.chain.unique hPath'.chain]
  obtain ⟨hInv', hBook⟩ := h.setLevel _ hSym hd hInv hPrice (fun _ _ _ _ hV => hV) hVacant
    (located_same h.located hPath.chain hInv.chain fun j hj => congrArg _ (hEntry j hj))
  refine ⟨hInv', ?_⟩
  funext s t p
  refine (hBook s t p).trans ?_
  split
  next hEq =>
    obtain ⟨⟨rfl, rfl⟩, rfl⟩ := hEq
    rw [bookQueue, (h.sides _ _).sideQueue_eq hd rfl, hInv.queue_eq, hPath.queue_eq]
    exact map_congr_left hEntry
  · rfl

theorem Inv.reduce (h : e.Inv noVacancy) (hHolds : e.Holds ref loc) {delta : Int} (hLow : 0 ≤ delta)
    (hHigh : delta < ((e.lob loc.symbolIdx loc.side loc.levelIdx).orders loc.slotIdx).qty)
    (hLvl : lvl = (e.lob loc.symbolIdx loc.side loc.levelIdx).reduceSlot loc.slotIdx delta) :
    (e.setLevel loc.symbolIdx loc.side loc.levelIdx lvl).Inv noVacancy ∧
    (e.setLevel loc.symbolIdx loc.side loc.levelIdx lvl).bookQueue = setQty e.bookQueue ref
        (((e.lob loc.symbolIdx loc.side loc.levelIdx).orders loc.slotIdx).qty - delta) := by
  have hSym := h.symbol_lt hHolds
  obtain ⟨path, hPath, hVacant⟩ := (h.sides _ _).level _ hHolds.1
  obtain ⟨hi, hRef⟩ := hPath.chain.holdsAt_iff.mp hHolds.2
  have hInv : lvl.LevelInv path := hLvl ▸ hPath.reduce hi hLow hHigh
  have hEntry := entryOf_reduce (e.levelAt loc) loc.slotIdx delta
  rw [← hLvl] at hEntry
  have hIds : ∀ j ∈ path, (lvl.entryOf j).1 = ((e.levelAt loc).entryOf j).1 := by
    intro j _
    rw [hEntry]
    by_cases hj : j = loc.slotIdx
    · subst hj
      rw [update_self]
      rfl
    · rw [update_of_ne hj]
  obtain ⟨hInv', hBook⟩ := h.setLevel noVacancy hSym hHolds.1 hInv (by rw [hLvl]; rfl) (fun _ _ _ _ hV => hV) hVacant
    (located_same h.located hPath.chain hInv.chain hIds)
  refine ⟨hInv', ?_⟩
  funext s t p
  refine (hBook s t p).trans ?_
  rw [setQty]
  split
  next hEq =>
    obtain ⟨⟨rfl, rfl⟩, rfl⟩ := hEq
    rw [bookQueue, (h.sides _ _).sideQueue_eq hHolds.1 rfl, hInv.queue_eq, hPath.queue_eq, map_map]
    refine map_congr_left fun j hj => ?_
    rw [hEntry, Function.comp_apply]
    by_cases hji : j = loc.slotIdx
    · subst hji
      rw [update_self, if_pos hRef]
      exact Prod.ext hRef rfl
    rw [update_of_ne hji, if_neg]
    intro hSame
    have hHolds' : e.Holds ref { loc with slotIdx := j } := ⟨hHolds.1, hPath.chain.holdsAt_iff.mpr ⟨hj, hSame⟩⟩
    exact hji (congrArg OrderLocation.slotIdx (h.located.unique hHolds' hHolds))
  next hNe =>
    have hKeep : ∀ order ∈ e.bookQueue s t p, (if order.1 = ref then (ref, (e.orderAt loc).qty - delta) else order) =
      order := by
      rintro ⟨r, q⟩ hMem
      rw [if_neg]
      rintro rfl
      exact hNe (h.eq_of_mem_bookQueue hHolds hMem)
    exact ((map_congr_left hKeep).trans (map_id' _)).symm

/-! ## Taking out -/

theorem located_take (h : e.Located) {l r : List Nat} (hHolds : e.Holds ref ⟨sym, side, d, i⟩)
    (hPath : (e.lob sym side d).Chain (l ++ i :: r)) (hChain : lvl.Chain (l ++ r))
    (hEntry : ∀ j ≠ i, lvl.entryOf j = (e.lob sym side d).entryOf j) (hWf : m.Wf)
    (hLookup : m.lookup = update e.orderMap.lookup ref none) :
    ((e.setLevel sym side d lvl).setMap m).Located := by
  have hFresh : i ∉ l ++ r := (nodup_middle.mp hPath.linked.1 |> nodup_cons.mp).1
  refine ⟨hWf, fun r' loc => ?_⟩
  rw [orderMap_setMap, hLookup]
  have hIff : ((e.setLevel sym side d lvl).setMap m).Holds r' loc ↔ e.Holds r' loc ∧ r' ≠ ref := by
    by_cases hLoc : (loc.symbolIdx = sym ∧ loc.side = side) ∧ loc.levelIdx = d
    · obtain ⟨s, t, d', j⟩ := loc
      obtain ⟨⟨rfl, rfl⟩, rfl⟩ := hLoc
      rw [holds_setLevel_self, hChain.holdsAt_iff]
      constructor
      · rintro ⟨hd, hj, hId⟩
        have hji : j ≠ i := ne_of_mem_of_not_mem hj hFresh
        rw [hEntry j hji] at hId
        have hOld : e.Holds r' ⟨s, t, d', j⟩ := by
          refine ⟨hd, hPath.holdsAt_iff.mpr ⟨?_, hId⟩⟩
          simp only [mem_append] at hj ⊢
          tauto
        refine ⟨hOld, ?_⟩
        rintro rfl
        exact hji (congrArg OrderLocation.slotIdx (h.unique hOld hHolds))
      · rintro ⟨⟨hd, hAt⟩, hne⟩
        obtain ⟨hj, hId⟩ := hPath.holdsAt_iff.mp hAt
        have hji : j ≠ i := by
          rintro rfl
          exact hne (hId.symm.trans (hPath.holdsAt_iff.mp hHolds.2).2)
        refine ⟨hd, ?_, by rw [hEntry j hji]; exact hId⟩
        simp only [mem_append, mem_cons, hji, false_or] at hj ⊢
        exact hj
    · rw [holds_setLevel_of_ne hLoc]
      refine ⟨fun hOld => ⟨hOld, ?_⟩, fun hOld => hOld.1⟩
      rintro rfl
      obtain rfl := h.unique hOld hHolds
      exact hLoc ⟨⟨rfl, rfl⟩, rfl⟩
  rw [hIff]
  by_cases hr : r' = ref
  · subst hr
    simp
  · rw [update_of_ne hr, h.lookup_iff]
    simp [hr]

end LuvFlicker.LobEngine
