import LuvFlicker.Lob.Handlers

/-!
# The representation invariant

Every event keeps the book invariant, so it holds after any run.
-/

namespace LuvFlicker.LobEngine

open Config Numeric OrderRefMap Finset PriceLevel

structure SameBook (e e' : LobEngine) : Prop where
  lob : e'.lob = e.lob
  orderMap : e'.orderMap = e.orderMap
  levelCount : e'.levelCount = e.levelCount

namespace SameBook

variable {e e' e'' : LobEngine}

theorem refl (e : LobEngine) : SameBook e e := ⟨rfl, rfl, rfl⟩

section

variable (h : SameBook e e')

include h

theorem trans (h' : SameBook e' e'') : SameBook e e'' :=
  ⟨h'.lob.trans h.lob, h'.orderMap.trans h.orderMap, h'.levelCount.trans h.levelCount⟩

theorem holds_iff (ref : UInt64) (loc : OrderLocation) : e'.Holds ref loc ↔ e.Holds ref loc := by
  rw [Holds, Holds, h.lob, h.levelCount]

theorem inv {Vacant : Nat → Side → Nat → Prop} (hInv : e.Inv Vacant) : e'.Inv Vacant where
  sides := by
    rw [h.lob, h.levelCount]
    exact hInv.sides
  located := by
    refine ⟨h.orderMap ▸ hInv.located.wf, fun ref loc => ?_⟩
    rw [h.orderMap, h.holds_iff]
    exact hInv.located.lookup_iff ref loc
  bounded := by
    rw [h.levelCount]
    exact hInv.bounded

theorem bookQueue : e'.bookQueue = e.bookQueue := by
  funext s t p
  rw [LobEngine.bookQueue, LobEngine.bookQueue, h.lob, h.levelCount]

theorem locate : e'.locate = e.locate := by
  have hValid : e'.validLocation = e.validLocation := by
    funext ref loc
    simp [LobEngine.validLocation, h.lob, h.levelCount]
  funext ref
  rw [LobEngine.locate, LobEngine.locate, h.orderMap, hValid]

end

theorem setStats (e : LobEngine) (stats : LobStats) : SameBook e (e.setStats stats) := ⟨rfl, rfl, rfl⟩

theorem touch (e : LobEngine) (tick : TickMsg) : SameBook e (e.touch tick) := by
  unfold LobEngine.touch
  split
  · refine ⟨rfl, rfl, ?_⟩
    funext s t
    by_cases hs : s = tick.symbolIdx
    · subst hs
      cases t <;> simp [LobEngine.levelCount, setMeta]
    · cases t <;> simp [LobEngine.levelCount, setMeta, hs]
  · exact refl e

theorem replaceExit (placed : LobEngine × Outcome) : SameBook placed.1 (LobEngine.replaceExit placed).1 := by
  unfold LobEngine.replaceExit
  split
  · exact refl _
  · exact refl _
  · exact setStats _ _

end SameBook

theorem replaceExit_outcome (placed : LobEngine × Outcome) : (replaceExit placed).2 = placed.2 := by
  unfold replaceExit
  split <;> rfl

theorem init_inv (lob : Nat → Side → Nat → PriceLevel) (values : Nat → OrderLocation) :
    (init lob values).Inv noVacancy where
  sides := fun _ side => by
    cases side <;> exact ⟨Nat.zero_le _, fun _ _ _ hj => absurd hj (Nat.not_lt_zero _),
      fun _ hd => absurd hd (Nat.not_lt_zero _)⟩
  located := by
    refine ⟨init_wf, fun ref loc => ?_⟩
    have hLookup : (init lob values).orderMap.lookup ref = none := init_lookup ref
    rw [hLookup]
    refine ⟨fun hNone => absurd hNone.symm (Option.some_ne_none loc), fun hHolds => ?_⟩
    have hZero : (init lob values).levelCount loc.symbolIdx loc.side = 0 := by cases loc.side <;> rfl
    exact absurd (hZero ▸ hHolds.1) (Nat.not_lt_zero _)
  bounded := fun _ side _ => by cases side <;> rfl

/-! ## The handlers -/

variable {e : LobEngine} {ref : UInt64} {loc : OrderLocation} {tick : TickMsg}

section

variable (h : e.Inv noVacancy)
include h

theorem deleteOrder_spec (hHolds : e.Holds ref loc) : Retired e (e.deleteOrder ref loc) ref loc := by
  obtain ⟨path, hPath, _⟩ := (h.sides _ _).level _ hHolds.1
  obtain ⟨hi, _⟩ := hPath.chain.holdsAt_iff.mp hHolds.2
  have hPos := (hPath.valid_qty hi).1
  have hLe := hPath.qty_le_total hi
  have hClamp : clampedQty ((e.lob loc.symbolIdx loc.side loc.levelIdx).orders loc.slotIdx).qty
      (e.lob loc.symbolIdx loc.side loc.levelIdx).totalQty =
      ((e.lob loc.symbolIdx loc.side loc.levelIdx).orders loc.slotIdx).qty := by
    unfold clampedQty
    rw [if_neg (by simp; omega)]
    split <;> omega
  refine h.retire hHolds _ (fun path hChain => ⟨hChain.linked, hChain.mem_iff⟩) (fun _ _ => rfl) ?_ rfl rfl
  simp [hClamp]

theorem reduceOrder_spec (hQty : 0 < tick.qty) :
    (e.orderMap.lookup tick.orderRef = none ∧ e.reduceOrder tick = (e, .unknownOrder)) ∨
    ∃ e' s t p q, e.reduceOrder tick = (e', .applied) ∧ (tick.orderRef, q) ∈ e.bookQueue s t p ∧ 0 < q ∧
      e'.Inv noVacancy ∧ e'.bookQueue = if tick.qty < q then BookView.setQty e.bookQueue tick.orderRef (q - tick.qty)
        else BookView.erase e.bookQueue tick.orderRef := by
  cases hLocate : e.locate tick.orderRef with
  | none =>
    refine .inl ⟨h.locate_eq_lookup ▸ hLocate, ?_⟩
    simp [reduceOrder, hLocate]
  | some loc =>
    have hHolds := h.locate_eq_some_iff.mp hLocate
    obtain ⟨path, hPath, _⟩ := (h.sides _ _).level _ hHolds.1
    obtain ⟨hi, _⟩ := hPath.chain.holdsAt_iff.mp hHolds.2
    have hPos := (hPath.valid_qty hi).1
    have hMem := h.mem_bookQueue.mpr ⟨_, _, hHolds, rfl, rfl⟩
    have hClamp : clampedQty tick.qty ((e.lob loc.symbolIdx loc.side loc.levelIdx).orders loc.slotIdx).qty =
        min tick.qty ((e.lob loc.symbolIdx loc.side loc.levelIdx).orders loc.slotIdx).qty := by
      unfold clampedQty
      rw [if_neg (by simp; omega)]
      split <;> omega
    simp only [reduceOrder, hLocate, hClamp]
    generalize hLvl : (e.lob loc.symbolIdx loc.side loc.levelIdx).reduceSlot loc.slotIdx
      (min tick.qty ((e.lob loc.symbolIdx loc.side loc.levelIdx).orders loc.slotIdx).qty) = lvl
    have hSlot : (lvl.orders loc.slotIdx).qty = ((e.lob loc.symbolIdx loc.side loc.levelIdx).orders loc.slotIdx).qty -
          min tick.qty ((e.lob loc.symbolIdx loc.side loc.levelIdx).orders loc.slotIdx).qty := by
      have hEntry := congrFun (entryOf_reduce (e.lob loc.symbolIdx loc.side loc.levelIdx) loc.slotIdx
        (min tick.qty ((e.lob loc.symbolIdx loc.side loc.levelIdx).orders loc.slotIdx).qty)) loc.slotIdx
      rw [hLvl, Function.update_self] at hEntry
      exact congrArg Prod.snd hEntry
    refine .inr ?_
    by_cases hPartial : tick.qty < ((e.lob loc.symbolIdx loc.side loc.levelIdx).orders loc.slotIdx).qty
    · rw [if_neg (by omega)]
      obtain ⟨hInv, hBook⟩ := h.reduce hHolds (by omega) (by omega) hLvl.symm
      refine ⟨_, _, _, _, _, rfl, hMem, hPos, hInv, ?_⟩
      rw [if_pos hPartial, hBook, min_eq_left hPartial.le]
    · rw [if_pos (by omega)]
      have hRetired := h.retire hHolds lvl (fun path hChain => hLvl ▸ reduce_chain hChain _ _)
        (fun j hj => by rw [← hLvl, entryOf_reduce, Function.update_of_ne hj])
        (by rw [← hLvl]; exact congrArg (_ - ·) (min_eq_right (by omega))) (by rw [← hLvl]; rfl) (by rw [← hLvl]; rfl)
      refine ⟨_, _, _, _, _, rfl, hMem, hPos, hRetired.inv, ?_⟩
      rw [if_neg hPartial, hRetired.book]

omit h in
theorem placeOrder_inv (side : Side) (price : Int) (h : e.Inv noVacancy) {sym : Nat} (hSym : sym < kSymbols)
    (hNew : e.orderMap.lookup ref = none) {qty : Int}
    (hQty : 0 < qty ∧ qty ≤ kMaxQuantity) : (e.placeOrder sym side ref price qty).1.Inv noVacancy := by
  have hPlaced := placeOrder_spec side price h hSym hNew hQty
  cases hResult : e.placeOrder sym side ref price qty with
  | mk e' outcome =>
    rw [hResult] at hPlaced
    cases hPlaced with
    | applied hInv => exact hInv
    | maxDepth | levelFull => exact h
    | mapRefused hInv => exact hInv

theorem onAddOrder_inv (hSym : tick.symbolIdx < kSymbols)
    (hQty : 0 < tick.qty ∧ tick.qty ≤ kMaxQuantity) : (e.onAddOrder tick).1.Inv noVacancy := by
  have hStart := (SameBook.setStats e { e.stats with adds := e.stats.adds + 1 }).inv h
  unfold onAddOrder
  simp only
  split
  · exact (SameBook.setStats _ _).inv hStart
  rename_i hNew
  split
  · exact placeOrder_inv _ _ hStart hSym hNew hQty
  · exact (SameBook.setStats _ _).inv (placeOrder_inv _ _ hStart hSym hNew hQty)

theorem reduceOrder_inv (hQty : 0 < tick.qty) : (e.reduceOrder tick).1.Inv noVacancy := by
  rcases reduceOrder_spec h hQty with ⟨_, hEq⟩ | ⟨e', s, t, p, q, hEq, _, _, hInv, _⟩ <;> rw [hEq]
  · exact h
  · exact hInv

theorem onOrderDelete_inv : (e.onOrderDelete tick).1.Inv noVacancy := by
  have hStart := (SameBook.setStats e { e.stats with deletes := e.stats.deletes + 1 }).inv h
  unfold onOrderDelete
  simp only
  split
  · exact hStart
  next loc hLocate => exact (deleteOrder_spec hStart (hStart.locate_eq_some_iff.mp hLocate)).inv

omit h in
theorem Retired.lookup_eq_none {e' : LobEngine} (hRetired : Retired e e' ref loc) (h : e.Inv noVacancy) {r : UInt64}
    (hNew : e.orderMap.lookup r = none) : e'.orderMap.lookup r = none := by
  refine hRetired.inv.lookup_eq_none_iff.mpr fun s t p q hMem => ?_
  rw [hRetired.book] at hMem
  exact h.lookup_eq_none_iff.mp hNew s t p q (List.mem_of_mem_filter hMem)

theorem onOrderReplace_inv (hQty : 0 < tick.qty ∧ tick.qty ≤ kMaxQuantity) :
    (e.onOrderReplace tick).1.Inv noVacancy := by
  have hStart := (SameBook.setStats e { e.stats with replaces := e.stats.replaces + 1 }).inv h
  unfold onOrderReplace
  simp only
  split
  · exact (SameBook.setStats _ _).inv hStart
  rename_i loc hLocate
  split
  · exact (SameBook.setStats _ _).inv hStart
  rename_i hPreflight
  have hHolds := hStart.locate_eq_some_iff.mp hLocate
  have hRetired := deleteOrder_spec hStart hHolds
  obtain ⟨_, hNew, _⟩ := canInsert_ok (not_not.mp hPreflight)
  have hPlaced := placeOrder_inv loc.side tick.price hRetired.inv
    (hStart.symbol_lt hHolds) (hRetired.lookup_eq_none hStart hNew) hQty
  exact (SameBook.replaceExit _).inv hPlaced

theorem step_inv (tick : TickMsg) : (e.step tick).1.Inv noVacancy := by
  have hReject : ∀ {e' : LobEngine} {outcome : Outcome}, e'.Inv noVacancy → (e'.reject outcome).1.Inv noVacancy :=
    fun hInv => (SameBook.setStats _ _).inv hInv
  have hTouch := (SameBook.touch e tick).inv h
  unfold step
  split
  · exact hReject h
  rename_i hSymbol
  simp only
  split_ifs with _ hFields _ hFields _ hFields _ hFields _ hFields _ hFields
  · exact hReject hTouch
  · simp at hFields
    exact onAddOrder_inv hTouch (by omega) (isValidQuantity_iff.mp hFields.1.2)
  · exact hReject hTouch
  · simp at hFields
    exact reduceOrder_inv ((SameBook.setStats _ _).inv hTouch) (isValidQuantity_iff.mp hFields.2).1
  · exact hReject hTouch
  · simp at hFields
    exact reduceOrder_inv ((SameBook.setStats _ _).inv hTouch) (isValidQuantity_iff.mp hFields.2).1
  · exact hReject hTouch
  · exact onOrderDelete_inv hTouch
  · exact hReject hTouch
  · simp at hFields
    exact onOrderReplace_inv hTouch (isValidQuantity_iff.mp hFields.1.2)
  · exact hReject hTouch
  · exact (SameBook.setStats _ _).inv hTouch
  · exact hReject hTouch

theorem run_inv (ticks : List TickMsg) : (e.run ticks).Inv noVacancy := by
  induction ticks generalizing e with
  | nil => exact h
  | cons tick ticks ih => exact ih (step_inv h tick)

end

/-! ## The invariant in the terms of the slab -/

def activeSlots (lvl : PriceLevel) : Finset Nat :=
  (Finset.range kMaxOrdersPerLevel).filter fun i => (lvl.orders i).isActive = true

instance : Fintype Side := ⟨{.bid, .ask}, fun side => by cases side <;> decide⟩

def activeCount (e : LobEngine) : Nat :=
  ∑ sym ∈ Finset.range kSymbols, ∑ side : Side, ∑ d ∈ Finset.range (e.levelCount sym side),
    (activeSlots (e.lob sym side d)).card

structure RepInvariant (e : LobEngine) : Prop where
  depth : ∀ sym side, e.levelCount sym side ≤ kLevelsPerSide
  sorted : ∀ sym side i j, i < j → j < e.levelCount sym side →
    outranks side (e.lob sym side i).price (e.lob sym side j).price = true
  nonempty : ∀ sym side d, d < e.levelCount sym side → 1 ≤ (e.lob sym side d).orderCount
  orderCount_eq : ∀ sym side d, d < e.levelCount sym side →
    (e.lob sym side d).orderCount = (activeSlots (e.lob sym side d)).card
  totalQty_eq : ∀ sym side d, d < e.levelCount sym side →
    (e.lob sym side d).totalQty = ∑ i ∈ activeSlots (e.lob sym side d), ((e.lob sym side d).orders i).qty
  qty_pos : ∀ sym side d, d < e.levelCount sym side →
    ∀ i ∈ activeSlots (e.lob sym side d), 0 < ((e.lob sym side d).orders i).qty
  /-- The links from the head visit the active slots, each once, with matching back links, and end. -/
  linked : ∀ sym side d, d < e.levelCount sym side → ∃ path,
    IndexList.Linked (e.lob sym side d).nextOf (e.lob sym side d).prevOf (e.lob sym side d).headIdx path ∧
      ∀ i, i ∈ path ↔ i ∈ activeSlots (e.lob sym side d)
  lookup_iff : ∀ ref loc, e.orderMap.lookup ref = some loc ↔
    loc.symbolIdx < kSymbols ∧ loc.levelIdx < e.levelCount loc.symbolIdx loc.side ∧
      loc.slotIdx ∈ activeSlots (e.lob loc.symbolIdx loc.side loc.levelIdx) ∧
      ((e.lob loc.symbolIdx loc.side loc.levelIdx).orders loc.slotIdx).orderId = ref
  /-- Every key of the table is that of a cell which `lookup` finds, and of no other. -/
  stored : ∀ cell < OrderRefMap.kCapacity, OrderRefMap.Live (e.orderMap.keys cell) →
    e.orderMap.lookupSlot (e.orderMap.keys cell) = some cell
  count_eq : e.orderMap.count = e.activeCount

variable {lvl : PriceLevel}

theorem mem_activeSlots {i : Nat} : i ∈ activeSlots lvl ↔ i < kMaxOrdersPerLevel ∧ (lvl.orders i).isActive = true := by
  simp [activeSlots]

theorem toFinset_path {path : List Nat} (h : lvl.Chain path) : path.toFinset = activeSlots lvl := by
  ext i
  rw [List.mem_toFinset, h.mem_iff, mem_activeSlots]

theorem holds_iff_mem (h : e.Inv noVacancy) :
    e.Holds ref loc ↔ loc.symbolIdx < kSymbols ∧ loc.levelIdx < e.levelCount loc.symbolIdx loc.side ∧
      loc.slotIdx ∈ activeSlots (e.levelAt loc) ∧
      (e.orderAt loc).orderId = ref := by
  rw [mem_activeSlots]
  constructor
  · intro hHolds
    exact ⟨h.symbol_lt hHolds, hHolds.1, ⟨hHolds.2.1, hHolds.2.2.1⟩, hHolds.2.2.2⟩
  · rintro ⟨_, hLevel, ⟨hSlot, hActive⟩, hRef⟩
    exact ⟨hLevel, hSlot, hActive, hRef⟩

theorem count_eq_activeCount (h : e.Inv noVacancy) : e.orderMap.count = e.activeCount := by
  have hSlot : ∀ cell ∈ liveSlots e.orderMap.keys,
      e.Holds (e.orderMap.keys cell) (e.orderMap.values cell) := by
    intro cell hCell
    obtain ⟨hLt, hLive⟩ := mem_liveSlots.mp hCell
    exact (h.located.lookup_iff _ _).mp (h.located.wf.lookup_eq_some_iff.mpr ⟨cell, hLt, hLive, rfl, rfl⟩)
  rw [h.located.wf.count_eq, activeCount]
  simp only [← card_sigma]
  refine card_bij (fun cell _ => ⟨(e.orderMap.values cell).symbolIdx, (e.orderMap.values cell).side,
    (e.orderMap.values cell).levelIdx, (e.orderMap.values cell).slotIdx⟩) ?_ ?_ ?_
  · intro cell hCell
    have hActive := (holds_iff_mem h).mp (hSlot cell hCell)
    simp only [mem_sigma, mem_range, mem_univ, true_and]
    exact ⟨hActive.1, hActive.2.1, hActive.2.2.1⟩
  · intro cell hCell cell' hCell' hEq
    simp only [Sigma.mk.injEq, heq_eq_eq] at hEq
    have hValues : e.orderMap.values cell = e.orderMap.values cell' := by
      cases hv : e.orderMap.values cell
      cases hv' : e.orderMap.values cell'
      simp only [hv, hv'] at hEq
      simp only [OrderLocation.mk.injEq]
      exact hEq
    have hKeys : e.orderMap.keys cell = e.orderMap.keys cell' := by
      have hHolds := (hSlot cell hCell).2.2.2
      rw [hValues, (hSlot _ hCell').2.2.2] at hHolds
      exact hHolds.symm
    obtain ⟨hLt, hLive⟩ := mem_liveSlots.mp hCell
    obtain ⟨hLt', _⟩ := mem_liveSlots.mp hCell'
    have hFind := (h.located.wf.lookupSlot_iff cell).mpr ⟨hLive, hLt, rfl⟩
    rw [(h.located.wf.lookupSlot_iff _).mpr ⟨hLive, hLt', hKeys.symm⟩] at hFind
    exact (Option.some.inj hFind).symm
  · rintro ⟨sym, side, d, i⟩
    simp only [mem_sigma, mem_range, mem_univ, true_and]
    rintro ⟨hSym, hLevel, hActive⟩
    have hHolds : e.Holds _ ⟨sym, side, d, i⟩ := (holds_iff_mem h).mpr ⟨hSym, hLevel, hActive, rfl⟩
    obtain ⟨cell, hLt, hLive, hKey, hValue⟩ :=
      h.located.wf.lookup_eq_some_iff.mp ((h.located.lookup_iff _ _).mpr hHolds)
    exact ⟨cell, mem_liveSlots.mpr ⟨hLt, hKey ▸ hLive⟩, by simp [hValue]⟩

theorem Inv.repInvariant (h : e.Inv noVacancy) : e.RepInvariant where
  depth := fun sym side => (h.sides sym side).depth
  sorted := fun sym side => (h.sides sym side).sorted
  nonempty := by
    intro sym side d hd
    obtain ⟨path, hPath, hVacant⟩ := (h.sides sym side).level d hd
    exact hPath.orderCount_pos hVacant
  orderCount_eq := by
    intro sym side d hd
    obtain ⟨path, hPath, _⟩ := (h.sides sym side).level d hd
    rw [hPath.totals.count_eq, List.length_map, ← toFinset_path hPath.chain,
      List.toFinset_card_of_nodup hPath.chain.linked.1]
  totalQty_eq := by
    intro sym side d hd
    obtain ⟨path, hPath, _⟩ := (h.sides sym side).level d hd
    rw [hPath.totals.total_eq, ← toFinset_path hPath.chain, List.sum_toFinset _ hPath.chain.linked.1, List.map_map]
    rfl
  qty_pos := by
    intro sym side d hd i hi
    obtain ⟨path, hPath, _⟩ := (h.sides sym side).level d hd
    rw [← toFinset_path hPath.chain, List.mem_toFinset] at hi
    exact (hPath.valid_qty hi).1
  linked := by
    intro sym side d hd
    obtain ⟨path, hPath, _⟩ := (h.sides sym side).level d hd
    refine ⟨path, hPath.chain.linked, fun i => ?_⟩
    rw [← toFinset_path hPath.chain, List.mem_toFinset]
  lookup_iff := fun ref loc => (h.located.lookup_iff ref loc).trans (holds_iff_mem h)
  stored := fun cell hCell hLive => (h.located.wf.lookupSlot_iff cell).mpr ⟨hLive, hCell, rfl⟩
  count_eq := count_eq_activeCount h

theorem run_repInvariant (lob : Nat → Side → Nat → PriceLevel) (values : Nat → OrderLocation)
    (ticks : List TickMsg) : ((init lob values).run ticks).RepInvariant :=
  (run_inv (init_inv lob _) _).repInvariant

end LuvFlicker.LobEngine
