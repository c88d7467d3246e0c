import LuvFlicker.Lob.Orders

/-!
# What the handlers do to the book

One description per shared piece of the handlers: locating an order, taking it
off the book, and placing a new one with all the exits that can take.
-/

namespace LuvFlicker.LobEngine

open Config Function List Numeric PriceLevel OrderRefMap

variable {e : LobEngine} {ref : UInt64} {loc : OrderLocation}

/-! ## Locating -/

theorem Inv.validLocation (h : e.Inv noVacancy) (hHolds : e.Holds ref loc) : e.validLocation ref loc = true := by
  obtain ⟨path, hPath, hVacant⟩ := (h.sides _ _).level _ hHolds.1
  obtain ⟨hi, hRef⟩ := hPath.chain.holdsAt_iff.mp hHolds.2
  have hCount := hPath.orderCount_pos (ne_nil_of_mem hi)
  have hQty := (hPath.valid_qty hi).1.le
  simp [LobEngine.validLocation, h.symbol_lt hHolds, hHolds.1, hHolds.2.1, hHolds.2.2.1, hHolds.2.2.2, hQty, hCount,
    hPath.totalQty_nonneg]

theorem Inv.locate_eq_some_iff (h : e.Inv noVacancy) : e.locate ref = some loc ↔ e.Holds ref loc := by
  unfold locate
  constructor
  · intro hSome
    split at hSome
    next loc' hLookup =>
      split at hSome
      · cases hSome
        exact (h.located.lookup_iff ref loc).mp hLookup
      · cases hSome
    · cases hSome
  · intro hHolds
    simp [(h.located.lookup_iff ref loc).mpr hHolds, h.validLocation hHolds]

theorem Inv.locate_eq_lookup (h : e.Inv noVacancy) : e.locate ref = e.orderMap.lookup ref := by
  cases hLookup : e.orderMap.lookup ref with
  | none => simp [locate, hLookup]
  | some loc => exact h.locate_eq_some_iff.mpr ((h.located.lookup_iff ref loc).mp hLookup)

variable {Vacant : Nat → Side → Nat → Prop}

theorem Inv.lookup_eq_none_iff (h : e.Inv Vacant) :
    e.orderMap.lookup ref = none ↔ ∀ s t p q, (ref, q) ∉ e.bookQueue s t p := by
  constructor
  · intro hNone s t p q hMem
    obtain ⟨d, i, hHolds, _⟩ := h.mem_bookQueue.mp hMem
    exact h.located.lookup_ne_none hHolds hNone
  intro hNowhere
  cases hLookup : e.orderMap.lookup ref with
  | none => rfl
  | some loc =>
    have hHolds := (h.located.lookup_iff ref loc).mp hLookup
    exact absurd (h.mem_bookQueue.mpr ⟨_, _, hHolds, rfl, rfl⟩) (hNowhere _ _ _ _)

/-! ## Taking an order off the book -/

theorem setLevel_setLevel (e : LobEngine) (sym : Nat) (side : Side) (d : Nat) (lvl lvl' : PriceLevel) :
    (e.setLevel sym side d lvl).setLevel sym side d lvl' = e.setLevel sym side d lvl' := by
  have hSide : ∀ levels levels', (e.setSide sym side levels).setSide sym side levels' = e.setSide sym side levels' := by
    intro levels levels'
    unfold setSide
    congr 1
    funext s t
    simp only
    split <;> rfl
  rw [setLevel, setLevel, hSide, setLevel, lob_setSide_self, update_idem]

theorem Inv.filter_level (h : e.Inv Vacant) (hHolds : e.Holds ref loc)
    {l r : List Nat} (hPath : (e.levelAt loc).LevelInv (l ++ loc.slotIdx :: r)) :
    ((l ++ loc.slotIdx :: r).map (e.levelAt loc).entryOf).filter
      (fun order => order.1 ≠ ref) = (l ++ r).map (e.levelAt loc).entryOf := by
  have hFresh : loc.slotIdx ∉ l ++ r := (nodup_middle.mp hPath.chain.linked.1 |> nodup_cons.mp).1
  have hOther : ∀ j ∈ l ++ r, ((e.levelAt loc).entryOf j).1 ≠ ref := by
    intro j hj hSame
    have hMem : j ∈ l ++ loc.slotIdx :: r := by
      simp only [mem_append] at hj ⊢
      tauto
    have hHolds' : e.Holds ref { loc with slotIdx := j } := ⟨hHolds.1, hPath.chain.holdsAt_iff.mpr ⟨hMem, hSame⟩⟩
    have hji : j = loc.slotIdx := congrArg OrderLocation.slotIdx (h.located.unique hHolds' hHolds)
    exact hFresh (hji ▸ hj)
  have hKeep : ((l ++ r).map (e.levelAt loc).entryOf).filter
      (fun order => order.1 ≠ ref) = (l ++ r).map (e.levelAt loc).entryOf := by
    rw [filter_eq_self]
    intro order hMem
    obtain ⟨j, hj, rfl⟩ := mem_map.mp hMem
    simpa using hOther j hj
  have hRef := (hPath.chain.holdsAt_iff.mp hHolds.2).2
  rw [← hKeep]
  simp [hRef]

structure Retired (e e' : LobEngine) (ref : UInt64) (loc : OrderLocation) : Prop where
  inv : e'.Inv noVacancy
  book : e'.bookQueue = BookView.erase e.bookQueue ref
  room : ∀ r, e.orderMap.HasRoom r → e'.orderMap.HasRoom r
  stats : e'.stats = e.stats
  depth : e'.levelCount loc.symbolIdx loc.side =
    if (e.lob loc.symbolIdx loc.side loc.levelIdx).orderCount = 1 then e.levelCount loc.symbolIdx loc.side - 1
    else e.levelCount loc.symbolIdx loc.side

theorem Inv.retire (h : e.Inv noVacancy) (hHolds : e.Holds ref loc) (lvl : PriceLevel)
    (hChain : ∀ path, (e.levelAt loc).Chain path → lvl.Chain path)
    (hEntry : ∀ j ≠ loc.slotIdx, lvl.entryOf j = (e.levelAt loc).entryOf j)
    (hTotal : lvl.totalQty = (e.levelAt loc).totalQty - (e.orderAt loc).qty)
    (hCount : lvl.orderCount = (e.levelAt loc).orderCount)
    (hPrice : lvl.price = (e.levelAt loc).price) :
    Retired e ((e.setLevel loc.symbolIdx loc.side loc.levelIdx lvl).retireOrder ref loc) ref loc := by
  obtain ⟨sym, side, d, i⟩ := loc
  have hSym := h.symbol_lt hHolds
  obtain ⟨path, hPath, _⟩ := (h.sides sym side).level d hHolds.1
  obtain ⟨hi, hRef⟩ := hPath.chain.holdsAt_iff.mp hHolds.2
  obtain ⟨l, r, rfl⟩ := append_of_mem hi
  obtain ⟨hWf, hLookup, _⟩ := remove_spec h.located.wf (h.located.lookup_ne_none hHolds)
  have hDropChain : (lvl.dropSlot i).Chain (l ++ r) := by
    have hDrop := drop_chain (hChain _ hPath.chain)
    exact ⟨hDrop.linked, hDrop.mem_iff⟩
  have hDropEntry : ∀ j ≠ i, (lvl.dropSlot i).entryOf j = (e.lob sym side d).entryOf j := by
    intro j hj
    have hDrop := congrFun (entryOf_drop lvl i) j
    rw [update_of_ne hj, hEntry j hj] at hDrop
    exact hDrop
  have hSame := unlinkSlot_sameOrders lvl i
  obtain ⟨hInv, hQueue⟩ := hPath.remove hDropChain hDropEntry (hSame.total.trans hTotal)
    (congrArg (· - 1) (hSame.count.trans hCount))
  obtain ⟨hBookInv, hBook⟩ := h.setLevel (vacantAt sym side d) hSym hHolds.1 hInv
    (hSame.price.trans hPrice) (fun _ _ _ _ hV => hV.elim) (fun _ => ⟨⟨rfl, rfl⟩, rfl⟩)
    (located_take h.located hHolds hPath.chain hDropChain hDropEntry hWf hLookup)
  have hEngine : (e.setLevel sym side d lvl).retireOrder ref ⟨sym, side, d, i⟩ =
      ((e.setLevel sym side d (lvl.dropSlot i)).setMap (e.orderMap.remove ref)).removeLevelIfEmpty sym side d := by
    simp [retireOrder, setLevel_setLevel]
  have hLevel : ((e.setLevel sym side d (lvl.dropSlot i)).setMap (e.orderMap.remove ref)).lob sym side d =
      lvl.dropSlot i := by rw [lob_setMap, lob_setLevel_self]
  obtain ⟨hFinal, hFinalBook, hKeys, hStats, hDepth⟩ := removeLevelIfEmpty_spec hBookInv hSym hHolds.1
  rw [hEngine]
  refine ⟨hFinal, ?_, ?_, hStats, ?_⟩
  · rw [hFinalBook]
    funext s t p
    rw [hBook, BookView.erase]
    split
    next hEq =>
      obtain ⟨⟨rfl, rfl⟩, rfl⟩ := hEq
      rw [hQueue, bookQueue, (h.sides _ _).sideQueue_eq hHolds.1 rfl, hPath.queue_eq]
      exact (h.filter_level hHolds hPath).symm
    next hNe =>
      refine (filter_eq_self.mpr ?_).symm
      rintro ⟨r', q⟩ hMem
      refine decide_eq_true ?_
      rintro rfl
      exact hNe (h.eq_of_mem_bookQueue hHolds hMem)
  · intro r' hRoom
    exact (hRoom.remove ref).congr hKeys.keys hKeys.count
  · rw [hDepth, hLevel, hQueue, hPath.totals.count_eq]
    refine if_congr ?_ rfl rfl
    rw [← length_eq_zero_iff]
    simp only [length_append, length_map, length_cons]
    omega

/-! ## Placing an order -/

theorem undo_levelInv (lvl' : PriceLevel) {lvl : PriceLevel} {path : List Nat} {i : Nat} (h : lvl.LevelInv path)
    (hChain : lvl'.Chain (path ++ [i])) {order : UInt64 × Int}
    (hEntry : lvl'.entryOf = update lvl.entryOf i order)
    (hTotal : lvl'.totalQty = lvl.totalQty) (hCount : lvl'.orderCount = lvl.orderCount) :
    ((lvl'.unlinkSlot i).deactivateSlot i).LevelInv path ∧
    ∀ j ∈ path, ((lvl'.unlinkSlot i).deactivateSlot i).entryOf j = lvl.entryOf j := by
  have hDrop : ((lvl'.unlinkSlot i).deactivateSlot i).Chain path := by
    simpa using drop_chain (l := path) (r := []) hChain
  have hFresh : i ∉ path := by
    have hNodup := nodup_append.mp hChain.linked.1
    exact fun hi => hNodup.2.2 i hi i mem_cons_self rfl
  have hKeep : ∀ j ∈ path, ((lvl'.unlinkSlot i).deactivateSlot i).entryOf j = lvl.entryOf j := by
    intro j hj
    have hji : j ≠ i := ne_of_mem_of_not_mem hj hFresh
    rw [entryOf_drop, update_of_ne hji, hEntry, update_of_ne hji]
  have hSame := unlinkSlot_sameOrders lvl' i
  refine ⟨⟨hDrop, ?_⟩, hKeep⟩
  rw [map_congr_left hKeep]
  exact ⟨hSame.count.trans (hCount.trans h.totals.count_eq), hSame.total.trans (hTotal.trans h.totals.total_eq),
    h.totals.valid⟩

inductive PlaceResult (e : LobEngine) (sym : Nat) (side : Side) (ref : UInt64) (price qty : Int) :
    LobEngine × Outcome → Prop
  | applied {e' : LobEngine} (hInv : e'.Inv noVacancy)
      (hBook : e'.bookQueue = BookView.append e.bookQueue sym side price (ref, qty)) (hLive : OrderRefMap.Live ref)
      (hLength : (e.bookQueue sym side price).length < kMaxOrdersPerLevel)
      (hDepth : e.bookQueue sym side price = [] → e.levelCount sym side < kLevelsPerSide)
      (hStats : e'.stats = e.stats) : PlaceResult e sym side ref price qty (e', .applied)
  | maxDepth (hNone : e.bookQueue sym side price = []) (hDepth : kLevelsPerSide ≤ e.levelCount sym side) :
      PlaceResult e sym side ref price qty (e, .maxDepth)
  | levelFull (hFull : (e.bookQueue sym side price).length = kMaxOrdersPerLevel) :
      PlaceResult e sym side ref price qty (e, .levelFull)
  | mapRefused {e' : LobEngine} {reason : MapResult} (hInv : e'.Inv noVacancy) (hBook : e'.bookQueue = e.bookQueue)
      (hReason : OrderRefMap.Live ref → reason.isCapacity = true)
      (hRoom : ¬ (OrderRefMap.Live ref ∧ e.orderMap.HasRoom ref)) (hStats : e'.stats = e.stats) :
      PlaceResult e sym side ref price qty (e', .mapRefused reason)

variable {sym : Nat} {side : Side} {price qty : Int}

theorem placeAt_spec {d : Nat} (h : e.Inv (vacantAt sym side d)) (hSym : sym < kSymbols)
    (hd : d < e.levelCount sym side) (hNew : e.orderMap.lookup ref = none)
    (hQty : 0 < qty ∧ qty ≤ kMaxQuantity) :
    (∃ e', e.placeAt sym side ref qty d = (e', .applied) ∧ e'.Inv noVacancy ∧
      e'.bookQueue = BookView.append e.bookQueue sym side (e.lob sym side d).price (ref, qty) ∧
      OrderRefMap.Live ref ∧ (e.lob sym side d).queue.length < kMaxOrdersPerLevel ∧ e'.stats = e.stats) ∨
    (e.placeAt sym side ref qty d = (e, .levelFull) ∧ (e.lob sym side d).queue.length = kMaxOrdersPerLevel) ∨
    (∃ e' reason, e.placeAt sym side ref qty d = (e', .mapRefused reason) ∧ e'.Inv noVacancy ∧
      e'.bookQueue = e.bookQueue ∧ (OrderRefMap.Live ref → reason.isCapacity = true) ∧
      ¬ (OrderRefMap.Live ref ∧ e.orderMap.HasRoom ref) ∧ e'.stats = e.stats) := by
  obtain ⟨path, hPath, _⟩ := (h.sides sym side).level d hd
  have hQueue : (e.lob sym side d).queue.length = path.length := by rw [hPath.queue_eq, length_map]
  rw [hQueue]
  cases hAlloc : (e.lob sym side d).allocSlot with
  | none =>
    refine .inr (.inl ⟨?_, (allocSlot_eq_none_iff hPath.chain).mp hAlloc⟩)
    simp [placeAt, hAlloc]
  | some i =>
    obtain ⟨hi, hFresh⟩ := allocSlot_eq_some hPath.chain hAlloc
    have hShort : path.length < kMaxOrdersPerLevel := by
      refine lt_of_le_of_ne hPath.chain.length_le fun hFull => ?_
      rw [(allocSlot_eq_none_iff hPath.chain).mpr hFull] at hAlloc
      cases hAlloc
    have hSame := linkSlot_sameOrders ((e.lob sym side d).fillSlot i side ref qty) i
    have hTotal : (((e.lob sym side d).fillSlot i side ref qty).linkSlot i).totalQty = (e.lob sym side d).totalQty :=
      hSame.total
    have hCount := hSame.count
    have hAdd : checkedAdd (e.lob sym side d).totalQty qty = some ((e.lob sym side d).totalQty + qty) := by
      refine checkedAdd_of_le hQty.1.le ?_
      have hLe := hPath.totalQty_le
      simp only [kMaxQuantity, kInt64Max] at *
      omega
    have hValid : OrderRefMap.validLocation ⟨sym, side, d, i⟩ = true := by
      have := (h.sides sym side).depth
      simp [OrderRefMap.validLocation, hi]
      omega
    simp only [placeAt, hAlloc, hTotal, hCount, hAdd]
    rcases OrderRefMap.insert_spec ⟨sym, side, d, i⟩ h.located.wf hNew with
      ⟨hRefused, _⟩ | ⟨hOk, hLive, hWf, hLookup⟩
    · rw [if_neg hRefused]
      have hChain := link_chain hPath.chain hi hFresh side ref qty
      obtain ⟨hUndo, hKeep⟩ := undo_levelInv ({ ((e.lob sym side d).fillSlot i side ref qty).linkSlot i with
          totalQty := (e.lob sym side d).totalQty + qty - qty
          orderCount := (e.lob sym side d).orderCount + 1 - 1 }) hPath
        ⟨hChain.linked, hChain.mem_iff⟩ (entryOf_link i side ref qty)
        (add_sub_cancel_right _ _) (add_sub_cancel_right _ _)
      obtain ⟨hInv, hBook⟩ := h.rewrite hSym hd hPath hUndo
        ((unlinkSlot_sameOrders _ i).price.trans hSame.price) hKeep
      obtain ⟨hFinal, hFinalBook, hKeys, hStats, _⟩ := removeLevelIfEmpty_spec hInv hSym hd
      refine .inr (.inr ⟨_, _, rfl, hFinal, hFinalBook.trans hBook, ?_, ?_, hStats⟩)
      · exact fun hLive => OrderRefMap.insert_refused hLive hValid hRefused
      · rintro ⟨hLive, hRoom⟩
        exact hRefused (OrderRefMap.insert_ok hLive hValid hRoom)
    · rw [if_pos hOk]
      obtain ⟨hInv, hBook⟩ := h.place hSym hd hPath hAlloc hNew hQty rfl hWf hLookup
      exact .inl ⟨_, rfl, hInv, hBook, hLive, hShort, rfl⟩

theorem placeOrder_spec (side : Side) (price : Int) (h : e.Inv noVacancy) (hSym : sym < kSymbols)
    (hNew : e.orderMap.lookup ref = none)
    (hQty : 0 < qty ∧ qty ≤ kMaxQuantity) :
    PlaceResult e sym side ref price qty (e.placeOrder sym side ref price qty) := by
  rcases findLevel_spec (h.sides sym side) price with ⟨d, hd, rfl, hFind⟩ | ⟨hNone, hFind⟩
  · have hQueue : e.bookQueue sym side (e.lob sym side d).price = (e.lob sym side d).queue :=
      (h.sides sym side).sideQueue_eq hd rfl
    have hInv : e.Inv (vacantAt sym side d) :=
      ⟨fun s t => (h.sides s t).weaken fun _ _ hV => hV.elim, h.located, h.bounded⟩
    have hFull : e.bookQueue sym side (e.lob sym side d).price ≠ [] := by
      obtain ⟨path, hPath, hVacant⟩ := (h.sides sym side).level d hd
      rw [hQueue, hPath.queue_eq]
      intro hNil
      exact hVacant (map_eq_nil_iff.mp hNil)
    simp only [placeOrder, hFind]
    rcases placeAt_spec hInv hSym hd hNew hQty with ⟨e', hEq, hInv', hBook, hLive, hShort, hStats⟩ |
      ⟨hEq, hLength⟩ | ⟨e', reason, hEq, hInv', hBook, hReason, hRoom, hStats⟩ <;> rw [hEq]
    · exact .applied hInv' hBook hLive (hQueue ▸ hShort) (fun hNil => absurd hNil hFull) hStats
    · exact .levelFull (hQueue ▸ hLength)
    · exact .mapRefused hInv' hBook hReason hRoom hStats
  · have hQueue : e.bookQueue sym side price = [] := sideQueue_eq_nil hNone
    by_cases hDepth : e.levelCount sym side < kLevelsPerSide
    · obtain ⟨e₁, pos, hInsert, hPos, hPrice, hLevel, hInv, hBook, hKeys, hStats₁⟩ :=
        insertLevelImpl_spec h hSym hNone hDepth
      have hNew₁ := (lookup_eq_none_congr hKeys.keys ref).mpr hNew
      have hEmpty : (e₁.lob sym side pos).queue = [] := hLevel.queue_eq
      simp only [placeOrder, hFind, hInsert]
      rcases placeAt_spec hInv hSym hPos hNew₁ hQty with ⟨e', hEq, hInv', hBook', hLive, _, hStats⟩ |
        ⟨_, hLength⟩ | ⟨e', reason, hEq, hInv', hBook', hReason, hRoom, hStats⟩
      · rw [hEq]
        refine .applied hInv' ?_ hLive ?_ (fun _ => hDepth) (hStats.trans hStats₁)
        · rw [hBook', hBook, hPrice]
        · rw [hQueue]
          decide
      · rw [hEmpty] at hLength
        exact absurd hLength (by decide)
      · rw [hEq]
        refine .mapRefused hInv' (hBook'.trans hBook) hReason ?_ (hStats.trans hStats₁)
        rintro ⟨hLive, hHasRoom⟩
        exact hRoom ⟨hLive, hHasRoom.congr hKeys.keys hKeys.count⟩
    · have hInsert : e.insertLevelImpl sym side price = none := by rw [insertLevelImpl, if_pos (by omega)]
      simp only [placeOrder, hFind, hInsert]
      exact .maxDepth hQueue (by omega)

end LuvFlicker.LobEngine
