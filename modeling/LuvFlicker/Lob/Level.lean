import LuvFlicker.Lob.Engine

/-!
# One price level

The invariant of a level, for the list `path` of its slots in arrival order, and
what allocating, linking, unlinking and reducing a slot do to it.
-/

namespace LuvFlicker.PriceLevel

open Config IndexList Function List Numeric OrderSlot

section

variable (lvl : PriceLevel)

def slotQueue : List Nat := follow lvl.nextOf kMaxOrdersPerLevel lvl.headIdx

def entryOf (i : Nat) : UInt64 × Int := ((lvl.orders i).orderId, (lvl.orders i).qty)

def queue : List (UInt64 × Int) := lvl.slotQueue.map lvl.entryOf

/-- The level's list runs through `path`, and these are its active slots. -/
structure Chain (path : List Nat) : Prop where
  linked : Linked lvl.nextOf lvl.prevOf lvl.headIdx path
  mem_iff : ∀ i, i ∈ path ↔ i < kMaxOrdersPerLevel ∧ (lvl.orders i).isActive = true

structure Totals (qs : List (UInt64 × Int)) : Prop where
  count_eq : lvl.orderCount = qs.length
  total_eq : lvl.totalQty = (qs.map Prod.snd).sum
  valid : ∀ q ∈ qs, 0 < q.2 ∧ q.2 ≤ kMaxQuantity

structure LevelInv (path : List Nat) : Prop where
  chain : lvl.Chain path
  totals : lvl.Totals (path.map lvl.entryOf)

end

variable {lvl : PriceLevel} {path : List Nat}

section

variable (h : lvl.Chain path)
include h

theorem Chain.length_le : path.length ≤ kMaxOrdersPerLevel := by
  have hSub : path ⊆ List.range kMaxOrdersPerLevel := by
    intro i hi
    exact mem_range.mpr ((h.mem_iff i).mp hi).1
  simpa using (h.linked.1.subperm hSub).length_le

theorem Chain.slotQueue_eq : lvl.slotQueue = path := h.linked.follow h.length_le

theorem Chain.queue_eq : lvl.queue = path.map lvl.entryOf := by
  rw [queue, h.slotQueue_eq]

theorem Chain.unique {path' : List Nat} (h' : lvl.Chain path') : path = path' :=
  h.slotQueue_eq.symm.trans h'.slotQueue_eq

end

/-! ## Writing a slot -/

section SetSlot

variable (lvl : PriceLevel) (i : Nat) (slot : OrderSlot)

@[simp] theorem setSlot_self : (lvl.setSlot i slot).orders i = slot := update_self ..

@[simp] theorem setSlot_of_ne {j : Nat} (h : j ≠ i) : (lvl.setSlot i slot).orders j = lvl.orders j := update_of_ne h ..

theorem field_setSlot {β : Type} (field : OrderSlot → β) : (fun j => field ((lvl.setSlot i slot).orders j)) =
      update (fun j => field (lvl.orders j)) i (field slot) := by
  funext j
  by_cases hj : j = i
  · subst hj
    simp
  · simp [hj]

variable (link : Option Nat)

@[simp] theorem nextOf_setNext : (lvl.setNext i link).nextOf = update lvl.nextOf i link :=
  field_setSlot lvl i _ _

@[simp] theorem prevOf_setNext : (lvl.setNext i link).prevOf = lvl.prevOf :=
  (field_setSlot lvl i _ _).trans (update_eq_self i _)

@[simp] theorem nextOf_setPrev : (lvl.setPrev i link).nextOf = lvl.nextOf :=
  (field_setSlot lvl i _ _).trans (update_eq_self i _)

@[simp] theorem prevOf_setPrev : (lvl.setPrev i link).prevOf = update lvl.prevOf i link :=
  field_setSlot lvl i _ _

@[simp] theorem headIdx_setNext : (lvl.setNext i link).headIdx = lvl.headIdx := rfl

@[simp] theorem headIdx_setPrev : (lvl.setPrev i link).headIdx = lvl.headIdx := rfl

@[simp] theorem nextOf_setHead : (lvl.setHead link).nextOf = lvl.nextOf := rfl

@[simp] theorem prevOf_setHead : (lvl.setHead link).prevOf = lvl.prevOf := rfl

@[simp] theorem headIdx_setHead : (lvl.setHead link).headIdx = link := rfl

end SetSlot

structure SameOrders (lvl lvl' : PriceLevel) : Prop where
  price : lvl'.price = lvl.price
  total : lvl'.totalQty = lvl.totalQty
  count : lvl'.orderCount = lvl.orderCount
  orderId : ∀ i, (lvl'.orders i).orderId = (lvl.orders i).orderId
  qty : ∀ i, (lvl'.orders i).qty = (lvl.orders i).qty
  flags : ∀ i, (lvl'.orders i).flags = (lvl.orders i).flags

namespace SameOrders

variable {lvl lvl' lvl'' : PriceLevel}

theorem refl (lvl : PriceLevel) : SameOrders lvl lvl := ⟨rfl, rfl, rfl, fun _ => rfl, fun _ => rfl, fun _ => rfl⟩

theorem trans (h : SameOrders lvl lvl') (h' : SameOrders lvl' lvl'') : SameOrders lvl lvl'' where
  price := h'.price.trans h.price
  total := h'.total.trans h.total
  count := h'.count.trans h.count
  orderId := fun i => (h'.orderId i).trans (h.orderId i)
  qty := fun i => (h'.qty i).trans (h.qty i)
  flags := fun i => (h'.flags i).trans (h.flags i)

theorem ofSetSlot {i : Nat} {slot : OrderSlot} (hId : slot.orderId = (lvl.orders i).orderId)
    (hQty : slot.qty = (lvl.orders i).qty) (hFlags : slot.flags = (lvl.orders i).flags) :
    SameOrders lvl (lvl.setSlot i slot) := by
  have hField : ∀ {β : Type} (field : OrderSlot → β), field slot = field (lvl.orders i) →
      ∀ j, field ((lvl.setSlot i slot).orders j) = field (lvl.orders j) := by
    intro β field hField j
    have h := congrFun (field_setSlot lvl i slot field) j
    rwa [hField, update_eq_self] at h
  exact ⟨rfl, rfl, rfl, hField _ hId, hField _ hQty, hField _ hFlags⟩

section

variable (lvl : PriceLevel)

theorem setNext (i : Nat) (link : Option Nat) : SameOrders lvl (lvl.setNext i link) :=
  ofSetSlot rfl rfl rfl

theorem setPrev (i : Nat) (link : Option Nat) : SameOrders lvl (lvl.setPrev i link) :=
  ofSetSlot rfl rfl rfl

theorem setHead (head : Option Nat) : SameOrders lvl (lvl.setHead head) :=
  ⟨rfl, rfl, rfl, fun _ => rfl, fun _ => rfl, fun _ => rfl⟩

end

theorem isActive (h : SameOrders lvl lvl') (i : Nat) : (lvl'.orders i).isActive = (lvl.orders i).isActive := by
  rw [OrderSlot.isActive, OrderSlot.isActive, h.flags i]

theorem entryOf (h : SameOrders lvl lvl') : lvl'.entryOf = lvl.entryOf := by
  funext i
  rw [PriceLevel.entryOf, PriceLevel.entryOf, h.orderId i, h.qty i]

end SameOrders

/-! ## Allocation -/

variable {lvl : PriceLevel} {path : List Nat} {i : Nat}

theorem allocSlot_eq_some (h : lvl.Chain path)
    (hAlloc : lvl.allocSlot = some i) : i < kMaxOrdersPerLevel ∧ i ∉ path := by
  obtain ⟨hi, hFree, _⟩ := (Scan.firstIndex_eq_some_iff _ _ _).mp hAlloc
  refine ⟨hi, fun hMem => ?_⟩
  rw [((h.mem_iff i).mp hMem).2] at hFree
  cases hFree

theorem allocSlot_eq_none_iff (h : lvl.Chain path) : lvl.allocSlot = none ↔ path.length = kMaxOrdersPerLevel := by
  rw [allocSlot, Scan.firstIndex_eq_none_iff]
  constructor
  · intro hFull
    have hSub : List.range kMaxOrdersPerLevel ⊆ path := by
      intro i hi
      have hi := mem_range.mp hi
      exact (h.mem_iff i).mpr ⟨hi, by simpa using hFull i hi⟩
    have hLe := (nodup_range.subperm hSub).length_le
    exact le_antisymm h.length_le hLe
  · intro hLength i hi
    have hSub : path ⊆ List.range kMaxOrdersPerLevel := by
      intro j hj
      exact mem_range.mpr ((h.mem_iff j).mp hj).1
    have hPerm := (h.linked.1.subperm hSub).perm_of_length_le (by simp [hLength])
    have hMem := hPerm.mem_iff.mpr (mem_range.mpr hi)
    simpa using ((h.mem_iff i).mp hMem).2

/-! ## Linking a new order -/

section

variable (lvl : PriceLevel)

theorem fillSlot_active (i : Nat) (side : Side) (ref : UInt64) (qty : Int) :
    ((lvl.fillSlot i side ref qty).orders i).isActive = true := by
  rw [fillSlot, setSlot_self]
  exact show (slotFlags side &&& kFlagActive != 0) = true by cases side <;> decide

theorem fillSlot_of_ne {j : Nat} (side : Side) (ref : UInt64) (qty : Int) (h : j ≠ i) :
    (lvl.fillSlot i side ref qty).orders j = lvl.orders j :=
  setSlot_of_ne _ _ _ h

theorem linkSlot_sameOrders (i : Nat) : SameOrders lvl (lvl.linkSlot i) := by
  refine (SameOrders.setNext lvl i none).trans ?_
  cases h : lvl.headIdx with
  | none =>
    simp only [linkSlot, headIdx_setNext, h]
    exact (SameOrders.setPrev _ _ _).trans (SameOrders.setHead _ _)
  | some head =>
    simp only [linkSlot, headIdx_setNext, h]
    exact (SameOrders.setNext _ _ _).trans (SameOrders.setPrev _ _ _)

end

theorem linkSlot_linked (h : Linked lvl.nextOf lvl.prevOf lvl.headIdx path) (hLength : path.length ≤ kMaxOrdersPerLevel)
    (hFresh : i ∉ path) :
    Linked (lvl.linkSlot i).nextOf (lvl.linkSlot i).prevOf (lvl.linkSlot i).headIdx (path ++ [i]) := by
  rcases eq_nil_or_concat' path with rfl | ⟨path, last, rfl⟩
  · obtain ⟨_, _, _, hHead⟩ := h
    simp only [linkSlot, headIdx_setNext, hHead]
    refine linked_singleton i ?_ ?_ <;> simp
  obtain ⟨b, hSeg⟩ := h.2
  obtain ⟨head, hHead⟩ : ∃ head, lvl.headIdx = some head := by
    cases path with
    | nil | cons => exact ⟨_, hSeg.1⟩
  have hTail : tail (update lvl.nextOf i none) kMaxOrdersPerLevel head = last := by
    have hKeep : ∀ j ∈ path ++ [last], update lvl.nextOf i none j = lvl.nextOf j :=
      fun j hj => update_of_ne (ne_of_mem_of_not_mem hj hFresh) _ _
    rw [hHead] at hSeg
    exact (tail_seg (hSeg.congr hKeep (fun _ _ => rfl)) (by simp at hLength; omega)).1
  simp only [linkSlot, headIdx_setNext, hHead, nextOf_setNext, hTail]
  simpa using h.append hFresh rfl rfl

theorem link_chain (h : lvl.Chain path)
    (hi : i < kMaxOrdersPerLevel) (hFresh : i ∉ path) (side : Side) (ref : UInt64) (qty : Int) :
    ((lvl.fillSlot i side ref qty).linkSlot i).Chain (path ++ [i]) where
  linked := by
    have hNext : (lvl.fillSlot i side ref qty).nextOf = lvl.nextOf :=
      (field_setSlot lvl i _ _).trans (update_eq_self i _)
    have hPrev : (lvl.fillSlot i side ref qty).prevOf = lvl.prevOf :=
      (field_setSlot lvl i _ prevIdx).trans (update_eq_self i _)
    refine linkSlot_linked ?_ h.length_le hFresh
    rw [hNext, hPrev]
    exact h.linked
  mem_iff := by
    intro j
    rw [mem_append, (linkSlot_sameOrders _ i).isActive j]
    by_cases hj : j = i
    · subst hj
      simp [hi, fillSlot_active]
    · rw [fillSlot_of_ne lvl side ref qty hj, h.mem_iff j]
      simp [hj]

theorem entryOf_link {lvl : PriceLevel} (i : Nat) (side : Side) (ref : UInt64) (qty : Int) :
    ((lvl.fillSlot i side ref qty).linkSlot i).entryOf = update lvl.entryOf i (ref, qty) := by
  rw [(linkSlot_sameOrders _ i).entryOf]
  exact field_setSlot lvl i _ fun slot => (slot.orderId, slot.qty)

/-! ## Taking an order out -/

theorem unlinkSlot_sameOrders (lvl : PriceLevel) (i : Nat) : SameOrders lvl (lvl.unlinkSlot i) := by
  refine SameOrders.trans ?_ ((SameOrders.setPrev _ _ _).trans (SameOrders.setNext _ _ _))
  cases lvl.prevOf i with
  | none =>
    refine (SameOrders.setHead lvl (lvl.nextOf i)).trans ?_
    cases (lvl.setHead (lvl.nextOf i)).nextOf i with
    | none => exact SameOrders.refl _
    | some n => exact SameOrders.setPrev _ _ _
  | some p =>
    refine (SameOrders.setNext lvl p (lvl.nextOf i)).trans ?_
    cases (lvl.setNext p (lvl.nextOf i)).nextOf i with
    | none => exact SameOrders.refl _
    | some n => exact SameOrders.setPrev _ _ _

variable {l r : List Nat}

theorem prev_ne_self {next prev : Nat → Option Nat} {head : Option Nat}
    (h : Linked next prev head (l ++ i :: r)) : prev i ≠ some i := by
  obtain ⟨hNodup, last, hSeg⟩ := h
  obtain ⟨back, cur, hLeft, _, hBack, _⟩ := seg_append.mp hSeg
  intro hSelf
  rcases eq_nil_or_concat' l with rfl | ⟨l, p, rfl⟩
  · rw [hBack, ← hLeft.1] at hSelf
    cases hSelf
  · obtain ⟨b, c, _, _, _, hb, _⟩ := seg_append.mp hLeft
    rw [hBack, ← hb] at hSelf
    exact (nodup_append.mp hNodup).2.2 p (by simp) i mem_cons_self (Option.some.inj hSelf)

theorem unlinkSlot_links (hPrev : lvl.prevOf i ≠ some i) :
    (lvl.unlinkSlot i).nextOf = unlinkNext lvl.nextOf lvl.prevOf i ∧
    (lvl.unlinkSlot i).prevOf = unlinkPrev lvl.nextOf lvl.prevOf i ∧
    (lvl.unlinkSlot i).headIdx = unlinkHead lvl.nextOf lvl.prevOf lvl.headIdx i := by
  unfold unlinkNext unlinkPrev unlinkHead
  cases hp : lvl.prevOf i with
  | none => cases hn : lvl.nextOf i <;> simp [unlinkSlot, hp, hn]
  | some p =>
    have hip : i ≠ p := fun he => hPrev (he ▸ hp)
    cases hn : lvl.nextOf i <;> simp [unlinkSlot, hp, hn, hip]

theorem drop_chain (h : lvl.Chain (l ++ i :: r)) : ((lvl.unlinkSlot i).deactivateSlot i).Chain (l ++ r) where
  linked := by
    obtain ⟨hNextOf, hPrevOf, hHead⟩ := unlinkSlot_links (prev_ne_self h.linked)
    have hKeepNext : ((lvl.unlinkSlot i).deactivateSlot i).nextOf = (lvl.unlinkSlot i).nextOf :=
      (field_setSlot _ i _ _).trans (update_eq_self i _)
    have hKeepPrev : ((lvl.unlinkSlot i).deactivateSlot i).prevOf = (lvl.unlinkSlot i).prevOf :=
      (field_setSlot _ i _ _).trans (update_eq_self i _)
    rw [hKeepNext, hKeepPrev, hNextOf, hPrevOf]
    exact hHead ▸ h.linked.unlink
  mem_iff := by
    intro j
    have hFresh : i ∉ l ++ r := (nodup_middle.mp h.linked.1 |> nodup_cons.mp).1
    by_cases hj : j = i
    · subst hj
      have hOff : (((lvl.unlinkSlot j).deactivateSlot j).orders j).isActive = false := by
        rw [deactivateSlot, setSlot_self]
        exact isActive_of_flags_eq_zero rfl
      simp [hOff, hFresh]
    · rw [deactivateSlot, setSlot_of_ne _ _ _ hj, (unlinkSlot_sameOrders lvl i).isActive j, ← h.mem_iff j]
      simp [hj]

theorem entryOf_drop (lvl : PriceLevel) (i : Nat) :
    ((lvl.unlinkSlot i).deactivateSlot i).entryOf = update lvl.entryOf i (0, 0) := by
  rw [← (unlinkSlot_sameOrders lvl i).entryOf]
  exact field_setSlot _ i _ fun slot => (slot.orderId, slot.qty)

theorem reduce_chain (h : lvl.Chain path) (i : Nat) (delta : Int) : (lvl.reduceSlot i delta).Chain path where
  linked := by
    have hNext : (lvl.reduceSlot i delta).nextOf = lvl.nextOf :=
      (field_setSlot lvl i _ nextIdx).trans (update_eq_self i _)
    have hPrev : (lvl.reduceSlot i delta).prevOf = lvl.prevOf :=
      (field_setSlot lvl i _ _).trans (update_eq_self i _)
    rw [hNext, hPrev]
    exact h.linked
  mem_iff := by
    intro j
    have hActive : (fun j => ((lvl.reduceSlot i delta).orders j).isActive) = fun j => (lvl.orders j).isActive :=
      (field_setSlot lvl i _ _).trans (update_eq_self i fun j => (lvl.orders j).isActive)
    rw [h.mem_iff j, congrFun hActive j]

theorem entryOf_reduce (lvl : PriceLevel) (i : Nat) (delta : Int) : (lvl.reduceSlot i delta).entryOf =
      update lvl.entryOf i ((lvl.orders i).orderId, (lvl.orders i).qty - delta) :=
  field_setSlot lvl i _ fun slot => (slot.orderId, slot.qty)

/-! ## The aggregates -/

theorem map_update_of_not_mem {β : Type} {f : Nat → β} {x : β} (h : i ∉ path) : path.map (update f i x) = path.map f :=
  map_congr_left fun _ hj => update_of_ne (ne_of_mem_of_not_mem hj h) _ _

namespace LevelInv

variable {lvl lvl' : PriceLevel} {path l r : List Nat} {i : Nat}

section

variable (h : lvl.LevelInv path)

include h

theorem queue_eq : lvl.queue = path.map lvl.entryOf := h.chain.queue_eq

theorem totals_queue : lvl.Totals lvl.queue := by
  rw [h.queue_eq]
  exact h.totals

theorem orderCount_pos (hPath : path ≠ []) : 0 < lvl.orderCount := by
  have := length_pos_iff.mpr hPath
  rw [h.totals.count_eq, length_map]
  omega

theorem valid_qty (hi : i ∈ path) : 0 < (lvl.orders i).qty ∧ (lvl.orders i).qty ≤ kMaxQuantity :=
  h.totals.valid _ (mem_map_of_mem hi)

theorem totalQty_le : lvl.totalQty ≤ 16 * kMaxQuantity := by
  have hSum : ((path.map lvl.entryOf).map Prod.snd).sum ≤ (path.length : Int) * kMaxQuantity := by
    have := sum_le_card_nsmul ((path.map lvl.entryOf).map Prod.snd) kMaxQuantity ?_
    · simpa using this
    intro q hq
    obtain ⟨p, hp, rfl⟩ := mem_map.mp hq
    exact (h.totals.valid p hp).2
  have hLength : (path.length : Int) ≤ 16 := by exact_mod_cast h.chain.length_le
  rw [h.totals.total_eq]
  refine hSum.trans (mul_le_mul_of_nonneg_right hLength ?_)
  decide

theorem totalQty_nonneg : 0 ≤ lvl.totalQty := by
  rw [h.totals.total_eq]
  refine sum_nonneg ?_
  intro q hq
  obtain ⟨p, hp, rfl⟩ := mem_map.mp hq
  exact (h.totals.valid p hp).1.le

theorem qty_le_total (hi : i ∈ path) : (lvl.orders i).qty ≤ lvl.totalQty := by
  rw [h.totals.total_eq]
  refine single_le_sum ?_ _ ?_
  · intro q hq
    obtain ⟨p, hp, rfl⟩ := mem_map.mp hq
    exact (h.totals.valid p hp).1.le
  · exact mem_map.mpr ⟨_, mem_map_of_mem hi, rfl⟩

theorem place (hi : i < kMaxOrdersPerLevel) (hFresh : i ∉ path) (side : Side)
    (ref : UInt64) {qty : Int} (hQty : 0 < qty ∧ qty ≤ kMaxQuantity) :
    ({ (lvl.fillSlot i side ref qty).linkSlot i with
        totalQty := lvl.totalQty + qty, orderCount := lvl.orderCount + 1 } : PriceLevel).LevelInv (path ++ [i]) := by
  have hChain := link_chain h.chain hi hFresh side ref qty
  have hMap : (path ++ [i]).map ((lvl.fillSlot i side ref qty).linkSlot i).entryOf =
      path.map lvl.entryOf ++ [(ref, qty)] := by
    rw [entryOf_link, map_append, map_update_of_not_mem hFresh]
    simp
  refine ⟨⟨hChain.linked, hChain.mem_iff⟩, ?_⟩
  change Totals _ ((path ++ [i]).map ((lvl.fillSlot i side ref qty).linkSlot i).entryOf)
  rw [hMap]
  refine ⟨?_, ?_, ?_⟩
  · simp [h.totals.count_eq]
  · simp [h.totals.total_eq]
  intro q hq
  rcases mem_append.mp hq with hq | hq
  · exact h.totals.valid q hq
  · rw [mem_singleton.mp hq]
    exact hQty

end

theorem remove (h : lvl.LevelInv (l ++ i :: r)) (hChain : lvl'.Chain (l ++ r))
    (hEntry : ∀ j ≠ i, lvl'.entryOf j = lvl.entryOf j) (hTotal : lvl'.totalQty = lvl.totalQty - (lvl.orders i).qty)
    (hCount : lvl'.orderCount = lvl.orderCount - 1) :
    lvl'.LevelInv (l ++ r) ∧ lvl'.queue = (l ++ r).map lvl.entryOf := by
  have hFresh : i ∉ l ++ r := (nodup_middle.mp h.chain.linked.1 |> nodup_cons.mp).1
  have hMap := map_congr_left fun j hj => hEntry j (ne_of_mem_of_not_mem hj hFresh)
  refine ⟨⟨hChain, ?_⟩, hChain.queue_eq.trans hMap⟩
  rw [hMap]
  refine ⟨?_, ?_, ?_⟩
  · rw [hCount, h.totals.count_eq]
    simp
    omega
  · rw [hTotal, h.totals.total_eq]
    simp [entryOf]
    omega
  · intro q hq
    refine h.totals.valid q ?_
    simp only [map_append, mem_append] at hq ⊢
    tauto

theorem reduce (h : lvl.LevelInv path) (hi : i ∈ path) {delta : Int} (hLow : 0 ≤ delta)
    (hHigh : delta < (lvl.orders i).qty) : (lvl.reduceSlot i delta).LevelInv path := by
  obtain ⟨l, r, rfl⟩ := append_of_mem hi
  have hFresh : i ∉ l ++ r := (nodup_middle.mp h.chain.linked.1 |> nodup_cons.mp).1
  have hl : i ∉ l := fun hi => hFresh (mem_append_left r hi)
  have hr : i ∉ r := fun hi => hFresh (mem_append_right l hi)
  refine ⟨reduce_chain h.chain i delta, ?_⟩
  have hMap : (l ++ i :: r).map (lvl.reduceSlot i delta).entryOf =
      l.map lvl.entryOf ++ ((lvl.orders i).orderId, (lvl.orders i).qty - delta) :: r.map lvl.entryOf := by
    rw [entryOf_reduce, map_append, map_cons, map_update_of_not_mem hl, map_update_of_not_mem hr, update_self]
  rw [hMap]
  refine ⟨?_, ?_, ?_⟩
  · change lvl.orderCount = _
    rw [h.totals.count_eq]
    simp
  · change lvl.totalQty - delta = _
    rw [h.totals.total_eq]
    simp [entryOf]
    omega
  · intro q hq
    have hValid := h.valid_qty hi
    rcases mem_append.mp hq with hq | hq
    · exact h.totals.valid q (by simp only [map_append, mem_append]; exact .inl hq)
    rcases mem_cons.mp hq with rfl | hq
    · omega
    · exact h.totals.valid q (by
        simp only [map_append, map_cons, mem_append, mem_cons]
        exact .inr (.inr hq))

end LevelInv

theorem cleared_inv {price : Int} : ({ cleared with price := price } : PriceLevel).LevelInv [] where
  chain :=
    { linked := ⟨nodup_nil, none, rfl, rfl⟩
      mem_iff := fun i => by
        have : (({ cleared with price := price } : PriceLevel).orders i).isActive = false :=
          isActive_of_flags_eq_zero rfl
        simp [this] }
  totals := ⟨rfl, rfl, fun q hq => by cases hq⟩

end LuvFlicker.PriceLevel
