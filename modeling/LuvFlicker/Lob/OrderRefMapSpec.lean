import LuvFlicker.Lob.OrderRefMap

/-!
# The order-reference map as a finite map

On a well-formed table `lookup` reads a finite map, and each operation acts on
that map as its name says. The book's proofs use these statements only.
-/

namespace LuvFlicker.OrderRefMap

open Probe Function Option MapResult Finset

def liveSlots (keys : Nat → UInt64) : Finset Nat := (Finset.range kCapacity).filter (fun slot => Live (keys slot))

structure Wf (m : OrderRefMap) : Prop where
  probe : layout.Wf Live m.keys
  count_eq : m.count = (liveSlots m.keys).card

theorem not_live_empty : ¬ Live kEmptyKey := fun h => h.1 rfl

theorem not_live_tombstone : ¬ Live kTombstone := fun h => h.2 rfl

theorem not_live_of {key : UInt64} (h : key = kEmptyKey ∨ key = kTombstone) : ¬ Live key := by
  rintro ⟨hEmpty, hMark⟩
  exact h.elim hEmpty hMark

variable {keys : Nat → UInt64} {slot : Nat}

theorem mem_liveSlots : slot ∈ liveSlots keys ↔ slot < kCapacity ∧ Live (keys slot) := by
  simp [liveSlots]

theorem liveSlots_store {ref : UInt64} (hSlot : slot < kCapacity)
    (hRef : Live ref) : liveSlots (update keys slot ref) = Insert.insert slot (liveSlots keys) := by
  ext s
  rw [mem_insert, mem_liveSlots, mem_liveSlots]
  by_cases hs : s = slot
  · subst hs
    simp [hSlot, hRef]
  · simp [hs]

theorem liveSlots_erase {marker : UInt64} (hMarker : ¬ Live marker) :
    liveSlots (update keys slot marker) = (liveSlots keys).erase slot := by
  ext s
  rw [mem_erase, mem_liveSlots, mem_liveSlots]
  by_cases hs : s = slot
  · subst hs
    simp [hMarker]
  · simp [hs]

theorem init_wf {values : Nat → OrderLocation} : (init values).Wf where
  probe :=
    { reach := fun _ _ hLive => absurd hLive not_live_empty
      unique := fun _ _ _ _ hLive _ => absurd hLive not_live_empty }
  count_eq := by
    have hEmpty : liveSlots (init values).keys = ∅ := by
      ext s
      simp only [mem_liveSlots, notMem_empty, iff_false, not_and]
      exact fun _ => not_live_empty
    rw [hEmpty]
    rfl

section

variable {m : OrderRefMap} {ref : UInt64} {loc : OrderLocation} {slot : Nat}

theorem lookupSlot_sound (h : m.lookupSlot ref = some slot) : Live ref ∧ slot < kCapacity ∧ m.keys slot = ref := by
  unfold lookupSlot at h
  split at h
  · exact ⟨by assumption, layout.find_lt h⟩
  · cases h

theorem Wf.lookupSlot_iff (h : m.Wf) (slot : Nat) :
    m.lookupSlot ref = some slot ↔ Live ref ∧ slot < kCapacity ∧ m.keys slot = ref := by
  constructor
  · exact lookupSlot_sound
  rintro ⟨hLive, hStored⟩
  rw [lookupSlot, if_pos hLive]
  exact (h.probe.find_iff hLive slot).mpr hStored

theorem Wf.lookup_eq_some_iff (h : m.Wf) : m.lookup ref = some loc ↔
      ∃ slot < kCapacity, Live ref ∧ m.keys slot = ref ∧ m.values slot = loc := by
  simp only [lookup, map_eq_some_iff, h.lookupSlot_iff]
  constructor
  · rintro ⟨slot, ⟨hLive, hSlot, hKey⟩, hValue⟩
    exact ⟨slot, hSlot, hLive, hKey, hValue⟩
  · rintro ⟨slot, hSlot, hLive, hKey, hValue⟩
    exact ⟨slot, ⟨hLive, hSlot, hKey⟩, hValue⟩

theorem lookup_eq_none_iff : m.lookup ref = none ↔ m.lookupSlot ref = none := map_eq_none_iff

theorem init_lookup {values : Nat → OrderLocation} (ref : UInt64) : (init values).lookup ref = none := by
  cases h : (init values).lookup ref with
  | none => rfl
  | some loc =>
    obtain ⟨_, _, hLive, hKey, _⟩ := init_wf.lookup_eq_some_iff.mp h
    rw [← hKey] at hLive
    exact absurd hLive not_live_empty

theorem Wf.lookup_update_values (h : m.Wf) (hSlot : m.lookupSlot ref = some slot) :
    ({ m with values := update m.values slot loc } : OrderRefMap).Wf ∧
    ({ m with values := update m.values slot loc } : OrderRefMap).lookup = update m.lookup ref (some loc) := by
  refine ⟨⟨h.probe, h.count_eq⟩, ?_⟩
  funext other
  change (m.lookupSlot other).map (update m.values slot loc) = _
  obtain ⟨_, _, hKey⟩ := lookupSlot_sound hSlot
  by_cases hOther : other = ref
  · subst hOther
    rw [hSlot, update_self, map_some, update_self]
  rw [update_of_ne hOther, lookup]
  cases hFind : m.lookupSlot other with
  | none => rfl
  | some s =>
    have hs := (lookupSlot_sound hFind).2.2
    have hne : s ≠ slot := fun he => hOther (hs.symm.trans (he ▸ hKey))
    simp [update_of_ne hne]

theorem setLocation_spec {loc : OrderLocation} (h : m.Wf) (hStored : m.lookup ref ≠ none) :
    (m.setLocation ref loc).Wf ∧ (m.setLocation ref loc).lookup = update m.lookup ref (some loc) := by
  obtain ⟨_, hSlot⟩ := ne_none_iff_exists'.mp (fun he => hStored (lookup_eq_none_iff.mpr he))
  simp only [setLocation, hSlot]
  exact h.lookup_update_values hSlot

theorem setLocation_count : (m.setLocation ref loc).count = m.count := by
  unfold setLocation
  split <;> rfl

theorem setLocation_keys : (m.setLocation ref loc).keys = m.keys := by
  unfold setLocation
  split <;> rfl

theorem remove_spec (h : m.Wf) (hStored : m.lookup ref ≠ none) :
    (m.remove ref).Wf ∧ (m.remove ref).lookup = update m.lookup ref none ∧
      (m.remove ref).count + 1 = m.count := by
  obtain ⟨slot, hSlot⟩ := ne_none_iff_exists'.mp (fun he => hStored (lookup_eq_none_iff.mpr he))
  obtain ⟨hLive, hLt, hKey⟩ := lookupSlot_sound hSlot
  have hMem : slot ∈ liveSlots m.keys := mem_liveSlots.mpr ⟨hLt, hKey ▸ hLive⟩
  have hCard := (card_erase_add_one hMem).symm
  have hWf : (m.remove ref).Wf := by
    simp only [remove, hSlot]
    refine ⟨h.probe.mark (by decide) not_live_tombstone slot, ?_⟩
    rw [liveSlots_erase not_live_tombstone]
    rw [h.count_eq, hCard, Nat.add_sub_cancel]
  refine ⟨hWf, ?_, ?_⟩
  · funext other
    by_cases hOther : other = ref
    · subst hOther
      rw [update_self, lookup_eq_none_iff]
      cases hFind : (m.remove other).lookupSlot other with
      | none => rfl
      | some s =>
        obtain ⟨_, hs, hsKey⟩ := lookupSlot_sound hFind
        simp only [remove, hSlot] at hsKey
        by_cases hss : s = slot
        · rw [hss, update_self] at hsKey
          exact absurd (hsKey ▸ hLive) not_live_tombstone
        · rw [update_of_ne hss] at hsKey
          exact absurd (h.probe.unique slot hLt s hs (hKey ▸ hLive) (hKey.trans hsKey.symm)) (Ne.symm hss)
    · rw [update_of_ne hOther]
      apply Option.ext
      intro _
      rw [hWf.lookup_eq_some_iff, h.lookup_eq_some_iff]
      simp only [remove, hSlot]
      refine exists_congr fun s => and_congr_right fun _ => and_congr_right fun hOtherLive => ?_
      refine and_congr_left fun _ => ?_
      by_cases hss : s = slot
      · subst hss
        rw [update_self]
        exact ⟨fun he => absurd (he ▸ hOtherLive) not_live_tombstone, fun he => absurd (he.symm.trans hKey) hOther⟩
      · rw [update_of_ne hss]
  · simp only [remove, hSlot]
    rw [h.count_eq, hCard, Nat.add_sub_cancel]

theorem store_spec (h : m.Wf) (hRef : Live ref) (hAbsent : m.lookup ref = none) {d : Nat}
    (hd : d < kMaxProbeLength) (hOpen : layout.Open m.keys ref d)
    (hFree : ¬ Live (m.keys (layout.cell ref d))) :
    (m.store (layout.cell ref d) ref loc).Wf ∧
    (m.store (layout.cell ref d) ref loc).lookup = update m.lookup ref (some loc) := by
  have hLt := layout.cell_lt ref d
  have hNowhere : ∀ slot < layout.cap, m.keys slot ≠ ref := by
    have hFind := lookup_eq_none_iff.mp hAbsent
    rw [lookupSlot, if_pos hRef] at hFind
    exact (h.probe.find_eq_none_iff hRef).mp hFind
  have hWf : (m.store (layout.cell ref d) ref loc).Wf := by
    refine ⟨h.probe.place hRef.1 hNowhere hd hOpen, ?_⟩
    change m.count + 1 = (liveSlots (update m.keys _ ref)).card
    rw [liveSlots_store hLt hRef, card_insert_of_notMem, h.count_eq]
    exact fun hMem => hFree (mem_liveSlots.mp hMem).2
  refine ⟨hWf, ?_⟩
  funext other
  apply Option.ext
  intro _
  rw [hWf.lookup_eq_some_iff]
  simp only [store]
  by_cases hOther : other = ref
  · subst hOther
    rw [update_self]
    constructor
    · rintro ⟨s, hs, _, hKey, hValue⟩
      by_cases hss : s = layout.cell other d
      · rw [hss, update_self] at hValue
        rw [hValue]
      · rw [update_of_ne hss] at hKey
        exact absurd hKey (hNowhere s hs)
    · intro he
      cases he
      exact ⟨_, hLt, hRef, update_self .., update_self ..⟩
  · rw [update_of_ne hOther, h.lookup_eq_some_iff]
    refine exists_congr fun s => and_congr_right fun _ => and_congr_right fun hOtherLive => ?_
    by_cases hss : s = layout.cell ref d
    · subst hss
      rw [update_self]
      exact ⟨fun he => absurd he.1.symm hOther, fun he => absurd (he.1 ▸ hOtherLive) hFree⟩
    · rw [update_of_ne hss, update_of_ne hss]

end

/-! ## The probe loop of an insertion -/

variable {m : OrderRefMap} {ref : UInt64} {loc : OrderLocation}

inductive Inserts (m : OrderRefMap) (ref : UInt64) (loc : OrderLocation) :
    Option Nat → OrderRefMap × MapResult → Prop where
  | held {slot : Nat} (hKey : m.keys slot = ref) :
      Inserts m ref loc (some slot) ({ m with values := update m.values slot loc }, .ok)
  | stored {slot : Nat} : Inserts m ref loc (some slot) (m.store slot ref loc, .ok)
  | refused {claimed : Option Nat} {r : MapResult} (hFull : claimed = none ∨ kMaxEntries ≤ m.count)
      (hr : r.isCapacity = true) : Inserts m ref loc claimed (m, r)

theorem insertLoop_inserts (loc : OrderLocation) (hRef : Live ref) (n slot : Nat) (tombstone : Option Nat) :
    Inserts m ref loc (layout.claim kTombstone m.keys ref n slot tombstone) (insertLoop m ref loc n slot tombstone) := by
  induction n generalizing slot tombstone with
  | zero =>
    cases tombstone with
    | none => exact .refused (.inl rfl) rfl
    | some t =>
      rw [insertLoop]
      split
      · exact .stored
      · exact .refused (.inr (by omega)) rfl
  | succ n ih =>
    rw [insertLoop, Layout.claim]
    by_cases hKey : m.keys slot = ref
    · rw [if_pos hKey, if_neg (hKey ▸ hRef.1), if_neg (hKey ▸ hRef.2), if_pos hKey]
      exact .held hKey
    rw [if_neg hKey]
    by_cases hEmpty : m.keys slot = kEmptyKey
    · have hMark : ¬ (m.keys slot = kTombstone ∧ tombstone = none) := fun h => absurd (hEmpty.symm.trans h.1) (by decide)
      rw [if_pos (show m.keys slot = layout.empty from hEmpty)]
      split_ifs with hCount
      · exact .refused (.inr hCount) rfl
      · exact .stored
    · rw [if_neg (show ¬ m.keys slot = layout.empty from hEmpty), if_neg hEmpty, if_neg hKey]
      by_cases hMark : m.keys slot = kTombstone
      · cases tombstone with
        | none =>
          rw [if_pos hMark, if_pos ⟨hMark, rfl⟩]
          exact ih _ _
        | some t =>
          rw [if_pos hMark, if_neg (by simp)]
          exact ih _ _
      · rw [if_neg hMark, if_neg (fun h : _ ∧ _ => hMark h.1)]
        exact ih _ _

theorem insert_inserts (hRef : Live ref) (hLoc : validLocation loc = true) :
    ∃ claimed, layout.Claims kTombstone m.keys ref claimed ∧ Inserts m ref loc claimed (m.insert ref loc) := by
  rw [insert, if_pos ⟨hRef, hLoc⟩]
  exact ⟨_, Layout.claims hRef.1 hRef.2 (by decide), insertLoop_inserts loc hRef _ _ none⟩

theorem insert_spec (loc : OrderLocation) (h : m.Wf) (hAbsent : m.lookup ref = none) :
    ((m.insert ref loc).2 ≠ .ok ∧ (m.insert ref loc).1 = m) ∨
    ((m.insert ref loc).2 = .ok ∧ Live ref ∧ (m.insert ref loc).1.Wf ∧
      (m.insert ref loc).1.lookup = update m.lookup ref (some loc)) := by
  by_cases hValid : Live ref ∧ validLocation loc
  · obtain ⟨_, hClaims, hInserts⟩ := insert_inserts (m := m) hValid.1 hValid.2
    generalize m.insert ref loc = result at hInserts ⊢
    cases hInserts with
    | refused hFull hr =>
      refine .inl ⟨?_, rfl⟩
      rintro rfl
      cases hr
    | held hKey =>
      cases hClaims with
      | held hFind => simp [lookup_eq_none_iff, lookupSlot, hValid.1, hFind] at hAbsent
      | free hd hOpen hFree => exact absurd hValid.1 (hKey ▸ not_live_of hFree)
    | stored =>
      cases hClaims with
      | held hFind => simp [lookup_eq_none_iff, lookupSlot, hValid.1, hFind] at hAbsent
      | free hd hOpen hFree => exact .inr ⟨rfl, hValid.1, store_spec h hValid.1 hAbsent hd hOpen (not_live_of hFree)⟩
  · rw [insert, if_neg hValid]
    exact .inl ⟨noConfusion, rfl⟩

/-- The load is below its limit and the probe sequence of the reference meets an empty cell. -/
structure HasRoom (m : OrderRefMap) (ref : UInt64) : Prop where
  count_lt : m.count < kMaxEntries
  exists_empty : ∃ d < kMaxProbeLength, m.keys (layout.cell ref d) = kEmptyKey

theorem HasRoom.congr {m' : OrderRefMap} (h : m.HasRoom ref) (hKeys : m'.keys = m.keys) (hCount : m'.count = m.count) :
    m'.HasRoom ref :=
  ⟨hCount ▸ h.count_lt, hKeys ▸ h.exists_empty⟩

theorem HasRoom.remove (h : m.HasRoom ref) (other : UInt64) : (m.remove other).HasRoom ref := by
  unfold OrderRefMap.remove
  split
  next slot hSlot =>
    obtain ⟨hLive, _, hKey⟩ := lookupSlot_sound hSlot
    obtain ⟨d, hd, hEmpty⟩ := h.exists_empty
    refine ⟨lt_of_le_of_lt (Nat.sub_le ..) h.count_lt, d, hd, ?_⟩
    have hne : layout.cell ref d ≠ slot := by
      intro he
      rw [he, hKey] at hEmpty
      exact hLive.1 hEmpty
    exact (update_of_ne hne _ _).trans hEmpty
  · exact h

section

variable (hRef : Live ref) (hLoc : validLocation loc = true)
include hRef hLoc

theorem insert_ok (hRoom : m.HasRoom ref) : (m.insert ref loc).2 = .ok := by
  obtain ⟨_, hClaims, hInserts⟩ := insert_inserts (m := m) hRef hLoc
  generalize m.insert ref loc = result at hInserts ⊢
  cases hInserts with
  | held | stored => rfl
  | refused hFull hr =>
    rcases hFull with rfl | hCount
    · obtain ⟨e, he, hEmpty⟩ := hRoom.exists_empty
      cases hClaims with
      | full hFull => exact absurd hEmpty (hFull e he).1
    · exact absurd hRoom.count_lt (not_lt.mpr hCount)

theorem insert_refused (h : (m.insert ref loc).2 ≠ .ok) : isCapacity (m.insert ref loc).2 = true := by
  obtain ⟨_, -, hInserts⟩ := insert_inserts (m := m) hRef hLoc
  generalize m.insert ref loc = result at hInserts h ⊢
  cases hInserts with
  | held | stored => exact absurd rfl h
  | refused hFull hr => exact hr

end

inductive Preflight (m : OrderRefMap) (ref : UInt64) : MapResult → Prop where
  | invalid (hRef : ¬ Live ref) : Preflight m ref .invalidOrderLocation
  | full {r : MapResult} (hr : r.isCapacity = true) : Preflight m ref r
  | duplicate (hRef : Live ref) {d : Nat} (hKey : m.keys (layout.cell ref d) = ref) : Preflight m ref .duplicateOrderRef
  | fresh (hRef : Live ref) (hAbsent : m.lookup ref = none) (hRoom : m.HasRoom ref) : Preflight m ref .ok

theorem canInsert_preflight (m : OrderRefMap) (ref : UInt64) : m.Preflight ref (m.canInsert ref) := by
  unfold canInsert
  split
  · exact .invalid ‹_›
  rename_i hRef
  have hRef : Live ref := not_not.mp hRef
  split
  · exact .full rfl
  rename_i hCount
  cases hScan : Scan.scan (Probe.next kCapacity) (fun slot =>
      if m.keys slot = ref then some duplicateOrderRef
      else if m.keys slot = kEmptyKey then some .ok
      else none) kMaxProbeLength (hash ref) with
  | none => exact .full rfl
  | some r =>
    obtain ⟨d, hd, hVisit, hBefore⟩ := (Scan.scan_eq_some_iff ..).mp hScan
    have hCell : ∀ j, (Probe.next kCapacity)^[j] (hash ref) = layout.cell ref j := layout.iterate_next ref
    simp only [hCell] at hVisit hBefore
    split_ifs at hVisit with hKey hEmpty
    · cases hVisit
      exact .duplicate hRef hKey
    cases hVisit
    refine .fresh hRef ?_ ⟨by omega, d, hd, hEmpty⟩
    rw [lookup_eq_none_iff, lookupSlot, if_pos hRef]
    refine layout.find_eq_none_of hRef.1 (fun j hj he => ?_) (.inr hEmpty)
    have hNone := hBefore j hj
    simp [he] at hNone

theorem canInsert_ok (h : m.canInsert ref = .ok) : Live ref ∧ m.lookup ref = none ∧ m.HasRoom ref := by
  have hPreflight := canInsert_preflight m ref
  rw [h] at hPreflight
  cases hPreflight with
  | full hr => cases hr
  | fresh hRef hAbsent hRoom => exact ⟨hRef, hAbsent, hRoom⟩

/-- The probe sequence from a cell meets the reference before an empty cell. -/
def Meets (m : OrderRefMap) (ref : UInt64) (n slot : Nat) : Prop :=
  ∃ d < n, m.keys ((Probe.next kCapacity)^[d] slot) = ref ∧ ∀ e < d,
    m.keys ((Probe.next kCapacity)^[e] slot) ≠ ref ∧ m.keys ((Probe.next kCapacity)^[e] slot) ≠ kEmptyKey

theorem Meets.lookup_ne_none (h : m.Meets ref kMaxProbeLength (hash ref)) (hRef : Live ref) : m.lookup ref ≠ none := by
  obtain ⟨d, hd, hAt, hBefore⟩ := h
  simp only [show ∀ j, (Probe.next kCapacity)^[j] (hash ref) = layout.cell ref j from layout.iterate_next ref]
    at hAt hBefore
  have hFind := (layout.find_eq_some_iff _ ref _).mpr
    ⟨d, hd, rfl, hAt, fun e he => (hBefore e he).2, fun e he => (hBefore e he).1⟩
  simp [lookup_eq_none_iff, lookupSlot, hRef, hFind]

theorem Meets.succ {n slot : Nat} (h : m.Meets ref n (Probe.next kCapacity slot)) (hKey : m.keys slot ≠ ref)
    (hFull : m.keys slot ≠ kEmptyKey) : m.Meets ref (n + 1) slot := by
  obtain ⟨d, hd, hAt, hBefore⟩ := h
  refine ⟨_, Nat.succ_lt_succ hd, hAt, fun e he => ?_⟩
  cases e with
  | zero => exact ⟨hKey, hFull⟩
  | succ e => exact hBefore e (Nat.lt_of_succ_lt_succ he)

/-- A full table takes a reference in place of itself only. -/
theorem insertLoop_full (hCount : kMaxEntries ≤ m.count) {n slot : Nat} {tombstone : Option Nat}
    (h : (insertLoop m ref loc n slot tombstone).2 = .ok) : m.Meets ref n slot := by
  induction n generalizing slot tombstone with
  | zero => cases tombstone <;> simp [insertLoop, hCount.not_gt] at h
  | succ n ih =>
    rw [insertLoop] at h
    split_ifs at h with hKey hMark hEmpty
    · exact ⟨0, n.succ_pos, hKey, nofun⟩
    · exact (ih h).succ hKey (hMark.1 ▸ by decide)
    · exact (ih h).succ hKey hEmpty

theorem canInsert_of_room (hRef : Live ref) (hAbsent : m.lookup ref = none) (hRoom : m.HasRoom ref) :
    m.canInsert ref = .ok := by
  obtain ⟨d, hd, hEmpty⟩ := hRoom.exists_empty
  rw [canInsert, if_neg (not_not.mpr hRef), if_neg hRoom.count_lt.not_ge]
  cases hScan : Scan.scan (Probe.next kCapacity) _ kMaxProbeLength (hash ref) with
  | none =>
    have hVisit := (Scan.scan_eq_none_iff ..).mp hScan d hd
    split_ifs at hVisit with _ hFull
    exact absurd ((congrArg _ (layout.iterate_next ref d)).trans hEmpty) hFull
  | some r =>
    obtain ⟨e, he, hVisit, hBefore⟩ := (Scan.scan_eq_some_iff ..).mp hScan
    split_ifs at hVisit with hKey
    · refine absurd hAbsent (Meets.lookup_ne_none ⟨e, he, hKey, fun j hj => ?_⟩ hRef)
      have hNone := hBefore j hj
      split_ifs at hNone with hOther hFull
      exact ⟨hOther, hFull⟩
    · cases hVisit
      rfl

/-- The pre-flight is exact unless the probe sequence of a new reference meets tombstones but no empty cell below the
load limit: it then refuses what `insert` stores in a tombstone. -/
theorem canInsert_exact_iff (m : OrderRefMap) (ref : UInt64) (hLoc : validLocation loc = true) :
    (m.canInsert ref = .ok ↔ m.lookup ref = none ∧ (m.insert ref loc).2 = .ok) ↔
      (Live ref ∧ m.lookup ref = none ∧ m.count < kMaxEntries ∧
          (∃ d < kMaxProbeLength, m.keys (layout.cell ref d) = kTombstone) →
        ∃ d < kMaxProbeLength, m.keys (layout.cell ref d) = kEmptyKey) := by
  constructor
  · rintro hExact ⟨hRef, hAbsent, hCount, d, hd, hMark⟩
    refine (canInsert_ok (hExact.mpr ⟨hAbsent, ?_⟩)).2.2.exists_empty
    obtain ⟨claimed, hClaims, hInserts⟩ := insert_inserts (m := m) hRef hLoc
    generalize m.insert ref loc = result at hInserts ⊢
    cases hInserts with
    | held | stored => rfl
    | refused hFull hr =>
      obtain rfl := hFull.resolve_right hCount.not_ge
      cases hClaims with
      | full hFull => exact absurd hMark (hFull d hd).2
  intro hEmpty
  constructor
  · intro h
    obtain ⟨hRef, hAbsent, hRoom⟩ := canInsert_ok h
    exact ⟨hAbsent, insert_ok hRef hLoc hRoom⟩
  rintro ⟨hAbsent, hOk⟩
  have hRef : Live ref := by
    by_contra hDead
    rw [insert, if_neg fun h => hDead h.1] at hOk
    cases hOk
  have hCount : m.count < kMaxEntries := by
    by_contra hFull
    rw [insert, if_pos ⟨hRef, hLoc⟩] at hOk
    exact (insertLoop_full (not_lt.mp hFull) hOk).lookup_ne_none hRef hAbsent
  refine canInsert_of_room hRef hAbsent ⟨hCount, ?_⟩
  obtain ⟨claimed, hClaims, hInserts⟩ := insert_inserts (m := m) hRef hLoc
  cases hClaims with
  | held hFind => simp [lookup_eq_none_iff, lookupSlot, hRef, hFind] at hAbsent
  | @free d hd _ hFree =>
    rcases hFree with hFree | hMark
    · exact ⟨d, hd, hFree⟩
    · exact hEmpty ⟨hRef, hAbsent, hCount, d, hd, hMark⟩
  | full =>
    generalize m.insert ref loc = result at hInserts hOk
    cases hInserts with
    | refused _ hr =>
      subst hOk
      cases hr

def refOf (slot more : UInt64) : UInt64 :=
  let key := (slot <<< kShift + more) * 0xF1DE83E19937733D
  let key := (key ^^^ (key >>> 31) ^^^ (key >>> 62)) * 0x319642B2D24D8EC3
  let key := (key ^^^ (key >>> 27) ^^^ (key >>> 54)) * 0x96DE1B173F119089
  key ^^^ (key >>> 30) ^^^ (key >>> 60)

/-- The first `n` cells of a probe sequence are filled, and the first is freed. -/
def crowd (n : Nat) : OrderRefMap :=
  ((List.range n).foldl (fun m i => (m.insert (refOf (.ofNat (i + 1)) 0) ⟨0, .bid, 0, 0⟩).1)
    (init fun _ => ⟨0, .bid, 0, 0⟩)).remove (refOf 1 0)

theorem canInsert_exact_iff_crowd : (crowd 3).keys (layout.cell (refOf 1 1) 0) = kTombstone ∧
    ((crowd 3).canInsert (refOf 1 1) = .ok ↔
      (crowd 3).lookup (refOf 1 1) = none ∧ ((crowd 3).insert (refOf 1 1) ⟨0, .bid, 0, 0⟩).2 = .ok) :=
  ⟨by decide +kernel, (canInsert_exact_iff _ _ (by decide)).mpr fun _ => ⟨3, by decide, by decide +kernel⟩⟩

def crowded : OrderRefMap := crowd 256

theorem crowded_refused : crowded.canInsert (refOf 1 1) = .hashTableProbeLimit ∧
    crowded.lookup (refOf 1 1) = none ∧ (crowded.insert (refOf 1 1) ⟨0, .bid, 0, 0⟩).2 = .ok := by
  decide +kernel

theorem canInsert_refused (h : m.Wf) (hRefused : m.canInsert ref ≠ .ok) :
    isCapacity (m.canInsert ref) = true ∨ ¬ Live ref ∨ m.lookup ref ≠ none := by
  have hPreflight := canInsert_preflight m ref
  generalize m.canInsert ref = r at hPreflight hRefused ⊢
  cases hPreflight with
  | invalid hRef => exact .inr (.inl hRef)
  | full hr => exact .inl hr
  | @duplicate hRef d hKey =>
    have hStored := h.lookup_eq_some_iff.mpr ⟨_, layout.cell_lt ref d, hRef, hKey, rfl⟩
    exact .inr (.inr (hStored ▸ some_ne_none _))
  | fresh => exact absurd rfl hRefused

end LuvFlicker.OrderRefMap
