import LuvFlicker.Lib.Displacement

/-!
# A probe table as a set of entries

What the writes of a linear-probing table do to the set of stored entries:
placing an entry in an empty cell, overwriting the entry of a key, and emptying a
cell, with or without re-insertion of the cluster behind it.
-/

namespace LuvFlicker.Probe.Entries

open Finset Function

universe u v

variable {K : Type u} {α : Type v} {E : Entries K α} {entries : Nat → α} {slot : Nat} {x y : α}

def Wf (E : Entries K α) (entries : Nat → α) : Prop := E.layout.Wf (· ≠ E.layout.empty) fun i => E.key (entries i)

theorem wf_iff : E.Wf entries ↔ E.Unique entries ∧ ∀ i < E.layout.cap, E.key (entries i) ≠ E.layout.empty →
    E.layout.Reaches (fun j => E.key (entries j)) (E.key (entries i)) i := by
  constructor
  · intro h
    refine ⟨fun i hi j hj hFull hKey => h.unique i hi j hj hFull hKey, fun i hi hFull => ?_⟩
    obtain ⟨d, _, hCell, hOpen⟩ := h.reach i hi hFull
    have hLimit := E.layout.limit_le
    have hOffset : E.layout.offset (E.key (entries i)) i = d := by
      rw [← E.layout.offset_cell _ (d := d) (by omega), hCell]
    rw [E.layout.reaches_iff_open hi, hOffset]
    exact hOpen
  · rintro ⟨hUnique, hReaches⟩
    refine ⟨fun i hi hFull => ⟨_, E.limit_eq ▸ E.layout.offset_lt _ hi, E.layout.cell_offset _ hi, ?_⟩, ?_⟩
    · exact (E.layout.reaches_iff_open hi).mp (hReaches i hi hFull)
    · exact fun i hi j hj hFull hKey => hUnique i hi j hj hFull hKey

theorem Wf.unique (h : E.Wf entries) : E.Unique entries := (wf_iff.mp h).1

theorem Wf.reaches (h : E.Wf entries) {i : Nat} (hi : i < E.layout.cap) (hFull : E.key (entries i) ≠ E.layout.empty) :
    E.layout.Reaches (fun j => E.key (entries j)) (E.key (entries i)) i :=
  (wf_iff.mp h).2 i hi hFull

theorem key_update (E : Entries K α) (entries : Nat → α) (slot : Nat) (x : α) :
    (fun i => E.key (update entries slot x i)) = update (fun i => E.key (entries i)) slot (E.key x) :=
  comp_update _ _ slot x

/-! ## Writes -/

section

variable (h : E.Unique entries)

include h

theorem Unique.update (hOther : ∀ i < E.layout.cap, i ≠ slot → E.key (entries i) = E.key x → E.key x = E.layout.empty) :
    E.Unique (update entries slot x) := by
  intro i hi j hj hFull hKey
  rcases eq_or_ne i slot with hiSlot | hiSlot <;> rcases eq_or_ne j slot with hjSlot | hjSlot
  · exact hiSlot.trans hjSlot.symm
  · rw [hiSlot, update_self] at hFull hKey
    rw [update_of_ne hjSlot] at hKey
    exact absurd (hOther j hj hjSlot hKey.symm) hFull
  · rw [update_of_ne hiSlot] at hFull hKey
    rw [hjSlot, update_self] at hKey
    exact absurd (hKey.trans (hOther i hi hiSlot hKey)) hFull
  · rw [update_of_ne hiSlot] at hFull hKey
    rw [update_of_ne hjSlot] at hKey
    exact h i hi j hj hFull hKey

theorem Unique.update_same (hSlot : slot < E.layout.cap)
    (hFull : E.key (entries slot) ≠ E.layout.empty) (hKey : E.key x = E.key (entries slot)) :
    E.Unique (Function.update entries slot x) := by
  refine h.update fun i hi hne hSame => absurd ?_ hne
  exact h i hi slot hSlot (fun hEmpty => hFull (by rw [← hKey, ← hSame, hEmpty])) (hSame.trans hKey)

theorem Unique.clear : E.Unique (Function.update entries slot E.blank) := h.update fun _ _ _ _ => E.key_blank

section

variable (hSlot : slot < E.layout.cap)
include hSlot

theorem Unique.stored_update : E.Stored (Function.update entries slot x) y ↔
      E.key y ≠ E.layout.empty ∧ (y = x ∨ E.Stored entries y ∧ y ≠ entries slot) := by
  constructor
  · rintro ⟨hKey, i, hi, rfl⟩
    refine ⟨hKey, ?_⟩
    rcases eq_or_ne i slot with rfl | hne
    · exact .inl (update_self ..)
    · rw [update_of_ne hne] at hKey ⊢
      exact .inr ⟨⟨hKey, i, hi, rfl⟩, fun he => hne (h i hi slot hSlot hKey (congrArg _ he))⟩
  · rintro ⟨hKey, rfl | ⟨⟨_, i, hi, rfl⟩, hne⟩⟩
    · exact ⟨hKey, slot, hSlot, Function.update_self ..⟩
    refine ⟨hKey, i, hi, Function.update_of_ne ?_ ..⟩
    rintro rfl
    exact hne rfl

theorem Unique.stored_place (hEmpty : E.key (entries slot) = E.layout.empty) (hKey : E.key x ≠ E.layout.empty) :
    E.Stored (Function.update entries slot x) y ↔ y = x ∨ E.Stored entries y := by
  rw [h.stored_update hSlot]
  constructor
  · rintro ⟨_, rfl | ⟨hStored, _⟩⟩
    · exact .inl rfl
    · exact .inr hStored
  · rintro (rfl | hStored)
    · exact ⟨hKey, .inl rfl⟩
    · exact ⟨hStored.1, .inr ⟨hStored, fun he => hStored.1 (he ▸ hEmpty)⟩⟩

theorem Unique.stored_clear :
    E.Stored (Function.update entries slot E.blank) y ↔ E.Stored entries y ∧ y ≠ entries slot := by
  rw [h.stored_update hSlot]
  constructor
  · rintro ⟨hKey, rfl | hStored⟩
    · exact absurd E.key_blank hKey
    · exact hStored
  · exact fun hStored => ⟨hStored.1.1, .inr hStored⟩

theorem Unique.stored_ne_iff :
    E.Stored entries y ∧ y ≠ entries slot ↔ E.Stored entries y ∧ E.key y ≠ E.key (entries slot) := by
  refine and_congr_right ?_
  rintro ⟨hKey, i, hi, rfl⟩
  exact not_congr ⟨congrArg _, fun hSame => congrArg _ (h i hi slot hSlot hKey hSame)⟩

end

theorem Unique.card_lt_iff [DecidableEq K] {keys : Finset K}
    (hKeys : ∀ key, key ∈ keys ↔ key ≠ E.layout.empty ∧ ∃ i < E.layout.cap, E.key (entries i) = key) :
    keys.card ≤ E.layout.cap ∧
      (keys.card < E.layout.cap ↔ ∃ i < E.layout.cap, E.key (entries i) = E.layout.empty) := by
  let occupied := (range E.layout.cap).filter fun i => E.key (entries i) ≠ E.layout.empty
  have hImage : keys = occupied.image fun i => E.key (entries i) := by
    ext key
    rw [hKeys, mem_image]
    constructor
    · rintro ⟨hKey, i, hi, rfl⟩
      exact ⟨i, mem_filter.mpr ⟨mem_range.mpr hi, hKey⟩, rfl⟩
    · rintro ⟨i, hi, rfl⟩
      obtain ⟨hi, hKey⟩ := mem_filter.mp hi
      exact ⟨hKey, i, mem_range.mp hi, rfl⟩
  have hCard : keys.card = occupied.card := by
    rw [hImage]
    refine card_image_of_injOn fun i hi j hj hKey => ?_
    obtain ⟨hi, hFull⟩ := mem_filter.mp hi
    obtain ⟨hj, _⟩ := mem_filter.mp hj
    exact h i (mem_range.mp hi) j (mem_range.mp hj) hFull hKey
  have hSubset : occupied ⊆ range E.layout.cap := filter_subset ..
  have hLe := card_le_card hSubset
  rw [card_range] at hLe
  rw [hCard]
  refine ⟨hLe, ?_⟩
  constructor
  · intro hlt
    by_contra hNone
    have hAll : occupied = range E.layout.cap :=
      filter_true_of_mem fun i hi hEmpty => hNone ⟨i, mem_range.mp hi, hEmpty⟩
    rw [hAll, card_range] at hlt
    omega
  · rintro ⟨i, hi, hEmpty⟩
    have hMissing : i ∉ occupied := fun hMem => (mem_filter.mp hMem).2 hEmpty
    have hStrict := ssubset_iff_of_subset hSubset |>.mpr ⟨i, mem_range.mpr hi, hMissing⟩
    simpa using card_lt_card hStrict

end

/-- The probe sequence of another stored key runs through the cell. -/
def Crossed (E : Entries K α) (entries : Nat → α) (slot : Nat) : Prop :=
  ∃ other < E.layout.cap, E.key (entries other) ≠ E.layout.empty ∧
    E.layout.offset (E.key (entries other)) slot < E.layout.offset (E.key (entries other)) other

instance [DecidableEq K] (entries : Nat → α) (slot : Nat) : Decidable (E.Crossed entries slot) :=
  inferInstanceAs (Decidable (∃ other < E.layout.cap, E.key (entries other) ≠ E.layout.empty ∧
    E.layout.offset (E.key (entries other)) slot < E.layout.offset (E.key (entries other)) other))

section

variable (h : E.Wf entries)
include h

theorem Wf.clear (hClear : ¬ E.Crossed entries slot) : E.Wf (update entries slot E.blank) := by
  refine wf_iff.mpr ⟨h.unique.clear, fun i hi hFull hole hHole hEmpty => ?_⟩
  rcases eq_or_ne i slot with rfl | hiSlot
  · rw [update_self] at hFull
    exact absurd E.key_blank hFull
  rw [update_of_ne hiSlot] at hFull ⊢
  rcases eq_or_ne hole slot with rfl | hHoleSlot
  · by_contra hlt
    exact hClear ⟨i, hi, hFull, by omega⟩
  · dsimp only at hEmpty
    rw [update_of_ne hHoleSlot] at hEmpty
    exact h.reaches hi hFull hole hHole hEmpty

theorem Wf.ahead_clear (hSlot : slot < E.layout.cap) :
    E.Ahead (update entries slot E.blank) (next E.layout.cap slot) := by
  intro i hi hFull hole hHole hEmpty hBefore
  rcases eq_or_ne i slot with rfl | hiSlot
  · rw [update_self] at hFull
    exact absurd E.key_blank hFull
  rw [update_of_ne hiSlot] at hFull hBefore
  rcases eq_or_ne hole slot with rfl | hHoleSlot
  · exact E.layout.ringDist_next_le hHole hSlot hi hiSlot (by simp [ringDist])
  · rw [update_of_ne hHoleSlot] at hEmpty
    exact absurd (h.reaches hi hFull hole hHole hEmpty) (by omega)

theorem Wf.overwrite (hKey : E.key x = E.key (entries slot)) : E.Wf (update entries slot x) := by
  rw [Wf, key_update, hKey, update_eq_self]
  exact h

end

variable [DecidableEq K]

/-! ## Deletion -/

def erase (E : Entries K α) (rounds : Nat) (entries : Nat → α) (slot : Nat) : Option (Nat → α) :=
  E.reinsertLoop rounds (Function.update entries slot E.blank) (next E.layout.cap slot)

theorem erase_maxRounds (E : Entries K α) (entries : Nat → α) (slot : Nat) (hSlot : slot < E.layout.cap) :
    ∃ result, E.erase E.maxRounds entries slot = some result := by
  refine Option.ne_none_iff_exists'.mp (reinsertLoop_maxRounds _ (E.layout.next_lt slot) hSlot ?_)
  rw [update_self, E.key_blank]

variable {result : Nat → α} {rounds : Nat}

theorem Unique.erase (h : E.Unique entries) (hSlot : slot < E.layout.cap)
    (hErase : E.erase rounds entries slot = some result) :
    E.Unique result ∧ ∀ y, E.Stored result y ↔ E.Stored entries y ∧ y ≠ entries slot := by
  obtain ⟨hUnique, hStored⟩ := E.reinsertLoop_stored (E.layout.next_lt slot) hErase h.clear
  exact ⟨hUnique, fun y => (hStored y).trans (h.stored_clear hSlot)⟩

theorem Wf.erase (h : E.Wf entries) (hSlot : slot < E.layout.cap)
    (hErase : E.erase rounds entries slot = some result) : E.Wf result :=
  wf_iff.mpr ⟨(h.unique.erase hSlot hErase).1, fun _ hi hFull =>
    E.reinsertLoop_reaches (E.layout.next_lt slot) hErase (h.ahead_clear hSlot) hi hFull⟩

theorem erase_update (E : Entries K α) (rounds : Nat) (entries : Nat → α) (slot : Nat) (x : α) :
    E.erase rounds (update entries slot x) slot = E.erase rounds entries slot := by
  rw [Entries.erase, Entries.erase, update_idem]

/-! ## Lookups -/

variable {keys : Nat → K}

theorem find_update {L : Layout K} {key : K} (hFind : L.findOrEmpty keys key = some slot) :
    L.find (update keys slot key) key = some slot := by
  obtain ⟨d, hd, rfl, _, hBefore⟩ := (L.findOrEmpty_eq_some_iff keys key slot).mp hFind
  have hOther : ∀ e < d, L.cell key e ≠ L.cell key d := fun e he hSame => by
    have hLimit := L.limit_le
    have hEq := L.cell_injective key (d := e) (e := d) (by omega) (by omega) hSame
    omega
  refine (L.find_eq_some_iff _ key _).mpr ⟨d, hd, rfl, update_self .., fun e he => ?_, fun e he => ?_⟩
  · rw [update_of_ne (hOther e he)]
    exact (hBefore e he).2
  · rw [update_of_ne (hOther e he)]
    exact (hBefore e he).1

theorem find_eq_none_of_findOrEmpty {key : K} {L : Layout K}
    (hFind : L.findOrEmpty keys key = some slot) (hEmpty : keys slot = L.empty) (hKey : key ≠ L.empty) :
    L.find keys key = none := by
  obtain ⟨d, _, rfl, _, hBefore⟩ := (L.findOrEmpty_eq_some_iff keys key slot).mp hFind
  cases hSome : L.find keys key with
  | none => rfl
  | some found =>
    obtain ⟨e, _, rfl, hFound, hOpen, _⟩ := (L.find_eq_some_iff keys key _).mp hSome
    rcases lt_trichotomy e d with hlt | rfl | hgt
    · exact absurd hFound (hBefore e hlt).1
    · exact absurd (hFound.symm.trans hEmpty) hKey
    · exact absurd hEmpty (hOpen d hgt)

theorem Wf.place (h : E.Wf entries) (hKey : E.key x ≠ E.layout.empty)
    (hFind : E.layout.findOrEmpty (fun i => E.key (entries i)) (E.key x) = some slot)
    (hEmpty : E.key (entries slot) = E.layout.empty) : E.Wf (update entries slot x) := by
  have hAbsent := (Layout.Wf.find_eq_none_iff h hKey).mp (find_eq_none_of_findOrEmpty hFind hEmpty hKey)
  obtain ⟨d, hd, hCell, _, hBefore⟩ := (E.layout.findOrEmpty_eq_some_iff _ _ slot).mp hFind
  rw [Wf, key_update, ← hCell]
  exact Layout.Wf.place h hKey hAbsent hd fun e he => (hBefore e he).2

end LuvFlicker.Probe.Entries
