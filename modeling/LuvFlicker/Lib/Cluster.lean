import LuvFlicker.Lib.Ring

/-!
# Deletion by re-insertion

A linear-probing table without deletion markers empties the cell and re-inserts the
entries that follow it, up to the next empty cell.
-/

namespace LuvFlicker.Probe

open Function

universe u v

structure Entries (K : Type u) (α : Type v) where
  layout : Layout K
  limit_eq : layout.limit = layout.cap
  key : α → K
  blank : α
  key_blank : key blank = layout.empty

namespace Entries

variable {K : Type u} {α : Type v} (E : Entries K α)

section

variable (entries : Nat → α)

def moved (slot destination : Nat) : Nat → α :=
  update (update entries slot E.blank) destination (entries slot)

structure Round (slot destination : Nat) : Prop where
  lt : destination < E.layout.cap
  le : E.layout.offset (E.key (entries slot)) destination ≤ E.layout.offset (E.key (entries slot)) slot
  stop : destination = slot ∨ E.key (entries destination) = E.key (entries slot) ∨
    E.key (entries destination) = E.layout.empty
  before : ∀ hole < E.layout.cap, E.key (entries hole) = E.layout.empty →
    E.layout.offset (E.key (entries slot)) destination ≤ E.layout.offset (E.key (entries slot)) hole

theorem moved_self (slot : Nat) : E.moved entries slot slot = entries := by
  rw [moved, update_idem, update_eq_self]

end

section Moved

variable {E} {entries : Nat → α} {slot destination i : Nat}

theorem moved_destination : E.moved entries slot destination destination = entries slot := update_self ..

theorem moved_slot (hne : destination ≠ slot) : E.moved entries slot destination slot = E.blank := by
  rw [moved, update_of_ne hne.symm, update_self]

theorem moved_of_ne (hSlot : i ≠ slot) (hDestination : i ≠ destination) :
    E.moved entries slot destination i = entries i := by
  rw [moved, update_of_ne hDestination, update_of_ne hSlot]

theorem Round.offset_lt (h : E.Round entries slot destination) (hSlot : slot < E.layout.cap)
    (hne : destination ≠ slot) :
    E.layout.offset (E.key (entries slot)) destination < E.layout.offset (E.key (entries slot)) slot := by
  refine lt_of_le_of_ne h.le fun hEq => hne ?_
  rw [← E.layout.cell_offset _ h.lt, hEq, E.layout.cell_offset _ hSlot]

end Moved

/-! ## What one round keeps -/

def Unique (E : Entries K α) (entries : Nat → α) : Prop :=
  ∀ i < E.layout.cap, ∀ j < E.layout.cap, E.key (entries i) ≠ E.layout.empty →
    E.key (entries i) = E.key (entries j) → i = j

def Stored (E : Entries K α) (entries : Nat → α) (entry : α) : Prop :=
  E.key entry ≠ E.layout.empty ∧ ∃ i < E.layout.cap, entries i = entry

def Ahead (E : Entries K α) (entries : Nat → α) (slot : Nat) : Prop :=
  ∀ i < E.layout.cap, E.key (entries i) ≠ E.layout.empty →
    ∀ hole < E.layout.cap, E.key (entries hole) = E.layout.empty →
      E.layout.offset (E.key (entries i)) hole < E.layout.offset (E.key (entries i)) i →
        hole ≠ slot ∧ ringDist E.layout.cap hole slot ≤ ringDist E.layout.cap hole i

section Kept

variable {E} {entries : Nat → α} {slot destination : Nat}

theorem moved_cases (E : Entries K α) (entries : Nat → α) {slot destination : Nat} (hne : destination ≠ slot) (i : Nat) :
    (i = slot ∧ E.moved entries slot destination i = E.blank) ∨
    (i = destination ∧ E.moved entries slot destination i = entries slot) ∨
    (i ≠ slot ∧ i ≠ destination ∧ E.moved entries slot destination i = entries i) := by
  by_cases hSlot : i = slot
  · subst hSlot
    exact .inl ⟨rfl, moved_slot hne⟩
  by_cases hDestination : i = destination
  · subst hDestination
    exact .inr (.inl ⟨rfl, moved_destination⟩)
  · exact .inr (.inr ⟨hSlot, hDestination, moved_of_ne hSlot hDestination⟩)

section

variable (h : E.Round entries slot destination)

include h

section

variable (hUnique : E.Unique entries) (hSlot : slot < E.layout.cap)
include hUnique hSlot

theorem Round.unique : E.Unique (E.moved entries slot destination) := by
  by_cases hne : destination = slot
  · rw [hne, moved_self]
    exact hUnique
  intro i hi j hj hFull hKey
  rcases E.moved_cases entries hne i with ⟨rfl, hi'⟩ | ⟨rfl, hi'⟩ | ⟨hiSlot, _, hi'⟩ <;>
    rcases E.moved_cases entries hne j with ⟨rfl, hj'⟩ | ⟨rfl, hj'⟩ | ⟨hjSlot, _, hj'⟩ <;>
    rw [hi'] at hFull hKey <;> rw [hj'] at hKey
  · exact absurd E.key_blank hFull
  · exact absurd E.key_blank hFull
  · rw [E.key_blank] at hKey
    exact absurd hKey hFull
  · exact absurd (hUnique slot hSlot j hj hFull hKey).symm hjSlot
  · rw [E.key_blank] at hKey
    exact absurd hKey hFull
  · exact absurd (hUnique i hi slot hSlot hFull hKey) hiSlot
  · exact hUnique i hi j hj hFull hKey

theorem Round.stored_iff (hFull : E.key (entries slot) ≠ E.layout.empty) (entry : α) :
    E.Stored (E.moved entries slot destination) entry ↔ E.Stored entries entry := by
  by_cases hne : destination = slot
  · rw [hne, moved_self]
  refine and_congr_right fun hKey => ⟨?_, ?_⟩
  · rintro ⟨i, hi, rfl⟩
    rcases E.moved_cases entries hne i with ⟨rfl, hi'⟩ | ⟨rfl, hi'⟩ | ⟨_, _, hi'⟩
    · rw [hi'] at hKey
      exact absurd E.key_blank hKey
    · exact ⟨slot, hSlot, hi'.symm⟩
    · exact ⟨i, hi, hi'.symm⟩
  · rintro ⟨i, hi, rfl⟩
    by_cases hiSlot : i = slot
    · subst hiSlot
      exact ⟨_, h.lt, moved_destination⟩
    · refine ⟨i, hi, moved_of_ne hiSlot ?_⟩
      rintro rfl
      rcases h.stop with hSame | hSame | hEmpty
      · exact hne hSame
      · exact hne (hUnique slot hSlot _ h.lt hFull hSame.symm).symm
      · exact hKey hEmpty

end

theorem Round.ahead (hSlot : slot < E.layout.cap)
    (hEntry : E.key (entries slot) ≠ E.layout.empty) (hAhead : E.Ahead entries slot) :
    E.Ahead (E.moved entries slot destination) (next E.layout.cap slot) := by
  intro i hi hFull hole hHole hEmpty hBefore
  by_cases hne : destination = slot
  · rw [hne, moved_self] at hFull hEmpty hBefore
    have hiSlot : i ≠ slot := by
      rintro rfl
      have hLe := h.before hole hHole hEmpty
      rw [hne] at hLe
      omega
    exact E.layout.ringDist_next_le hHole hSlot hi hiSlot (hAhead i hi hFull hole hHole hEmpty hBefore).2
  · rcases E.moved_cases entries hne i with ⟨rfl, hi'⟩ | ⟨rfl, hi'⟩ | ⟨hiSlot, _, hi'⟩
    · rw [hi'] at hFull
      exact absurd E.key_blank hFull
    · -- the entry that was moved: nothing before its new place is empty
      rw [hi'] at hBefore hFull
      rcases E.moved_cases entries hne hole with ⟨rfl, _⟩ | ⟨rfl, _⟩ | ⟨_, _, hHole'⟩
      · exact absurd h.le (by omega)
      · omega
      · rw [hHole'] at hEmpty
        exact absurd (h.before hole hHole hEmpty) (by omega)
    · rw [hi'] at hBefore hFull
      rcases E.moved_cases entries hne hole with ⟨rfl, _⟩ | ⟨rfl, hHole'⟩ | ⟨_, _, hHole'⟩
      · exact E.layout.ringDist_next_le hHole hSlot hi hiSlot (by simp [ringDist])
      · rw [hHole'] at hEmpty
        exact absurd hEmpty hEntry
      · rw [hHole'] at hEmpty
        exact E.layout.ringDist_next_le hHole hSlot hi hiSlot (hAhead i hi hFull hole hHole hEmpty hBefore).2

end

end Kept

variable [DecidableEq K]

/-- Takes the entries from `slot` on out of their cells and inserts them again, up to an empty cell.
`none` stands for a loop that has not ended within the given number of rounds. -/
def reinsertLoop : Nat → (Nat → α) → Nat → Option (Nat → α)
  | 0, _, _ => none
  | n + 1, entries, slot =>
    if E.key (entries slot) = E.layout.empty then some entries
    else
      let displaced := entries slot
      let cleared := update entries slot E.blank
      match E.layout.findOrEmpty (fun i => E.key (cleared i)) (E.key displaced) with
      | none => some cleared
      | some destination => reinsertLoop n (update cleared destination displaced) (next E.layout.cap slot)

variable {entries result : Nat → α} {slot : Nat}

theorem round_exists (hSlot : slot < E.layout.cap) (hFull : E.key (entries slot) ≠ E.layout.empty) :
    ∃ destination, E.Round entries slot destination ∧ ∀ n, E.reinsertLoop (n + 1) entries slot =
        E.reinsertLoop n (E.moved entries slot destination) (next E.layout.cap slot) := by
  have hCleared : E.key (update entries slot E.blank slot) = E.layout.empty := by rw [update_self, E.key_blank]
  cases hFind : E.layout.findOrEmpty (fun i => E.key (update entries slot E.blank i)) (E.key (entries slot)) with
  | none =>
    have hNone := (E.layout.findOrEmpty_eq_none_iff _ _).mp hFind (E.layout.offset (E.key (entries slot)) slot)
      (E.limit_eq ▸ E.layout.offset_lt _ hSlot)
    rw [E.layout.cell_offset _ hSlot] at hNone
    exact absurd hCleared hNone.2
  | some destination =>
    obtain ⟨d, hd, hCell, hStop, hBefore⟩ := (E.layout.findOrEmpty_eq_some_iff _ _ _).mp hFind
    rw [E.limit_eq] at hd
    have hOffset : E.layout.offset (E.key (entries slot)) destination = d := by rw [← hCell, E.layout.offset_cell _ hd]
    have hEmpty : ∀ hole < E.layout.cap, E.key (update entries slot E.blank hole) = E.layout.empty →
          d ≤ E.layout.offset (E.key (entries slot)) hole := by
      intro hole hHole hKey
      by_contra hlt
      refine (hBefore (E.layout.offset (E.key (entries slot)) hole) (by omega)).2 ?_
      rw [E.layout.cell_offset _ hHole]
      exact hKey
    refine ⟨_, ⟨hCell ▸ E.layout.cell_lt _ d, ?_, ?_, ?_⟩, fun n => ?_⟩
    · rw [hOffset]
      exact hEmpty slot hSlot hCleared
    · by_cases hSame : destination = slot
      · exact .inl hSame
      · rw [update_of_ne hSame] at hStop
        exact .inr hStop
    · intro hole hHole hKey
      rw [hOffset]
      refine hEmpty hole hHole ?_
      rw [update_of_ne]
      · exact hKey
      · rintro rfl
        exact hFull hKey
    · simp only [reinsertLoop, if_neg hFull, hFind]
      rfl

variable {n : Nat}

theorem reinsertLoop_invariant {P : (Nat → α) → Nat → Prop}
    (hRound : ∀ entries slot destination, slot < E.layout.cap → E.key (entries slot) ≠ E.layout.empty →
      E.Round entries slot destination → P entries slot →
        P (E.moved entries slot destination) (next E.layout.cap slot)) (hSlot : slot < E.layout.cap)
    (hLoop : E.reinsertLoop n entries slot = some result) (hStart : P entries slot) :
    ∃ last < E.layout.cap, E.key (result last) = E.layout.empty ∧ P result last := by
  induction n generalizing entries slot with
  | zero => cases hLoop
  | succ n ih =>
    by_cases hEmpty : E.key (entries slot) = E.layout.empty
    · rw [reinsertLoop, if_pos hEmpty] at hLoop
      cases hLoop
      exact ⟨slot, hSlot, hEmpty, hStart⟩
    · obtain ⟨destination, hMove, hNext⟩ := E.round_exists hSlot hEmpty
      rw [hNext] at hLoop
      exact ih (E.layout.next_lt slot) hLoop (hRound _ slot _ hSlot hEmpty hMove hStart)

variable (hSlot : slot < E.layout.cap) (hLoop : E.reinsertLoop n entries slot = some result)
include hSlot hLoop

theorem reinsertLoop_stored (hUnique : E.Unique entries) :
    E.Unique result ∧ ∀ entry, E.Stored result entry ↔ E.Stored entries entry := by
  obtain ⟨_, _, _, hKept⟩ := E.reinsertLoop_invariant
    (P := fun table _ => E.Unique _ ∧ ∀ entry, E.Stored _ entry ↔ E.Stored _ entry)
    (fun table s _ hs hFull hRound hTable =>
      ⟨hRound.unique hTable.1 hs, fun entry => (hRound.stored_iff hTable.1 hs hFull _).trans (hTable.2 _)⟩)
    hSlot hLoop ⟨hUnique, fun _ => Iff.rfl⟩
  exact hKept

theorem reinsertLoop_reaches (hAhead : E.Ahead entries slot) {i : Nat}
    (hi : i < E.layout.cap) (hFull : E.key (result i) ≠ E.layout.empty) :
    E.layout.Reaches (fun j => E.key (result j)) (E.key (result i)) i := by
  obtain ⟨last, hLast, hEmpty, hEnd⟩ := E.reinsertLoop_invariant
    (fun _ _ _ hs hEntry hRound hTable => hRound.ahead hs hEntry hTable) hSlot hLoop hAhead
  intro hole hHole hKey
  by_contra hlt
  obtain ⟨_, _⟩ := hEnd i hi hFull hole hHole hKey (by omega)
  have hne : i ≠ last := fun he => hFull (he ▸ hEmpty)
  refine (hEnd i hi hFull last hLast hEmpty ?_).1 rfl
  unfold Layout.offset ringDist at *
  split_ifs at * <;> omega

end Entries

end LuvFlicker.Probe
