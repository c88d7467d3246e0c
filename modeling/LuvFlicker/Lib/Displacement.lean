import LuvFlicker.Lib.Cluster

/-!
# Re-insertion ends

Each round of the re-insertion loop brings the next empty cell closer or lowers
the total displacement of the entries from the starts of their probe sequences.
-/

namespace LuvFlicker.Probe.Entries

open Finset

universe u v

variable {K : Type u} {α : Type v} [DecidableEq K] (E : Entries K α)

def displacement (entries : Nat → α) (slot : Nat) : Nat :=
  if E.key (entries slot) = E.layout.empty then 0 else E.layout.offset (E.key (entries slot)) slot

def totalDisplacement (entries : Nat → α) : Nat := ∑ slot ∈ Finset.range E.layout.cap, E.displacement entries slot

theorem sum_lt_of_two {s : Finset Nat} {f g : Nat → Nat} {a b : Nat} (ha : a ∈ s) (hb : b ∈ s) (hab : b ≠ a)
    (hLess : g a + g b < f a + f b) (hSame : ∀ i ∈ s, i ≠ a → i ≠ b → g i = f i) :
    ∑ i ∈ s, g i < ∑ i ∈ s, f i := by
  have hb' : b ∈ s.erase a := mem_erase.mpr ⟨hab, hb⟩
  have hRest : ∑ i ∈ (s.erase a).erase b, g i = ∑ i ∈ (s.erase a).erase b, f i := by
    refine sum_congr rfl fun i hi => ?_
    obtain ⟨hib, hi⟩ := mem_erase.mp hi
    obtain ⟨hia, hi⟩ := mem_erase.mp hi
    exact hSame i hi hia hib
  rw [← add_sum_erase s g ha, ← add_sum_erase s f ha, ← add_sum_erase _ g hb', ← add_sum_erase _ f hb']
  omega

variable {E} {entries : Nat → α} {slot destination : Nat}

theorem Round.totalDisplacement_lt (h : E.Round entries slot destination) (hSlot : slot < E.layout.cap)
    (hFull : E.key (entries slot) ≠ E.layout.empty) (hne : destination ≠ slot) :
    E.totalDisplacement (E.moved entries slot destination) < E.totalDisplacement entries := by
  refine sum_lt_of_two (mem_range.mpr hSlot) (mem_range.mpr h.lt) hne ?_ ?_
  · have hLess := h.offset_lt hSlot hne
    rw [displacement, displacement, displacement, moved_slot hne, moved_destination, if_pos E.key_blank,
      if_neg hFull, if_neg hFull]
    omega
  · intro i _ hiSlot hiDestination
    rw [displacement, displacement, moved_of_ne hiSlot hiDestination]

theorem ringDist_lt {cap a b : Nat} (ha : a < cap) (hb : b < cap) : ringDist cap a b < cap := by
  unfold ringDist
  split <;> omega

theorem reinsertLoop_ne_none (n : Nat) (entries : Nat → α) (slot hole : Nat) (hSlot : slot < E.layout.cap)
    (hHole : hole < E.layout.cap) (hEmpty : E.key (entries hole) = E.layout.empty)
    (hFuel : E.totalDisplacement entries * (E.layout.cap + 1) + ringDist E.layout.cap slot hole < n) :
    E.reinsertLoop n entries slot ≠ none := by
  induction n generalizing entries slot hole with
  | zero => omega
  | succ n ih =>
    by_cases hFull : E.key (entries slot) = E.layout.empty
    · rw [reinsertLoop, if_pos hFull]
      exact Option.some_ne_none _
    obtain ⟨destination, hRound, hLoop⟩ := E.round_exists hSlot hFull
    rw [hLoop]
    by_cases hne : destination = slot
    · have hHoleSlot : hole ≠ slot := fun he => hFull (he ▸ hEmpty)
      have hStep := E.layout.ringDist_next hSlot hHole hHoleSlot
      rw [hne, moved_self]
      exact ih _ _ hole (E.layout.next_lt slot) hHole hEmpty (by omega)
    · have hLess := hRound.totalDisplacement_lt hSlot hFull hne
      have hDist := ringDist_lt (E.layout.next_lt slot) hSlot
      refine ih _ _ slot (E.layout.next_lt slot) hSlot ?_ ?_
      · rw [moved_slot hne, E.key_blank]
      have hMul := Nat.mul_le_mul_right (E.layout.cap + 1) (Nat.succ_le_of_lt hLess)
      rw [Nat.succ_mul] at hMul
      omega

def maxRounds (E : Entries K α) : Nat := (E.layout.cap * E.layout.cap + 1) * (E.layout.cap + 1)

theorem totalDisplacement_le (entries : Nat → α) : E.totalDisplacement entries ≤ E.layout.cap * E.layout.cap := by
  refine (sum_le_card_nsmul _ _ E.layout.cap fun _ hSlot => ?_).trans (by simp)
  unfold displacement
  split
  · exact Nat.zero_le _
  · exact (E.layout.offset_lt _ (mem_range.mp hSlot)).le

theorem reinsertLoop_maxRounds (entries : Nat → α) {slot hole : Nat} (hSlot : slot < E.layout.cap)
    (hHole : hole < E.layout.cap) (hEmpty : E.key (entries hole) = E.layout.empty) :
    E.reinsertLoop E.maxRounds entries slot ≠ none := by
  refine reinsertLoop_ne_none _ _ _ hole hSlot hHole hEmpty ?_
  have hDist := ringDist_lt hSlot hHole
  have hMul := Nat.mul_le_mul_right (E.layout.cap + 1) (E.totalDisplacement_le entries)
  rw [maxRounds, Nat.succ_mul]
  omega

end LuvFlicker.Probe.Entries
