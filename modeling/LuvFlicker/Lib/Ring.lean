import LuvFlicker.Lib.Probe

/-!
# Distances on the probe ring

The position of a slot on the probe sequence of a key, as a distance around the
ring, and the probe loop of an insertion.
-/

namespace LuvFlicker.Probe

open Scan

universe u

def ringDist (cap a b : Nat) : Nat := if a ≤ b then b - a else b + cap - a

namespace Layout

variable {K : Type u} (L : Layout K)

def offset (key : K) (slot : Nat) : Nat := ringDist L.cap (L.hash key) slot

variable {slot : Nat}

theorem offset_lt (key : K) (h : slot < L.cap) : L.offset key slot < L.cap := by
  unfold offset ringDist
  split <;> omega

theorem cell_offset (key : K) (h : slot < L.cap) : L.cell key (L.offset key slot) = slot := by
  have hHash := L.hash_lt key
  unfold cell offset ringDist
  split
  · rw [Nat.add_sub_cancel' (by assumption), Nat.mod_eq_of_lt h]
  · have hSum : L.hash key + (slot + L.cap - L.hash key) = slot + L.cap := by omega
    rw [hSum, Nat.add_mod_right, Nat.mod_eq_of_lt h]

theorem offset_cell (key : K) {d : Nat} (h : d < L.cap) : L.offset key (L.cell key d) = d :=
  L.cell_injective key (L.offset_lt key (L.cell_lt key d)) h (L.cell_offset key (L.cell_lt key d))

theorem next_lt (slot : Nat) : next L.cap slot < L.cap := by
  rw [L.next_eq]
  exact Nat.mod_lt _ L.cap_pos

theorem next_cases (h : slot < L.cap) :
    (slot + 1 < L.cap ∧ next L.cap slot = slot + 1) ∨ (slot + 1 = L.cap ∧ next L.cap slot = 0) := by
  rw [L.next_eq]
  rcases Nat.lt_or_eq_of_le (Nat.succ_le_of_lt h) with hlt | heq
  · exact .inl ⟨hlt, Nat.mod_eq_of_lt hlt⟩
  · exact .inr ⟨heq, by rw [show slot + 1 = L.cap from heq, Nat.mod_self]⟩

theorem ringDist_next {a b : Nat} (ha : a < L.cap) (hb : b < L.cap) (hne : b ≠ a) :
    ringDist L.cap (next L.cap a) b + 1 = ringDist L.cap a b := by
  rcases L.next_cases ha with ⟨_, hNext⟩ | ⟨_, hNext⟩ <;> rw [hNext] <;> unfold ringDist <;>
    split <;> split <;> omega

theorem ringDist_next_le {a t : Nat} (ha : a < L.cap) (hs : slot < L.cap) (ht : t < L.cap)
    (hne : t ≠ slot) (h : ringDist L.cap a slot ≤ ringDist L.cap a t) :
    a ≠ next L.cap slot ∧ ringDist L.cap a (next L.cap slot) ≤ ringDist L.cap a t := by
  rcases L.next_cases hs with ⟨_, hNext⟩ | ⟨_, hNext⟩ <;> rw [hNext] <;> unfold ringDist at * <;>
    refine ⟨?_, ?_⟩ <;> split_ifs at * <;> omega

variable (keys : Nat → K)

def Reaches (key : K) (slot : Nat) : Prop :=
  ∀ hole < L.cap, keys hole = L.empty → L.offset key slot ≤ L.offset key hole

theorem reaches_iff_open {keys : Nat → K} {key : K} (h : slot < L.cap) :
    L.Reaches keys key slot ↔ L.Open keys key (L.offset key slot) := by
  constructor
  · intro hReaches e he hEmpty
    have hLe := hReaches _ (L.cell_lt key e) hEmpty
    rw [L.offset_cell key (he.trans (L.offset_lt key h))] at hLe
    omega
  · intro hOpen hole hHole hEmpty
    by_contra hlt
    refine hOpen (L.offset key hole) (by omega) ?_
    rw [L.cell_offset key hHole]
    exact hEmpty

variable [DecidableEq K]

def findOrEmpty (key : K) : Option Nat :=
  scan (next L.cap) (fun slot => if keys slot = key ∨ keys slot = L.empty then some slot else none) L.limit (L.hash key)

theorem findOrEmpty_eq_some_iff (key : K) (slot : Nat) : L.findOrEmpty keys key = some slot ↔
      ∃ d < L.limit, L.cell key d = slot ∧ (keys slot = key ∨ keys slot = L.empty) ∧
        ∀ e < d, keys (L.cell key e) ≠ key ∧ keys (L.cell key e) ≠ L.empty := by
  rw [findOrEmpty, scan_eq_some_iff]
  simp only [iterate_next]
  constructor
  · rintro ⟨d, hd, hVisit, hBefore⟩
    split at hVisit
    next hStop =>
      cases hVisit
      refine ⟨d, hd, rfl, hStop, fun e he => ?_⟩
      have hPass := hBefore e he
      split at hPass
      · cases hPass
      next hNot => exact not_or.mp hNot
    · cases hVisit
  · rintro ⟨d, hd, rfl, hStop, hBefore⟩
    exact ⟨d, hd, if_pos hStop, fun e he => if_neg (not_or.mpr (hBefore e he))⟩

theorem findOrEmpty_eq_none_iff (key : K) : L.findOrEmpty keys key = none ↔
      ∀ d < L.limit, keys (L.cell key d) ≠ key ∧ keys (L.cell key d) ≠ L.empty := by
  rw [findOrEmpty, scan_eq_none_iff]
  simp only [iterate_next]
  constructor
  · intro h d hd
    have hPass := h d hd
    split at hPass
    · cases hPass
    next hNot => exact not_or.mp hNot
  · intro h d hd
    exact if_neg (not_or.mpr (h d hd))

end Layout

end LuvFlicker.Probe
