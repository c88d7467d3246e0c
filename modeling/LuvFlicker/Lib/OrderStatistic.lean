import Mathlib.Tactic

/-!
# Order statistics

An element is at most the one at a place of a sorted list exactly when enough
elements of the list are at least as large as it.
-/

namespace LuvFlicker.OrderStatistic

open List

universe u

variable {α : Type u} [LE α] [DecidableLE α]

theorem le_getElem_iff [IsTrans α (· ≤ ·)] {l : List α} (hSorted : l.Pairwise (· ≤ ·)) {k : Nat} (hk : k < l.length) (x : α) :
    x ≤ l[k] ↔ l.length ≤ k + l.countP (x ≤ ·) := by
  induction l generalizing k with
  | nil => exact absurd hk (Nat.not_lt_zero k)
  | cons a l ih =>
    obtain ⟨hHead, hTail⟩ := pairwise_cons.mp hSorted
    have hCount := countP_le_length (p := fun y => decide (x ≤ y)) (l := l)
    by_cases hxa : x ≤ a
    · -- everything from the head on is large enough
      have hAll : ∀ y ∈ a :: l, x ≤ y := forall_mem_cons.mpr ⟨hxa, fun y hy => IsTrans.trans x a y hxa (hHead y hy)⟩
      have hLength :=
        countP_eq_length.mpr fun y hy => decide_eq_true (hAll y hy)
      rw [hLength]
      exact iff_of_true (hAll _ (getElem_mem hk)) (Nat.le_add_left _ _)
    · rw [countP_cons_of_neg (by simpa using hxa)]
      cases k with
      | zero => exact iff_of_false hxa (by rw [length_cons]; omega)
      | succ k =>
        rw [getElem_cons_succ, ih hTail, length_cons]
        omega

def nth (l : List α) (k : Nat) (fallback : α) : α := (l.insertionSort (· ≤ ·)).getD k fallback

variable {l : List α} {k : Nat} {fallback : α}

theorem nth_eq_getElem (hk : k < (l.insertionSort (· ≤ ·)).length) :
    nth l k fallback = (l.insertionSort (· ≤ ·))[k] := by
  rw [nth, getD_eq_getElem?_getD, getElem?_eq_getElem hk, Option.getD_some]

theorem le_nth_iff [Std.Total (α := α) (· ≤ ·)] [IsTrans α (· ≤ ·)] (hk : k < l.length) (x : α) :
    x ≤ nth l k fallback ↔ l.length ≤ k + l.countP (x ≤ ·) := by
  have hPerm := perm_insertionSort (· ≤ ·) l
  rw [← hPerm.length_eq] at hk
  rw [nth_eq_getElem hk, le_getElem_iff (pairwise_insertionSort _ l) hk, hPerm.length_eq, hPerm.countP_eq]

theorem nth_mem (hk : k < l.length) : nth l k fallback ∈ l := by
  have hPerm := perm_insertionSort (· ≤ ·) l
  rw [← hPerm.length_eq] at hk
  rw [nth_eq_getElem hk]
  exact hPerm.subset (getElem_mem hk)

end LuvFlicker.OrderStatistic
