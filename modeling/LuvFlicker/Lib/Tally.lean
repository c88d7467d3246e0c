import Mathlib.Tactic

/-!
# Totals over numbered slots

The total of a weight over the first `n` slots, and how it changes when one slot
is overwritten. Counters, positions and exposures are such totals.
-/

namespace LuvFlicker.Tally

open Function Finset

universe u v

variable {α : Type u} {M : Type v}

def total [AddCommMonoid M] (n : Nat) (weight : α → M) (f : Nat → α) : M := ∑ i ∈ Finset.range n, weight (f i)

section Monoid

variable [AddCommMonoid M] {n i : Nat} {weight : α → M} {f : Nat → α} {x : α}

theorem total_update_add (h : i < n) : total n weight (update f i x) + weight (f i) = total n weight f + weight x := by
  have hMem : i ∈ range n := mem_range.mpr h
  have hRest : ∀ g : Nat → α, total n weight g = weight (g i) + ∑ j ∈ (range n).erase i, weight (g j) :=
    fun g => (add_sum_erase _ _ hMem).symm
  have hSame : ∑ j ∈ (range n).erase i, weight (update f i x j) = ∑ j ∈ (range n).erase i, weight (f j) :=
    sum_congr rfl fun j hj => by rw [update_of_ne (ne_of_mem_erase hj)]
  rw [hRest, hRest f, hSame, update_self]
  abel

theorem total_update_of_eq (h : weight x = weight (f i)) : total n weight (update f i x) = total n weight f := by
  refine sum_congr rfl fun j _ => ?_
  rcases eq_or_ne j i with rfl | hne
  · rw [update_self, h]
  · rw [update_of_ne hne]

theorem total_eq_zero (h : ∀ i, weight (f i) = 0) : total n weight f = 0 := sum_eq_zero fun i _ => h i

end Monoid

variable {n : Nat} {f : Nat → α} {weight : α → Int}

theorem total_update [AddCommGroup M] {i : Nat} {weight : α → M} {x : α} (h : i < n) :
    total n weight (update f i x) = total n weight f - weight (f i) + weight x := by
  have hAdd : total n weight (update f i x) + weight (f i) = total n weight f + weight x := total_update_add h
  rw [sub_add_eq_add_sub]
  exact eq_sub_of_add_eq hAdd

theorem total_nonneg (h : ∀ i < n, 0 ≤ weight (f i)) : 0 ≤ total n weight f :=
  sum_nonneg fun i hi => h i (mem_range.mp hi)

theorem le_total {i : Nat} (h : ∀ j < n, 0 ≤ weight (f j)) (hi : i < n) : weight (f i) ≤ total n weight f :=
  single_le_sum (f := fun _ => weight _) (fun j hj => h j (mem_range.mp hj)) (mem_range.mpr hi)

theorem abs_total_le {bound : α → Int} (h : ∀ i, |weight (f i)| ≤ bound (f i)) :
    |total n weight f| ≤ total n bound f :=
  (abs_sum_le_sum_abs _ _).trans (sum_le_sum fun i _ => h i)

theorem total_ite_eq_card (n : Nat) (p : α → Bool) (f : Nat → α) :
    total n (fun x => if p x then (1 : Int) else 0) f = ((range n).filter fun i => p (f i)).card := by
  rw [total, sum_boole]

end LuvFlicker.Tally
