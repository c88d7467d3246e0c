import LuvFlicker.Lib.Run

/-!
# Slices of a TWAP order

The slice of an interval is the integer part of what is left over the intervals left, at least one
share. Filled in full, all slices are this part of the whole order or one share more.
-/

namespace LuvFlicker.Twap

def computeNextSlice (totalQty cumFilledQty : Int) (currentIntervalIdx totalIntervals : Nat) : Int :=
  if currentIntervalIdx ≥ totalIntervals ∨ cumFilledQty ≥ totalQty then 0
  else
    let intervalsRemaining := totalIntervals - currentIntervalIdx
    let qtyRemaining := totalQty - cumFilledQty
    let slice := qtyRemaining.tdiv intervalsRemaining
    min (if slice = 0 ∧ qtyRemaining > 0 then 1 else slice) qtyRemaining

def cumFilled (fills : Nat → Int) (i : Nat) : Int := ((List.range i).map fills).sum

def slice (total : Int) (n : Nat) (fills : Nat → Int) (i : Nat) : Int := computeNextSlice total (cumFilled fills i) i n

variable {total cum q : Int} {n i : Nat} {fills : Nat → Int}

theorem cumFilled_succ (fills : Nat → Int) (i : Nat) : cumFilled fills (i + 1) = cumFilled fills i + fills i := by
  simp [cumFilled, List.range_succ]

theorem computeNextSlice_le (h : cum ≤ total) : computeNextSlice total cum i n ≤ total - cum := by
  rw [computeNextSlice]
  split_ifs
  · omega
  · exact min_le_right _ _

theorem computeNextSlice_last (h : cum ≤ total) : computeNextSlice total cum i (i + 1) = total - cum := by
  rw [computeNextSlice]
  split_ifs with hNone
  · omega
  · dsimp only
    rw [Nat.add_sub_cancel_left, Nat.cast_one, Int.tdiv_one, if_neg (by omega), min_self]

/-- What is left for `k + 1` intervals is between `q` and `q + 1` for each; so is the slice, and what it leaves. -/
theorem even_step {k : Nat} (hn : n = i + (k + 1)) (hq : 0 ≤ q) (hLow : q * (k + 1) ≤ total - cum)
    (hHigh : total - cum ≤ (q + 1) * (k + 1)) :
    (computeNextSlice total cum i n = q ∨ computeNextSlice total cum i n = q + 1) ∧
      q * k ≤ total - (cum + computeNextSlice total cum i n) ∧
      total - (cum + computeNextSlice total cum i n) ≤ (q + 1) * k := by
  have hFloor := (Int.le_ediv_iff_mul_le (by omega)).mpr hLow
  have hCeil := Int.ediv_le_of_le_mul (by omega) hHigh
  have hRest := Int.lt_ediv_add_one_mul_self (total - cum) (show (0 : Int) < k + 1 by omega)
  have hExact := Int.ediv_mul_le (total - cum) (show (k : Int) + 1 ≠ 0 by omega)
  have hProduct : 0 ≤ q * k := Int.mul_nonneg hq (Int.natCast_nonneg k)
  rw [mul_add] at hLow
  rw [add_mul, mul_add] at hHigh
  rw [computeNextSlice, hn, Nat.add_sub_cancel_left, add_mul]
  split_ifs with hNone
  · have hZero : q = 0 := by omega
    refine ⟨.inl hZero.symm, ?_, ?_⟩ <;> rw [hZero] <;> omega
  dsimp only
  rw [Int.tdiv_eq_ediv_of_nonneg (by omega), Nat.cast_succ]
  generalize (total - cum) / (k + 1) = f at *
  rcases (by omega : f = q ∨ f = q + 1) with rfl | rfl
  · rw [add_mul, mul_add] at hRest
    split_ifs with hMin
    · simp only [hMin.1] at *
      omega
    · omega
  · rw [add_mul, mul_add] at hExact
    omega

theorem cumFilled_le (hTotal : 0 ≤ total) (hFills : ∀ i < n, 0 ≤ fills i ∧ fills i ≤ slice total n fills i) (hi : i ≤ n) :
    cumFilled fills i ≤ total := by
  induction i with
  | zero => exact hTotal
  | succ i ih =>
    have hBefore := ih (by omega)
    have hSlice := computeNextSlice_le (i := i) (n := n) hBefore
    have hFill := (hFills i hi).2
    rw [slice] at hFill
    rw [cumFilled_succ]
    omega

theorem even_run {k : Nat} (hn : n = i + k) (hPos : 1 ≤ n) (hTotal : 0 ≤ total)
    (hFull : ∀ i < n, fills i = slice total n fills i) : total / n * k ≤ total - cumFilled fills i ∧
      total - cumFilled fills i ≤ (total / n + 1) * k := by
  induction i generalizing k with
  | zero =>
    obtain rfl : n = k := by omega
    rw [show cumFilled fills 0 = 0 from rfl, sub_zero]
    exact ⟨Int.ediv_mul_le _ (by omega), (Int.lt_ediv_add_one_mul_self _ (by omega)).le⟩
  | succ i ih =>
    obtain ⟨hLow, hHigh⟩ := @ih (k + 1) (by omega)
    rw [cumFilled_succ, hFull i (by omega)]
    exact (even_step (by omega) (Int.ediv_nonneg hTotal (by omega)) hLow hHigh).2

/-- Fills within the slices never exceed the total, and the last slice is all that is left; slices that are filled in
full add up to the total and differ by one share at most. -/
theorem slices_complete (hTotal : 0 ≤ total) (hn : 1 ≤ n)
    (hFills : ∀ i < n, 0 ≤ fills i ∧ fills i ≤ slice total n fills i) :
    (∀ i ≤ n, cumFilled fills i ≤ total) ∧ slice total n fills (n - 1) = total - cumFilled fills (n - 1) ∧
      ((∀ i < n, fills i = slice total n fills i) → cumFilled fills n = total ∧
        ∀ i < n, ∀ j < n, slice total n fills i ≤ slice total n fills j + 1) := by
  have hLe (i) (hi : i ≤ n) := cumFilled_le hTotal hFills hi
  obtain ⟨k, rfl⟩ := Nat.exists_eq_add_of_le' hn
  refine ⟨hLe, computeNextSlice_last (hLe k (by omega)), fun hFull => ⟨?_, fun i hi j hj => ?_⟩⟩
  · rw [cumFilled_succ, hFull k (by omega), slice, computeNextSlice_last (hLe k (by omega))]
    omega
  · have hEven (i) (hi : i < k + 1) : slice total (k + 1) fills i = total / (k + 1 : Nat) ∨
        slice total (k + 1) fills i = total / (k + 1 : Nat) + 1 := by
      obtain ⟨m, hm⟩ := Nat.exists_eq_add_of_lt hi
      obtain ⟨hLow, hHigh⟩ := @even_run _ _ i _ (m + 1) (by omega) hn hTotal hFull
      exact (even_step (by omega) (Int.ediv_nonneg hTotal (by omega)) hLow hHigh).1
    rcases hEven i hi with hLeft | hLeft <;> rcases hEven j hj with hRight | hRight <;> omega

theorem slices_complete_three : cumFilled (fun i => if i < 2 then 1 else 0) 3 ≤ 2 :=
  (@slices_complete 2 3 (fun i => if i < 2 then 1 else 0) (by decide) (by decide) (by decide)).1 3 le_rfl

end LuvFlicker.Twap
