import Mathlib.Tactic

/-!
# Bounded scans

A scan visits the cells `c`, `next c`, `next (next c)`, ... and stops at the
first one that answers.
-/

namespace LuvFlicker.Scan

open Function List

universe u

variable {α : Type u}

def scan (next : Nat → Nat) (visit : Nat → Option α) : Nat → Nat → Option α
  | 0, _ => none
  | n + 1, cell =>
    match visit cell with
    | some answer => some answer
    | none => scan next visit n (next cell)

section

variable (next : Nat → Nat) (visit : Nat → Option α) (n cell : Nat)

theorem scan_eq_none_iff : scan next visit n cell = none ↔ ∀ d < n, visit (next^[d] cell) = none := by
  induction n generalizing cell with
  | zero => simp [scan]
  | succ n ih =>
    rw [scan]
    cases hVisit : visit cell with
    | some answer =>
      simp only [reduceCtorEq, false_iff]
      intro h
      have hZero := h 0 (Nat.succ_pos n)
      rw [iterate_zero_apply, hVisit] at hZero
      cases hZero
    | none =>
      simp only [ih]
      constructor
      · intro h d hd
        cases d with
        | zero => exact hVisit
        | succ d => exact h d (by omega)
      · intro h d hd
        exact h (d + 1) (by omega)

theorem scan_eq_some_iff (answer : α) : scan next visit n cell = some answer ↔
      ∃ d < n, visit (next^[d] cell) = some answer ∧ ∀ e < d, visit (next^[e] cell) = none := by
  induction n generalizing cell with
  | zero => simp [scan]
  | succ n ih =>
    rw [scan]
    cases hVisit : visit cell with
    | some found =>
      constructor
      · intro h
        exact ⟨0, Nat.succ_pos n, hVisit.trans h, fun e he => absurd he (Nat.not_lt_zero e)⟩
      rintro ⟨d, _, hAnswer, hBefore⟩
      cases d with
      | zero => exact hVisit.symm.trans hAnswer
      | succ d =>
        have hZero := hBefore 0 (Nat.succ_pos d)
        rw [iterate_zero_apply, hVisit] at hZero
        cases hZero
    | none =>
      simp only [ih]
      constructor
      · rintro ⟨d, hd, hAnswer, hBefore⟩
        refine ⟨d + 1, by omega, hAnswer, ?_⟩
        intro e he
        cases e with
        | zero => exact hVisit
        | succ e => exact hBefore e (by omega)
      · rintro ⟨d, hd, hAnswer, hBefore⟩
        cases d with
        | zero =>
          rw [iterate_zero_apply, hVisit] at hAnswer
          cases hAnswer
        | succ d => exact ⟨d, by omega, hAnswer, fun e he => hBefore (e + 1) (by omega)⟩

end

section

variable (p : Nat → Bool)

/-- The least index below `n` that satisfies `p`, as a counting loop finds it. -/
def firstIndex (n : Nat) : Option Nat := scan (· + 1) (fun i => if p i then some i else none) n 0

theorem iterate_succ_zero (d : Nat) : (fun i : Nat => i + 1)^[d] 0 = d := by
  induction d with
  | zero => rfl
  | succ d ih => rw [iterate_succ_apply', ih]

theorem firstIndex_eq_some_iff (n i : Nat) : firstIndex p n = some i ↔ i < n ∧ p i = true ∧ ∀ j < i, p j = false := by
  simp only [firstIndex, scan_eq_some_iff, iterate_succ_zero]
  constructor
  · rintro ⟨d, hd, hAnswer, hBefore⟩
    split at hAnswer
    next hp =>
      cases hAnswer
      refine ⟨hd, hp, fun j hj => ?_⟩
      have h := hBefore j hj
      split at h
      · cases h
      · exact Bool.eq_false_iff.mpr (by assumption)
    · cases hAnswer
  · rintro ⟨hi, hp, hBefore⟩
    exact ⟨i, hi, by simp [hp], fun j hj => by simp [hBefore j hj]⟩

theorem firstIndex_eq_none_iff {n : Nat} : firstIndex p n = none ↔ ∀ j < n, p j = false := by
  simp only [firstIndex, scan_eq_none_iff, iterate_succ_zero]
  constructor
  · intro h j hj
    have h := h j hj
    split at h
    · cases h
    · exact Bool.eq_false_iff.mpr (by assumption)
  · intro h j hj
    simp [h j hj]

theorem firstIndex_isSome_iff {n : Nat} : (firstIndex p n).isSome = true ↔ ∃ j < n, p j = true := by
  rw [← not_iff_not, Bool.not_eq_true, Option.isSome_eq_false_iff, Option.isNone_iff_eq_none, firstIndex_eq_none_iff]
  simp

end

theorem findSome?_range_eq_some_iff (f : Nat → Option α) (n : Nat) (answer : α) :
    (List.range n).findSome? f = some answer ↔ ∃ i < n, f i = some answer ∧ ∀ j < i, f j = none := by
  induction n with
  | zero => exact ⟨fun h => (nomatch h), fun ⟨_, hi, _⟩ => absurd hi (Nat.not_lt_zero _)⟩
  | succ n ih =>
    rw [range_succ, findSome?_append, Option.or_eq_some_iff, ih, findSome?_eq_none_iff, findSome?_singleton]
    constructor
    · rintro (⟨i, hi, hAnswer, hBefore⟩ | ⟨hNone, hAnswer⟩)
      · exact ⟨i, Nat.lt_succ_of_lt hi, hAnswer, hBefore⟩
      · exact ⟨n, Nat.lt_succ_self n, hAnswer, fun j hj => hNone j (mem_range.mpr hj)⟩
    rintro ⟨i, hi, hAnswer, hBefore⟩
    rcases Nat.lt_succ_iff_lt_or_eq.mp hi with hLt | rfl
    · exact .inl ⟨i, hLt, hAnswer, hBefore⟩
    · exact .inr ⟨fun j hj => hBefore j (mem_range.mp hj), hAnswer⟩

end LuvFlicker.Scan
