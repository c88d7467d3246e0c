import Mathlib.Tactic

/-!
# Stacks linked through an index array

The cells of the stack are indices into an array of links, and `none` stands for
the bottom. A link that is not on the stack may be overwritten freely.
-/

namespace LuvFlicker

/-- The links from `head` run through exactly the cells of `path`, in that order, and end. -/
def Chain (next : Nat → Option Nat) : Option Nat → List Nat → Prop
  | head, [] => head = none
  | head, i :: rest => head = some i ∧ Chain next (next i) rest

namespace Chain

variable {next : Nat → Option Nat} {head : Option Nat} {path : List Nat} {i : Nat}

theorem eq_nil (h : Chain next none path) : path = [] := by
  cases path with
  | nil => rfl
  | cons i rest => cases h.1

theorem pop (h : Chain next (some i) path) : ∃ rest, path = i :: rest ∧ Chain next (next i) rest := by
  cases path with
  | nil => cases h
  | cons j rest =>
    obtain ⟨hTop, hRest⟩ := h
    cases hTop
    exact ⟨rest, rfl, hRest⟩

theorem push (h : Chain next head path) (hLink : next i = head) : Chain next (some i) (i :: path) := ⟨rfl, hLink ▸ h⟩

theorem update (h : Chain next head path) (hFresh : i ∉ path) (target : Option Nat) :
    Chain (Function.update next i target) head path := by
  induction path generalizing head with
  | nil => exact h
  | cons j rest ih =>
    obtain ⟨hTop, hRest⟩ := h
    rw [List.mem_cons, not_or] at hFresh
    refine ⟨hTop, ?_⟩
    rw [Function.update_of_ne (Ne.symm hFresh.1)]
    exact ih hRest hFresh.2

theorem range' {n : Nat} (hLink : ∀ j, i ≤ j → j + 1 < i + n → next j = some (j + 1))
    (hLast : ∀ j, j + 1 = i + n → next j = none) : Chain next (if n = 0 then none else some i) (List.range' i n) := by
  induction n generalizing i with
  | zero => rfl
  | succ n ih =>
    refine ⟨rfl, ?_⟩
    have hRest := ih (i := i + 1) (fun j hj _ => hLink j (by omega) (by omega)) (fun j hj => hLast j (by omega))
    cases n with
    | zero =>
      rw [hLast i rfl]
      exact hRest
    | succ n =>
      rw [hLink i (le_refl i) (by omega)]
      exact hRest

end Chain

end LuvFlicker
