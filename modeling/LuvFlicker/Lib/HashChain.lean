import Mathlib.Tactic

/-!
# Hash chains

Entries that name the digest of the entry before them and carry a digest of their
own. When the hash function has no collision on the inputs of two chains of the
same length, the last digest determines the inputs of all entries.
-/

namespace LuvFlicker.HashChain

open List

universe u v w

variable {α : Type u} {δ : Type v} {ι : Type w}

structure Format (α : Type u) (δ : Type v) (ι : Type w) where
  previous : α → δ
  digest : α → δ
  /-- What the digest is computed from. -/
  input : α → ι
  previous_of_input : ∀ x y, input x = input y → previous x = previous y

namespace Format

variable (c : Format α δ ι) (hash : ι → δ)

/-- Each entry names the digest before it, the first one `d`, and carries the digest of its own input. -/
def Linked : δ → List α → Prop
  | _, [] => True
  | d, x :: rest => c.previous x = d ∧ hash (c.input x) = c.digest x ∧ Linked (c.digest x) rest

def root : δ → List α → δ
  | d, [] => d
  | _, x :: rest => root (c.digest x) rest

theorem root_concat (d : δ) (entries : List α) (x : α) : c.root d (entries ++ [x]) = c.digest x := by
  induction entries generalizing d with
  | nil => rfl
  | cons y entries ih => exact ih _

theorem linked_concat (d : δ) (entries : List α) (x : α) : c.Linked hash d (entries ++ [x]) ↔
    c.Linked hash d entries ∧ c.previous x = c.root d entries ∧ hash (c.input x) = c.digest x := by
  induction entries generalizing d with
  | nil => simp [Linked, root]
  | cons y entries ih => simp [Linked, ih, root, and_assoc]

variable {c hash}

theorem Linked.hash_input {d : δ} {entries : List α} (h : c.Linked hash d entries) :
    ∀ x ∈ entries, hash (c.input x) = c.digest x := by
  induction entries generalizing d with
  | nil => simp
  | cons y entries ih =>
    intro x hx
    obtain rfl | hRest := mem_cons.mp hx
    · exact h.2.1
    · exact ih h.2.2 x hRest

theorem inputs_eq_of_root {d : δ} {xs ys : List α} (hxs : c.Linked hash d xs) (hys : c.Linked hash d ys)
    (hLength : xs.length = ys.length) (hRoot : c.root d xs = c.root d ys)
    (hInj : Set.InjOn hash {i | ∃ x ∈ xs ++ ys, c.input x = i}) : xs.map c.input = ys.map c.input := by
  -- from the last entry back: equal digests give equal inputs, and these name equal digests before them
  induction xs using List.reverseRecOn generalizing ys with
  | nil => rw [length_eq_zero_iff.mp hLength.symm]
  | append_singleton xs x ih =>
    obtain rfl | ⟨ys, y, rfl⟩ := eq_nil_or_concat ys
    · simp at hLength
    rw [concat_eq_append] at hys hLength hRoot hInj ⊢
    rw [root_concat, root_concat] at hRoot
    rw [linked_concat] at hxs hys
    have hLast : c.input x = c.input y := by
      refine hInj ⟨x, by simp, rfl⟩ ⟨y, by simp, rfl⟩ ?_
      rw [hxs.2.2, hys.2.2, hRoot]
    have hPrevious : c.root d xs = c.root d ys := by
      rw [← hxs.2.1, ← hys.2.1]
      exact c.previous_of_input x y hLast
    have hInit := ih hxs.1 hys.1 (by simpa using hLength) hPrevious (hInj.mono ?_)
    · rw [map_append, map_append, hInit, map_singleton, map_singleton, hLast]
    rintro i ⟨z, hz, hEq⟩
    refine ⟨z, ?_, hEq⟩
    simp only [mem_append] at hz ⊢
    exact hz.imp .inl .inl

end Format

end LuvFlicker.HashChain
