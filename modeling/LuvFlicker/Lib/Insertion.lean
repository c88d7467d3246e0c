import LuvFlicker.Lib.Block

/-!
# Stable insertion into a sorted array

A new element is put behind the others and exchanged with its predecessor as long as
that one has a greater key.
-/

namespace LuvFlicker.Insertion

open Block Function List

universe u

variable {α : Type u} (key : α → Nat)

def swapNext (f : Nat → α) (i : Nat) : Nat → α := update (update f (i + 1) (f i)) i (f (i + 1))

def sift : Nat → (Nat → α) → Nat → α
  | 0, f => f
  | i + 1, f => if key (f (i + 1)) < key (f i) then sift i (swapNext f i) else f

def Inserted (x : α) (l l' : List α) : Prop :=
  ∃ before after, l = before ++ after ∧ l' = before ++ x :: after ∧ (∀ y ∈ after, key x < key y) ∧
    ∀ y ∈ before, key y ≤ key x

def Sorted (l : List α) : Prop := l.Pairwise fun a b => key a ≤ key b

variable {key}

theorem slice_succ (f : Nat → α) (n : Nat) : slice f 0 (n + 1) = slice f 0 n ++ [f n] := by
  rw [slice_add, zero_add]
  rfl

theorem sift_of_lt {i j : Nat} (h : i < j) (f : Nat → α) : sift key i f j = f j := by
  induction i generalizing f with
  | zero => rfl
  | succ i ih =>
    rw [sift]
    split
    · rw [ih (by omega), swapNext, update_of_ne (by omega), update_of_ne (by omega)]
    · rfl

theorem inserted_sift (key : α → Nat) (i : Nat) (f : Nat → α) (h : Sorted key (slice f 0 i)) :
    Inserted key (f i) (slice f 0 i) (slice (sift key i f) 0 (i + 1)) := by
  induction i generalizing f with
  | zero => exact ⟨[], [], rfl, rfl, fun _ hy => absurd hy not_mem_nil, fun _ hy => absurd hy not_mem_nil⟩
  | succ i ih =>
    have hSplit := slice_succ f i
    rw [Sorted, hSplit, pairwise_append] at h
    obtain ⟨hSorted, -, hLast⟩ := h
    rw [sift]
    split
    next hLess =>
      have hBelow : slice (swapNext f i) 0 i = slice f 0 i := by
        refine slice_congr fun k _ => ?_
        rw [swapNext, update_of_ne (by omega), update_of_ne (by omega)]
      have hHere : swapNext f i i = f (i + 1) := update_self ..
      have hNext : swapNext f i (i + 1) = f i := by
        rw [swapNext, update_of_ne (by omega), update_self]
      obtain ⟨before, after, hOld, hNew, hGreater, hNot⟩ := ih _ (by rw [hBelow]; exact hSorted)
      rw [hBelow] at hOld
      rw [hHere] at hNew hGreater hNot
      refine ⟨_, after ++ [f i], ?_, ?_, ?_, hNot⟩
      · rw [hSplit, hOld, append_assoc]
      · rw [slice_succ, hNew, sift_of_lt (Nat.lt_succ_self i), hNext, append_assoc]
        rfl
      intro y hy
      rcases mem_append.mp hy with hAfter | hy
      · exact hGreater y hAfter
      · rw [mem_singleton.mp hy]
        exact hLess
    next hNot =>
      refine ⟨_, [], (append_nil _).symm, slice_succ f _, fun _ hy => absurd hy not_mem_nil, fun y hy => ?_⟩
      rw [hSplit] at hy
      rcases mem_append.mp hy with hy | hy
      · exact (hLast y hy _ mem_cons_self).trans (not_lt.mp hNot)
      · rw [mem_singleton.mp hy]
        exact not_lt.mp hNot

variable {x : α} {l l' : List α}

theorem Inserted.sorted (h : Inserted key x l l') (hSorted : Sorted key l) : Sorted key l' := by
  obtain ⟨_, _, rfl, rfl, hGreater, hNot⟩ := h
  rw [Sorted, pairwise_append] at hSorted
  obtain ⟨hBefore, hAfter, hAcross⟩ := hSorted
  rw [Sorted, pairwise_append, pairwise_cons]
  refine ⟨hBefore, ⟨fun y hy => (hGreater y hy).le, hAfter⟩, fun a ha b hb => ?_⟩
  rcases mem_cons.mp hb with rfl | hb
  · exact hNot a ha
  · exact hAcross a ha b hb

theorem Sorted.lt_of_mem_dropWhile (hSorted : Sorted key l) {k : Nat} (h : x ∈ l.dropWhile (key · ≤ k)) : k < key x := by
  induction l with
  | nil => exact absurd h not_mem_nil
  | cons y l ih =>
    rw [Sorted, pairwise_cons] at hSorted
    rw [dropWhile_cons] at h
    split at h
    · exact ih hSorted.2 h
    rename_i hGreater
    have hGreater : k < key y := not_le.mp fun hLe => hGreater (decide_eq_true hLe)
    rcases mem_cons.mp h with rfl | hMem
    · exact hGreater
    · exact hGreater.trans_le (hSorted.1 x hMem)

theorem Inserted.filter (h : Inserted key x l l') (k : Nat) :
    l'.filter (key · = k) = (l ++ [x]).filter (key · = k) := by
  obtain ⟨_, after, rfl, rfl, hGreater, -⟩ := h
  rw [filter_append, filter_append, filter_append]
  by_cases hKey : key x = k
  · have hAfter : after.filter (key · = k) = [] := by
      rw [filter_eq_nil_iff]
      intro y hy hSame
      have hLess := hGreater y hy
      have hEqual : key y = k := of_decide_eq_true hSame
      omega
    have hHere (rest : List α) : (x :: rest).filter (key · = k) = x :: rest.filter (key · = k) :=
      filter_cons_of_pos (decide_eq_true hKey)
    rw [hHere, hHere, hAfter, append_nil, filter_nil]
  · rw [filter_cons_of_neg (by rwa [decide_eq_true_iff]), filter_cons_of_neg (by rwa [decide_eq_true_iff]),
      filter_nil, append_nil]

end LuvFlicker.Insertion
