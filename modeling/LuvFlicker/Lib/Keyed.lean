import Mathlib.Tactic

/-!
# Lists with distinct keys

An unordered table kept as a list: entries are found by their key from the front,
overwritten in place, and removed by moving the last entry into the gap.
-/

namespace LuvFlicker.Keyed

open List

universe u v

variable {α : Type u} {κ : Type v}

def swapRemove (l : List α) (i : Nat) : List α :=
  match l.getLast? with
  | none => l
  | some last => (l.set i last).dropLast

theorem swapRemove_perm (l : List α) {i : Nat} (h : i < l.length) : (swapRemove l i).Perm (l.eraseIdx i) := by
  induction l using List.reverseRecOn with
  | nil => exact absurd h (Nat.not_lt_zero i)
  | append_singleton init last _ =>
    rw [swapRemove, getLast?_concat]
    rw [length_append, length_singleton] at h
    dsimp only
    rcases Nat.lt_succ_iff_lt_or_eq.mp h with hlt | rfl
    · rw [set_append_left _ _ hlt, dropLast_concat, eraseIdx_append_of_lt_length hlt]
      exact (set_perm_cons_eraseIdx hlt last).trans (perm_append_singleton ..).symm
    · rw [set_append_right _ _ le_rfl, Nat.sub_self, set_cons_zero, dropLast_concat,
        eraseIdx_append_of_length_le le_rfl, Nat.sub_self, eraseIdx_cons_zero, append_nil]

section Key

variable [DecidableEq κ] {key : α → κ} {l : List α} {k : κ} {x : α}

theorem exists_findIdx (hNodup : (l.map key).Nodup) (hMem : x ∈ l) (hKey : key x = k) :
    l.findIdx (key · = k) < l.length ∧ l[l.findIdx (key · = k)]? = some x ∧
      l.Perm (x :: l.eraseIdx (l.findIdx (key · = k))) := by
  have hLt : l.findIdx (key · = k) < l.length := findIdx_lt_length_of_exists ⟨x, hMem, decide_eq_true hKey⟩
  have hFound := of_decide_eq_true (findIdx_getElem (w := hLt))
  have hSame :=
    inj_on_of_nodup_map hNodup (getElem_mem hLt) hMem (hFound.trans hKey.symm)
  refine ⟨hLt, ?_, ?_⟩
  · rw [getElem?_eq_getElem hLt, hSame]
  · conv_rhs => rw [← hSame]
    exact (getElem_cons_eraseIdx_perm hLt).symm

theorem findIdx_eq_length (h : k ∉ l.map key) : l.findIdx (key · = k) = l.length := by
  refine List.findIdx_eq_length.mpr fun x hx => decide_eq_false fun hKey => h ?_
  exact mem_map.mpr ⟨x, hx, hKey⟩

end Key

end LuvFlicker.Keyed
