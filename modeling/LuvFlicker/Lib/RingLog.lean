import Mathlib.Tactic

/-!
# Logs kept in a ring

A log from which only the last entries are kept, in a ring of slots. The entry
before the first one stands for the slots that have not been written yet.
-/

namespace LuvFlicker.RingLog

open Function

universe u

variable {α : Type u}

def Retains (cap : Nat) (initial : α) (log : List α) (commit : Nat) (slot : Nat → α) : Prop :=
  ∀ i ≤ commit, commit < i + cap → (initial :: log)[i]? = some (slot (i % cap))

variable {cap : Nat} {initial : α} {log : List α} {commit : Nat} {slot : Nat → α}

theorem retains_zero (log : List α) (hSlot : slot (0 % cap) = initial) : Retains cap initial log 0 slot := by
  intro i hi _
  rw [Nat.le_zero.mp hi, hSlot]
  rfl

variable (h : Retains cap initial log commit slot)

include h

theorem Retains.commit_le (hCap : 0 < cap) : commit ≤ log.length := by
  have hLast := (List.getElem?_eq_some_iff.mp (h _ (Nat.le_refl _) (Nat.lt_add_of_pos_right hCap))).1
  exact Nat.le_of_lt_succ hLast

theorem Retains.append (x : α) : Retains cap initial (log ++ [x]) commit slot := by
  intro i hi hCap
  have hOld := h i hi hCap
  rw [← List.cons_append, List.getElem?_append_left (List.getElem?_eq_some_iff.mp hOld).1, hOld]

theorem Retains.push {x : α} (hNext : log[commit]? = some x) :
    Retains cap initial log (commit + 1) (update slot ((commit + 1) % cap) x) := by
  intro i hi _
  rcases Nat.lt_or_eq_of_le hi with hOld | rfl
  · have hSlot : i % cap ≠ (commit + 1) % cap := by
      intro hSame
      have hDvd : cap ∣ commit + 1 - i := (Nat.modEq_iff_dvd' hOld.le).mp hSame
      have hLe := Nat.le_of_dvd (by omega) hDvd
      omega
    rw [update_of_ne hSlot]
    exact h i (Nat.le_of_lt_succ hOld) (by omega)
  · rw [update_self, List.getElem?_cons_succ, hNext]

theorem Retains.agree {commit' : Nat} {slot' : Nat → α}
    (h' : Retains cap initial log commit' slot') {i : Nat} (hi : i ≤ commit) (hi' : i ≤ commit')
    (hCap : commit < i + cap) (hCap' : commit' < i + cap) : slot (i % cap) = slot' (i % cap) := by
  have hHere := h i hi hCap
  rw [h' i hi' hCap'] at hHere
  exact (Option.some.inj hHere).symm

end LuvFlicker.RingLog
