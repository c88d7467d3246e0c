import Mathlib.Tactic

/-!
# Sliding replay windows

Numbers are accepted at most once. Of the highest number accepted and the ones
shortly below it a row of bits says which have been accepted; numbers further below
are given up.
-/

namespace LuvFlicker.ReplayWindow

open List

structure Exact (width highest : Nat) (bit : Nat → Bool) (accepted : List Nat) : Prop where
  le : ∀ n ∈ accepted, n ≤ highest
  top : highest = 0 ∨ highest ∈ accepted
  bits : ∀ d < width, d ≤ highest → (bit d = true ↔ highest - d ∈ accepted)

variable {width highest n : Nat} {bit bit' : Nat → Bool} {accepted : List Nat}

theorem exact_nil (hBit : ∀ d, bit d = false) : Exact width 0 bit [] where
  le _ hMem := absurd hMem not_mem_nil
  top := .inl rfl
  bits d _ _ := iff_of_false (Bool.eq_false_iff.mp (hBit d)) not_mem_nil

variable (h : Exact width highest bit accepted)

include h

theorem Exact.bit_iff (hLe : n ≤ highest) (hNear : highest - n < width) : bit (highest - n) = true ↔ n ∈ accepted := by
  rw [h.bits (highest - n) hNear (Nat.sub_le _ _), Nat.sub_sub_self hLe]

theorem Exact.advance (hHigher : highest < n)
    (hBits : ∀ d < width, bit' d = true ↔ d = 0 ∨ n - highest ≤ d ∧ bit (d - (n - highest)) = true) :
    Exact width n bit' (n :: accepted) where
  le := forall_mem_cons.mpr ⟨le_rfl, fun m hm => (h.le m hm).trans hHigher.le⟩
  top := .inr mem_cons_self
  bits d hd hdn := by
    rw [hBits d hd, mem_cons]
    rcases Nat.eq_zero_or_pos d with rfl | hPos
    · exact iff_of_true (.inl rfl) (.inl rfl)
    rw [or_iff_right hPos.ne', or_iff_right (by omega)]
    rcases lt_or_ge d (n - highest) with hNew | hOld
    · refine iff_of_false (fun hBit => not_le_of_gt hNew hBit.1) fun hMem => ?_
      have hBelow := h.le _ hMem
      omega
    · have hSame : highest - (d - (n - highest)) = n - d := by omega
      rw [and_iff_right hOld, h.bits _ (by omega) (by omega), hSame]

theorem Exact.mark (hLe : n ≤ highest) (hBits : ∀ d < width, bit' d = true ↔ bit d = true ∨ d = highest - n) :
    Exact width highest bit' (n :: accepted) where
  le := forall_mem_cons.mpr ⟨hLe, h.le⟩
  top := h.top.imp_right (mem_cons_of_mem _)
  bits d hd hdh := by
    rw [hBits d hd, h.bits d hd hdh, mem_cons, or_comm]
    refine or_congr_left ?_
    omega

end LuvFlicker.ReplayWindow
