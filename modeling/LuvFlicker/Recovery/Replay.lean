import LuvFlicker.Lib.Keyed
import LuvFlicker.Recovery.Append

/-!
# Replaying the log

A replay applies the records one after the other, so a further record changes the
recovered orders by one `apply`. Up to their order, `apply` adds, overwrites or
removes the order of its id.
-/

namespace LuvFlicker.RecoveryLedger

open Keyed RecoveryEventType RecoveryRecord
open RecoveryRecord (size)

theorem replayLoop_append {file : List UInt8} {r : RecoveryRecord} {capacity n : Nat} (index : Nat) (sequence : UInt64)
    (output : List RecoveredOrder) (hSize : file.length % size = 0) (hIndex : index + n = file.length / size)
    (hAccepted : r.Accepted (sequence + .ofNat n)) :
    replayLoop (file ++ r.bytes) capacity (n + 1) index sequence output =
      (replayLoop file capacity n index sequence output).bind fun output => apply r capacity output := by
  induction n generalizing index sequence output with
  | zero =>
    have hLast : recordAt (file ++ r.bytes) index = r := by
      rw [show index = file.length / size from hIndex]
      exact recordAt_bytes file r hSize
    have hHere : r.Accepted sequence := by simpa using hAccepted
    simp only [replayLoop, hLast, if_pos hHere, Option.bind_some]
    cases apply r capacity output <;> rfl
  | succ n ih =>
    have hNext : r.Accepted (sequence + 1 + .ofNat n) := by
      rw [UInt64.add_assoc, UInt64.add_comm 1]
      rw [UInt64.ofNat_add] at hAccepted
      exact hAccepted
    rw [replayLoop, recordAt_append_bytes r (by omega), replayLoop]
    split_ifs
    · cases apply (recordAt file index) capacity output with
      | none => rfl
      | some output => exact ih _ _ _ (by omega) hNext
    · rfl

theorem InStep.replay_pushed {l : RecoveryLedger} (h : InStep l) {event : RecoveryEvent} {capacity : Nat}
    (hCapacity : 0 < capacity) : (l.pushed event).replay capacity =
      (l.replay capacity).bind fun output => apply (ofEvent l.sequence event) capacity output := by
  obtain ⟨hDiv, hMod⟩ := length_append_bytes
  have hAccepted : (ofEvent l.sequence event).Accepted (0 + .ofNat (l.file.length / size)) := by
    rw [UInt64.zero_add, ← h.sequence_eq]
    exact ofEvent_accepted ..
  have hArgs : ¬ ((!l.isOpen) = true ∨ capacity = 0) := by
    simp only [h.isOpen, Bool.not_true, Bool.false_eq_true, false_or]
    omega
  rw [replay, replay, RecoveryLedger.pushed]
  rw [if_neg hArgs, if_neg hArgs, if_neg (not_not.mpr h.intact.1), if_neg (not_not.mpr (hMod.trans h.intact.1)), hDiv]
  exact replayLoop_append 0 0 [] h.intact.1 (zero_add _) hAccepted

theorem replay_empty {capacity : Nat} (hCapacity : 0 < capacity) : (opened []).replay capacity = some [] := by
  rw [replay, if_neg (by simp [opened, openLedger]; omega)]
  rfl

/-! ## One record -/

theorem remove_eq_swapRemove (output : List RecoveredOrder) (index : Nat) :
    remove output index = swapRemove output index := by
  unfold remove swapRemove
  cases output.getLast? <;> rfl

section Apply

variable {record : RecoveryRecord} {capacity : Nat} {output : List RecoveredOrder} {order : RecoveredOrder}

theorem apply_add (hType : record.type = kAdd.code)
    (hNew : record.orderId ∉ output.map RecoveredOrder.orderId) (hRoom : output.length < capacity) :
    apply record capacity output =
      some (output ++ [⟨record.orderId, record.quantity, record.price, record.side, record.timestampNs⟩]) := by
  rw [apply, if_pos (.inl hType), findIdx_eq_length hNew, if_neg]
  rintro (hIndex | _)
  · exact hIndex rfl
  · omega

variable (hNodup : (output.map RecoveredOrder.orderId).Nodup) (hMem : order ∈ output)
  (hId : order.orderId = record.orderId)

include hNodup hMem hId

theorem exists_rest : ∃ index rest, output.findIdx (·.orderId = record.orderId) = index ∧
    output[index]? = some order ∧ output.Perm (order :: rest) ∧
    (∀ order', (output.set index order').Perm (order' :: rest)) ∧
    (∀ order', (remove (output.set index order') index).Perm rest) ∧ (remove output index).Perm rest := by
  obtain ⟨hLt, hFound, hPerm⟩ := exists_findIdx hNodup hMem hId
  simp only [remove_eq_swapRemove]
  refine ⟨_, _, rfl, hFound, hPerm, fun order' => List.set_perm_cons_eraseIdx hLt _, fun order' => ?_,
    swapRemove_perm _ hLt⟩
  have hErase := swapRemove_perm (output.set (output.findIdx (·.orderId = record.orderId)) order')
    (by rw [List.length_set]; exact hLt)
  rw [List.eraseIdx_set_eq] at hErase
  exact hErase

theorem apply_cancel (hType : record.type = kCancel.code) :
    ∃ output' rest, apply record capacity output = some output' ∧ output.Perm (order :: rest) ∧ output'.Perm rest := by
  obtain ⟨_, rest, hIndex, hFound, hPerm, _, _, hRemoved⟩ := exists_rest hNodup hMem hId
  refine ⟨_, rest, ?_, hPerm, hRemoved⟩
  simp only [apply, hIndex, hFound, hType]
  rfl

theorem apply_replace (hType : record.type = kReplace.code) (hQty : 0 < record.quantity)
    (hPrice : 0 < record.price) : ∃ output' rest, apply record capacity output = some output' ∧
      output.Perm (order :: rest) ∧
      output'.Perm ({ order with remaining := record.quantity, price := record.price } :: rest) := by
  obtain ⟨_, rest, hIndex, hFound, hPerm, hSet, _, _⟩ := exists_rest hNodup hMem hId
  refine ⟨_, rest, ?_, hPerm, hSet _⟩
  have hPos : ¬ record.quantity ≤ 0 := by simpa using hQty
  simp only [apply, hIndex, hFound, hType, if_neg hPos, if_pos hPrice]
  rfl

theorem apply_terminalFill (hType : record.type = kTerminalFill.code) (hQty : 0 < record.quantity)
    (hLe : record.quantity ≤ order.remaining) : ∃ output' rest, apply record capacity output = some output' ∧
      output.Perm (order :: rest) ∧ output'.Perm rest := by
  obtain ⟨_, rest, hIndex, hFound, hPerm, _, _, hRemoved⟩ := exists_rest hNodup hMem hId
  refine ⟨_, rest, ?_, hPerm, hRemoved⟩
  have hFits : ¬ (record.quantity ≤ 0 ∨ record.quantity > order.remaining) := by
    rintro (hNeg | hGt)
    · exact absurd hQty (by simpa using hNeg)
    · exact absurd hLe (by simpa using hGt)
  simp only [apply, hIndex, hFound, hType, if_neg hFits]
  rfl

theorem apply_fill (hType : record.type = kFill.code) (hLe : record.quantity ≤ order.remaining) :
    ∃ output' rest, apply record capacity output = some output' ∧ output.Perm (order :: rest) ∧
      output'.Perm (if order.remaining - record.quantity = 0 then rest
        else { order with remaining := order.remaining - record.quantity } :: rest) := by
  obtain ⟨_, rest, hIndex, hFound, hPerm, hSet, hRemoved, _⟩ := exists_rest hNodup hMem hId
  have hFits : ¬ record.quantity > order.remaining := by simpa using hLe
  by_cases hDone : order.remaining - record.quantity = 0
  · simp only [if_pos hDone]
    refine ⟨_, rest, ?_, hPerm, hRemoved { order with remaining := order.remaining - record.quantity }⟩
    simp only [apply, hIndex, hFound, hType, if_neg hFits, if_pos hDone]
    rfl
  · simp only [if_neg hDone]
    refine ⟨_, rest, ?_, hPerm, hSet _⟩
    simp only [apply, hIndex, hFound, hType, if_neg hFits, if_neg hDone]
    rfl

end Apply

end LuvFlicker.RecoveryLedger
