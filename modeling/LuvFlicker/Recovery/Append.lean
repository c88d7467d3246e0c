import LuvFlicker.Lib.Run
import LuvFlicker.Recovery.Ledger

/-!
# Failed appends and the log

A failed append does not take back the bytes that reached the file. The log stays
readable, with exactly the records whose append returned true, if and only if no
failed append left a byte behind.
-/

namespace LuvFlicker.RecoveryLedger

open Run List RecoveryRecord
open RecoveryRecord (size)

structure Append where
  event : RecoveryEvent
  io : AppendIo
  deriving DecidableEq, Repr

variable (a : Append)

def appendStep (l : RecoveryLedger) : Bool × RecoveryLedger := l.appendWithSide a.event a.io

def opened (file : List UInt8) : RecoveryLedger := (openLedger { file := file }).2

def accepted (appends : List Append) (results : List Bool) : List RecoveryEvent :=
  (appends.zip results).filterMap fun (a, ok) => if ok then some a.event else none

def recordsFrom (start : Nat) (events : List RecoveryEvent) : List RecoveryRecord :=
  events.mapIdx fun i event => RecoveryRecord.ofEvent (.ofNat (start + i)) event

/-- After the appends the file is accepted by both readers and holds what was there before, followed by
the records whose append returned true. -/
structure Faithful (file : List UInt8) (appends : List Append) : Prop where
  opens : (openLedger { file := (final appendStep appends (opened file)).file }).1 = true
  verifies : (verifyWalIntegrity (final appendStep appends (opened file)).file).ok = true
  records_eq : records (final appendStep appends (opened file)).file =
    records file ++ recordsFrom (file.length / size) (accepted appends (run appendStep appends (opened file)).1)

def progress : List WriteOutcome → Nat → Nat
  | _, 0 => 0
  | [], _ + 1 => 0
  | .interrupted :: rest, n => progress rest n
  | .failed :: _, _ => 0
  | .wrote count :: rest, n => if count = 0 then 0 else min count n + progress rest (n - count)

/-- The append writes nothing, or writes its whole record and syncs it. -/
def LeavesNoTrace : Prop := a.event.orderId = 0 ∨ a.event.quantity ≤ 0 ∨ progress a.io.writes size = 0 ∨
    progress a.io.writes size = size ∧ a.io.synced = true

instance (a : Append) : Decidable (LeavesNoTrace a) := inferInstanceAs (Decidable (_ ∨ _ ∨ _ ∨ _ ∧ _))

theorem progress_le (writes : List WriteOutcome) (n : Nat) : progress writes n ≤ n := by
  induction writes generalizing n with
  | nil => cases n <;> simp [progress]
  | cons outcome rest ih =>
    cases n with
    | zero => simp [progress]
    | succ n =>
      cases outcome with
      | interrupted => exact ih _
      | failed => simp [progress]
      | wrote count =>
        rw [progress]
        split
        · exact Nat.zero_le _
        · have hRest := ih (n + 1 - count)
          omega
        · intro h
          cases h

theorem writeAll_eq (writes : List WriteOutcome) (data : List UInt8) : writeAll writes data =
      (decide (progress writes data.length = data.length), data.take (progress writes data.length)) := by
  induction writes generalizing data with
  | nil => cases data <;> simp [writeAll, progress]
  | cons outcome rest ih =>
    cases data with
    | nil => simp [writeAll, progress]
    | cons byte data =>
      cases outcome with
      | interrupted =>
        rw [writeAll, ih]
        · simp [progress]
        · simp
      | failed => simp [writeAll, progress]
      | wrote count =>
        rw [writeAll, progress]
        · by_cases hZero : count = 0
          · simp [hZero]
          have hLe := progress_le rest ((byte :: data).length - count)
          rw [if_neg hZero, if_neg hZero, ih, length_drop]
          refine Prod.ext ?_ ?_
          · exact decide_eq_decide.mpr (by omega)
          rcases le_total count (byte :: data).length with hle | hge
          · rw [min_eq_left hle, take_add]
          have hDone : progress rest ((byte :: data).length - count) = 0 := by omega
          dsimp only
          rw [hDone, min_eq_right hge, take_zero, append_nil, take_of_length_le hge, add_zero, take_length]
        · simp
        · simp

def stray : Nat :=
  if a.event.orderId = 0 ∨ a.event.quantity ≤ 0 then 0
  else if progress a.io.writes size = size ∧ a.io.synced = true then 0
  else progress a.io.writes size

theorem stray_eq_zero_iff : stray a = 0 ↔ LeavesNoTrace a := by
  rw [stray, LeavesNoTrace]
  by_cases hArgs : a.event.orderId = 0 ∨ a.event.quantity ≤ 0
  · rw [if_pos hArgs, ← or_assoc]
    exact iff_of_true rfl (.inl hArgs)
  obtain ⟨hId, hQuantity⟩ := not_or.mp hArgs
  rw [if_neg hArgs]
  by_cases hDone : progress a.io.writes size = size ∧ a.io.synced = true
  · rw [if_pos hDone]
    exact iff_of_true rfl (.inr (.inr (.inr hDone)))
  · simp [hId, hQuantity, hDone]

def pushed (l : RecoveryLedger) (event : RecoveryEvent) : RecoveryLedger where
  file := l.file ++ (RecoveryRecord.ofEvent l.sequence event).bytes
  isOpen := l.isOpen
  sequence := l.sequence + 1

theorem length_pushed (l : RecoveryLedger) (event : RecoveryEvent) :
    (l.pushed event).file.length = l.file.length + size := by
  rw [pushed, length_append, length_bytes]

variable {l : RecoveryLedger}

theorem appendStep_cases (a : Append) (hOpen : l.isOpen = true) :
    (∃ written, appendStep a l = (false, { l with file := l.file ++ written }) ∧ written.length = stray a) ∨
    (appendStep a l = (true, l.pushed a.event) ∧ stray a = 0) := by
  rw [appendStep, appendWithSide, stray]
  by_cases hArgs : a.event.orderId = 0 ∨ a.event.quantity ≤ 0
  · rw [if_pos (.inr hArgs), if_pos hArgs]
    exact .inl ⟨[], by rw [append_nil], rfl⟩
  rw [if_neg (by simpa [hOpen] using hArgs), if_neg hArgs, writeAll_eq, length_bytes]
  have hLe := progress_le a.io.writes size
  have hTake : ((ofEvent l.sequence a.event).bytes.take (progress a.io.writes size)).length =
      progress a.io.writes size := by
    rw [length_take, length_bytes, min_eq_left hLe]
  by_cases hAll : progress a.io.writes size = size
  · by_cases hSync : a.io.synced = true
    · refine .inr ⟨?_, if_pos ⟨hAll, hSync⟩⟩
      simp only [hAll, hSync, decide_true, Bool.not_true, Bool.false_eq_true, if_false]
      rw [take_of_length_le (by simp), pushed]
    · refine .inl ⟨_, ?_, hTake.trans (if_neg fun h => hSync h.2).symm⟩
      simp [hSync]
  · refine .inl ⟨_, ?_, hTake.trans (if_neg fun h => hAll h.1).symm⟩
    simp [hAll]

theorem accepted_cons (appends : List Append) (ok : Bool) (results : List Bool) :
    accepted (a :: appends) (ok :: results) =
      if ok then a.event :: accepted appends results else accepted appends results := by
  cases ok <;> simp [accepted]

theorem length_final (appends : List Append) (hOpen : l.isOpen = true) : (final appendStep appends l).file.length =
      l.file.length + size * (accepted appends (run appendStep appends l).1).length + (appends.map stray).sum := by
  induction appends generalizing l with
  | nil => simp [accepted]
  | cons a rest ih =>
    rw [final_cons, run, accepted_cons, map_cons, sum_cons]
    rcases appendStep_cases a hOpen with ⟨_, hStep, hStray⟩ | ⟨hStep, hStray⟩
    · rw [hStep, ih (by exact hOpen), length_append, if_neg Bool.false_ne_true]
      omega
    · rw [hStep, ih (by exact hOpen), length_pushed, if_pos rfl, length_cons, Nat.mul_succ]
      omega

/-! ## Clean runs -/

structure InStep (l : RecoveryLedger) : Prop where
  isOpen : l.isOpen = true
  intact : Intact l.file
  sequence_eq : l.sequence = .ofNat (l.file.length / size)

variable {file : List UInt8}

theorem inStep_opened (h : Intact file) : InStep (opened file) := by
  have hOpened : opened file = { file := file, isOpen := true, sequence := .ofNat (file.length / size) } := by
    simp [opened, openLedger, h.1]
  rw [hOpened]
  exact ⟨rfl, h, rfl⟩

theorem file_opened (file : List UInt8) : (opened file).file = file := by
  unfold opened openLedger
  split_ifs <;> rfl

theorem length_append_bytes {file : List UInt8} {r : RecoveryRecord} :
    (file ++ r.bytes).length / size = file.length / size + 1 ∧ (file ++ r.bytes).length % size = file.length % size := by
  refine ⟨Bytes.length_div_append (by decide) r.length_bytes, ?_⟩
  rw [length_append, length_bytes, Nat.add_mod_right]

theorem recordAt_append_bytes (r : RecoveryRecord) {index : Nat} (h : index < file.length / size) :
    recordAt (file ++ r.bytes) index = recordAt file index :=
  congrArg ofBytes (Bytes.chunk_append h)

theorem records_append_bytes {r : RecoveryRecord} (hSize : file.length % size = 0) :
    records (file ++ r.bytes) = records file ++ [r] := by
  have hRead : ofBytes r.bytes = r := by simpa using r.ofBytes_bytes []
  have hMap := Bytes.map_chunk_append ofBytes (by decide) hSize r.length_bytes
  rw [hRead] at hMap
  exact hMap

theorem InStep.pushed (h : InStep l) (event : RecoveryEvent) : InStep (l.pushed event) := by
  obtain ⟨hDiv, hMod⟩ := length_append_bytes
  refine ⟨h.isOpen, ⟨hMod.trans h.intact.1, fun index hIndex => ?_⟩, ?_⟩
  · change index < (l.file ++ _).length / size at hIndex
    rw [hDiv] at hIndex
    change (recordAt (l.file ++ _) index).Accepted _
    rcases Nat.lt_succ_iff_lt_or_eq.mp hIndex with hlt | rfl
    · rw [recordAt_append_bytes _ hlt]
      exact h.intact.2 _ hlt
    · rw [recordAt_bytes _ _ h.intact.1, ← h.sequence_eq]
      exact ofEvent_accepted ..
  · change l.sequence + 1 = .ofNat ((l.file ++ _).length / size)
    rw [hDiv, UInt64.ofNat_add, ← h.sequence_eq]
    rfl

theorem recordsFrom_cons (start : Nat) (event : RecoveryEvent) (events : List RecoveryEvent) :
    recordsFrom start (event :: events) =
      ofEvent (.ofNat start) event :: recordsFrom (start + 1) events := by
  rw [recordsFrom, mapIdx_cons]
  congr 2
  funext i event
  rw [add_assoc, add_comm 1 i]

theorem run_of_leavesNoTrace {appends : List Append} (h : InStep l) (hClean : ∀ a ∈ appends, LeavesNoTrace a) :
    InStep (final appendStep appends l) ∧ records (final appendStep appends l).file = records l.file ++
        recordsFrom (l.file.length / size) (accepted appends (run appendStep appends l).1) := by
  induction appends generalizing l with
  | nil => exact ⟨h, by simp [accepted, recordsFrom]⟩
  | cons a rest ih =>
    have hRest : ∀ b ∈ rest, LeavesNoTrace b := fun b hb => hClean b (mem_cons_of_mem a hb)
    have hStray := (stray_eq_zero_iff a).mpr (hClean a mem_cons_self)
    rw [final_cons, run, accepted_cons]
    rcases appendStep_cases a h.isOpen with ⟨written, hStep, hLength⟩ | ⟨hStep, _⟩
    · have hNone : written = [] := length_eq_zero_iff.mp (hLength.trans hStray)
      rw [hNone, append_nil] at hStep
      rw [hStep]
      exact ih h hRest
    · rw [hStep]
      obtain ⟨hEnd, hRecords⟩ := ih (h.pushed a.event) hRest
      refine ⟨hEnd, hRecords.trans ?_⟩
      rw [if_pos rfl, recordsFrom_cons, ← h.sequence_eq]
      simp only [pushed]
      rw [records_append_bytes h.intact.1, length_append_bytes.1, append_assoc, singleton_append]

/-- Failed appends are harmless exactly when none of them left a byte in the file. -/
theorem appends_faithful_iff (file : List UInt8) (hFile : (verifyWalIntegrity file).ok = true)
    (appends : List Append) : Faithful file appends ↔ ∀ a ∈ appends, LeavesNoTrace a := by
  have hIntact := (verifyWalIntegrity_ok_iff file).mp hFile
  have hStart := inStep_opened hIntact
  constructor
  · intro h a ha
    have hSize := ((verifyWalIntegrity_ok_iff _).mp h.verifies).1
    have hCount := congrArg List.length h.records_eq
    have hLength := length_final appends hStart.isOpen
    rw [file_opened] at hLength
    simp only [records, recordsFrom, length_map, length_range, length_append, length_mapIdx] at hCount
    have hSum : (appends.map stray).sum = 0 := by
      simp only [size] at *
      omega
    exact (stray_eq_zero_iff a).mp (sum_eq_zero_iff.mp hSum _ (mem_map_of_mem ha))
  · intro hClean
    obtain ⟨hEnd, hRecords⟩ := run_of_leavesNoTrace hStart hClean
    rw [file_opened] at hRecords
    refine ⟨?_, (verifyWalIntegrity_ok_iff _).mpr hEnd.intact, hRecords⟩
    simp [openLedger, hEnd.intact.1]

def sampleAppends : List Append := [⟨{ orderId := 7, quantity := 3, price := 100 }, ⟨[.interrupted, .failed], true⟩⟩,
    ⟨{ orderId := 8, quantity := 5, price := 101 }, ⟨[.wrote 20, .interrupted, .wrote 44], true⟩⟩]

theorem appends_faithful_iff_sampleAppends : Faithful [] sampleAppends :=
  (appends_faithful_iff [] (by decide) sampleAppends).mpr (by decide)

def unsyncedAppends : List Append := [⟨{ orderId := 7, quantity := 3, price := 100 }, ⟨[.wrote 64], false⟩⟩,
    ⟨{ orderId := 8, quantity := 5, price := 101 }, ⟨[.wrote 64], true⟩⟩]

theorem unsyncedAppends_poison_log : ¬ Faithful [] unsyncedAppends := by
  intro h
  have hVerifies := h.verifies
  revert hVerifies
  decide +kernel

end LuvFlicker.RecoveryLedger
