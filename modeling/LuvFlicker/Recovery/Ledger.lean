import LuvFlicker.Recovery.Record

/-!
# The recovery ledger

The write-ahead log: the file as a byte string, the in-memory sequence number,
appending through `write` and `fsync` with their outcomes given by the caller, and
the two readers, `verify_wal_integrity` and `replay`.
-/

namespace LuvFlicker

/-- What one `write` does: `EINTR`, another error, or the number of bytes it took. -/
inductive WriteOutcome where
  | interrupted
  | failed
  | wrote (count : Nat)
  deriving DecidableEq, Repr

/-- The outcomes of the system calls of one append; a `write` past the end of the list fails. -/
structure AppendIo where
  writes : List WriteOutcome
  synced : Bool
  deriving DecidableEq, Repr

structure RecoveredOrder where
  orderId : UInt64
  remaining : Int64
  price : Int64
  side : UInt8
  timestampNs : UInt64
  deriving DecidableEq, Repr

structure IntegrityReport where
  ok : Bool
  validRecords : UInt64
  errorSeq : UInt64
  deriving DecidableEq, Repr

structure RecoveryLedger where
  file : List UInt8
  /-- `_fd >= 0`. -/
  isOpen : Bool := false
  sequence : UInt64 := 0
  deriving DecidableEq, Repr

namespace RecoveryLedger

open RecoveryRecord (size)

def openLedger (l : RecoveryLedger) : Bool × RecoveryLedger :=
  if l.isOpen then (false, l)
  else if l.file.length % size ≠ 0 then (false, l)
  else (true, { l with isOpen := true, sequence := .ofNat (l.file.length / size) })

def writeAll : List WriteOutcome → List UInt8 → Bool × List UInt8
  | _, [] => (true, [])
  | [], _ :: _ => (false, [])
  | .interrupted :: rest, data => writeAll rest data
  | .failed :: _, _ => (false, [])
  | .wrote count :: rest, data =>
    if count = 0 then (false, [])
    else
      let (ok, more) := writeAll rest (data.drop count)
      (ok, data.take count ++ more)

def appendWithSide (l : RecoveryLedger) (event : RecoveryEvent) (io : AppendIo) : Bool × RecoveryLedger :=
  if !l.isOpen ∨ event.orderId = 0 ∨ event.quantity ≤ 0 then (false, l)
  else
    let (ok, written) := writeAll io.writes (RecoveryRecord.ofEvent l.sequence event).bytes
    let l := { l with file := l.file ++ written }
    if !ok then (false, l)
    else if !io.synced then (false, l)
    else (true, { l with sequence := l.sequence + 1 })

variable (file : List UInt8)

def recordAt (index : Nat) : RecoveryRecord := RecoveryRecord.ofBytes ((file.drop (size * index)).take size)

def verifyLoop (file : List UInt8) : Nat → Nat → UInt64 → UInt64 → IntegrityReport
  | 0, _, _, validRecords => ⟨true, validRecords, 0⟩
  | n + 1, index, expectedSeq, validRecords =>
    if (recordAt file index).Accepted expectedSeq then
      verifyLoop file n (index + 1) (expectedSeq + 1) (validRecords + 1)
    else ⟨false, validRecords, expectedSeq⟩

def verifyWalIntegrity : IntegrityReport :=
  if file.length % size ≠ 0 then ⟨false, 0, 0⟩
  else verifyLoop file (file.length / size) 0 0 0

def remove (output : List RecoveredOrder) (index : Nat) : List RecoveredOrder :=
  match output.getLast? with
  | none => output
  | some last => (output.set index last).dropLast

def apply (record : RecoveryRecord) (capacity : Nat) (output : List RecoveredOrder) : Option (List RecoveredOrder) :=
  let index := output.findIdx (·.orderId = record.orderId)
  if record.type = RecoveryEventType.kAdd.code ∨ record.type = RecoveryEventType.kNew.code then
    if index ≠ output.length ∨ output.length = capacity then none
    else some (output ++ [⟨record.orderId, record.quantity, record.price, record.side, record.timestampNs⟩])
  else
    match output[index]? with
    | none => none
    | some order =>
      if record.type = RecoveryEventType.kTerminalFill.code then
        if record.quantity ≤ 0 ∨ record.quantity > order.remaining then none
        else some (remove output index)
      else if record.type = RecoveryEventType.kFill.code then
        if record.quantity > order.remaining then none
        else
          let filled := output.set index { order with remaining := order.remaining - record.quantity }
          if order.remaining - record.quantity = 0 then some (remove filled index) else some filled
      else if record.type = RecoveryEventType.kReplace.code then
        if record.quantity ≤ 0 then none
        else
          let price := if record.price > 0 then record.price else order.price
          some (output.set index { order with remaining := record.quantity, price := price })
      else if record.type = RecoveryEventType.kCancel.code then some (remove output index)
      else none

def replayLoop (file : List UInt8) (capacity : Nat) :
    Nat → Nat → UInt64 → List RecoveredOrder → Option (List RecoveredOrder)
  | 0, _, _, output => some output
  | n + 1, index, expectedSequence, output =>
    if (recordAt file index).Accepted expectedSequence then
      match apply (recordAt file index) capacity output with
      | none => none
      | some output => replayLoop file capacity n (index + 1) (expectedSequence + 1) output
    else none

def replay (l : RecoveryLedger) (capacity : Nat) : Option (List RecoveredOrder) :=
  if !l.isOpen ∨ capacity = 0 then none
  else if l.file.length % size ≠ 0 then none
  else replayLoop l.file capacity (l.file.length / size) 0 0 []

/-! ## Files of whole records -/

def records : List RecoveryRecord := (List.range (file.length / size)).map (recordAt file)

def Intact : Prop :=
  file.length % size = 0 ∧ ∀ index < file.length / size, (recordAt file index).Accepted (.ofNat index)

theorem verifyLoop_ok_iff (n index : Nat) (expectedSeq validRecords : UInt64) :
    (verifyLoop file n index expectedSeq validRecords).ok = true ↔
      ∀ d < n, (recordAt file (index + d)).Accepted (expectedSeq + .ofNat d) := by
  induction n generalizing index expectedSeq validRecords with
  | zero => simp [verifyLoop]
  | succ n ih =>
    rw [verifyLoop]
    split
    · rename_i hFirst
      rw [ih]
      constructor
      · intro h d hd
        cases d with
        | zero => simpa using hFirst
        | succ d =>
          have hNext := h d (by omega)
          rw [show index + 1 + d = index + (d + 1) by omega] at hNext
          rw [UInt64.ofNat_add, UInt64.add_comm (UInt64.ofNat d), ← UInt64.add_assoc]
          exact hNext
      · intro h d hd
        have hNext := h (d + 1) (by omega)
        rw [show index + (d + 1) = index + 1 + d by omega, UInt64.ofNat_add, UInt64.add_comm (UInt64.ofNat d),
          ← UInt64.add_assoc] at hNext
        exact hNext
    · rename_i hFirst
      simp only [Bool.false_eq_true, false_iff]
      intro h
      have hZero := h 0 (Nat.succ_pos n)
      exact hFirst (by simpa using hZero)

theorem verifyWalIntegrity_ok_iff : (verifyWalIntegrity file).ok = true ↔ Intact file := by
  rw [verifyWalIntegrity, Intact]
  by_cases hSize : file.length % size = 0
  · rw [if_neg (not_not.mpr hSize), verifyLoop_ok_iff]
    simp [hSize]
  · simp [hSize]

theorem recordAt_bytes (r : RecoveryRecord) (hSize : file.length % size = 0) :
    recordAt (file ++ r.bytes) (file.length / size) = r := by
  rw [recordAt, Bytes.chunk_last hSize r.length_bytes]
  simpa using r.ofBytes_bytes []

end RecoveryLedger

end LuvFlicker
