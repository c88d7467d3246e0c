import LuvFlicker.Recovery.Ledger

/-!
# The audit log

A file of 112-byte records, each with the hash of the record before it and its own:
SHA-256 of the previous hash followed by the first 48 bytes of the record, which are
its fields and the first four bytes of the previous hash again.
-/

namespace LuvFlicker

open Bytes

structure AuditEvent where
  sequence : UInt64 := 0
  timestampNs : UInt64 := 0
  orderId : UInt64 := 0
  price : Int64 := 0
  quantity : Int64 := 0
  traderId : UInt16 := 0
  side : UInt8 := 0
  type : UInt8 := 0
  /-- `previous_hash[32]`, as one number. -/
  previousHash : BitVec 256 := 0
  /-- `hash[32]`, as one number. -/
  hash : BitVec 256 := 0
  /-- The four bytes after the last field. -/
  padding : UInt32 := 0
  deriving DecidableEq, Repr

namespace AuditEvent

def size : Nat := 112

variable (e : AuditEvent)

def fields : List UInt8 := toBytes 8 e.sequence.toNat ++ (toBytes 8 e.timestampNs.toNat ++ (toBytes 8 e.orderId.toNat ++
    (toBytes 8 e.price.toUInt64.toNat ++ (toBytes 8 e.quantity.toUInt64.toNat ++ (toBytes 2 e.traderId.toNat ++
      (toBytes 1 e.side.toNat ++ toBytes 1 e.type.toNat))))))

def bytes : List UInt8 :=
  e.fields ++ (toBytes 32 e.previousHash.toNat ++ (toBytes 32 e.hash.toNat ++ toBytes 4 e.padding.toNat))

def ofBytes (b : List UInt8) : AuditEvent where
  sequence := .ofNat (field b 0 8)
  timestampNs := .ofNat (field b 8 8)
  orderId := .ofNat (field b 16 8)
  price := (UInt64.ofNat (field b 24 8)).toInt64
  quantity := (UInt64.ofNat (field b 32 8)).toInt64
  traderId := .ofNat (field b 40 2)
  side := .ofNat (field b 42 1)
  type := .ofNat (field b 43 1)
  previousHash := .ofNat 256 (field b 44 32)
  hash := .ofNat 256 (field b 76 32)
  padding := .ofNat (field b 108 4)

def hashInput : List UInt8 := toBytes 32 e.previousHash.toNat ++ e.bytes.take (size - 32 - 32)

def validEvent (sha256 : List UInt8 → BitVec 256) (e : AuditEvent) : Bool := sha256 e.hashInput = e.hash

def unpadded : AuditEvent := { e with padding := 0 }

@[simp]
theorem length_fields : e.fields.length = 44 := by simp [fields]

@[simp]
theorem length_bytes : e.bytes.length = size := by simp [bytes, size]

theorem ofBytes_bytes (rest : List UInt8) : ofBytes (e.bytes ++ rest) = e := by
  simp (disch := simp) only [ofBytes, bytes, fields, List.append_assoc, field_skip, field_toBytes, length_toBytes,
    Nat.reduceSub, ofNat_uint8, ofNat_uint16, ofNat_uint32, ofNat_uint64,
    ofNat_bitVec _, Int64.toInt64_toUInt64]

end AuditEvent

structure AuditEntry where
  timestampNs : UInt64
  orderId : UInt64
  price : Int64
  quantity : Int64
  traderId : UInt16
  side : UInt8
  type : UInt8
  deriving DecidableEq, Repr

/-- What `verify_log_integrity` returns and stores; the root hash is stored only on success. -/
structure LogIntegrity where
  ok : Bool
  validEvents : Nat
  rootHash : Option (BitVec 256)
  deriving DecidableEq, Repr

structure DurableAuditLog where
  file : List UInt8 := []
  /-- `_fd >= 0`. -/
  isOpen : Bool := false
  syncInterval : UInt32 := 100
  pending : UInt32 := 0
  sequence : UInt64 := 0
  tail : BitVec 256 := 0
  deriving DecidableEq, Repr

namespace DurableAuditLog

open AuditEvent (size)

variable (sha256 : List UInt8 → BitVec 256)

def eventAt (file : List UInt8) (index : Nat) : AuditEvent := AuditEvent.ofBytes ((file.drop (size * index)).take size)

/-- The loop of `verify_log_integrity`; `validate_existing_records` is the same loop. -/
def verifyLoop (file : List UInt8) : Nat → Nat → BitVec 256 → LogIntegrity
  | 0, seq, prevHash => ⟨true, seq, some prevHash⟩
  | n + 1, seq, prevHash =>
    let ev := eventAt file seq
    if ev.sequence ≠ .ofNat seq ∨ ev.previousHash ≠ prevHash ∨ ev.validEvent sha256 = false then ⟨false, seq, none⟩
    else verifyLoop file n (seq + 1) ev.hash

def verifyLogIntegrity (file : List UInt8) : LogIntegrity :=
  if file.length % size ≠ 0 then ⟨false, 0, none⟩
  else verifyLoop sha256 file (file.length / size) 0 0

/-- A failed `open` closes the file again and leaves the counters as far as it got. -/
def openLog (syncInterval : UInt32) (l : DurableAuditLog) : Bool × DurableAuditLog :=
  if l.isOpen ∨ syncInterval = 0 then (false, l)
  else
    let l := { l with syncInterval := syncInterval, pending := 0, tail := 0 }
    if l.file.length % size ≠ 0 then (false, l)
    else
      let report := verifyLoop sha256 l.file (l.file.length / size) 0 0
      let l := { l with sequence := .ofNat report.validEvents }
      match report.rootHash with
      | none => (false, l)
      | some root => (true, { l with isOpen := true, tail := root })

def flush (synced : Bool) (l : DurableAuditLog) : Bool × DurableAuditLog :=
  if !l.isOpen ∨ !synced then (false, l) else (true, { l with pending := 0 })

def close (synced : Bool) (l : DurableAuditLog) : DurableAuditLog :=
  if !l.isOpen then l else { (l.flush synced).2 with isOpen := false }

def nextEvent (entry : AuditEntry) (padding : UInt32) (l : DurableAuditLog) : AuditEvent :=
  let event : AuditEvent :=
    { sequence := l.sequence, timestampNs := entry.timestampNs, orderId := entry.orderId, price := entry.price,
      quantity := entry.quantity, traderId := entry.traderId, side := entry.side, type := entry.type,
      previousHash := l.tail, padding := padding }
  { event with hash := sha256 event.hashInput }

def append (entry : AuditEntry) (padding : UInt32) (io : AppendIo) (l : DurableAuditLog) : Bool × DurableAuditLog :=
  if !l.isOpen ∨ entry.orderId = 0 ∨ entry.quantity ≤ 0 ∨ entry.side > 1 then (false, l)
  else
    let event := nextEvent sha256 entry padding l
    let (ok, written) := RecoveryLedger.writeAll io.writes event.bytes
    let l := { l with file := l.file ++ written }
    if !ok then (false, l)
    else
      let l := { l with tail := event.hash, sequence := l.sequence + 1, pending := l.pending + 1 }
      if l.pending < l.syncInterval then (true, l) else l.flush io.synced

end DurableAuditLog

/-! ## Runs -/

inductive AuditOp where
  | openLog (syncInterval : UInt32)
  | append (entry : AuditEntry) (padding : UInt32) (io : AppendIo)
  | flush (synced : Bool)
  | close (synced : Bool)
  deriving DecidableEq, Repr

namespace DurableAuditLog

def step (sha256 : List UInt8 → BitVec 256) (op : AuditOp) (l : DurableAuditLog) : Bool × DurableAuditLog :=
  match op with
  | .openLog syncInterval => l.openLog sha256 syncInterval
  | .append entry padding io => l.append sha256 entry padding io
  | .flush synced => l.flush synced
  | .close synced => (true, l.close synced)

def countAppends (op : AuditOp) (_ : DurableAuditLog) (ok : Bool) (appends : Nat) : Nat :=
  match op with
  | .append _ _ _ => if ok then appends + 1 else appends
  | _ => appends

/-- The writes of an append succeed, and so does its `fsync`. -/
def WritesSucceed (sha256 : List UInt8 → BitVec 256) (op : AuditOp) (l : DurableAuditLog) : Prop :=
  match op with
  | .append entry padding io =>
    (RecoveryLedger.writeAll io.writes (nextEvent sha256 entry padding l).bytes).1 = true ∧ io.synced = true
  | _ => True

end DurableAuditLog

end LuvFlicker
