import LuvFlicker.Lib.Bytes

/-!
# Records of the recovery log

The 64-byte record of the write-ahead log with its memory layout and its FNV-1a
checksum. Reading back the bytes of a record gives the record.
-/

namespace LuvFlicker

open Bytes

inductive RecoveryEventType where
  | kAdd
  | kFill
  | kCancel
  | kAck
  | kNew
  | kReplace
  | kTerminalFill
  deriving DecidableEq, Repr

def RecoveryEventType.code : RecoveryEventType → UInt8
  | .kAdd => 1
  | .kFill => 2
  | .kCancel => 3
  | .kAck => 4
  | .kNew => 5
  | .kReplace => 6
  | .kTerminalFill => 7

def kRecoveryRecordVersion : UInt8 := 2

structure RecoveryEvent where
  type : RecoveryEventType := .kNew
  orderId : UInt64 := 0
  quantity : Int64 := 0
  price : Int64 := 0
  side : UInt8 := 0
  timestampNs : UInt64 := 0
  deriving DecidableEq, Repr

structure RecoveryRecord where
  magic : UInt32 := 0x31564352
  version : UInt8 := kRecoveryRecordVersion
  type : UInt8 := 0
  reserved : UInt16 := 0
  sequence : UInt64 := 0
  orderId : UInt64 := 0
  quantity : Int64 := 0
  price : Int64 := 0
  side : UInt8 := 0
  /-- `reserved_bytes[7]`, as one number. -/
  reservedBytes : BitVec 56 := 0
  timestampNs : UInt64 := 0
  checksum : UInt32 := 0
  padding : UInt32 := 0
  deriving DecidableEq, Repr

namespace RecoveryRecord

def size : Nat := 64

variable (r : RecoveryRecord)

def body : List UInt8 := toBytes 4 r.magic.toNat ++ (toBytes 1 r.version.toNat ++ (toBytes 1 r.type.toNat ++
    (toBytes 2 r.reserved.toNat ++ (toBytes 8 r.sequence.toNat ++ (toBytes 8 r.orderId.toNat ++
      (toBytes 8 r.quantity.toUInt64.toNat ++ (toBytes 8 r.price.toUInt64.toNat ++ (toBytes 1 r.side.toNat ++
        (toBytes 7 r.reservedBytes.toNat ++ toBytes 8 r.timestampNs.toNat)))))))))

def bytes : List UInt8 := r.body ++ (toBytes 4 r.checksum.toNat ++ toBytes 4 r.padding.toNat)

def ofBytes (b : List UInt8) : RecoveryRecord where
  magic := .ofNat (field b 0 4)
  version := .ofNat (field b 4 1)
  type := .ofNat (field b 5 1)
  reserved := .ofNat (field b 6 2)
  sequence := .ofNat (field b 8 8)
  orderId := .ofNat (field b 16 8)
  quantity := (UInt64.ofNat (field b 24 8)).toInt64
  price := (UInt64.ofNat (field b 32 8)).toInt64
  side := .ofNat (field b 40 1)
  reservedBytes := .ofNat 56 (field b 41 7)
  timestampNs := .ofNat (field b 48 8)
  checksum := .ofNat (field b 56 4)
  padding := .ofNat (field b 60 4)

def computeChecksum : UInt32 := r.body.foldl (fun hash byte => (hash ^^^ byte.toUInt32) * 16777619) 2166136261

/-- The check of one record in `verify_wal_integrity` and in `replay`. -/
def Accepted (expectedSequence : UInt64) : Prop :=
  r.magic = 0x31564352 ∧ r.version = kRecoveryRecordVersion ∧ r.sequence = expectedSequence ∧
    r.computeChecksum = r.checksum

instance (r : RecoveryRecord) (expectedSequence : UInt64) : Decidable (r.Accepted expectedSequence) :=
  inferInstanceAs (Decidable (_ ∧ _ ∧ _ ∧ _))

def ofEvent (sequence : UInt64) (event : RecoveryEvent) : RecoveryRecord :=
  let record : RecoveryRecord :=
    { type := event.type.code, sequence := sequence, orderId := event.orderId, quantity := event.quantity,
      price := event.price, side := event.side, timestampNs := event.timestampNs }
  { record with checksum := record.computeChecksum }

@[simp]
theorem length_body : r.body.length = 56 := by simp [body]

@[simp]
theorem length_bytes : r.bytes.length = size := by simp [bytes, size]

theorem computeChecksum_setChecksum (checksum : UInt32) :
    { r with checksum := checksum }.computeChecksum = r.computeChecksum := rfl

theorem ofEvent_accepted (sequence : UInt64) (event : RecoveryEvent) : (ofEvent sequence event).Accepted sequence :=
  ⟨rfl, rfl, rfl, computeChecksum_setChecksum ..⟩

theorem ofBytes_bytes (rest : List UInt8) : ofBytes (r.bytes ++ rest) = r := by
  simp (disch := simp) only [ofBytes, bytes, body, List.append_assoc, field_skip, field_toBytes, length_toBytes,
    Nat.reduceSub, ofNat_uint8, ofNat_uint16, ofNat_uint32, ofNat_uint64, ofNat_bitVec _, Int64.toInt64_toUInt64]

end RecoveryRecord

end LuvFlicker
