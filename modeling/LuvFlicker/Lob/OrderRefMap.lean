import LuvFlicker.Arena
import LuvFlicker.Lib.Probe

/-!
# The order-reference map

The open-addressing table from order reference to location: Fibonacci hashing,
linear probing bounded by `kMaxProbeLength`, deletion by tombstone and a load limit.
-/

namespace LuvFlicker

open Function Config

structure OrderLocation where
  symbolIdx : Nat
  side : Side
  levelIdx : Nat
  slotIdx : Nat
  deriving DecidableEq, Repr

/-- How a map operation on a reference ended; the failures are the logged events. -/
inductive MapResult where
  | ok
  | invalidOrderLocation
  | hashTableHighLoad
  | hashTableProbeLimit
  | duplicateOrderRef
  deriving DecidableEq, Repr

def MapResult.isCapacity : MapResult → Bool
  | .hashTableHighLoad | .hashTableProbeLimit => true
  | _ => false

structure OrderRefMap where
  keys : Nat → UInt64
  values : Nat → OrderLocation
  count : Nat

namespace OrderRefMap

def kCapacity : Nat := kSymbols * kLevelsPerSide * kMaxOrdersPerLevel
def kMaxProbeLength : Nat := 256
def kMaxLoadPercent : Nat := 80
def kMaxEntries : Nat := kCapacity * kMaxLoadPercent / 100
def kEmptyKey : UInt64 := 0
def kTombstone : UInt64 := 0xFFFFFFFFFFFFFFFF
def kFibMul : UInt64 := 0x9E3779B97F4A7C15
def kShift : UInt64 := 41

def hash (key : UInt64) : Nat :=
  let key := key ^^^ (key >>> 30)
  let key := key * 0xBF58476D1CE4E5B9
  let key := key ^^^ (key >>> 27)
  let key := key * 0x94D049BB133111EB
  let key := key ^^^ (key >>> 31)
  ((key * kFibMul) >>> kShift).toNat

theorem kCapacity_eq : kCapacity = 2 ^ 23 := by decide

theorem hash_lt (key : UInt64) : hash key < kCapacity := by
  simp only [hash, UInt64.toNat_shiftRight]
  rw [Nat.shiftRight_eq_div_pow]
  exact Nat.div_lt_of_lt_mul (UInt64.toNat_lt _)

def layout : Probe.Layout UInt64 where
  cap := kCapacity
  bits := 23
  cap_eq := kCapacity_eq
  hash := hash
  hash_lt := hash_lt
  empty := kEmptyKey
  limit := kMaxProbeLength
  limit_le := by decide

def init (values : Nat → OrderLocation) : OrderRefMap where
  keys := fun _ => kEmptyKey
  values := values
  count := 0

/-- A reference that is neither of the two sentinel keys. -/
def Live (ref : UInt64) : Prop := ref ≠ kEmptyKey ∧ ref ≠ kTombstone

instance (ref : UInt64) : Decidable (Live ref) := inferInstanceAs (Decidable (_ ∧ _))

def validLocation (loc : OrderLocation) : Bool :=
  loc.symbolIdx < kSymbols && loc.levelIdx < kLevelsPerSide && loc.slotIdx < kMaxOrdersPerLevel

def store (m : OrderRefMap) (slot : Nat) (ref : UInt64) (loc : OrderLocation) : OrderRefMap where
  keys := update m.keys slot ref
  values := update m.values slot loc
  count := m.count + 1

/-- The probe loop of `insert`; `tombstone` is the first one passed, if any. -/
def insertLoop (m : OrderRefMap) (ref : UInt64) (loc : OrderLocation) : Nat → Nat → Option Nat → OrderRefMap × MapResult
  | 0, _, tombstone =>
    match tombstone with
    | some t => if m.count < kMaxEntries then (m.store t ref loc, .ok) else (m, .hashTableProbeLimit)
    | none => (m, .hashTableProbeLimit)
  | n + 1, slot, tombstone =>
    if m.keys slot = ref then ({ m with values := update m.values slot loc }, .ok)
    else if m.keys slot = kTombstone ∧ tombstone = none then
      insertLoop m ref loc n (Probe.next kCapacity slot) (some slot)
    else if m.keys slot = kEmptyKey then
      if kMaxEntries ≤ m.count then (m, .hashTableHighLoad)
      else (m.store (tombstone.getD slot) ref loc, .ok)
    else insertLoop m ref loc n (Probe.next kCapacity slot) tombstone

variable (m : OrderRefMap) (ref : UInt64)

def insert (loc : OrderLocation) : OrderRefMap × MapResult :=
  if Live ref ∧ validLocation loc then insertLoop m ref loc kMaxProbeLength (hash ref) none
  else (m, .invalidOrderLocation)

def canInsert : MapResult :=
  if ¬ Live ref then .invalidOrderLocation
  else if kMaxEntries ≤ m.count then .hashTableHighLoad
  else
    (Scan.scan (Probe.next kCapacity) (fun slot =>
      if m.keys slot = ref then some .duplicateOrderRef
      else if m.keys slot = kEmptyKey then some .ok
      else none) kMaxProbeLength (hash ref)).getD .hashTableProbeLimit

def lookupSlot : Option Nat :=
  if Live ref then layout.find m.keys ref else none

def lookup : Option OrderLocation := (m.lookupSlot ref).map m.values

def setLocation (loc : OrderLocation) : OrderRefMap :=
  match m.lookupSlot ref with
  | some slot => { m with values := update m.values slot loc }
  | none => m

def remove : OrderRefMap :=
  match m.lookupSlot ref with
  | some slot => { m with keys := update m.keys slot kTombstone, count := m.count - 1 }
  | none => m

end OrderRefMap

end LuvFlicker
