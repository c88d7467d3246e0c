import LuvFlicker.Lib.IndexList
import LuvFlicker.Lib.Probe
import LuvFlicker.Ws.Frames
import LuvFlicker.Ws.Threads

/-!
# The subscription index

Connections are found by the order they subscribed to: a table of buckets, probed
linearly with tombstones, whose buckets head doubly linked chains through the
connection slots.
-/

namespace LuvFlicker.Ws

open Bytes Function

def kSubscriptionBuckets : Nat := 2048

inductive BucketState where
  | empty
  | occupied
  | tombstone
  deriving DecidableEq

structure SubscriptionBucket where
  orderId : UInt64 := 0
  head : Option Nat := none
  state : BucketState := .empty
  deriving DecidableEq

structure Pool where
  sessions : Nat → Session := fun _ => {}
  bucket : Nat → Option Nat := fun _ => none
  prev : Nat → Option Nat := fun _ => none
  next : Nat → Option Nat := fun _ => none
  subscriptions : Nat → SubscriptionBucket := fun _ => {}

def subscriptionHash (orderId : UInt64) : Nat :=
  let value := orderId + 0x9E3779B97F4A7C15
  let value := (value ^^^ (value >>> 30)) * 0xBF58476D1CE4E5B9
  let value := (value ^^^ (value >>> 27)) * 0x94D049BB133111EB
  (value ^^^ (value >>> 31)).toNat &&& (kSubscriptionBuckets - 1)

namespace Pool

variable (p : Pool)

def findSubscription (orderId : UInt64) : Option Nat := (Scan.scan (Probe.next kSubscriptionBuckets) (fun index =>
    let bucket := p.subscriptions index
    if bucket.state = .empty then some none
    else if bucket.state = .occupied ∧ bucket.orderId = orderId then some (some index)
    else none) kSubscriptionBuckets (subscriptionHash orderId)).join

/-- The probe loop of `find_or_create_subscription`, up to the bucket it returns. -/
def findOrCreateLoop (orderId : UInt64) : Nat → Nat → Option Nat → Option Nat
  | 0, _, firstTombstone => firstTombstone
  | n + 1, index, firstTombstone =>
    let bucket := p.subscriptions index
    if bucket.state = .empty then some (firstTombstone.getD index)
    else if bucket.state = .tombstone then
      findOrCreateLoop orderId n (Probe.next kSubscriptionBuckets index) (some (firstTombstone.getD index))
    else if bucket.orderId = orderId then some index
    else findOrCreateLoop orderId n (Probe.next kSubscriptionBuckets index) firstTombstone

def setSubscription (index : Nat) (bucket : SubscriptionBucket) : Pool :=
  { p with subscriptions := update p.subscriptions index bucket }

def findOrCreateSubscription (orderId : UInt64) : Option Nat × Pool :=
  match p.findOrCreateLoop orderId kSubscriptionBuckets (subscriptionHash orderId) none with
  | some index =>
    if (p.subscriptions index).state = .occupied then (some index, p)
    else (some index, p.setSubscription index { orderId := orderId, state := .occupied })
  | none => (none, p)

def linkFirst (index slot : Nat) : Pool :=
  let head := (p.subscriptions index).head
  { p with
    bucket := update p.bucket slot (some index)
    prev := IndexList.pushPrev p.prev head slot
    next := update p.next slot head
    subscriptions := update p.subscriptions index { p.subscriptions index with head := some slot } }

def subscribe (slot : Nat) : Bool × Pool :=
  match p.findOrCreateSubscription (p.sessions slot).connection.orderId with
  | (some index, p') => (true, p'.linkFirst index slot)
  | (none, p') => (false, p')

def bucketWithout (index slot : Nat) : SubscriptionBucket :=
  let bucket := p.subscriptions index
  let head := if (p.prev slot).isNone ∧ bucket.head = some slot then p.next slot else bucket.head
  if head.isNone then { bucket with head := none, state := .tombstone } else { bucket with head := head }

def unsubscribe (slot : Nat) : Pool :=
  match p.bucket slot with
  | none => p
  | some index =>
    { p with
      bucket := update p.bucket slot none
      prev := IndexList.unlinkPrev p.next p.prev slot
      next := IndexList.unlinkNext p.next p.prev slot
      subscriptions := update p.subscriptions index (p.bucketWithout index slot) }

/-- Stores a session after a function of the connection; `close` inside it has unsubscribed the slot. -/
def put (slot : Nat) (s : Session) : Pool :=
  if s.connection.isOpen then { p with sessions := update p.sessions slot s }
  else { p.unsubscribe slot with sessions := update p.sessions slot s }

def close (slot : Nat) : Pool :=
  if (p.sessions slot).connection.isOpen then p.put slot (p.sessions slot).close else p

def acceptUpgrade (maxConnections : Nat) (upgrade : Upgrade) (usable : Bool) (timestampNs receivedNs : UInt64)
    (results : List RecvResult) : Bool × Pool :=
  match Scan.firstIndex (fun slot => !(p.sessions slot).connection.isOpen) maxConnections with
  | none => (false, p)
  | some slot =>
    if usable then
      let opened : Pool := { p with sessions := update p.sessions slot (Session.fresh upgrade timestampNs) }
      match opened.subscribe slot with
      | (true, p') => (true, p'.put slot (Session.acceptUpgrade upgrade timestampNs receivedNs results))
      | (false, p') => (false, p'.close slot)
    else (false, p)

/-- The walk of `broadcast` over a chain, with the slots it tries to queue a frame on. -/
def walk (orderId : UInt64) (payload : List UInt8) : Nat → Option Nat → Pool → List Nat × Pool
  | 0, _, p => ([], p)
  | _ + 1, none, p => ([], p)
  | fuel + 1, some slot, p =>
    let nextConnection := p.next slot
    let connection := (p.sessions slot).connection
    if ¬ connection.isOpen ∨ connection.closeAfterFlush ∨ connection.orderId ≠ orderId then
      walk orderId payload fuel nextConnection p
    else
      let rest := walk orderId payload fuel nextConnection (p.put slot ((p.sessions slot).fanOut payload))
      (slot :: rest.1, rest.2)

end Pool

/-! ## The text of a fill -/

structure Fill where
  orderId : UInt64
  filledQty : BitVec 64
  fillPrice : BitVec 64
  timestampNs : UInt64

namespace Fill

def appendText (capacity : Nat) (output text : List UInt8) : Option (List UInt8) :=
  if text.length ≤ capacity - output.length then some (output ++ text) else none

def unsignedText (value : Nat) : List UInt8 := (Nat.toDigits 10 value).map fun c => UInt8.ofNat c.toNat

def signedText (value : BitVec 64) : List (List UInt8) :=
  if value.toInt ≥ 0 then [unsignedText value.toNat] else [ascii "-", unsignedText (0 - value).toNat]

def pieces (fill : Fill) : List (List UInt8) :=
  [ascii "\x7b\"event\":\"fill\",\"order_id\":", unsignedText fill.orderId.toNat, ascii ",\"filled_qty\":"] ++
    signedText fill.filledQty ++ [ascii ",\"fill_price\":"] ++ signedText fill.fillPrice ++
    [ascii ",\"timestamp_ns\":", unsignedText fill.timestampNs.toNat, ascii "\x7d"]

def formatFillJson (capacity : Nat) (fill : Fill) : Option (List UInt8) := fill.pieces.foldlM (appendText capacity) []

end Fill

def Pool.broadcast (p : Pool) (maxConnections : Nat) (fill : Fill) : List Nat × Pool :=
  match fill.formatFillJson 256 with
  | none => ([], p)
  | some payload =>
    if payload.length = 0 then ([], p)
    else
      Pool.walk fill.orderId payload maxConnections
        ((p.findSubscription fill.orderId).bind fun index => (p.subscriptions index).head) p

end LuvFlicker.Ws
