import LuvFlicker.Feed.MoldUdp64
import LuvFlicker.Feed.Sim
import LuvFlicker.Lib.Run
import LuvFlicker.Safety.Controls
import LuvFlicker.Safety.SequenceTracker

/-!
# The packet feed

`DpdkFeedSource` after its initialisation: a packet is checked, its sequence number
goes through the tracker, and its messages are decoded into the tick ring.
-/

namespace LuvFlicker

open Bytes

/-! ## Sequence numbers -/

namespace SequenceTracker

def Expects (t : SequenceTracker) (sequence : UInt64) : Prop := t.initialized = true → sequence = t.next

instance (t : SequenceTracker) (sequence : UInt64) : Decidable (t.Expects sequence) :=
  inferInstanceAs (Decidable (_ → _))

variable {t : SequenceTracker}

theorem observe_of_expects {sequence : UInt64} (h : t.Expects sequence) :
    ((t.observe sequence).1 = .kFirst ∨ (t.observe sequence).1 = .kNext) ∧
    (t.observe sequence).2.initialized = true ∧ (t.observe sequence).2.next = sequence + 1 := by
  unfold observe
  split
  · exact ⟨.inl rfl, rfl, rfl⟩
  rename_i hInit
  have hInit : t.initialized = true := by simpa using hInit
  rw [if_pos (h hInit)]
  exact ⟨.inr rfl, hInit, by rw [h hInit]⟩

theorem observe_of_not_expects {sequence : UInt64} (h : ¬ t.Expects sequence) :
    (t.observe sequence).1 = .kGap ∨ (t.observe sequence).1 = .kOutOfOrder ∨ (t.observe sequence).1 = .kDuplicate := by
  obtain ⟨hInit, hNe⟩ := Classical.not_imp.mp h
  rw [observe, if_neg (by simp [hInit]), if_neg hNe]
  split
  · split
    · exact .inr (.inr rfl)
    · exact .inr (.inl rfl)
  · exact .inl rfl

end SequenceTracker

/-! ## Packets -/

structure Packet where
  contiguous : Bool
  /-- The data pointer is not null. -/
  mapped : Bool
  bytes : List UInt8

/-- A packet, and how many ticks the consumer takes before the feed's claim for each of its messages. -/
structure Arrival where
  packet : Packet
  drains : Nat → Nat

structure DpdkFeed where
  payloadOffset : Nat := 42
  symbols : SymbolTable
  sequence : SequenceTracker := {}
  sequenceBreaker : CircuitBreaker := {}

namespace DpdkFeed

def sequenceHealthy (s : DpdkFeed) : Bool := s.sequenceBreaker.state = .kClosed

def checkPacket (s : DpdkFeed) (packet : Packet) : Option (MoldUdp64.Header × List UInt8) :=
  if ¬ packet.contiguous then none
  else if ¬ s.sequenceHealthy ∨ packet.bytes.length < s.payloadOffset + 20 then none
  else if ¬ packet.mapped then none
  else
    let payload := packet.bytes.drop s.payloadOffset
    match MoldUdp64.parseHeader payload with
    | none => none
    | some header =>
      if MoldUdp64.validateMessageBlock payload header.messageCount then some (header, payload) else none

/-- The decode loop over the messages of a packet, from the `k`-th claim on. It ends at a full ring. -/
def deliver (symbols : SymbolTable) (drains : Nat → Nat) : List (List UInt8) → Nat → TickChannel → Nat × TickChannel
  | [], _, ticks => (0, ticks)
  | raw :: rest, k, ticks =>
    let ticks := ticks.drain (drains k)
    if ticks.isFull then (0, ticks)
    else
      let (count, ticks) := decodeInto symbols raw ticks
      let (decoded, ticks) := deliver symbols drains rest (k + 1) ticks
      (count + decoded, ticks)

def processPacket (a : Arrival) (state : DpdkFeed × TickChannel) : Nat × DpdkFeed × TickChannel :=
  let (s, ticks) := state
  match s.checkPacket a.packet with
  | none => (0, s, ticks)
  | some (header, payload) =>
    let (result, sequence) := s.sequence.observe header.sequence
    let s := { s with sequence := sequence }
    if result = .kGap ∨ result = .kOutOfOrder ∨ result = .kDuplicate then
      (0, { s with sequenceBreaker := s.sequenceBreaker.trip 0 }, ticks)
    else
      let (decoded, ticks) := deliver s.symbols a.drains (MoldUdp64.messages payload) 0 ticks
      (decoded, s, ticks)

/-- `poll` on the packets it receives, and the number of messages it returns. -/
def poll (burst : List Arrival) (state : DpdkFeed × TickChannel) : Nat × DpdkFeed × TickChannel :=
  let result := Run.run processPacket burst state
  (result.1.sum, result.2)

end DpdkFeed

end LuvFlicker
