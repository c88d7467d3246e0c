import LuvFlicker.Lib.Bytes

/-!
# MoldUDP64 packets

A packet is a header with a sequence number and a message count, followed by the
messages, each after its length.
-/

namespace LuvFlicker.MoldUdp64

open Bytes List

def kHeaderSize : Nat := 20

structure Header where
  sequence : UInt64
  messageCount : Nat

def parseHeader (data : List UInt8) : Option Header :=
  if data.length < kHeaderSize then none else some ⟨.ofNat (beField data 10 8), beField data 18 2⟩

def next (rest : List UInt8) : Option (List UInt8 × List UInt8) :=
  if rest.length < 2 then none
  else
    let length := beField rest 0 2
    if length = 0 ∨ length > rest.length - 2 then none else some ((rest.drop 2).take length, rest.drop (2 + length))

/-- The loop of `validate_message_block`, with the number of messages to go. -/
def validateBlock : Nat → List UInt8 → Bool
  | 0, rest => rest.isEmpty
  | count + 1, rest =>
    match next rest with
    | none => false
    | some (_, rest) => validateBlock count rest

def validateMessageBlock (data : List UInt8) (messageCount : Nat) : Bool :=
  if data.length < kHeaderSize then false else validateBlock messageCount (data.drop kHeaderSize)

def iterate : Nat → List UInt8 → List (List UInt8)
  | 0, _ => []
  | calls + 1, rest =>
    match next rest with
    | none => []
    | some (raw, rest) => raw :: iterate calls rest

def messages (data : List UInt8) : List (List UInt8) := iterate data.length (data.drop kHeaderSize)

variable {rest rest' raw data : List UInt8}

theorem next_eq_some (h : next rest = some (raw, rest')) :
    rest = toBytesBe 2 raw.length ++ (raw ++ rest') ∧ 0 < raw.length := by
  unfold next at h
  simp only at h
  split_ifs at h with hShort hLength
  obtain ⟨rfl, rfl⟩ := Prod.mk.inj (Option.some.inj h)
  have hTaken : ((rest.drop 2).take (beField rest 0 2)).length = beField rest 0 2 := by
    rw [length_take, length_drop]
    omega
  refine ⟨?_, by omega⟩
  rw [hTaken, toBytesBe_beField (by omega), drop_zero, ← drop_drop, take_append_drop, take_append_drop]

/-! ## Well-formed packets -/

/-- A packet with these messages, none of them empty or too long for its length field. -/
structure Carries (data : List UInt8) (sequence : UInt64) (msgs : List (List UInt8)) : Prop where
  size : kHeaderSize ≤ data.length
  sequence_eq : UInt64.ofNat (beField data 10 8) = sequence
  count_eq : beField data 18 2 = msgs.length
  block_eq : data.drop kHeaderSize = framed msgs
  lengths : ∀ raw ∈ msgs, 0 < raw.length ∧ raw.length < 256 ^ 2

theorem length_framed_cons (raw : List UInt8) (msgs : List (List UInt8)) :
    (framed (raw :: msgs)).length = 2 + (raw.length + (framed msgs).length) := by
  rw [framed_cons, length_append, length_append, length_toBytesBe]

theorem next_framed (msgs : List (List UInt8)) (hPos : 0 < raw.length) (hLt : raw.length < 256 ^ 2) :
    next (framed (raw :: msgs)) = some (raw, framed msgs) := by
  have hLength := length_framed_cons raw msgs
  have hRead : beField (framed (raw :: msgs)) 0 2 = raw.length := by
    rw [framed_cons, beField_toBytesBe, Nat.mod_eq_of_lt hLt]
  have hDrop : (framed (raw :: msgs)).drop 2 = raw ++ framed msgs := by
    rw [framed_cons, drop_left' (length_toBytesBe 2 _)]
  unfold next
  simp only [hRead]
  rw [if_neg (by omega), if_neg (by omega), ← drop_drop, hDrop, take_left, drop_left]

variable {msgs : List (List UInt8)}

section

variable (h : ∀ raw ∈ msgs, 0 < raw.length ∧ raw.length < 256 ^ 2)
include h

theorem validateBlock_framed : validateBlock msgs.length (framed msgs) = true := by
  induction msgs with
  | nil => rfl
  | cons raw msgs ih =>
    obtain ⟨hPos, hLt⟩ := h raw mem_cons_self
    simp only [length_cons, validateBlock, next_framed msgs hPos hLt]
    exact ih fun raw' hMem => h raw' (mem_cons_of_mem _ hMem)

theorem iterate_framed {calls : Nat} (hCalls : (framed msgs).length ≤ calls) : iterate calls (framed msgs) = msgs := by
  induction msgs generalizing calls with
  | nil =>
    cases calls with
    | zero | succ => rfl
  | cons raw msgs ih =>
    obtain ⟨hPos, hLt⟩ := h raw mem_cons_self
    have hLength := length_framed_cons raw msgs
    cases calls with
    | zero => omega
    | succ calls =>
      simp only [iterate, next_framed msgs hPos hLt]
      rw [ih (fun raw' hMem => h raw' (mem_cons_of_mem _ hMem)) (by omega)]

end

namespace Carries

variable {sequence : UInt64} {msgs : List (List UInt8)} (h : Carries data sequence msgs)
include h

theorem parseHeader : parseHeader data = some ⟨sequence, msgs.length⟩ := by
  rw [MoldUdp64.parseHeader, if_neg (not_lt.mpr h.size), h.sequence_eq, h.count_eq]

theorem validateMessageBlock : validateMessageBlock data msgs.length = true := by
  rw [MoldUdp64.validateMessageBlock, if_neg (not_lt.mpr h.size), h.block_eq]
  exact validateBlock_framed h.lengths

theorem messages : messages data = msgs := by
  have hLength := congrArg List.length h.block_eq
  rw [length_drop] at hLength
  rw [MoldUdp64.messages, h.block_eq]
  exact iterate_framed h.lengths (by omega)

end Carries

def encode (sequence : UInt64) (msgs : List (List UInt8)) : List UInt8 :=
  List.replicate 10 0 ++ (toBytesBe 8 sequence.toNat ++ (toBytesBe 2 msgs.length ++ framed msgs))

theorem encode_carries (sequence : UInt64) (hCount : msgs.length < 256 ^ 2)
    (hLengths : ∀ raw ∈ msgs, 0 < raw.length ∧ raw.length < 256 ^ 2) : Carries (encode sequence msgs) sequence msgs where
  size := by
    simp only [encode, length_append, length_replicate, length_toBytesBe, kHeaderSize]
    omega
  sequence_eq := by
    have hSkip := beField_skip (List.replicate 10 (0 : UInt8))
      (toBytesBe 8 sequence.toNat ++ (toBytesBe 2 msgs.length ++ framed msgs)) 8
    rw [length_replicate] at hSkip
    rw [encode, hSkip, beField_toBytesBe, show 256 ^ 8 = 2 ^ 64 by decide, Nat.mod_eq_of_lt sequence.toNat_lt,
      UInt64.ofNat_toNat]
  count_eq := by
    have hSkip := beField_skip (List.replicate 10 (0 : UInt8) ++ toBytesBe 8 sequence.toNat)
      (toBytesBe 2 msgs.length ++ framed msgs) 2
    rw [length_append, length_replicate, length_toBytesBe, append_assoc] at hSkip
    rw [encode, hSkip, beField_toBytesBe, Nat.mod_eq_of_lt hCount]
  block_eq := by
    rw [encode, ← append_assoc, ← append_assoc, drop_left' (by simp [kHeaderSize])]
  lengths := hLengths

end LuvFlicker.MoldUdp64
