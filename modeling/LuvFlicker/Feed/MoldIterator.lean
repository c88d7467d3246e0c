import LuvFlicker.Feed.MoldUdp64

/-!
# The message iterator of MoldUDP64

`MessageIterator` walks the block by an offset and remembers when it has met a
bad length. It and `validate_message_block` accept the same blocks.
-/

namespace LuvFlicker.MoldUdp64

open Bytes List MoldUdp64

structure MessageIterator where
  offset : Nat := kHeaderSize
  invalid : Bool := false

namespace MessageIterator

def next (data : List UInt8) (it : MessageIterator) : Option (Nat × Nat) × MessageIterator :=
  if it.invalid ∨ it.offset = data.length then (none, it)
  else if it.offset > data.length ∨ data.length - it.offset < 2 then (none, { it with invalid := true })
  else
    let length := beField data it.offset 2
    let offset := it.offset + 2
    if length = 0 ∨ length > data.length - offset then (none, ⟨offset, true⟩)
    else (some (offset, length), ⟨offset + length, it.invalid⟩)

def drain (data : List UInt8) : Nat → MessageIterator → List (Nat × Nat) × MessageIterator
  | 0, it => ([], it)
  | calls + 1, it =>
    match it.next data with
    | (none, it) => ([], it)
    | (some message, it) => let (messages, it) := drain data calls it; (message :: messages, it)

end MessageIterator

open MessageIterator

def bytesOf (data : List UInt8) (message : Nat × Nat) : List UInt8 := (data.drop message.1).take message.2

structure Drained (data : List UInt8) (offset : Nat) (messages : List (Nat × Nat)) (last : MessageIterator) : Prop where
  stopped : (last.next data).1 = none
  accepts : ∀ count, validateBlock count (data.drop offset) = true ↔ messages.length = count ∧ last.invalid = false
  within : ∀ message ∈ messages, offset < message.1 ∧ 0 < message.2 ∧ message.1 + message.2 ≤ data.length
  apart : messages.Pairwise fun a b => a.1 + a.2 ≤ b.1
  framed : last.invalid = false → Bytes.framed (messages.map (bytesOf data)) = data.drop offset

variable {data : List UInt8} {offset : Nat}

theorem next_of_some {raw rest : List UInt8} (hOffset : offset ≤ data.length)
    (h : next (data.drop offset) = some (raw, rest)) :
    (⟨offset, false⟩ : MessageIterator).next data = (some (offset + 2, raw.length), ⟨offset + 2 + raw.length, false⟩) ∧
    raw = bytesOf data (offset + 2, raw.length) ∧ rest = data.drop (offset + 2 + raw.length) ∧
    0 < raw.length ∧ offset + 2 + raw.length ≤ data.length := by
  have hField : beField (data.drop offset) 0 2 = beField data offset 2 := by rw [beField, beField, drop_zero]
  simp only [next, hField, length_drop, drop_drop] at h
  split_ifs at h with hShort hBad
  obtain ⟨rfl, rfl⟩ := Prod.mk.inj (Option.some.inj h)
  have hLength : ((data.drop (offset + 2)).take (beField data offset 2)).length = beField data offset 2 := by
    rw [length_take, length_drop]
    omega
  rw [hLength, MessageIterator.next, if_neg (by simp; omega), if_neg (by dsimp only; omega)]
  rw [if_neg (by omega)]
  exact ⟨rfl, rfl, by rw [add_assoc], by omega, by omega⟩

theorem next_of_none (h : next (data.drop offset) = none) :
    ∃ last, (⟨offset, false⟩ : MessageIterator).next data = (none, last) ∧ (last.next data).1 = none ∧
      (last.invalid = false ↔ offset = data.length) := by
  have hField : beField (data.drop offset) 0 2 = beField data offset 2 := by rw [beField, beField, drop_zero]
  simp only [next, length_drop] at h
  by_cases hEnd : offset = data.length
  · exact ⟨⟨_, _⟩, if_pos (.inr hEnd), by rw [MessageIterator.next, if_pos (.inr hEnd)], by simp [hEnd]⟩
  rw [MessageIterator.next, if_neg (by simp [hEnd])]
  dsimp only
  split_ifs with hShort hBad
  · exact ⟨_, rfl, by simp [MessageIterator.next], by simp [hEnd]⟩
  · exact ⟨_, rfl, by simp [MessageIterator.next], by simp [hEnd]⟩
  · rw [if_neg (by omega), if_neg (by omega)] at h
    cases h

theorem drained (calls : Nat) (hOffset : offset ≤ data.length) (hCalls : data.length - offset < calls) :
    Drained data offset (drain data calls ⟨offset, false⟩).1 (drain data calls ⟨offset, false⟩).2 := by
  induction calls generalizing offset with
  | zero => omega
  | succ calls ih =>
    cases hNext : next (data.drop offset) with
    | none =>
      obtain ⟨_, hLast, hStopped, hInvalid⟩ := next_of_none hNext
      simp only [drain, hLast]
      refine ⟨hStopped, fun count => ?_, nofun, .nil, fun hValid => ?_⟩
      · cases count with
        | zero => simp [validateBlock, hInvalid]; omega
        | succ count => simp [validateBlock, hNext]
      · rw [hInvalid.mp hValid, drop_length]
        rfl
    | some found =>
      obtain ⟨_, _⟩ := found
      obtain ⟨hIt, hRaw, rfl, hPos, hEnd⟩ := next_of_some hOffset hNext
      obtain ⟨hStopped, hAccepts, hWithin, hApart, hFramed⟩ := ih hEnd (by omega)
      simp only [drain, hIt]
      refine ⟨hStopped, fun count => ?_, ?_, .cons (fun m hm => (hWithin m hm).1.le) hApart, fun hValid => ?_⟩
      · cases count with
        | zero => simp [validateBlock]; omega
        | succ count => simp [validateBlock, hNext, hAccepts]
      · intro m hm
        rcases mem_cons.mp hm with rfl | hm
        · exact ⟨by omega, hPos, hEnd⟩
        · obtain ⟨_, hRest⟩ := hWithin m hm
          exact ⟨by omega, hRest⟩
      · rw [map_cons, ← hRaw, framed_cons, hFramed hValid]
        exact (next_eq_some hNext).1.symm

theorem iterate_eq_drain (calls : Nat) (hOffset : offset ≤ data.length) :
    iterate calls (data.drop offset) = (drain data calls ⟨offset, false⟩).1.map (bytesOf data) := by
  induction calls generalizing offset with
  | zero => rfl
  | succ calls ih =>
    rw [iterate, drain]
    cases hNext : next (data.drop offset) with
    | none =>
      obtain ⟨_, hLast, -⟩ := next_of_none hNext
      rw [hLast]
      rfl
    | some found =>
      obtain ⟨_, _⟩ := found
      obtain ⟨hIt, hRaw, rfl, -, hEnd⟩ := next_of_some hOffset hNext
      rw [hIt]
      dsimp only
      rw [map_cons, ← hRaw, ih hEnd]

/-- The messages the feed handles are those the iterator yields. -/
theorem messages_eq_drain (h : kHeaderSize ≤ data.length) :
    messages data = (drain data data.length {}).1.map (bytesOf data) :=
  iterate_eq_drain _ h

/-- **Validation and iteration agree.** The iterator comes to its end, and a block is valid for a count exactly if the
iterator has yielded as many messages without an error; they lie in the block one behind the other, and framed again
they are its bytes. -/
theorem validate_iff_iterate (data : List UInt8) (count : Nat) :
    let messages := (drain data (data.length + 1) {}).1
    let last := (drain data (data.length + 1) {}).2
    (last.next data).1 = none ∧
    (validateMessageBlock data count = true ↔ messages.length = count ∧ last.invalid = false) ∧
    (validateMessageBlock data count = true →
      (∀ message ∈ messages, kHeaderSize < message.1 ∧ 0 < message.2 ∧ message.1 + message.2 ≤ data.length) ∧
      (messages.Pairwise fun a b => a.1 + a.2 ≤ b.1) ∧
      Bytes.framed (messages.map (bytesOf data)) = data.drop kHeaderSize) := by
  by_cases hSize : data.length < kHeaderSize
  · have hNext : (⟨kHeaderSize, false⟩ : MessageIterator).next data = (none, ⟨kHeaderSize, true⟩) := by
      rw [MessageIterator.next, if_neg (by simp; omega), if_pos (.inl hSize)]
    simp only [drain, hNext]
    simp [MessageIterator.next, validateMessageBlock, hSize]
  · obtain ⟨hStopped, hAccepts, hWithin, hApart, hFramed⟩ := drained (data.length + 1) (not_lt.mp hSize) (by omega)
    have hValidate : validateMessageBlock data count = validateBlock count (data.drop kHeaderSize) := if_neg hSize
    rw [hValidate]
    exact ⟨hStopped, hAccepts _, fun h => ⟨hWithin, hApart, hFramed ((hAccepts _).mp h).2⟩⟩

end LuvFlicker.MoldUdp64
