import LuvFlicker.Ws.Frames

/-!
# Close reasons are UTF-8

`valid_utf8` accepts exactly the encodings of sequences of Unicode scalar values.
It reads the text by index; no index it reads is at or behind the given size.
-/

namespace LuvFlicker.Ws

open List UInt8 Option

open String (utf8EncodeChar)

/-! ## Bits of a byte -/

theorem forall_byte {P : UInt8 → Prop} (h : ∀ n < 256, P (UInt8.ofNat n)) (b : UInt8) : P b := by
  have hByte := h _ b.toNat_lt
  rwa [UInt8.ofNat_toNat] at hByte

theorem next_bits (b : UInt8) : (b &&& 0x3F).toNat = b.toNat % 64 ∧ (b &&& 0xC0 = 0x80 ↔ b.toNat / 64 = 2) := by
  revert b
  exact forall_byte (by decide +kernel)

theorem continueCodePoint_nil (bits : Nat) : continueCodePoint bits [] = some bits := rfl

theorem continueCodePoint_cons (bits : Nat) (next : UInt8) (rest : List UInt8) : continueCodePoint bits (next :: rest) =
      if next.toNat / 64 = 2 then continueCodePoint (bits * 64 + next.toNat % 64) rest else none := by
  obtain ⟨hLow, hNext⟩ := next_bits next
  have hSum : bits <<< 6 ||| next.toNat % 64 = bits * 64 + next.toNat % 64 :=
    (Nat.shiftLeft_add_eq_or_of_lt (Nat.mod_lt _ (by decide)) bits).symm.trans (by rw [Nat.shiftLeft_eq])
  rw [continueCodePoint, ite_not, hLow, hSum]
  exact if_congr hNext rfl rfl

theorem validCodePoint_iff {minimum : Nat} {codePoint : Option Nat} :
    validCodePoint minimum codePoint = true ↔ ∃ c : Char, minimum ≤ c.toNat ∧ codePoint = some c.toNat := by
  cases codePoint with
  | none => exact iff_of_false Bool.false_ne_true nofun
  | some codePoint =>
    rw [validCodePoint, decide_eq_true_iff]
    constructor
    · intro h
      have hValid : codePoint.isValidChar := by omega
      exact ⟨Char.ofNatAux _ hValid, by change minimum ≤ codePoint; omega, rfl⟩
    · rintro ⟨c, _, hPoint⟩
      have hValid : c.toNat < 0xD800 ∨ 0xDFFF < c.toNat ∧ c.toNat < 0x110000 := c.valid
      cases hPoint
      omega

/-! ## One character -/

/-- The branches on the first byte: the bits it carries, the number of bytes to follow, the least code point. -/
def leadOf (first : UInt8) : Option (Nat × Nat × Nat) :=
  if first &&& 0xE0 = 0xC0 then some ((first &&& 0x1F).toNat, 1, 0x80)
  else if first &&& 0xF0 = 0xE0 then some ((first &&& 0x0F).toNat, 2, 0x800)
  else if first &&& 0xF8 = 0xF0 then some ((first &&& 0x07).toNat, 3, 0x10000)
  else none

theorem leadOf_eq (first : UInt8) : leadOf first = if first.toNat / 32 = 6 then some (first.toNat % 32, 1, 0x80)
      else if first.toNat / 16 = 14 then some (first.toNat % 16, 2, 0x800)
      else if first.toNat / 8 = 30 then some (first.toNat % 8, 3, 0x10000)
      else none := by
  revert first
  exact forall_byte (by decide +kernel)

variable {c : Char} {first : UInt8} {rest more : List UInt8} {bits count minimum : Nat}

theorem encode_one_iff : utf8EncodeChar c = [first] ↔ first.toNat ≤ 127 ∧ c.toNat = first.toNat := by
  unfold utf8EncodeChar
  simp only [Char.toNat]
  split_ifs <;>
    simp only [cons.injEq, reduceCtorEq, and_true, and_false, false_iff, ← UInt8.toNat_inj, UInt8.toNat_ofNat'] <;>
    omega

theorem encode_iff (hLead : leadOf first = some (bits, count, minimum)) (hMore : more.length = count) :
    utf8EncodeChar c = first :: more ↔ minimum ≤ c.toNat ∧ continueCodePoint bits more = some c.toNat := by
  have hValid := c.valid
  rw [leadOf_eq] at hLead
  unfold utf8EncodeChar
  simp only [Char.toNat] at hValid ⊢
  split_ifs at hLead <;> cases hLead
  on_goal 1 => obtain ⟨a, rfl⟩ := length_eq_one_iff.mp hMore
  on_goal 2 => obtain ⟨a, b, rfl⟩ := length_eq_two.mp hMore
  on_goal 3 => obtain ⟨a, b, d, rfl⟩ := length_eq_three.mp hMore
  all_goals
    simp only [continueCodePoint_cons, continueCodePoint_nil]
    split_ifs <;>
      simp only [cons.injEq, reduceCtorEq, and_true, and_false, false_iff, iff_false, ← UInt8.toNat_inj,
        UInt8.toNat_ofNat', Option.some.injEq] <;>
      omega

theorem encode_cases (c : Char) : (∃ first, utf8EncodeChar c = [first]) ∨
    ∃ first more lead, utf8EncodeChar c = first :: more ∧ leadOf first = some lead ∧ more.length = lead.2.1 := by
  have hValid := c.valid
  unfold utf8EncodeChar
  simp only at hValid ⊢
  split_ifs
  · exact .inl ⟨_, rfl⟩
  · refine .inr ⟨_, _, _, rfl, (leadOf_eq _).trans (if_pos ?_), rfl⟩
    rw [toNat_ofNat']
    omega
  · refine .inr ⟨_, _, _, rfl, (leadOf_eq _).trans ((if_neg ?_).trans (if_pos ?_)), rfl⟩ <;>
      rw [toNat_ofNat'] <;> omega
  · refine .inr ⟨_, _, _, rfl, (leadOf_eq _).trans ((if_neg ?_).trans ((if_neg ?_).trans (if_pos ?_))), rfl⟩ <;>
      rw [toNat_ofNat'] <;> omega

/-! ## Whole texts -/

theorem validUtf8_cons (first : UInt8) (rest : List UInt8) : validUtf8 (first :: rest) =
      if first ≤ 0x7F then validUtf8 rest
      else
        match leadOf first with
        | none => false
        | some (bits, count, minimum) =>
          if count > rest.length then false
          else validCodePoint minimum (continueCodePoint bits (rest.take count)) && validUtf8 (rest.drop count) := by
  rw [validUtf8.eq_def, leadOf]
  dsimp only
  split
  · rfl
  split
  · rcases rest with _ | ⟨a, rest⟩ <;> rfl
  split
  · rcases rest with _ | ⟨a, _ | ⟨b, rest⟩⟩ <;> rfl
  split
  · rcases rest with _ | ⟨a, _ | ⟨b, _ | ⟨c, rest⟩⟩⟩ <;> rfl
  · rfl

theorem exists_char_of_validUtf8 (h : validUtf8 (first :: rest) = true) :
    ∃ c tail, first :: rest = utf8EncodeChar c ++ tail ∧ validUtf8 tail = true := by
  rw [validUtf8_cons] at h
  split at h
  next hAscii =>
    have hAscii : first.toNat ≤ 127 := le_iff_toNat_le.mp hAscii
    refine ⟨Char.ofNatAux first.toNat (.inl (by omega)), rest, ?_, h⟩
    rw [encode_one_iff.mpr ⟨hAscii, rfl⟩, singleton_append]
  split at h
  · cases h
  rename_i hLead
  split at h
  · cases h
  rename_i hRest
  obtain ⟨hPoint, hTail⟩ := Bool.and_eq_true_iff.mp h
  obtain ⟨c, hc⟩ := validCodePoint_iff.mp hPoint
  have hEncode := (encode_iff hLead (length_take_of_le (not_lt.mp hRest))).mpr hc
  exact ⟨c, _, by rw [hEncode, cons_append, take_append_drop], hTail⟩

theorem validUtf8_encode_append (c : Char) (tail : List UInt8) :
    validUtf8 (utf8EncodeChar c ++ tail) = validUtf8 tail := by
  obtain ⟨first, hBytes⟩ | ⟨first, more, ⟨bits, count, minimum⟩, hBytes, hLead, hMore⟩ := encode_cases c
  · have hAscii : first.toNat ≤ 127 := (encode_one_iff.mp hBytes).1
    rw [hBytes, singleton_append, validUtf8_cons, if_pos (le_iff_toNat_le.mpr hAscii)]
  have hPoint := validCodePoint_iff.mpr ⟨c, (encode_iff hLead hMore).mp hBytes⟩
  have hLong : ¬ first ≤ 0x7F := by
    rw [leadOf_eq] at hLead
    change ¬ first.toNat ≤ 127
    split_ifs at hLead <;> omega
  rw [hBytes, cons_append, validUtf8_cons, if_neg hLong, hLead]
  dsimp only at hMore ⊢
  rw [← hMore, take_left, drop_left, length_append, if_neg (by omega), hPoint, Bool.true_and]

theorem validUtf8_iff (text : List UInt8) :
    validUtf8 text = true ↔ ∃ chars : List Char, text = chars.flatMap utf8EncodeChar := by
  constructor
  · intro h
    induction hSize : text.length using Nat.strong_induction_on generalizing text with
    | h size ih =>
      cases text with
      | nil => exact ⟨[], rfl⟩
      | cons first rest =>
        obtain ⟨c, tail, hText, hTail⟩ := exists_char_of_validUtf8 h
        have hLength := congrArg length hText
        rw [length_append, String.length_utf8EncodeChar] at hLength
        have hPos := c.utf8Size_pos
        obtain ⟨chars, rfl⟩ := ih _ (by omega) tail hTail rfl
        exact ⟨c :: chars, hText⟩
  · rintro ⟨chars, rfl⟩
    induction chars with
    | nil => rfl
    | cons c chars ih => rw [flatMap_cons, validUtf8_encode_append, ih]

/-! ## The reads -/

/-- `none` is a read at or behind the size. -/
def readCodePoint (text : List UInt8) : Nat → Nat → Nat → Option (Option Nat)
  | 0, _, bits => some (some bits)
  | count + 1, offset, bits => do
    let next ← text[offset]?
    if next &&& 0xC0 ≠ 0x80 then return none
    readCodePoint text count (offset + 1) (bits <<< 6 ||| (next &&& 0x3F).toNat)

def validUtf8At (text : List UInt8) : Nat → Nat → Option Bool
  | 0, _ => none
  | fuel + 1, offset => do
    if offset ≥ text.length then return true
    let first ← text[offset]?
    if first ≤ 0x7F then validUtf8At text fuel (offset + 1)
    else
      match leadOf first with
      | none => return false
      | some (bits, count, minimum) =>
        if offset + 1 + count > text.length then return false
        let codePoint ← readCodePoint text count (offset + 1) bits
        if validCodePoint minimum codePoint then validUtf8At text fuel (offset + 1 + count) else return false

variable {text : List UInt8}

theorem readCodePoint_eq {count offset : Nat} (h : offset + count ≤ text.length) (bits : Nat) :
    readCodePoint text count offset bits = some (continueCodePoint bits ((text.drop offset).take count)) := by
  induction count generalizing offset bits with
  | zero => rfl
  | succ count ih =>
    have hOffset : offset < text.length := by omega
    rw [drop_eq_getElem_cons hOffset, take_succ_cons, readCodePoint, continueCodePoint,
      getElem?_eq_getElem _, bind_eq_bind, bind_some]
    split
    · rfl
    · exact ih (by omega) _

theorem validUtf8At_eq {fuel offset : Nat} (hOffset : offset ≤ text.length)
    (hFuel : text.length < offset + fuel) : validUtf8At text fuel offset = some (validUtf8 (text.drop offset)) := by
  induction fuel generalizing offset with
  | zero => omega
  | succ fuel ih =>
    rw [validUtf8At]
    split
    next hEnd =>
      rw [drop_eq_nil_of_le hEnd]
      rfl
    rename_i hMore
    have hMore : offset < text.length := not_le.mp hMore
    rw [drop_eq_getElem_cons hMore, validUtf8_cons, getElem?_eq_getElem hMore, bind_eq_bind, bind_some]
    split
    · exact ih hMore (by omega)
    cases leadOf text[offset] with
    | none => rfl
    | some lead =>
      obtain ⟨_, _, _⟩ := lead
      dsimp only
      rw [length_drop]
      split
      · rw [if_pos (by omega)]
        rfl
      rw [if_neg (by omega), readCodePoint_eq (by omega), bind_eq_bind, bind_some, drop_drop]
      split
      next hPoint =>
        rw [hPoint]
        exact ih (by omega) (by omega)
      next hPoint =>
        rw [Bool.eq_false_iff.mpr hPoint]
        rfl

/-- The reader stays within the text and accepts exactly the encodings of scalar values. -/
theorem validUtf8_exact (text : List UInt8) : validUtf8At text (text.length + 1) 0 = some (validUtf8 text) ∧
      (validUtf8 text = true ↔ ∃ chars : List Char, text = chars.flatMap utf8EncodeChar) :=
  ⟨validUtf8At_eq (Nat.zero_le _) (by omega), validUtf8_iff text⟩

end LuvFlicker.Ws
