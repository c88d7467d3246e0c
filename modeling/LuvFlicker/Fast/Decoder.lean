import Mathlib.Data.Nat.Bitwise
import Mathlib.Tactic

/-!
# FAST stop-bit decoding

Integers and presence maps come in groups of seven bits, most significant first; the
byte with the high bit set is the last one. The three loops of the decoder differ in
what a group is pushed to.
-/

namespace LuvFlicker.Fast

open List

/-- The loop of all decoders: whether it met a last byte, what was decoded, and the bytes that are left. -/
def stopBitLoop {α : Type} (push : α → UInt8 → α) (out : α) : List UInt8 → Bool × α × List UInt8
  | [] => (false, out, [])
  | b :: rest => if b &&& 0x80 ≠ 0 then (true, push out b, rest) else stopBitLoop push (push out b) rest

def pushUint (out : UInt64) (b : UInt8) : UInt64 := (out <<< 7) ||| (b &&& 0x7F).toUInt64

section

variable (buf : List UInt8)

def decodeUint : Bool × UInt64 × List UInt8 := stopBitLoop pushUint 0 buf

def signBitSet : Bool :=
  match buf with
  | [] => false
  | b :: _ => b &&& 0x40 ≠ 0

def pushInt (out : Int64) (b : UInt8) : Int64 := (out <<< 7) ||| (b &&& 0x7F).toUInt64.toInt64

def decodeInt : Bool × Int64 × List UInt8 :=
  stopBitLoop pushInt (if signBitSet buf then -1 else 0) buf

structure FastPmap where
  bits : UInt32 := 0
  bitCount : UInt8 := 0
  currentBit : UInt8 := 0
  deriving DecidableEq, Repr

/-- `none` where the shift is by the width of the word or more, which has no defined result. -/
def nextBit (pmap : FastPmap) : Option (Bool × FastPmap) :=
  if pmap.currentBit ≥ pmap.bitCount then some (false, pmap)
  else
    let shift := pmap.bitCount.toNat - 1 - pmap.currentBit.toNat
    if shift ≥ 32 then none
    else some (pmap.bits &&& ((1 : UInt32) <<< UInt32.ofNat shift) ≠ 0, { pmap with currentBit := pmap.currentBit + 1 })

def pushGroup (pmap : FastPmap) (b : UInt8) : FastPmap :=
  { pmap with bits := (pmap.bits <<< 7) ||| (b &&& 0x7F).toUInt32, bitCount := pmap.bitCount + 7 }

def decodePmap : Bool × FastPmap × List UInt8 := stopBitLoop pushGroup {} buf

end

def bitAt : Nat → FastPmap → Option Bool
  | 0, pmap => (nextBit pmap).map Prod.fst
  | i + 1, pmap => (nextBit pmap).bind fun step => bitAt i step.2

/-! ## What the bytes stand for -/

/-- The bytes of one encoding: the last one has its high bit set, and no other has. -/
inductive Encoded : List UInt8 → Prop where
  | last {b : UInt8} (hLast : b &&& 0x80 ≠ 0) : Encoded [b]
  | more {b : UInt8} {enc : List UInt8} (hMore : b &&& 0x80 = 0) (hRest : Encoded enc) : Encoded (b :: enc)

def group (b : UInt8) : Nat := (b &&& 0x7F).toNat

/-- The number in base 128 behind `start`. -/
def value (start : Int) (enc : List UInt8) : Int := enc.foldl (fun v b => v * 128 + group b) start

def unsigned (enc : List UInt8) : Nat := enc.foldl (fun v b => v * 128 + group b) 0

/-- The two's complement number of `7 * enc.length` bits. -/
def signed (enc : List UInt8) : Int :=
  if signBitSet enc then (unsigned enc : Int) - 128 ^ enc.length else unsigned enc

/-- Bit `i` as it was transmitted; there are none behind the last byte. -/
def sent (enc : List UInt8) (i : Nat) : Bool := (group (enc.getD (i / 7) 0)).testBit (6 - i % 7)

variable {enc rest buf : List UInt8} {α : Type}

theorem stopBitLoop_encoded {push : α → UInt8 → α} (h : Encoded enc) (out : α) (rest : List UInt8) :
    stopBitLoop push out (enc ++ rest) = (true, enc.foldl push out, rest) := by
  induction h generalizing out with
  | last hLast => exact if_pos hLast
  | more hMore hRest ih =>
    rw [cons_append, stopBitLoop, if_neg (not_not.mpr hMore), ih]
    rfl

variable {push : α → UInt8 → α}

theorem encoded_of_stopBitLoop {out : α}
    (h : (stopBitLoop push out buf).1 = true) : ∃ enc rest, Encoded enc ∧ buf = enc ++ rest := by
  induction buf generalizing out with
  | nil => cases h
  | cons b buf ih =>
    rw [stopBitLoop] at h
    split at h
    · exact ⟨[b], buf, .last ‹_›, rfl⟩
    next hMore =>
      obtain ⟨enc, rest, hEnc, rfl⟩ := ih h
      exact ⟨_, rest, .more (not_not.mp hMore) hEnc, rfl⟩

theorem signBitSet_append (h : Encoded enc) (rest : List UInt8) : signBitSet (enc ++ rest) = signBitSet enc := by
  cases h <;> rfl

/-! ## Integers -/

theorem group_lt (b : UInt8) : group b < 128 := by
  exact lt_of_le_of_lt Nat.and_le_right (by decide)

theorem ofInt_shift_or {w : Nat} (v : Int) (b : UInt8) :
    BitVec.ofInt w v <<< 7 ||| (b &&& 0x7F).toBitVec.setWidth w = BitVec.ofInt w (v * 128 + group b) := by
  have hGroup : (b &&& 0x7F).toBitVec.setWidth w = BitVec.ofNat w (group b) := (BitVec.ofNat_toNat ..).symm
  have hApart : BitVec.ofInt w v <<< 7 &&& BitVec.ofNat w (group b) = 0#w := by
    apply BitVec.eq_of_getLsbD_eq
    intro i _
    simp only [BitVec.getLsbD_and, BitVec.getLsbD_ofNat]
    by_cases h7 : i < 7
    · simp [h7]
    have hBit : (group b).testBit i = false :=
      Nat.testBit_lt_two_pow ((group_lt b).trans_le (Nat.pow_le_pow_right Nat.two_pos (by omega : 7 ≤ i)))
    simp [hBit]
  rw [hGroup, ← BitVec.add_eq_or_of_and_eq_zero _ _ hApart, BitVec.shiftLeft_eq_mul_twoPow, BitVec.ofInt_add,
    BitVec.ofInt_mul]
  congr 1
  congr 1
  apply BitVec.eq_of_toNat_eq
  simp

theorem value_eq (start : Int) (enc : List UInt8) : value start enc = start * 128 ^ enc.length + value 0 enc := by
  induction enc generalizing start with
  | nil => simp [value]
  | cons b enc ih =>
    have hCons : ∀ start, value start (b :: enc) = value (start * 128 + group b) enc := fun _ => rfl
    rw [hCons, hCons, ih, ih (0 * 128 + group b), length_cons]
    ring

theorem value_zero (enc : List UInt8) : value 0 enc = unsigned enc := by
  have hGeneral : ∀ n : Nat, value n enc = (enc.foldl (fun v b => v * 128 + group b) n : Nat) := by
    induction enc with
    | nil => exact fun _ => rfl
    | cons b enc ih =>
      intro n
      exact_mod_cast ih _
  exact hGeneral 0

theorem foldl_ofInt {ofInt : Int → α}
    (hPush : ∀ v b, push (ofInt v) b = ofInt (v * 128 + group b)) (start : Int) (enc : List UInt8) :
    enc.foldl push (ofInt start) = ofInt (value start enc) := by
  induction enc generalizing start with
  | nil => rfl
  | cons b enc ih =>
    rw [foldl_cons, hPush, ih]
    rfl

theorem pushUint_ofInt (v : Int) (b : UInt8) : pushUint ⟨.ofInt 64 v⟩ b = ⟨.ofInt 64 (v * 128 + group b)⟩ :=
  UInt64.toBitVec_inj.mp (ofInt_shift_or v b)

theorem pushInt_ofInt (v : Int) (b : UInt8) : pushInt (.ofInt v) b = .ofInt (v * 128 + group b) :=
  Int64.toBitVec_inj.mp (ofInt_shift_or v b)

theorem decodeUint_encoded (h : Encoded enc) (rest : List UInt8) :
    decodeUint (enc ++ rest) = (true, ⟨.ofInt 64 (unsigned enc)⟩, rest) := by
  rw [decodeUint, stopBitLoop_encoded h, ← value_zero]
  exact congrArg (fun out => (true, out, rest)) (foldl_ofInt pushUint_ofInt 0 enc)

theorem decodeInt_encoded (h : Encoded enc) (rest : List UInt8) :
    decodeInt (enc ++ rest) = (true, .ofInt (signed enc), rest) := by
  have hStart : (if signBitSet enc then -1 else 0 : Int64) = .ofInt (if signBitSet enc then -1 else 0) := by
    split <;> rfl
  have hSigned : value (if signBitSet enc then -1 else 0) enc = signed enc := by
    rw [value_eq, value_zero, signed]
    split <;> ring
  rw [decodeInt, stopBitLoop_encoded h, signBitSet_append h, hStart, foldl_ofInt pushInt_ofInt, hSigned]

/-- `decode_uint` on these bytes: what it returns is the number of the encoding it has taken, and no encoding of a
number that does not fit is taken. -/
structure UintExact (buf : List UInt8) : Prop where
  exact : (decodeUint buf).1 = true → ∃ enc, Encoded enc ∧ buf = enc ++ (decodeUint buf).2.2 ∧
    (decodeUint buf).2.1.toNat = unsigned enc
  rejects : ∀ enc rest, Encoded enc → buf = enc ++ rest → 2 ^ 64 ≤ unsigned enc → (decodeUint buf).1 = false

structure IntExact (buf : List UInt8) : Prop where
  exact : (decodeInt buf).1 = true → ∃ enc, Encoded enc ∧ buf = enc ++ (decodeInt buf).2.2 ∧
    (decodeInt buf).2.1.toInt = signed enc
  rejects : ∀ enc rest, Encoded enc → buf = enc ++ rest → ¬ (-2 ^ 63 ≤ signed enc ∧ signed enc < 2 ^ 63) →
    (decodeInt buf).1 = false

/-- The bytes start with no encoding, or with one of a number that fits. -/
def Starts (P : List UInt8 → Prop) (buf : List UInt8) : Prop := ∀ enc rest, Encoded enc → buf = enc ++ rest → P enc

theorem uintExact_iff : UintExact buf ↔ Starts (fun enc => unsigned enc < 2 ^ 64) buf := by
  constructor
  · rintro h enc rest hEnc rfl
    by_contra hLarge
    have hRejected := h.rejects enc rest hEnc rfl (by omega)
    rw [decodeUint_encoded hEnc] at hRejected
    cases hRejected
  · intro h
    constructor
    · intro hTrue
      obtain ⟨enc, rest, hEnc, rfl⟩ := encoded_of_stopBitLoop hTrue
      refine ⟨enc, hEnc, by rw [decodeUint_encoded hEnc], ?_⟩
      rw [decodeUint_encoded hEnc]
      exact Nat.mod_eq_of_lt (h enc rest hEnc rfl)
    · rintro enc rest hEnc rfl hLarge
      exact absurd (h enc rest hEnc rfl) (by omega)

theorem intExact_iff : IntExact buf ↔ Starts (fun enc => -2 ^ 63 ≤ signed enc ∧ signed enc < 2 ^ 63) buf := by
  constructor
  · rintro h enc rest hEnc rfl
    by_contra hLarge
    have hRejected := h.rejects enc rest hEnc rfl hLarge
    rw [decodeInt_encoded hEnc] at hRejected
    cases hRejected
  intro h
  constructor
  · intro hTrue
    obtain ⟨enc, rest, hEnc, rfl⟩ := encoded_of_stopBitLoop hTrue
    refine ⟨enc, hEnc, by rw [decodeInt_encoded hEnc], ?_⟩
    obtain ⟨hLow, hHigh⟩ := h enc rest hEnc rfl
    rw [decodeInt_encoded hEnc]
    exact Int64.toInt_ofInt_of_le hLow hHigh
  · rintro enc rest hEnc rfl hLarge
    exact absurd (h enc rest hEnc rfl) hLarge

/-- **Stop-bit integers.** Both decoders are exact on just the byte strings that do not start with an encoding of a
number beyond 64 bits. -/
theorem integers_exact_iff (buf : List UInt8) : (UintExact buf ↔ Starts (fun enc => unsigned enc < 2 ^ 64) buf) ∧
    (IntExact buf ↔ Starts (fun enc => -2 ^ 63 ≤ signed enc ∧ signed enc < 2 ^ 63) buf) :=
  ⟨uintExact_iff, intExact_iff⟩

def overlong : List UInt8 := [2, 0, 0, 0, 0, 0, 0, 0, 0, 0x80]

theorem overlong_not_exact : decodeUint overlong = (true, 0, []) ∧ unsigned overlong = 2 ^ 64 ∧
    ¬ UintExact overlong ∧ ¬ IntExact overlong := by
  have hEnc : Encoded overlong := by
    repeat first
      | exact .last (by decide)
      | refine .more (by decide) ?_
  refine ⟨by decide, by decide, fun h => ?_, fun h => ?_⟩
  · exact absurd (uintExact_iff.mp h _ [] hEnc (append_nil _).symm) (by decide)
  · exact absurd (intExact_iff.mp h _ [] hEnc (append_nil _).symm) (by decide)

/-! ## Presence maps -/

theorem foldl_pushGroup (v : Int) (count : UInt8) (enc : List UInt8) : enc.foldl pushGroup ⟨⟨.ofInt 32 v⟩, count, 0⟩ =
      ⟨⟨.ofInt 32 (value v enc)⟩, count + .ofNat (7 * enc.length), 0⟩ := by
  induction enc generalizing v count with
  | nil => simp [value]
  | cons b enc ih =>
    have hPush : pushGroup ⟨⟨.ofInt 32 v⟩, count, 0⟩ b = ⟨⟨.ofInt 32 (v * 128 + group b)⟩, count + 7, 0⟩ := by
      rw [pushGroup]
      congr 1
      exact UInt32.toBitVec_inj.mp (ofInt_shift_or v b)
    rw [foldl_cons, hPush, ih, UInt8.add_assoc, length_cons, Nat.mul_succ, Nat.add_comm, UInt8.ofNat_add]
    rfl

theorem decodePmap_encoded (h : Encoded enc) (rest : List UInt8) :
    decodePmap (enc ++ rest) = (true, ⟨⟨.ofInt 32 (unsigned enc)⟩, .ofNat (7 * enc.length), 0⟩, rest) := by
  have hFold := foldl_pushGroup 0 0 enc
  rw [UInt8.zero_add, value_zero] at hFold
  rw [decodePmap, stopBitLoop_encoded h]
  exact congrArg (fun pmap => (true, pmap, rest)) hFold

theorem and_shift_ne_zero {bits : UInt32} {n : Nat} (h : n < 32) :
    decide (bits &&& ((1 : UInt32) <<< UInt32.ofNat n) ≠ 0) = bits.toNat.testBit n := by
  have hShift : ((1 : UInt32) <<< UInt32.ofNat n).toNat = 2 ^ n := by
    have hPow : 2 ^ n < 2 ^ 32 := Nat.pow_lt_pow_right (by decide) h
    simp only [UInt32.toNat_shiftLeft, UInt32.toNat_ofNat', Nat.shiftLeft_eq, UInt32.toNat_one, one_mul]
    rw [Nat.mod_eq_of_lt (by omega : n < 2 ^ 32), Nat.mod_eq_of_lt h, Nat.mod_eq_of_lt hPow]
  have hAnd : (bits &&& ((1 : UInt32) <<< UInt32.ofNat n)).toNat = (bits.toNat.testBit n).toNat * 2 ^ n := by
    rw [UInt32.toNat_and, hShift, Nat.and_two_pow]
  rw [Bool.eq_iff_iff, decide_eq_true_eq, ne_eq, ← UInt32.toNat_inj, hAnd]
  cases bits.toNat.testBit n <;> simp

theorem bitAt_eq {pmap : FastPmap} (h : pmap.bitCount.toNat ≤ 32) (i : Nat) :
    bitAt i pmap = some (decide (pmap.currentBit.toNat + i < pmap.bitCount.toNat) &&
      pmap.bits.toNat.testBit (pmap.bitCount.toNat - 1 - (pmap.currentBit.toNat + i))) := by
  by_cases hEnd : pmap.currentBit ≥ pmap.bitCount
  · -- past the last bit the map does not change any more
    have hAll : ∀ i, bitAt i pmap = some false := by
      intro i
      induction i with
      | zero => simp [bitAt, nextBit, hEnd]
      | succ i ih => simp [bitAt, nextBit, hEnd, ih]
    have hLe : pmap.bitCount.toNat ≤ pmap.currentBit.toNat := UInt8.le_iff_toNat_le.mp hEnd
    rw [hAll, decide_eq_false (by omega), Bool.false_and]
  · have hLt : pmap.currentBit.toNat < pmap.bitCount.toNat := UInt8.lt_iff_toNat_lt.mp (UInt8.not_le.mp hEnd)
    have hNext : nextBit pmap = some (pmap.bits.toNat.testBit (pmap.bitCount.toNat - 1 - pmap.currentBit.toNat),
        { pmap with currentBit := pmap.currentBit + 1 }) := by
      rw [nextBit, if_neg hEnd, if_neg (by omega), and_shift_ne_zero (by omega)]
    have hSucc : (pmap.currentBit + 1).toNat = pmap.currentBit.toNat + 1 := by
      rw [UInt8.toNat_add, UInt8.toNat_one, Nat.mod_eq_of_lt (by omega)]
    cases i with
    | zero => simp [bitAt, hNext, hLt]
    | succ i => rw [bitAt, hNext, Option.bind_some, bitAt_eq (by exact h), hSucc, add_right_comm, add_assoc]

theorem unsigned_cons (b : UInt8) (enc : List UInt8) :
    unsigned (b :: enc) = 2 ^ (7 * enc.length) * group b + unsigned enc := by
  have hCons : value 0 (b :: enc) = value (0 * 128 + group b) enc := rfl
  rw [value_eq (0 * 128 + group b), value_zero, value_zero, zero_mul, zero_add] at hCons
  rw [Nat.pow_mul, mul_comm]
  exact_mod_cast hCons

theorem unsigned_lt (enc : List UInt8) : unsigned enc < 2 ^ (7 * enc.length) := by
  induction enc with
  | nil => decide
  | cons b enc ih =>
    have hGroup := group_lt b
    rw [unsigned_cons, length_cons, Nat.mul_succ, pow_add]
    calc
      _ < 2 ^ (7 * enc.length) * group b + 2 ^ (7 * enc.length) := by omega
      _ = 2 ^ (7 * enc.length) * (group b + 1) := by ring
      _ ≤ _ := Nat.mul_le_mul_left _ hGroup

theorem sent_of_le {i : Nat} (h : 7 * enc.length ≤ i) : sent enc i = false := by
  rw [sent, getD_eq_getElem?_getD, getElem?_eq_none (by omega)]
  exact Nat.zero_testBit _

theorem testBit_unsigned (enc : List UInt8) {i : Nat} (h : i < 7 * enc.length) :
    (unsigned enc).testBit (7 * enc.length - 1 - i) = sent enc i := by
  induction enc generalizing i with
  | nil => exact absurd h (Nat.not_lt_zero i)
  | cons b enc ih =>
    rw [unsigned_cons, Nat.testBit_two_pow_mul_add _ (unsigned_lt enc), length_cons]
    rw [length_cons] at h
    by_cases hFirst : i < 7
    · rw [if_neg (by omega), sent, Nat.div_eq_of_lt hFirst]
      congr 1
      omega
    · rw [if_pos (by omega), show 7 * (enc.length + 1) - 1 - i = 7 * enc.length - 1 - (i - 7) by omega, ih (by omega),
        sent, sent, show i / 7 = (i - 7) / 7 + 1 by omega, getD_cons_succ, show i % 7 = (i - 7) % 7 by omega]

/-- The map of these bytes, if there is one, is read back bit by bit, and no bit follows. -/
def PmapExact (buf : List UInt8) : Prop :=
  (decodePmap buf).1 = true → ∃ enc, Encoded enc ∧ buf = enc ++ (decodePmap buf).2.2 ∧
    ∀ i, bitAt i (decodePmap buf).2.1 = some (sent enc i)

/-- At most four bytes; or a map without a bit that is set, of a length that leaves few enough in the counter. -/
def Readable (enc : List UInt8) : Prop := enc.length ≤ 4 ∨ 7 * enc.length % 256 ≤ 32 ∧ ∀ b ∈ enc, group b = 0

theorem toNat_bitCount (enc : List UInt8) : (UInt8.ofNat (7 * enc.length)).toNat = 7 * enc.length % 256 := rfl

theorem toNat_bits (enc : List UInt8) : (⟨.ofInt 32 (unsigned enc)⟩ : UInt32).toNat = unsigned enc % 2 ^ 32 := by
  rfl

theorem bitAt_encoded {c : Nat} (hc : 7 * enc.length % 256 = c) (h : c ≤ 32) (i : Nat) :
    bitAt i ⟨⟨.ofInt 32 (unsigned enc)⟩, .ofNat (7 * enc.length), 0⟩ =
      some (decide (i < c) && (unsigned enc).testBit (c - 1 - i)) := by
  have hCount := (toNat_bitCount enc).trans hc
  rw [bitAt_eq (hCount.trans_le h), toNat_bits, hCount, UInt8.toNat_zero, zero_add, Nat.testBit_mod_two_pow,
    decide_eq_true (show c - 1 - i < 32 by omega), Bool.true_and]

theorem testBit_last {c i : Nat} (h : c ≤ 7 * enc.length) (hi : i < c) :
    (unsigned enc).testBit (c - 1 - i) = sent enc (7 * enc.length - c + i) := by
  rw [← testBit_unsigned enc (by omega)]
  congr 1
  omega

theorem group_eq_zero_of_sent (h : ∀ i, sent enc i = false) : ∀ b ∈ enc, group b = 0 := by
  intro b hMem
  obtain ⟨k, hk, rfl⟩ := getElem_of_mem hMem
  apply Nat.eq_of_testBit_eq
  intro j
  rw [Nat.zero_testBit]
  by_cases hj : j < 7
  · have hSent := h (7 * k + (6 - j))
    rw [sent, show (7 * k + (6 - j)) / 7 = k by omega, show 6 - (7 * k + (6 - j)) % 7 = j by omega,
      getD_eq_getElem _ _ hk] at hSent
    exact hSent
  · exact Nat.testBit_lt_two_pow ((group_lt _).trans_le (Nat.pow_le_pow_right Nat.two_pos (by omega : 7 ≤ j)))

theorem sent_eq_false (h : ∀ b ∈ enc, group b = 0) (i : Nat) : sent enc i = false := by
  rw [sent, getD_eq_getElem?_getD]
  cases hGet : enc[i / 7]? with
  | none => exact Nat.zero_testBit _
  | some b =>
    rw [Option.getD_some, h b (mem_of_getElem? hGet)]
    exact Nat.zero_testBit _

/-- The counter runs over at 256: what is left of it counts the last bits, which come before all others then. -/
theorem readable_of_bitAt
    (h : ∀ i, bitAt i ⟨⟨.ofInt 32 (unsigned enc)⟩, .ofNat (7 * enc.length), 0⟩ = some (sent enc i)) : Readable enc := by
  by_cases hShort : enc.length ≤ 4
  · exact .inl hShort
  obtain ⟨c, hc⟩ : ∃ c, 7 * enc.length % 256 = c := ⟨_, rfl⟩
  by_cases hFew : c ≤ 32
  · have hSent : ∀ i, (decide (i < c) && (unsigned enc).testBit (c - 1 - i)) = sent enc i := by
      intro i
      exact Option.some.inj ((bitAt_encoded hc hFew i).symm.trans (h i))
    have hTail : ∀ i, c ≤ i → sent enc i = false := by
      intro i hi
      rw [← hSent i, decide_eq_false (by omega), Bool.false_and]
    refine .inr ⟨hc ▸ hFew, group_eq_zero_of_sent fun i => ?_⟩
    by_cases hi : i < c
    · rw [← hSent i, testBit_last (by omega) hi, hTail _ (by omega), Bool.and_false]
    · exact hTail i (by omega)
  · have hNone := h 0
    have hCount := (toNat_bitCount enc).trans hc
    have hStart : ¬ (0 : UInt8) ≥ .ofNat (7 * enc.length) := by
      rw [ge_iff_le, UInt8.le_iff_toNat_le, UInt8.toNat_zero]
      omega
    rw [bitAt, nextBit, if_neg hStart, if_pos (by rw [hCount, UInt8.toNat_zero]; omega)] at hNone
    cases hNone

/-- **Presence maps.** A map is read back exactly if it has at most four bytes, or no bit set and a length for which
the counter, which runs over at 256, is left with at most 32 bits. -/
theorem pmap_exact_iff (buf : List UInt8) : PmapExact buf ↔ Starts Readable buf := by
  constructor
  · rintro h enc rest hEnc rfl
    rw [PmapExact, decodePmap_encoded hEnc] at h
    obtain ⟨_, -, hEq, hBits⟩ := h rfl
    obtain rfl := append_cancel_right hEq
    exact readable_of_bitAt hBits
  intro h hTrue
  obtain ⟨enc, rest, hEnc, rfl⟩ := encoded_of_stopBitLoop hTrue
  rw [decodePmap_encoded hEnc]
  refine ⟨enc, hEnc, rfl, fun i => ?_⟩
  rcases h enc rest hEnc rfl with _ | ⟨hFew, hZero⟩
  · have hCount : 7 * enc.length < 256 := by omega
    rw [bitAt_encoded (Nat.mod_eq_of_lt hCount) (by omega)]
    by_cases hi : i < 7 * enc.length
    · rw [testBit_unsigned enc hi, decide_eq_true hi, Bool.true_and]
    · rw [decide_eq_false hi, Bool.false_and, sent_of_le (by omega)]
  · rw [bitAt_encoded rfl hFew, sent_eq_false hZero]
    by_cases hi : i < 7 * enc.length % 256
    · rw [testBit_last (Nat.mod_le ..) hi, sent_eq_false hZero, Bool.and_false]
    · rw [decide_eq_false hi, Bool.false_and]

def fiveBytes : List UInt8 := [0x40, 0, 0, 0, 0x80]

theorem fiveBytes_undefined : (decodePmap fiveBytes).1 = true ∧ bitAt 0 (decodePmap fiveBytes).2.1 = none ∧
    ¬ PmapExact fiveBytes := by
  refine ⟨by decide, by decide, fun h => ?_⟩
  obtain ⟨_, -, -, hBits⟩ := h (by decide)
  exact absurd (hBits 0) (by exact nofun)

end LuvFlicker.Fast
