import LuvFlicker.Lib.Decimal
import LuvFlicker.Ws.Fanout

/-!
# Fills as JSON texts

A reader of flat JSON objects gets the values of a fill back from its text.
-/

namespace LuvFlicker.Ws.Fill

open Bytes List Decimal

/-- The digit loop of `append_unsigned`, with the places left in its array. There is no result behind the array. -/
def reversedDigits : Nat → Nat → Option (List UInt8)
  | 0, _ => none
  | room + 1, value =>
    if value / 10 = 0 then some [.ofNat (48 + value % 10)]
    else (reversedDigits room (value / 10)).map (.ofNat (48 + value % 10) :: ·)

/-! ## JSON -/

inductive Json where
  | number (i : Int)
  | string (s : List UInt8)

/-- An integer behind its sign. A number of several digits does not begin with a zero. -/
def readNumber (sign : Int) (text : List UInt8) : Option (Json × List UInt8) :=
  let digits := text.takeWhile isDigit
  if digits = [] ∨ digits.head? = some 48 ∧ digits ≠ [48] then none
  else some (.number (sign * value 0 digits), text.dropWhile isDigit)

def isPlain (byte : UInt8) : Bool := byte ≠ 34 ∧ byte ≠ 92 ∧ 32 ≤ byte

def readString (text : List UInt8) : Option (List UInt8 × List UInt8) :=
  match text.dropWhile isPlain with
  | 34 :: rest => some (text.takeWhile isPlain, rest)
  | _ => none

def readValue : List UInt8 → Option (Json × List UInt8)
  | 34 :: rest => (readString rest).map fun read => (.string read.1, read.2)
  | 45 :: rest => readNumber (-1) rest
  | text => readNumber 1 text

def readMembers : Nat → List UInt8 → Option (List (List UInt8 × Json))
  | 0, _ => none
  | fuel + 1, text =>
    match text with
    | 34 :: text =>
      match readString text with
      | some (name, 58 :: text) =>
        match readValue text with
        | some (read, [125]) => some [(name, read)]
        | some (read, 44 :: text) => (readMembers fuel text).map ((name, read) :: ·)
        | _ => none
      | _ => none
    | _ => none

def readObject : List UInt8 → Option (List (List UInt8 × Json))
  | 123 :: text => readMembers text.length text
  | _ => none

def members (fill : Fill) : List (List UInt8 × Json) :=
  [(ascii "event", .string (ascii "fill")), (ascii "order_id", .number fill.orderId.toNat),
    (ascii "filled_qty", .number fill.filledQty.toInt), (ascii "fill_price", .number fill.fillPrice.toInt),
    (ascii "timestamp_ns", .number fill.timestampNs.toNat)]

/-! ## Numbers -/

theorem unsignedText_eq (value : Nat) : unsignedText value =
    (if value / 10 = 0 then [] else unsignedText (value / 10)) ++ [.ofNat (48 + value % 10)] := by
  have hDigit : UInt8.ofNat (Nat.digitChar (value % 10)).toNat = .ofNat (48 + value % 10) := by
    have hLt : value % 10 < 10 := Nat.mod_lt _ (by decide)
    generalize value % 10 = d at hLt
    interval_cases d <;> rfl
  split
  next hSmall =>
    rw [unsignedText, Nat.toDigits_of_lt_base (by omega), ← hDigit, Nat.mod_eq_of_lt (by omega)]
    rfl
  next hLarge =>
    rw [unsignedText, Nat.toDigits_of_base_le (by decide) (by omega), map_append, ← hDigit]
    rfl

theorem reversedDigits_eq {room : Nat} (hRoom : 0 < room) {value : Nat} (h : value < 10 ^ room) :
    reversedDigits room value = some (unsignedText value).reverse := by
  induction room generalizing value with
  | zero => cases hRoom
  | succ room ih =>
    rw [reversedDigits, unsignedText_eq]
    split
    · rfl
    next hLarge =>
      have hLess : value / 10 < 10 ^ room := Nat.div_lt_of_lt_mul (Nat.pow_succ' ▸ h)
      have hMore : 0 < room := Nat.pos_of_ne_zero fun hZero => hLarge (by rw [hZero] at hLess; omega)
      rw [ih hMore hLess, reverse_append]
      rfl

theorem unsignedText_cons (value : Nat) : ∃ d ds, unsignedText value = d :: ds ∧ (d = 48 → ds = []) := by
  induction value using Nat.strong_induction_on with
  | _ value ih =>
    rw [unsignedText_eq]
    split
    · exact ⟨_, [], rfl, fun _ => rfl⟩
    next hLarge =>
      obtain ⟨d, ds, hText, hZero⟩ := ih (value / 10) (by omega)
      refine ⟨d, _, by rw [hText]; rfl, fun hd => absurd ?_ hLarge⟩
      rw [← value_text (value / 10)]
      exact (congrArg _ hText).trans (by rw [hd, hZero hd]; rfl)

section Read

variable {byte : UInt8} (hByte : isDigit byte = false) (rest : List UInt8)

include hByte

theorem readNumber_text (sign : Int) (n : Nat) :
    readNumber sign (unsignedText n ++ byte :: rest) = some (.number (sign * n), byte :: rest) := by
  have hDigits (b : UInt8) (hb : b ∈ unsignedText n) : isDigit b = true := isDigit_of_mem_text (n := n) hb
  have hTake : (unsignedText n ++ byte :: rest).takeWhile isDigit = unsignedText n := by
    rw [takeWhile_append_of_pos hDigits, takeWhile_cons_of_neg (by simp [hByte]), append_nil]
  have hDrop : (unsignedText n ++ byte :: rest).dropWhile isDigit = byte :: rest := by
    rw [dropWhile_append_of_pos hDigits, dropWhile_cons_of_neg (by simp [hByte])]
  obtain ⟨d, _, hText, hZero⟩ := unsignedText_cons n
  rw [readNumber, hTake, hDrop, if_neg, show value 0 (unsignedText n) = n from value_text n]
  rw [hText]
  rintro (hNil | ⟨hHead, hMore⟩)
  · cases hNil
  · obtain rfl := Option.some.inj hHead
    exact hMore (by rw [hZero rfl])

theorem readValue_text (n : Nat) : readValue (unsignedText n ++ byte :: rest) = some (.number n, byte :: rest) := by
  have hNumber := readNumber_text hByte rest 1 n
  rw [one_mul] at hNumber
  obtain ⟨d, _, hText, -⟩ := unsignedText_cons n
  have hDigit : isDigit d = true := isDigit_of_mem_text (n := n) (show d ∈ unsignedText n by simp [hText])
  rw [hText] at hNumber ⊢
  unfold readValue
  split
  next hEq => cases (List.cons.inj hEq).1 ▸ hDigit
  next hEq => cases (List.cons.inj hEq).1 ▸ hDigit
  · exact hNumber

theorem readValue_signed (v : BitVec 64) :
    readValue ((signedText v).flatten ++ byte :: rest) = some (.number v.toInt, byte :: rest) := by
  have hInt := v.toInt_eq_toNat_cond
  rw [signedText]
  split
  next hPos =>
    have hSame : (v.toNat : Int) = v.toInt := by split at hInt <;> omega
    rw [flatten_singleton, readValue_text hByte, hSame]
  next hNeg =>
    have hSame : -1 * ((0 - v).toNat : Int) = v.toInt := by
      rw [BitVec.toNat_sub, show BitVec.toNat (0 : BitVec 64) = 0 from rfl]
      split at hInt <;> omega
    rw [flatten_cons, flatten_singleton, ← hSame]
    exact readNumber_text hByte rest (-1) _

end Read

/-! ## Objects -/

theorem readString_name {name : List UInt8} (h : ∀ b ∈ name, isPlain b = true) (rest : List UInt8) :
    readString (name ++ 34 :: rest) = some (name, rest) := by
  rw [readString, dropWhile_append_of_pos h, takeWhile_append_of_pos h]
  simp [isPlain]

def member (name : String) (val rest : List UInt8) : List UInt8 := 34 :: (ascii name ++ 34 :: 58 :: (val ++ rest))

theorem readMembers_member {name : String} {val rest : List UInt8} {read : Json}
    (hName : (ascii name).all isPlain = true) (hValue : readValue (val ++ 44 :: rest) = some (read, 44 :: rest))
    (fuel : Nat) : readMembers (fuel + 1) (member name val (44 :: rest)) =
      (readMembers fuel rest).map ((ascii name, read) :: ·) := by
  simp [readMembers, member, readString_name (all_eq_true.mp hName), hValue]

theorem flatten_pieces (fill : Fill) : fill.pieces.flatten = 123 :: member "event" (34 :: (ascii "fill" ++ [34]))
    (44 :: member "order_id" (unsignedText fill.orderId.toNat)
      (44 :: member "filled_qty" (signedText fill.filledQty).flatten
        (44 :: member "fill_price" (signedText fill.fillPrice).flatten
          (44 :: member "timestamp_ns" (unsignedText fill.timestampNs.toNat) [125])))) := by
  simp [pieces, member, ascii]

theorem readObject_pieces (fill : Fill) : readObject fill.pieces.flatten = some fill.members := by
  have hFill (rest : List UInt8) : readValue (34 :: (ascii "fill" ++ [34]) ++ rest) =
    some (.string (ascii "fill"), rest) := by
    rfl
  have hComma : isDigit 44 = false := rfl
  rw [flatten_pieces, readObject]
  change readMembers (_ + 5) _ = _
  rw [readMembers_member (by decide) (hFill _), readMembers_member (by decide) (readValue_text hComma _ _),
    readMembers_member (by decide) (readValue_signed hComma _ _),
    readMembers_member (by decide) (readValue_signed hComma _ _)]
  simp only [readMembers, member, readString_name (all_eq_true.mp (by decide : (ascii "timestamp_ns").all _ = true)),
    readValue_text (show isDigit 125 = false from rfl)]
  rfl

/-- **Fills as JSON.** The text of a fill fits its array and is an object with the values of the fill, so different fills
have different texts; and the digits of a number fit the array they are collected in. -/
theorem fillText_exact :
    (∀ fill : Fill, ∃ text, fill.formatFillJson 256 = some text ∧ text.length ≤ 256 ∧
      readObject text = some fill.members) ∧
    (∀ fill fill' : Fill, fill.formatFillJson 256 = fill'.formatFillJson 256 → fill = fill') ∧
    ∀ value : UInt64, reversedDigits 20 value.toNat = some (unsignedText value.toNat).reverse := by
  refine ⟨fun fill => ?_, fun fill fill' hSame => ?_, fun value => ?_⟩
  · exact ⟨_, fill.formatFillJson_eq, fill.length_pieces.2.trans (by decide), fill.readObject_pieces⟩
  · rw [fill.formatFillJson_eq, fill'.formatFillJson_eq] at hSame
    have hRead := fill.readObject_pieces
    rw [Option.some.inj hSame, fill'.readObject_pieces] at hRead
    obtain ⟨_, _, _, _⟩ := fill
    obtain ⟨_, _, _, _⟩ := fill'
    simp only [members, Option.some.injEq, List.cons.injEq, Prod.mk.injEq, Json.number.injEq, Nat.cast_inj,
      UInt64.toNat_inj, BitVec.toInt_inj, true_and, and_true] at hRead
    obtain ⟨rfl, rfl, rfl, rfl⟩ := hRead
    rfl
  · exact reversedDigits_eq (by decide) (value.toNat_lt.trans (by decide))

end LuvFlicker.Ws.Fill
