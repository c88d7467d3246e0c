import LuvFlicker.Lib.Bytes
import LuvFlicker.Lib.Decimal

/-!
# FIX messages

A message is a text of fields `tag=value`, each ended by a SOH byte. The view cuts
it at these bytes and reads the tags; the checksum is looked for from the end.
-/

namespace LuvFlicker.Fix

open Bytes List Decimal

def soh : UInt8 := 1

def equals : UInt8 := 61

structure FixField where
  tag : UInt32 := 0
  val : List UInt8
  deriving DecidableEq, Repr

def kMaxFields : Nat := 64

def memchr (byte : UInt8) : List UInt8 → Option Nat
  | [] => none
  | b :: rest => if b = byte then some 0 else (memchr byte rest).map (· + 1)

def readTag : List UInt8 → UInt32 → Option UInt32
  | [], tag => some tag
  | b :: rest, tag => if Decimal.isDigit b then readTag rest (tag * 10 + (b - 48).toUInt32) else none

def valueEnd (text : List UInt8) : Nat :=
  match memchr soh text with
  | some delim => delim
  | none => (memchr 124 text).getD text.length

/-- The field loop of `parse`, with room for some more fields; the fields are there also when the loop fails. -/
def parseLoop : Nat → List UInt8 → Bool × List FixField
  | 0, _ => (true, [])
  | _ + 1, [] => (true, [])
  | room + 1, b :: bytes =>
    match memchr equals (b :: bytes) with
    | none => (true, [])
    | some eq =>
      match readTag ((b :: bytes).take eq) 0 with
      | none => (false, [])
      | some tag =>
        let text := (b :: bytes).drop (eq + 1)
        let (ok, fields) := parseLoop room (text.drop (valueEnd text + 1))
        (ok, ⟨tag, text.take (valueEnd text)⟩ :: fields)

section

variable (bytes : List UInt8)

def parse : Bool × List FixField :=
  if bytes.length < 10 then (false, [])
  else if bytes.getD 0 0 ≠ 56 ∨ bytes.getD 1 0 ≠ equals then (false, [])
  else
    let (ok, fields) := parseLoop kMaxFields bytes
    (ok && !fields.isEmpty, fields)

def get (fields : List FixField) (tag : UInt32) : List UInt8 :=
  match fields.find? (·.tag = tag) with
  | some field => field.val
  | none => []

def byteSum : UInt32 := bytes.foldl (fun sum byte => sum + byte.toUInt32) 0

def readDigits : Nat → List UInt8 → Nat → Nat
  | 0, _, v => v
  | _ + 1, [], v => v
  | n + 1, b :: rest, v => if Decimal.isDigit b then readDigits n rest (v * 10 + (b.toNat - 48)) else v

def isCheckTag : Bool := bytes.take 4 = soh :: ascii "10=" ∨ bytes.take 4 = ascii "|10="

def verifyChecksum : Bool :=
  if bytes.length < 7 then false
  else
    match (List.range (bytes.length - 7)).reverse.find? fun i => isCheckTag (bytes.drop i) with
    | none => false
    | some i => (byteSum (bytes.take (i + 1)) % 256).toNat = readDigits 3 (bytes.drop (i + 4)) 0

end

def FixField.text (field : FixField) : List UInt8 := Decimal.text field.tag.toNat ++ equals :: (field.val ++ [soh])

/-! ## Reading fields -/

theorem memchr_append {byte : UInt8} {front : List UInt8} (h : byte ∉ front) (rest : List UInt8) :
    memchr byte (front ++ byte :: rest) = some front.length := by
  induction front with
  | nil => exact if_pos rfl
  | cons b front ih =>
    rw [mem_cons, not_or] at h
    rw [cons_append, memchr, if_neg (Ne.symm h.1), ih h.2]
    rfl

theorem memchr_eq_none {byte : UInt8} {text : List UInt8} (h : byte ∉ text) : memchr byte text = none := by
  induction text with
  | nil => rfl
  | cons b text ih =>
    rw [mem_cons, not_or] at h
    rw [memchr, if_neg (Ne.symm h.1), ih h.2]
    rfl

variable {val : List UInt8}

theorem valueEnd_append (h : soh ∉ val) (rest : List UInt8) : valueEnd (val ++ soh :: rest) = val.length := by
  rw [valueEnd, memchr_append h]

theorem valueEnd_last (hSoh : soh ∉ val) (hBar : 124 ∉ val) : valueEnd val = val.length := by
  rw [valueEnd, memchr_eq_none hSoh, memchr_eq_none hBar]
  rfl

variable {digits : List UInt8}

theorem readTag_digits (h : ∀ b ∈ digits, isDigit b = true) (v : Nat) :
    readTag digits (.ofNat v) = some (.ofNat (value v digits)) := by
  induction digits generalizing v with
  | nil => rfl
  | cons b digits ih =>
    obtain ⟨hHead, hRest⟩ := forall_mem_cons.mp h
    have hLow : 48 ≤ b.toNat := by
      rw [isDigit, Bool.and_eq_true, decide_eq_true_eq] at hHead
      exact UInt8.le_iff_toNat_le.mp hHead.1
    have hNext : UInt32.ofNat v * 10 + (b - 48).toUInt32 = UInt32.ofNat (10 * v + (b.toNat - 48)) := by
      apply UInt32.toNat_inj.mp
      have hSub := UInt8.toNat_sub_of_le b 48 (UInt8.le_iff_toNat_le.mpr hLow)
      rw [UInt32.toNat_add, UInt32.toNat_mul, UInt32.toNat_ofNat', UInt32.toNat_ofNat', UInt8.toNat_toUInt32, hSub]
      change (v % 2 ^ 32 * 10 % 2 ^ 32 + (b.toNat - 48)) % 2 ^ 32 = _
      omega
    rw [readTag, if_pos hHead, hNext, ih hRest]
    rfl

theorem readTag_text (tag : UInt32) : readTag (text tag.toNat) 0 = some tag := by
  have hRead := readTag_digits (fun b hb => isDigit_of_mem_text (n := tag.toNat) hb) 0
  rw [value_text, UInt32.ofNat_toNat] at hRead
  exact hRead

theorem equals_notMem_text (n : Nat) : equals ∉ text n := notMem_text rfl

section

variable (room : Nat)

theorem parseLoop_tag (tag : UInt32) (text : List UInt8) :
    parseLoop (room + 1) (Decimal.text tag.toNat ++ equals :: text) =
      ((parseLoop room (text.drop (valueEnd text + 1))).1,
        ⟨tag, text.take (valueEnd text)⟩ :: (parseLoop room (text.drop (valueEnd text + 1))).2) := by
  have hEq := memchr_append (equals_notMem_text tag.toNat) text
  have hTake : (Decimal.text tag.toNat ++ equals :: text).take (Decimal.text tag.toNat).length =
      Decimal.text tag.toNat := take_left
  have hDrop : (Decimal.text tag.toNat ++ equals :: text).drop ((Decimal.text tag.toNat).length + 1) = text := by
    rw [← drop_drop, drop_left, drop_succ_cons, drop_zero]
  cases hList : Decimal.text tag.toNat ++ equals :: text with
  | nil => exact absurd hList (append_ne_nil_of_right_ne_nil _ (cons_ne_nil _ _))
  | cons b bytes =>
    rw [hList] at hEq hTake hDrop
    rw [parseLoop, hEq]
    dsimp only
    rw [hTake, readTag_text, hDrop]

theorem parseLoop_field (field : FixField) (h : soh ∉ field.val) (rest : List UInt8) :
    parseLoop (room + 1) (field.text ++ rest) = ((parseLoop room rest).1, field :: (parseLoop room rest).2) := by
  have hText : field.text ++ rest = text field.tag.toNat ++ equals :: (field.val ++ soh :: rest) := by
    rw [FixField.text, append_assoc, cons_append, append_assoc, singleton_append]
  have hDrop : (field.val ++ soh :: rest).drop (field.val.length + 1) = rest := by
    rw [← drop_drop, drop_left, drop_succ_cons, drop_zero]
  rw [hText, parseLoop_tag, valueEnd_append h, hDrop, take_left]

theorem parseLoop_last (field : FixField) (hSoh : soh ∉ field.val) (hBar : 124 ∉ field.val) :
    parseLoop (room + 1) (text field.tag.toNat ++ equals :: field.val) = (true, [field]) := by
  have hNil (room : Nat) : parseLoop room [] = (true, []) := by cases room <;> rfl
  rw [parseLoop_tag, valueEnd_last hSoh hBar, take_length, drop_eq_nil_of_le (Nat.le_succ _), hNil]

theorem parseLoop_fields {fields : List FixField} (hSoh : ∀ field ∈ fields, soh ∉ field.val) (rest : List UInt8) :
    parseLoop (fields.length + room) (fields.flatMap FixField.text ++ rest) =
      ((parseLoop room rest).1, fields ++ (parseLoop room rest).2) := by
  induction fields with
  | nil => rw [length_nil, zero_add]; rfl
  | cons field fields ih =>
    obtain ⟨hHead, hRest⟩ := forall_mem_cons.mp hSoh
    rw [flatMap_cons, append_assoc, length_cons, add_right_comm, parseLoop_field _ _ hHead, ih hRest, cons_append]

end

theorem get_append (fields : List FixField) (field : FixField) (h : ∀ f ∈ fields, f.tag ≠ field.tag)
    (rest : List FixField) : get (fields ++ field :: rest) field.tag = field.val := by
  have hNone := find?_eq_none.mpr fun f hf hTag => h f hf (of_decide_eq_true hTag)
  have hHere : (field :: rest).find? (fun f => decide (f.tag = field.tag)) = some field :=
    find?_cons_of_pos (decide_eq_true (Eq.refl _))
  rw [get, find?_append, hNone, Option.none_or, hHere]

/-! ## The checksum -/

theorem readDigits_eq {n : Nat} (h : ∀ b ∈ digits, isDigit b = true)
    (hLength : digits.length = n) (rest : List UInt8) (v : Nat) :
    readDigits n (digits ++ rest) v = value v digits := by
  induction digits generalizing n v with
  | nil =>
    obtain rfl := hLength
    rfl
  | cons b digits ih =>
    obtain ⟨hHead, hRest⟩ := forall_mem_cons.mp h
    obtain rfl := hLength
    rw [cons_append, length_cons, readDigits, if_pos hHead, ih hRest rfl, mul_comm]
    rfl

theorem verifyChecksum_append {fields front : List UInt8} (hFields : fields = front ++ [soh]) (last : UInt8) :
    verifyChecksum (fields ++ (ascii "10=" ++ (padded (byteSum fields % 256).toNat ++ [last]))) = true := by
  rw [hFields, append_assoc, singleton_append]
  have hSum : (byteSum (front ++ [soh]) % 256).toNat < 1000 := by exact (Nat.mod_lt _ (by decide)).trans (by decide)
  generalize hDigits : padded (byteSum (front ++ [soh]) % 256).toNat = digits
  have hLength : digits.length = 3 := by rw [← hDigits]; rfl
  generalize hMessage : front ++ soh :: (ascii "10=" ++ (digits ++ [last])) = message
  have hSize : message.length = front.length + 8 := by
    rw [← hMessage, length_append, length_cons, length_append, length_append, hLength]
    rfl
  have hRange : message.length - 7 = front.length + 1 := by omega
  have hTail : message.drop front.length = soh :: (ascii "10=" ++ (digits ++ [last])) := by rw [← hMessage, drop_left]
  have hTake : message.take (front.length + 1) = front ++ [soh] := by
    rw [← hMessage, take_length_add_append]
    rfl
  have hDrop : message.drop (front.length + 4) = digits ++ [last] := by
    rw [← drop_drop, hTail]
    rfl
  have hRead : readDigits 3 (message.drop (front.length + 4)) 0 = (byteSum (front ++ [soh]) % 256).toNat := by
    rw [hDrop, readDigits_eq _ hLength, ← hDigits, value_padded hSum]
    rw [← hDigits]
    exact fun b hb => isDigit_of_mem_padded hSum hb
  have hCheck : isCheckTag (message.drop front.length) = true := by
    rw [hTail]
    exact decide_eq_true (.inl rfl)
  have hFound : (List.range (message.length - 7)).reverse.find? (fun i => isCheckTag (message.drop i)) =
      some front.length := by
    rw [hRange, range_succ, reverse_append]
    exact find?_cons_of_pos hCheck
  rw [verifyChecksum, if_neg (by omega), hFound]
  dsimp only
  rw [hTake, hRead]
  exact decide_eq_true rfl

end LuvFlicker.Fix
