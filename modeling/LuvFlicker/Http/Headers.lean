import LuvFlicker.Lib.Bytes
import LuvFlicker.Lib.Text
import Mathlib.Data.List.DropRight

/-!
# The header block of a request

A hand-written scanner looks for a header line by name. The block ends at the
empty line, so the search never looks beyond the line break behind it, and what
it finds is the value of a line of the block.
-/

namespace LuvFlicker.Http

open Bytes Text List

def crlf : List UInt8 := [13, 10]

def blank (byte : UInt8) : Bool := byte = 32 ∨ byte = 9

def asciiLower (value : UInt8) : UInt8 := if 65 ≤ value ∧ value ≤ 90 then value - 65 + 97 else value

def asciiEqual (left right : List UInt8) : Bool :=
  left.length = right.length ∧ (left.zip right).all fun pair => asciiLower pair.1 = asciiLower pair.2

def fieldValue (wantedName line : List UInt8) : Option (List UInt8) :=
  let colon := line.findIdx (· = 58)
  if colon < line.length ∧ asciiEqual (line.take colon) wantedName then
    some (((line.drop (colon + 1)).dropWhile blank).rdropWhile blank)
  else none

/-- The loop of `header`; `line` is the line break in front of the next line. -/
def headerLoop (request : List UInt8) (blockEnd : Nat) (wantedName : List UInt8) :
    Nat → Option Nat → Option (List UInt8)
  | 0, _ => none
  | _ + 1, none => none
  | fuel + 1, some line =>
    if line ≥ blockEnd ∨ line + 2 ≥ blockEnd then none
    else
      match strstr crlf (request.drop (line + 2)) with
      | none => none
      | some size =>
        if line + 2 + size > blockEnd then none
        else
          match fieldValue wantedName ((request.drop (line + 2)).take size) with
          | some value => some value
          | none => headerLoop request blockEnd wantedName fuel (some (line + 2 + size))

/-- Every turn of the loop gets two bytes further, so `blockEnd` turns are enough. -/
def header (request : List UInt8) (blockEnd : Nat) (wantedName : List UInt8) : Option (List UInt8) :=
  headerLoop request blockEnd wantedName blockEnd (strstr crlf request)

def hasTokenLoop (token : List UInt8) : Nat → List UInt8 → Bool
  | 0, _ => false
  | fuel + 1, value =>
    if value = [] then false
    else
      let start := value.dropWhile fun byte => blank byte || byte = 44
      let word := start.takeWhile (· ≠ 44)
      if asciiEqual (word.rdropWhile blank) token then true
      else hasTokenLoop token fuel (start.drop (word.length + 1))

def headerHasToken (value : Option (List UInt8)) (token : List UInt8) : Bool :=
  match value with
  | none => false
  | some value => hasTokenLoop token value.length value

/-! ## Numbers -/

def isDigit (byte : UInt8) : Bool := 48 ≤ byte ∧ byte ≤ 57

def decimal : Nat → List UInt8 → Option (Nat × List UInt8)
  | value, [] => some (value, [])
  | value, byte :: rest =>
    if isDigit byte then
      let digit := byte.toNat - 48
      if value > (2 ^ 64 - 1 - digit) / 10 then none else decimal (value * 10 + digit) rest
    else some (value, byte :: rest)

def digits (text : List UInt8) : Option (Nat × List UInt8) :=
  match text with
  | [] => none
  | byte :: _ => if isDigit byte then decimal 0 text else none

def headerDecimalSize (value : List UInt8) : Option Nat :=
  if value = [] then none
  else
    match decimal 0 value with
    | some (parsed, []) => some parsed
    | _ => none

def pathNumber (path front : List UInt8) : Option UInt64 :=
  if front <+: path then
    match digits (path.drop front.length) with
    | some (id, []) => some (.ofNat id)
    | _ => none
  else none

def orderId (path : List UInt8) : Option UInt64 := pathNumber path (ascii "/api/v1/orders/")

/-! ## What `header` finds -/

theorem asciiEqual_iff {left right : List UInt8} :
    asciiEqual left right = true ↔ left.map asciiLower = right.map asciiLower := by
  rw [asciiEqual, decide_eq_true_iff]
  induction left generalizing right with
  | nil =>
    cases right with
    | nil => exact iff_of_true ⟨rfl, rfl⟩ rfl
    | cons b right => exact iff_of_false (fun h => nomatch h.1) nofun
  | cons a left ih =>
    cases right with
    | nil => exact iff_of_false (fun h => nomatch h.1) nofun
    | cons b right =>
      simp only [length_cons, Nat.add_right_cancel_iff, zip_cons_cons, all_cons, Bool.and_eq_true,
        decide_eq_true_eq, map_cons, List.cons.injEq, ← ih]
      exact and_left_comm

def HeaderLine (block line : List UInt8) : Prop :=
  ∃ before after, block = before ++ crlf ++ line ++ after ∧ (after = [] ∨ crlf <+: after) ∧ ¬ crlf <:+: line

/-- The block has a header of the name, written in any case, with the value. -/
def HasHeader (block name value : List UInt8) : Prop :=
  ∃ line front rest, HeaderLine block line ∧ line = front ++ 58 :: rest ∧ 58 ∉ front ∧
    front.map asciiLower = name.map asciiLower ∧ value = (rest.dropWhile blank).rdropWhile blank

theorem fieldValue_eq_some {name line value : List UInt8} (h : fieldValue name line = some value) :
    ∃ front rest, line = front ++ 58 :: rest ∧ 58 ∉ front ∧ front.map asciiLower = name.map asciiLower ∧
      value = (rest.dropWhile blank).rdropWhile blank := by
  rw [fieldValue] at h
  split at h
  next hColon =>
    obtain ⟨hColon, hName⟩ := hColon
    cases h
    refine ⟨_, _, ?_, ?_, asciiEqual_iff.mp hName, rfl⟩
    · have hAt := of_decide_eq_true (@findIdx_getElem _ _ line hColon)
      have hSplit := take_append_drop (line.findIdx (· = 58)) line
      rw [drop_eq_getElem_cons hColon, hAt] at hSplit
      exact hSplit.symm
    · intro hMem
      obtain ⟨i, _, hAt⟩ := mem_take_iff_getElem.mp hMem
      have hBefore := @not_of_lt_findIdx _ (· = 58) line i (by omega)
      rw [hAt] at hBefore
      exact Bool.noConfusion hBefore
  · cases h

section Block

variable {request wantedName value : List UInt8} {blockEnd : Nat}

theorem length_crlf : crlf.length = 2 := rfl

theorem drop_of_crlf {start : Nat} (h : crlf <+: request.drop start) :
    request.drop start = crlf ++ request.drop (start + 2) := by
  rw [← drop_drop]
  exact (prefix_iff_eq_append.mp h).symm

section

variable (hEnd : crlf <+: request.drop blockEnd)

include hEnd

theorem headerLine_of_strstr {line size : Nat}
    (hLine : crlf <+: request.drop line) (hSize : strstr crlf (request.drop (line + 2)) = some size)
    (hInside : line + 2 + size ≤ blockEnd) :
    HeaderLine (request.take blockEnd) ((request.drop (line + 2)).take size) := by
  obtain ⟨hNext, -⟩ := strstr_eq_some_iff.mp hSize
  rw [drop_drop] at hNext
  refine ⟨request.take line, (request.take blockEnd).drop (line + 2 + size), ?_, ?_, notInfix_take hSize nofun⟩
  · have hBreak := drop_of_crlf hLine
    have hFront : request.take (line + 2 + size) = request.take line ++ crlf ++ (request.drop (line + 2)).take size := by
      have hTwo : 2 + size - crlf.length = size := by rw [length_crlf]; omega
      have hCrlf : crlf.take (2 + size) = crlf := take_of_length_le (by rw [length_crlf]; omega)
      rw [add_assoc, take_add, hBreak, take_append, hTwo, hCrlf, append_assoc]
    have hCut : request.take (line + 2 + size) = (request.take blockEnd).take (line + 2 + size) := by
      rw [take_take, min_eq_left hInside]
    rw [← hFront, hCut, take_append_drop]
  · rcases eq_or_lt_of_le hInside with _ | _
    · exact .inl (drop_eq_nil_of_le (by rw [length_take]; omega))
    right
    -- a line break that starts one byte before the end would need LF where the empty line has CR
    have hApart : line + 2 + size + 1 ≠ blockEnd := by
      rintro rfl
      obtain ⟨_, hRest⟩ := hNext
      obtain ⟨_, hRest'⟩ := hEnd
      rw [← drop_drop, ← hRest] at hRest'
      cases hRest'
    rw [drop_take, prefix_take_iff, length_crlf]
    exact ⟨hNext, by omega⟩

theorem headerLoop_sound (fuel : Nat) (line : Option Nat)
    (hLine : ∀ start, line = some start → crlf <+: request.drop start)
    (h : headerLoop request blockEnd wantedName fuel line = some value) :
    HasHeader (request.take blockEnd) wantedName value := by
  induction fuel generalizing line with
  | zero => cases h
  | succ fuel ih =>
    cases line with
    | none => cases h
    | some line =>
      rw [headerLoop] at h
      split at h
      · cases h
      split at h
      · cases h
      rename_i size hSize
      split at h
      · cases h
      rename_i hInside
      have hInside := Nat.le_of_not_gt hInside
      split at h
      next found hField =>
        cases h
        obtain ⟨_, rest, hParts⟩ := fieldValue_eq_some hField
        exact ⟨_, _, rest, headerLine_of_strstr hEnd (hLine line rfl) hSize hInside, hParts⟩
      · apply ih _ _ h
        rintro start hStart
        cases hStart
        have hNext := (strstr_eq_some_iff.mp hSize).1
        rwa [drop_drop] at hNext

theorem header_sound (h : header request blockEnd wantedName = some value) :
    HasHeader (request.take blockEnd) wantedName value :=
  headerLoop_sound hEnd _ _ (fun _ hStart => (strstr_eq_some_iff.mp hStart).1) h

end

variable {request' : List UInt8}

section

variable (hEnd : crlf <+: request.drop blockEnd)

include hEnd

variable (hSame : request.take (blockEnd + 2) = request'.take (blockEnd + 2))
include hSame

theorem strstr_drop_congr {start : Nat} (hStart : start ≤ blockEnd) :
    ∃ size, start + size ≤ blockEnd ∧ strstr crlf (request.drop start) = some size ∧
      strstr crlf (request'.drop start) = some size := by
  have hBehind : crlf <+: (request.drop start).drop (blockEnd - start) := by rwa [drop_drop, Nat.add_sub_cancel' hStart]
  obtain ⟨size, _, hFound⟩ := exists_strstr hBehind
  refine ⟨size, by omega, hFound, strstr_congr hFound (k := blockEnd + 2 - start) ?_ (by rw [length_crlf]; omega)⟩
  rw [← drop_take, ← drop_take, hSame]

theorem headerLoop_congr (fuel : Nat) (line : Option Nat) :
    headerLoop request blockEnd wantedName fuel line = headerLoop request' blockEnd wantedName fuel line := by
  induction fuel generalizing line with
  | zero => rfl
  | succ fuel ih =>
    cases line with
    | none => rfl
    | some line =>
      rw [headerLoop, headerLoop]
      split
      · rfl
      rename_i hBefore
      obtain ⟨size, _, hFound, hFound'⟩ := @strstr_drop_congr _ _ _ hEnd hSame (line + 2) (by omega)
      have hLine : (request.drop (line + 2)).take size = (request'.drop (line + 2)).take size := by
        have hCut (t : List UInt8) : (t.drop (line + 2)).take size =
            ((t.take (blockEnd + 2)).drop (line + 2)).take size := by
          rw [drop_take, take_take, min_eq_left (by omega)]
        rw [hCut, hSame, ← hCut]
      rw [hFound, hFound']
      dsimp only
      rw [hLine, ih]

theorem header_congr : header request blockEnd wantedName = header request' blockEnd wantedName := by
  obtain ⟨_, -, hFound, hFound'⟩ := strstr_drop_congr hEnd hSame (Nat.zero_le _)
  rw [drop_zero] at hFound hFound'
  rw [header, header, hFound, hFound', headerLoop_congr hEnd hSame]

end

theorem crlf_prefix_of_strstr {start : Nat} (h : strstr (crlf ++ crlf) request = some start) :
    crlf <+: request.drop start :=
  (prefix_append crlf crlf).trans (strstr_eq_some_iff.mp h).1

theorem header_append {start : Nat} (h : strstr (crlf ++ crlf) request = some start) (more : List UInt8) :
    header (request ++ more) start wantedName = header request start wantedName := by
  have hLength := (strstr_eq_some_iff.mp h).1.length_le
  rw [length_append, length_crlf, length_drop] at hLength
  refine (header_congr (crlf_prefix_of_strstr h) ?_).symm
  rw [take_append_of_le_length (by omega)]

end Block

end LuvFlicker.Http
