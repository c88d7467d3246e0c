import LuvFlicker.Execution.Types
import LuvFlicker.Http.Headers

/-!
# The body of an order submission

The body is read as a C string: a member is found by searching for its quoted
name, wherever that stands, and its value is what follows the colon. The end of
the text counts as the end of a value.
-/

namespace LuvFlicker.Http

open Bytes Exec Text

def value (body key : List UInt8) : Option (List UInt8) :=
  let needle := 34 :: key ++ [34]
  if needle.length ≥ 48 then none
  else
    (strstr needle body).map fun found =>
      (body.drop (found + needle.length)).dropWhile fun byte => byte = 32 ∨ byte = 9 ∨ byte = 58

def jsonValueEnd (text : List UInt8) : Bool :=
  match text.dropWhile fun byte => byte = 32 ∨ byte = 9 ∨ byte = 13 ∨ byte = 10 with
  | [] => true
  | byte :: _ => byte = 44 ∨ byte = 125

def jsonUint64 (text : List UInt8) : Option Nat := do
  let (parsed, rest) ← digits text
  if jsonValueEnd rest then some parsed else none

def jsonSide : List UInt8 → Option UInt8
  | 34 :: text =>
    if ascii "buy\"" <+: text then
      if jsonValueEnd (text.drop 4) then some kBuy else none
    else if ascii "sell\"" <+: text then
      if jsonValueEnd (text.drop 5) then some kSell else none
    else none
  | _ => none

def fractionLoop : Nat → Nat → List UInt8 → Option (Nat × Nat × List UInt8)
  | count, fractional, [] => some (count, fractional, [])
  | count, fractional, byte :: rest =>
    if isDigit byte then
      if count = 4 then none else fractionLoop (count + 1) (fractional * 10 + (byte.toNat - 48)) rest
    else some (count, fractional, byte :: rest)

def fraction : List UInt8 → Option (Nat × Nat × List UInt8)
  | 46 :: text =>
    match fractionLoop 0 0 text with
    | some (0, _, _) => none
    | parsed => parsed
  | text => some (0, 0, text)

def jsonDecimalPrice (text : List UInt8) : Option Nat := do
  let (whole, rest) ← digits text
  let (count, fractional, rest) ← fraction rest
  if jsonValueEnd rest then
    let fractional := fractional * 10 ^ (4 - count)
    if whole > (2 ^ 63 - 1 - fractional) / 10000 then none else some (whole * 10000 + fractional)
  else none

def symbolChar (value : UInt8) : Bool :=
  (65 ≤ value ∧ value ≤ 90) ∨ (97 ≤ value ∧ value ≤ 122) ∨ (48 ≤ value ∧ value ≤ 57) ∨ value = 46 ∨ value = 45

def symbolUpper (value : UInt8) : UInt8 := if 97 ≤ value ∧ value ≤ 122 then value - 97 + 65 else value

def symbolLoop (hash : UInt32) (length : Nat) : List UInt8 → Option (UInt32 × Nat × List UInt8)
  | [] => none
  | byte :: rest =>
    if byte = 34 then some (hash, length, rest)
    else if length = 8 ∨ ¬ symbolChar byte then none
    else symbolLoop ((hash ^^^ (symbolUpper byte).toUInt32) * 16777619) (length + 1) rest

def jsonSymbolIndex : List UInt8 → Option Nat
  | 34 :: text => do
    let (hash, length, rest) ← symbolLoop 2166136261 0 text
    if length = 0 ∨ ¬ jsonValueEnd rest then none else some (hash.toNat % Config.kSymbols)
  | _ => none

def symbolAndPrice (symbolIdx symbol priceText : Option (List UInt8)) : Option (Nat × Nat) := do
  match symbolIdx, symbol with
  | some text, none =>
    let parsed ← jsonUint64 text
    let price ← priceText.bind jsonUint64
    if parsed ≥ Config.kSymbols ∨ price > 2 ^ 63 - 1 then none else some (parsed, price)
  | none, some text =>
    let index ← jsonSymbolIndex text
    let price ← priceText.bind jsonDecimalPrice
    some (index, price)
  | _, _ => none

/-- `submit_order` without its clock reading, which `dispatch_client` stamps on the order. -/
def submitOrder (body : List UInt8) : Option OrderIntent := do
  let qty ← (value body (ascii "qty")).bind jsonUint64
  let side ← (value body (ascii "side")).bind jsonSide
  let (symbolIdx, price) ←
    symbolAndPrice (value body (ascii "symbol_idx")) (value body (ascii "symbol")) (value body (ascii "price"))
  if qty > 2 ^ 63 - 1 then none
  else some { symbolIdx := symbolIdx, side := side, qty := .ofNat qty, price := .ofNat price }

end LuvFlicker.Http
