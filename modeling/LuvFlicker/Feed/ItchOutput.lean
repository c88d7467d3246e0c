import LuvFlicker.Feed.Itch

/-!
# The output of the ITCH decoder

`decode_itch` writes into a slot of the caller. The slot is cleared and given the
type and the time of the message once the header has passed its checks, before the
fields of the message are looked at.
-/

namespace LuvFlicker.Itch

open Bytes

/-- An event as it lies in memory, with its reserved bytes. -/
structure TickSlot where
  tick : TickMsg := {}
  pad0 : UInt32 := 0
  pad : Fin 16 → UInt8 := fun _ => 0

/-- The header of a message is refused: no message, too short, or a time beyond the day. -/
def HeaderRefused : Option (List UInt8) → Prop
  | none => True
  | some raw =>
    raw.length < 11 ∨ (minimumLength (byteAt raw 0) ≠ 0 ∧ raw.length < minimumLength (byteAt raw 0)) ∨
      beField raw 5 6 ≥ kDayNs

instance decidableHeaderRefused : ∀ raw, Decidable (HeaderRefused raw)
  | none => isTrue trivial
  | some _ => inferInstanceAs (Decidable (_ ∨ _ ∧ _ ∨ _))

def started (raw : List UInt8) : TickMsg := { msgType := byteAt raw 0, timestamp := beField raw 5 6 }

def storesLocate (type : UInt8) : Bool :=
  type = kOrderExecuted || type = kOrderExecPrice || type = kOrderCancel || type = kOrderDelete || type = kOrderReplace

def leftBehind (raw : List UInt8) : TickMsg :=
  if storesLocate (byteAt raw 0) then { started raw with symbolIdx := beField raw 1 2 } else started raw

section

variable (symbols : SymbolTable)

def decodeInto (raw : Option (List UInt8)) (out : TickSlot) : Bool × TickSlot :=
  match raw with
  | none => (false, out)
  | some raw =>
    if HeaderRefused (some raw) then (false, out)
    else
      match decodeBody symbols raw (started raw) with
      | some tick => (true, { tick := tick })
      | none => (false, { tick := leftBehind raw })

theorem decodeItch_eq (raw : List UInt8) :
    decodeItch symbols raw = if HeaderRefused (some raw) then none else decodeBody symbols raw (started raw) := by
  simp only [decodeItch, HeaderRefused, started]
  grind

theorem decodeInto_of_decodeItch (raw : List UInt8) (out : TickSlot) : match decodeItch symbols raw with
    | some tick => decodeInto symbols (some raw) out = (true, { tick := tick })
    | none => (decodeInto symbols (some raw) out).1 = false := by
  rw [decodeItch_eq, decodeInto]
  by_cases hHeader : HeaderRefused (some raw)
  · rw [if_pos hHeader, if_pos hHeader]
  rw [if_neg hHeader, if_neg hHeader]
  cases decodeBody symbols raw (started raw) with
  | some | none => rfl

end

def AlreadyLeft (raw : Option (List UInt8)) (out : TickSlot) : Prop :=
  ∃ bytes, raw = some bytes ∧ out = { tick := leftBehind bytes }

/-- A refused message leaves the slot as it was exactly when its header was refused, or nothing had to change. -/
theorem untouched_iff (symbols : SymbolTable) (raw : Option (List UInt8)) (out : TickSlot)
    (hRefused : (decodeInto symbols raw out).1 = false) :
    (decodeInto symbols raw out).2 = out ↔ HeaderRefused raw ∨ AlreadyLeft raw out := by
  cases raw with
  | none => exact iff_of_true rfl (.inl trivial)
  | some raw =>
    rw [decodeInto] at hRefused ⊢
    by_cases hHeader : HeaderRefused (some raw)
    · rw [if_pos hHeader]
      exact iff_of_true rfl (.inl hHeader)
    rw [if_neg hHeader] at hRefused ⊢
    rw [or_iff_right hHeader]
    cases hBody : decodeBody symbols raw (started raw) with
    | some tick =>
      rw [hBody] at hRefused
      cases hRefused
    | none =>
      constructor
      · intro hSame
        exact ⟨raw, rfl, hSame.symm⟩
      · rintro ⟨_, hBytes, rfl⟩
        cases hBytes
        rfl

theorem short_message_untouched :
    (decodeInto SymbolTable.empty (some [0]) { tick := { orderRef := 7 } }).2 = { tick := { orderRef := 7 } } :=
  (untouched_iff SymbolTable.empty (some [0]) { tick := { orderRef := 7 } } rfl).mpr (.inl (.inl (by decide)))

/-- A system event is skipped, and the slot is cleared. -/
theorem skipped_message_clears :
    (decodeInto SymbolTable.empty (some ('S'.toUInt8 :: List.replicate 11 0)) { tick := { orderRef := 7 } }).1 = false ∧
      (decodeInto SymbolTable.empty (some ('S'.toUInt8 :: List.replicate 11 0))
        { tick := { orderRef := 7 } }).2.tick.orderRef = 0 := by
  decide +kernel

end LuvFlicker.Itch
