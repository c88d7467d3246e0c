import LuvFlicker.Feed.SymbolTable
import LuvFlicker.Lib.Bytes

/-!
# The ITCH decoder

`decode_itch` turns the body of one ITCH 5.0 message into a market-data event, or
refuses it.
-/

namespace LuvFlicker

open Bytes Config Numeric

namespace TickFlags

def kPrintable : UInt8 := 0x02
def kCross : UInt8 := 0x04
def kHalted : UInt8 := 0x08
def kShortSaleRestricted : UInt8 := 0x10

end TickFlags

namespace Itch

def kCrossTrade : UInt8 := 0x51
def kStockTradingAction : UInt8 := 0x48
def kRegSHO : UInt8 := 0x59

def minimumLength (type : UInt8) : Nat :=
  if type = kAddOrder then 36
  else if type = kAddOrderMPID then 40
  else if type = kOrderExecuted then 31
  else if type = kOrderExecPrice then 36
  else if type = kOrderCancel then 23
  else if type = kOrderDelete then 19
  else if type = kOrderReplace then 35
  else if type = kTrade then 44
  else if type = kCrossTrade then 40
  else if type = kStockTradingAction then 25
  else if type = kRegSHO then 20
  else 0

def kDayNs : Nat := 86400000000000

def be32 (raw : List UInt8) (offset : Nat) : Int := beField raw offset 4

def be64 (raw : List UInt8) (offset : Nat) : UInt64 := .ofNat (beField raw offset 8)

section

variable (symbols : SymbolTable) (raw : List UInt8)

def lookupTicker (offset : Nat) : UInt16 :=
  symbols.lookup (.ofNat (field raw offset 8))

def isSide (byte : UInt8) : Bool := byte = 'B'.toUInt8 || byte = 'S'.toUInt8

def buyFlag (byte : UInt8) : UInt8 := if byte = 'B'.toUInt8 then TickFlags.kBuy else 0

section

variable (out : TickMsg)

/-! ## The message types

Each takes the event with its type and timestamp filled in. The length of the
message has been checked.
-/

def decodeAddOrder : Option TickMsg :=
  let symIdx := lookupTicker symbols raw 24
  if symIdx = SymbolTable.kNotFound then none
  else if be64 raw 11 = 0 || !isValidQuantity (be32 raw 20) || !isValidPrice (be32 raw 32) ||
      !isSide (byteAt raw 19) then none
  else
    some { out with
      symbolIdx := symIdx.toNat, orderRef := be64 raw 11, qty := be32 raw 20, price := be32 raw 32,
      flags := buyFlag (byteAt raw 19) }

def decodeOrderExecuted : Option TickMsg :=
  let symbolIdx := beField raw 1 2
  if symbolIdx ≥ kSymbols || be64 raw 11 = 0 || !isValidQuantity (be32 raw 19) then none
  else
    some { out with
      symbolIdx := symbolIdx, orderRef := be64 raw 11, qty := be32 raw 19, matchNum := be64 raw 23,
      flags := TickFlags.kPrintable }

def decodeOrderExecPrice : Option TickMsg :=
  let symbolIdx := beField raw 1 2
  if symbolIdx ≥ kSymbols || be64 raw 11 = 0 || !isValidQuantity (be32 raw 19) ||
      !isValidPrice (be32 raw 32) || !(byteAt raw 31 = 'Y'.toUInt8 || byteAt raw 31 = 'N'.toUInt8) then none
  else
    some { out with
      symbolIdx := symbolIdx, orderRef := be64 raw 11, qty := be32 raw 19, matchNum := be64 raw 23,
      price := be32 raw 32, flags := if byteAt raw 31 = 'Y'.toUInt8 then TickFlags.kPrintable else 0 }

def decodeOrderCancel : Option TickMsg :=
  let symbolIdx := beField raw 1 2
  if symbolIdx ≥ kSymbols || be64 raw 11 = 0 || !isValidQuantity (be32 raw 19) then none
  else some { out with symbolIdx := symbolIdx, orderRef := be64 raw 11, qty := be32 raw 19 }

def decodeOrderDelete : Option TickMsg :=
  let symbolIdx := beField raw 1 2
  if symbolIdx ≥ kSymbols || be64 raw 11 = 0 then none
  else some { out with symbolIdx := symbolIdx, orderRef := be64 raw 11 }

def decodeOrderReplace : Option TickMsg :=
  let symbolIdx := beField raw 1 2
  if symbolIdx ≥ kSymbols || be64 raw 11 = 0 || be64 raw 19 = 0 || be64 raw 11 = be64 raw 19 ||
      !isValidQuantity (be32 raw 27) || !isValidPrice (be32 raw 31) then none
  else
    some { out with
      symbolIdx := symbolIdx, orderRef := be64 raw 11, matchNum := be64 raw 19, qty := be32 raw 27,
      price := be32 raw 31 }

def decodeTrade : Option TickMsg :=
  let symIdx := lookupTicker symbols raw 24
  if symIdx = SymbolTable.kNotFound || !isValidQuantity (be32 raw 20) ||
      !isValidPrice (be32 raw 32) || !isSide (byteAt raw 19) then none
  else
    some { out with
      symbolIdx := symIdx.toNat, orderRef := be64 raw 11, qty := be32 raw 20, price := be32 raw 32,
      matchNum := be64 raw 36, flags := TickFlags.kPrintable ||| buyFlag (byteAt raw 19) }

def decodeCrossTrade : Option TickMsg :=
  let symIdx := lookupTicker symbols raw 19
  let shares : Int := beField raw 11 8
  if symIdx = SymbolTable.kNotFound || shares > kMaxQuantity || !isValidPrice (be32 raw 27) then none
  else
    some { out with
      symbolIdx := symIdx.toNat, qty := shares, price := be32 raw 27, matchNum := be64 raw 31,
      flags := TickFlags.kPrintable ||| TickFlags.kCross }

def decodeStatus (codes : List UInt8) (flag : UInt8) (out : TickMsg) : Option TickMsg :=
  let symIdx := lookupTicker symbols raw 11
  if symIdx = SymbolTable.kNotFound then none
  else some { out with symbolIdx := symIdx.toNat, flags := if byteAt raw 19 ∈ codes then flag else 0 }

def decodeStockTradingAction : Option TickMsg :=
  decodeStatus symbols raw ['H'.toUInt8, 'P'.toUInt8] TickFlags.kHalted out

def decodeRegSHO : Option TickMsg :=
  decodeStatus symbols raw ['1'.toUInt8, '2'.toUInt8] TickFlags.kShortSaleRestricted out

def decodeBody : Option TickMsg :=
  if out.msgType = kAddOrder ∨ out.msgType = kAddOrderMPID then decodeAddOrder symbols raw out
  else if out.msgType = kOrderExecuted then decodeOrderExecuted raw out
  else if out.msgType = kOrderExecPrice then decodeOrderExecPrice raw out
  else if out.msgType = kOrderCancel then decodeOrderCancel raw out
  else if out.msgType = kOrderDelete then decodeOrderDelete raw out
  else if out.msgType = kOrderReplace then decodeOrderReplace raw out
  else if out.msgType = kTrade then decodeTrade symbols raw out
  else if out.msgType = kCrossTrade then decodeCrossTrade symbols raw out
  else if out.msgType = kStockTradingAction then decodeStockTradingAction symbols raw out
  else if out.msgType = kRegSHO then decodeRegSHO symbols raw out
  else none

end

def decodeItch : Option TickMsg :=
  if raw.length < 11 then none
  else
    let msgType := byteAt raw 0
    if minimumLength msgType ≠ 0 ∧ raw.length < minimumLength msgType then none
    else
      let timestamp := beField raw 5 6
      if timestamp ≥ kDayNs then none
      else decodeBody symbols raw { msgType := msgType, timestamp := timestamp }

end

/-! ## What is accepted -/

/-- The events the decoder lets through, by what the book does with their type. -/
inductive Accepted (tick : TickMsg) : Prop
  | add (hType : tick.msgType = kAddOrder ∨ tick.msgType = kAddOrderMPID) (hRef : tick.orderRef ≠ 0)
      (hQty : isValidQuantity tick.qty = true) (hPrice : isValidPrice tick.price = true)
  | reduce (hType : tick.msgType = kOrderExecuted ∨ tick.msgType = kOrderExecPrice ∨ tick.msgType = kOrderCancel)
      (hRef : tick.orderRef ≠ 0) (hQty : isValidQuantity tick.qty = true)
  | delete (hType : tick.msgType = kOrderDelete) (hRef : tick.orderRef ≠ 0)
  | replace (hType : tick.msgType = kOrderReplace) (hRef : tick.orderRef ≠ 0) (hNew : tick.matchNum ≠ 0)
      (hOther : tick.orderRef ≠ tick.matchNum) (hQty : isValidQuantity tick.qty = true)
      (hPrice : isValidPrice tick.price = true)
  | trade (hType : tick.msgType = kTrade) (hQty : isValidQuantity tick.qty = true)
      (hPrice : isValidPrice tick.price = true)
  | report (hType : tick.msgType = kCrossTrade ∨ tick.msgType = kStockTradingAction ∨ tick.msgType = kRegSHO)

variable {symbols : SymbolTable} {raw : List UInt8} {out tick : TickMsg}

theorem of_guard {bad : Prop} [Decidable bad] {event : TickMsg} (h : (if bad then none else some event) = some tick) :
    ¬ bad ∧ event = tick := by
  split at h
  · cases h
  next hGood => exact ⟨hGood, Option.some.inj h⟩

variable (h : symbols.Wf)
include h

theorem decodeBody_accepted (hDecode : decodeBody symbols raw out = some tick) :
    Accepted tick ∧ tick.symbolIdx < kSymbols := by
  unfold decodeBody at hDecode
  split_ifs at hDecode with hAdd hExecuted hExecPrice hCancel hDelete hReplace hTrade hCross hHalt hShort
  · unfold decodeAddOrder at hDecode
    simp only at hDecode
    split_ifs at hDecode with hFound hFields
    obtain rfl := Option.some.inj hDecode
    simp at hFields
    exact ⟨.add hAdd hFields.1.1.1 hFields.1.1.2 hFields.1.2, h.lookup_lt hFound⟩
  all_goals obtain ⟨hFields, rfl⟩ := of_guard hDecode
  any_goals simp at hFields
  · exact ⟨.reduce (.inl hExecuted) hFields.1.2 hFields.2, hFields.1.1⟩
  · exact ⟨.reduce (.inr (.inl hExecPrice)) hFields.1.1.1.2 hFields.1.1.2, hFields.1.1.1.1⟩
  · exact ⟨.reduce (.inr (.inr hCancel)) hFields.1.2 hFields.2, hFields.1.1⟩
  · exact ⟨.delete hDelete hFields.2, hFields.1⟩
  · exact ⟨.replace hReplace hFields.1.1.1.1.2 hFields.1.1.1.2 hFields.1.1.2 hFields.1.2 hFields.2, hFields.1.1.1.1.1⟩
  · exact ⟨.trade hTrade hFields.1.1.2 hFields.1.2, h.lookup_lt hFields.1.1.1⟩
  · exact ⟨.report (.inl hCross), h.lookup_lt hFields.1.1⟩
  · exact ⟨.report (.inr (.inl hHalt)), h.lookup_lt hFields⟩
  · exact ⟨.report (.inr (.inr hShort)), h.lookup_lt hFields⟩

theorem decodeItch_accepted (hDecode : decodeItch symbols raw = some tick) :
    Accepted tick ∧ tick.symbolIdx < kSymbols := by
  unfold decodeItch at hDecode
  simp only at hDecode
  split_ifs at hDecode
  exact decodeBody_accepted h hDecode

end Itch

end LuvFlicker
