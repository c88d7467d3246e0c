import LuvFlicker.Lib.Bytes

/-!
# The frame format of RFC 6455

A frame is two bytes (FIN, three reserved bits and the opcode; the mask bit and a
length of 7 bits), the length in 16 or 64 bits when the first one is 126 or 127,
a key of four bytes when the mask bit is set, and the payload.
-/

namespace LuvFlicker.WireFrame

open Bytes

structure Frame where
  fin : Bool
  reserved : UInt8
  opcode : UInt8
  masked : Bool
  payload : List UInt8
  deriving DecidableEq

def takeExact (n : Nat) (bytes : List UInt8) : Option (List UInt8 × List UInt8) :=
  if n ≤ bytes.length then some (bytes.take n, bytes.drop n) else none

theorem takeExact_append (front : List UInt8) {n : Nat} (rest : List UInt8) (h : front.length = n) :
    takeExact n (front ++ rest) = some (front, rest) := by
  rw [takeExact, if_pos (by rw [List.length_append]; omega), List.take_left' h, List.drop_left' h]

def decodeLength (marker : UInt8) (bytes : List UInt8) : Option (Nat × List UInt8) :=
  if marker ≤ 125 then some (marker.toNat, bytes)
  else (takeExact (if marker = 126 then 2 else 8) bytes).map fun taken => (beField taken.1 0 taken.1.length, taken.2)

def unmask (key payload : List UInt8) : List UInt8 := payload.mapIdx fun i byte => byte ^^^ byteAt key (i % 4)

def decode : List UInt8 → Option (Frame × List UInt8)
  | first :: second :: stream => do
    let (size, stream) ← decodeLength (second &&& 0x7F) stream
    let (key, stream) ← takeExact (if second &&& 0x80 = 0 then 0 else 4) stream
    let (payload, rest) ← takeExact size stream
    some
      ({ fin := first &&& 0x80 ≠ 0
         reserved := first &&& 0x70
         opcode := first &&& 0x0F
         masked := second &&& 0x80 ≠ 0
         payload := if second &&& 0x80 = 0 then payload else unmask key payload },
        rest)
  | _ => none

theorem decode_unmasked {first : UInt8} {second : UInt8} {size payload : List UInt8} (rest : List UInt8)
    (hMask : second &&& 0x80 = 0)
    (hLength : decodeLength (second &&& 0x7F) (size ++ (payload ++ rest)) = some (payload.length, payload ++ rest)) :
    decode (first :: second :: (size ++ payload) ++ rest) =
      some (⟨first &&& 0x80 ≠ 0, first &&& 0x70, first &&& 0x0F, false, payload⟩, rest) := by
  have hKey : takeExact 0 (payload ++ rest) = some ([], payload ++ rest) := takeExact_append [] _ rfl
  simp [decode, hLength, hMask, hKey, takeExact_append _ rest rfl]

theorem decodeLength_short {marker : UInt8} {n : Nat} {stream : List UInt8} (hMarker : marker.toNat = n)
    (h : n ≤ 125) : decodeLength marker stream = some (n, stream) := by
  rw [decodeLength, if_pos (UInt8.le_iff_toNat_le.mpr (hMarker ▸ h)), hMarker]

theorem decodeLength_medium {stream : List UInt8} {n : Nat} (h : n < 65536) :
    decodeLength 126 (toBytesBe 2 n ++ stream) = some (n, stream) := by
  have hTaken :=
    takeExact_append _ stream (length_toBytesBe 2 n)
  have hField : beField (toBytesBe 2 n) 0 2 = n := by
    have := beField_toBytesBe 2 n []
    rw [List.append_nil] at this
    rw [this]
    exact Nat.mod_eq_of_lt h
  rw [decodeLength, if_neg (by decide), if_pos rfl, hTaken, Option.map_some, length_toBytesBe, hField]

end LuvFlicker.WireFrame
