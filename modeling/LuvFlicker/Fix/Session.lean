import LuvFlicker.Fix.Message
import LuvFlicker.Lib.Block
import LuvFlicker.Lib.Text

/-!
# FIX sessions

Three formatters print a body into an array on the stack with `snprintf`, and copy
it behind a header into the output buffer. `snprintf` stores what fits and returns
the length of the whole text.
-/

namespace LuvFlicker.Fix

open Bytes Block

/-- An argument of `snprintf`, by its conversion. -/
inductive Arg where
  /-- Text of the format itself. -/
  | lit (text : List UInt8)
  /-- `%.*s` with the size and the data of a view. -/
  | str (view : List UInt8)
  /-- `%c`. -/
  | chr (c : UInt8)
  /-- `%llu` or `%u`. -/
  | unsigned (n : UInt64)
  /-- `%lld`. -/
  | signed (i : Int64)
  deriving DecidableEq, Repr

def toInt (i : Int) : Int := (BitVec.ofInt 32 i).toInt

namespace Arg

/-- `%.*s` prints up to a zero byte; the size is converted to `int`, and one that comes out negative is no limit. -/
def printView (view : List UInt8) : List UInt8 :=
  if toInt view.length < 0 then Text.cstr view else Text.cstr (view.take (toInt view.length).toNat)

def print : Arg → List UInt8
  | lit text => text
  | str view => printView view
  | chr c => [c]
  | unsigned n => Decimal.text n.toNat
  | signed i => Decimal.signed i.toInt

def text : Arg → List UInt8
  | str view => view
  | arg => arg.print

end Arg

structure Slot where
  tag : UInt32
  arg : Arg
  deriving DecidableEq, Repr

namespace Slot

def printed (slot : Slot) : FixField := ⟨slot.tag, slot.arg.print⟩

def passed (slot : Slot) : FixField := ⟨slot.tag, slot.arg.text⟩

end Slot

def printedBody (slots : List Slot) : List UInt8 := (slots.map Slot.printed).flatMap FixField.text

def passedBody (slots : List Slot) : List UInt8 := (slots.map Slot.passed).flatMap FixField.text

/-- What `snprintf` returns: the length of the text, if that is an `int`. -/
def snprintfLength (text : List UInt8) : Int := if text.length < 2 ^ 31 then text.length else -1

def snprintfStored (capacity : Nat) (text : List UInt8) : List UInt8 :=
  if capacity = 0 then [] else text.take (capacity - 1) ++ [0]

/-- The memory before a call: the output buffer and the array for the body. -/
structure Buffers where
  out : Nat → UInt8
  body : Nat → UInt8

structure Formatted where
  ret : UInt64 := 0
  /-- The bytes of the array that were stored. -/
  initialised : Nat := 0
  /-- The bytes of the array that were read. -/
  read : Nat := 0
  /-- Where the writes into the buffer end. -/
  extent : Nat := 0
  out : Nat → UInt8

def header (bodyLen : Int) : List UInt8 := ascii "8=FIX.4.4\x01" ++ (ascii "9=" ++ Decimal.signed bodyLen ++ [soh])

def totalPayload (bodyLen : Int) : UInt64 := UInt64.ofInt (toInt ((header bodyLen).length + bodyLen))

def assemble (capacity : Nat) (text : List UInt8) (maxLen : UInt64) (buffers : Buffers) : Formatted :=
  let bodyLen := snprintfLength text
  let body := memcpy buffers.body 0 (snprintfStored capacity text)
  let copied := (UInt64.ofInt bodyLen).toNat
  let total := totalPayload bodyLen
  let out := memcpy (memcpy buffers.out 0 (header bodyLen)) (header bodyLen).length (slice body 0 copied)
  let cksum := byteSum (slice out 0 total.toNat) % 256
  let trailer := snprintfStored (maxLen - total).toNat (ascii "10=" ++ (Decimal.padded cksum.toNat ++ [soh]))
  { ret := total + 7
    initialised := (snprintfStored capacity text).length
    read := copied
    extent := max ((header bodyLen).length + copied) (total.toNat + trailer.length)
    out := memcpy out total.toNat trailer }

structure FixSession where
  senderCompId : List UInt8
  targetCompId : List UInt8
  nextOutSeq : UInt64 := 1
  deriving DecidableEq, Repr

structure ExecutionReport where
  clordid : UInt64
  orderId : UInt64
  execId : UInt64
  execType : UInt8
  ordStatus : UInt8
  symbol : List UInt8
  side : UInt8
  orderQty : Int64
  price : Int64
  cumQty : Int64
  leavesQty : Int64
  deriving DecidableEq, Repr

namespace FixSession

variable (session : FixSession)

def opening (msgType : String) : List Slot :=
  [⟨35, .lit (ascii msgType)⟩, ⟨49, .str session.senderCompId⟩, ⟨56, .str session.targetCompId⟩,
    ⟨34, .unsigned session.nextOutSeq⟩, ⟨52, .lit (ascii "20260908-00:00:00.000")⟩]

def reportSlots (r : ExecutionReport) : List Slot := session.opening "8" ++
    [⟨11, .unsigned r.clordid⟩, ⟨37, .unsigned r.orderId⟩, ⟨17, .unsigned r.execId⟩, ⟨150, .chr r.execType⟩,
      ⟨39, .chr r.ordStatus⟩, ⟨55, .str r.symbol⟩, ⟨54, .chr r.side⟩, ⟨38, .signed r.orderQty⟩, ⟨44, .signed r.price⟩,
      ⟨14, .signed r.cumQty⟩, ⟨151, .signed r.leavesQty⟩]

def logonSlots (heartbeatSec : UInt32) : List Slot :=
  session.opening "A" ++ [⟨98, .lit (ascii "0")⟩, ⟨108, .unsigned heartbeatSec.toUInt64⟩]

def heartbeatSlots (testReqId : List UInt8) : List Slot :=
  if testReqId ≠ [] then session.opening "0" ++ [⟨112, .str testReqId⟩] else session.opening "0"

def advance : FixSession := { session with nextOutSeq := session.nextOutSeq + 1 }

def formatExecutionReport (r : ExecutionReport) (maxLen : UInt64) (buffers : Buffers) : Formatted × FixSession :=
  if maxLen < 128 then ({ out := buffers.out }, session)
  else
    let text := printedBody (session.reportSlots r)
    if snprintfLength text ≤ 0 then ({ out := buffers.out }, session.advance)
    else if totalPayload (snprintfLength text) + 16 > maxLen then ({ out := buffers.out }, session.advance)
    else (assemble 512 text maxLen buffers, session.advance)

def formatLogon (heartbeatSec : UInt32) (maxLen : UInt64) (buffers : Buffers) : Formatted × FixSession :=
  if maxLen < 128 then ({ out := buffers.out }, session)
  else (assemble 256 (printedBody (session.logonSlots heartbeatSec)) maxLen buffers, session.advance)

def formatHeartbeat (testReqId : List UInt8) (maxLen : UInt64) (buffers : Buffers) : Formatted × FixSession :=
  if maxLen < 128 then ({ out := buffers.out }, session)
  else (assemble 256 (printedBody (session.heartbeatSlots testReqId)) maxLen buffers, session.advance)

end FixSession

/-! ## What a message is to be -/

def Formatted.message (f : Formatted) : List UInt8 := slice f.out 0 f.ret.toNat

/-- The length field gives the number of bytes between it and the field of the checksum. -/
def Framed (message : List UInt8) : Prop :=
  ∃ body rest : List UInt8, message = header body.length ++ (body ++ rest) ∧ body.getLast? = some soh ∧
    ascii "10=" <+: rest

/-- The message stays within its buffers, and reads back as it was passed in. -/
structure Sound (slots : List Slot) (maxLen : UInt64) (f : Formatted) : Prop where
  initialised : f.read ≤ f.initialised
  within : f.extent ≤ maxLen.toNat
  ret_le : f.ret ≤ maxLen
  framed : Framed f.message
  checksum : verifyChecksum f.message = true
  parses : (parse f.message).1 = true
  fields : ∀ slot ∈ slots, get (parse f.message).2 slot.tag = slot.arg.text

/-- A view without zero bytes, or a character that does not end a field. -/
def Arg.Clean : Arg → Prop
  | str view => 0 ∉ view
  | chr c => c ≠ soh
  | _ => True

instance (arg : Arg) : Decidable arg.Clean :=
  match arg with
  | .str _ => inferInstanceAs (Decidable (¬ _))
  | .chr _ => inferInstanceAs (Decidable (_ ≠ _))
  | .lit _ | .unsigned _ | .signed _ => isTrue trivial

/-- The values are clean, and the body is shorter than its array. -/
structure Fits (capacity : Nat) (slots : List Slot) : Prop where
  clean : ∀ slot ∈ slots, slot.arg.Clean
  body : (passedBody slots).length < capacity

def HasRoom (maxLen : UInt64) (slots : List Slot) : Prop :=
  (header (passedBody slots).length).length + (passedBody slots).length + 7 ≤ maxLen.toNat

end LuvFlicker.Fix
