import LuvFlicker.Ws.Connection

/-!
# Frames from the client

`consume_frame` takes one frame off the read buffer, `receive` takes all complete
frames and reads on, at most eight times.
-/

namespace LuvFlicker.Ws

open Bytes

inductive FrameResult where
  | incomplete
  | consumed
  | protocolError
  | invalidUtf8
  | messageTooLarge
  deriving DecidableEq

structure FrameHeader where
  final : Bool
  opcode : UInt8
  headerSize : Nat
  payloadSize : Nat
  deriving DecidableEq

def FrameHeader.frameSize (h : FrameHeader) : Nat := h.headerSize + 4 + h.payloadSize

def FrameHeader.control (h : FrameHeader) : Bool := h.opcode &&& 0x08 ≠ 0

def payloadLength (marker : UInt8) (input : List UInt8) : Except FrameResult (Nat × Nat) :=
  if marker ≤ 125 then .ok (2, marker.toNat)
  else if marker = 126 then
    if input.length < 4 then .error .incomplete
    else if beField input 2 2 < 126 then .error .protocolError
    else .ok (4, beField input 2 2)
  else if input.length < 10 then .error .incomplete
  else if byteAt input 2 &&& 0x80 ≠ 0 then .error .protocolError
  else if beField input 2 8 ≤ 0xFFFF then .error .protocolError
  else .ok (10, beField input 2 8)

/-- The checks of `consume_frame` that only read, up to the frame being complete. -/
def parseHeader (input : List UInt8) : Except FrameResult FrameHeader :=
  if input.length < 2 then .error .incomplete
  else if byteAt input 0 &&& 0x70 ≠ 0 ∨ byteAt input 1 &&& 0x80 = 0 then .error .protocolError
  else
    match payloadLength (byteAt input 1 &&& 0x7F) input with
    | .error result => .error result
    | .ok (headerSize, payloadSize) =>
      let h : FrameHeader := ⟨byteAt input 0 &&& 0x80 ≠ 0, byteAt input 0 &&& 0x0F, headerSize, payloadSize⟩
      if h.control ∧ (¬ h.final ∨ payloadSize > 125) then .error .protocolError
      else if payloadSize > kReadBufferBytes - kMaxClientFrameHeaderBytes then .error .messageTooLarge
      else if input.length < h.frameSize then .error .incomplete
      else .ok h

def validCloseCode (code : Nat) : Bool :=
  (3000 ≤ code ∧ code ≤ 4999) ∨ (1000 ≤ code ∧ code ≤ 1014 ∧ code ≠ 1004 ∧ code ≠ 1005 ∧ code ≠ 1006)

def continueCodePoint (bits : Nat) : List UInt8 → Option Nat
  | [] => some bits
  | next :: rest => if next &&& 0xC0 ≠ 0x80 then none else continueCodePoint (bits <<< 6 ||| (next &&& 0x3F).toNat) rest

def validCodePoint (minimum : Nat) : Option Nat → Bool
  | none => false
  | some codePoint => ¬ (codePoint < minimum ∨ codePoint > 0x10FFFF ∨ (0xD800 ≤ codePoint ∧ codePoint ≤ 0xDFFF))

def validUtf8 : List UInt8 → Bool
  | [] => true
  | first :: rest =>
    if first ≤ 0x7F then validUtf8 rest
    else if first &&& 0xE0 = 0xC0 then
      match rest with
      | a :: rest => validCodePoint 0x80 (continueCodePoint (first &&& 0x1F).toNat [a]) && validUtf8 rest
      | _ => false
    else if first &&& 0xF0 = 0xE0 then
      match rest with
      | a :: b :: rest => validCodePoint 0x800 (continueCodePoint (first &&& 0x0F).toNat [a, b]) && validUtf8 rest
      | _ => false
    else if first &&& 0xF8 = 0xF0 then
      match rest with
      | a :: b :: c :: rest =>
        validCodePoint 0x10000 (continueCodePoint (first &&& 0x07).toNat [a, b, c]) && validUtf8 rest
      | _ => false
    else false

namespace Session

variable (s : Session)

section

variable (h : FrameHeader)

def unmaskFrame : Session :=
  { s with connection := { s.connection with read := s.connection.read.unmask h.headerSize h.payloadSize } }

def framePayload : List UInt8 := Block.slice s.connection.read.bytes (h.headerSize + 4) h.payloadSize

def recordHandled (frame : Inbound) : Session := { s with handled := s.handled ++ [frame] }

def dropFrame : Session :=
  { s with connection := { s.connection with read := s.connection.read.discard h.frameSize } }

/-- A reply that does not fit ends the connection and the call; the other outcome goes on behind the `switch`. -/
def reply (opcode : UInt8) (payload : List UInt8) : Option FrameResult × Session :=
  match s.queueFrame opcode payload with
  | (true, s') => (none, s')
  | (false, s') => (some .consumed, s'.close)

def handleClose (payload : List UInt8) : Option FrameResult × Session :=
  if payload.length = 1 then (some .protocolError, s)
  else if payload.length ≥ 2 ∧ ¬ validCloseCode (beField payload 0 2) then (some .protocolError, s)
  else if payload.length > 2 ∧ ¬ validUtf8 (payload.drop 2) then (some .invalidUtf8, s)
  else
    match s.reply 0x08 payload with
    | (none, s') => (none, s'.setCloseAfterFlush)
    | (some result, s') => (some result, s')

def pong (timestampNs : UInt64) : Session :=
  { s with
    connection :=
      { s.connection with
        lastPongNs := timestampNs
        awaitingPong := s.connection.awaitingPong && !(timestampNs ≥ s.connection.lastPingNs) } }

def setFragmented (fragmented : Bool) : Session :=
  { s with connection := { s.connection with fragmentedData := fragmented } }

def handleData : Option FrameResult × Session :=
  if h.opcode = 0x00 then
    if ¬ s.connection.fragmentedData then (some .protocolError, s)
    else if h.final then (none, s.setFragmented false)
    else (none, s)
  else if h.opcode = 0x01 ∨ h.opcode = 0x02 then
    if s.connection.fragmentedData then (some .protocolError, s) else (none, s.setFragmented !h.final)
  else (some .protocolError, s)

def handleFrame (payload : List UInt8) (timestampNs : UInt64) : Option FrameResult × Session :=
  if h.control then
    if h.opcode = 0x08 then s.handleClose payload
    else if h.opcode = 0x09 then s.reply 0x0A payload
    else if h.opcode = 0x0A then (none, s.pong timestampNs)
    else (none, s)
  else s.handleData h

end

def consumeFrame (timestampNs : UInt64) : FrameResult × Session :=
  match parseHeader s.connection.read.contents with
  | .error result => (result, s)
  | .ok h =>
    let unmasked := s.unmaskFrame h
    let payload := unmasked.framePayload h
    match (unmasked.recordHandled ⟨h.final, h.opcode, payload⟩).handleFrame h payload timestampNs with
    | (some result, s') => (result, s')
    | (none, s') => (.consumed, s'.dropFrame h)

end Session

inductive Turn where
  | again
  | wait
  | done (result : Bool)
  deriving DecidableEq

/-- What the socket does when it is read: it has up to `count` of the incoming bytes, or none and one of four reasons. -/
inductive RecvResult where
  | bytes (count : Nat)
  | ended
  | interrupted
  | wouldBlock
  | failed
  deriving DecidableEq

namespace Session

variable (s : Session)

def refuse (code : UInt16) : Turn × Session :=
  match s.closeWithCode code with
  | (result, s') => (.done result, s')

section

variable (timestampNs : UInt64)

def turn : Turn × Session :=
  match s.consumeFrame timestampNs with
  | (.consumed, s') => (if ¬ s'.connection.isOpen ∨ s'.connection.closeAfterFlush then .done true else .again, s')
  | (.protocolError, s') => s'.refuse 1002
  | (.invalidUtf8, s') => s'.refuse 1007
  | (.messageTooLarge, s') => s'.refuse 1009
  | (.incomplete, s') => (.wait, s')

def consumeFrames (timestampNs : UInt64) : Nat → Session → Turn × Session
  | 0, s => (.wait, s)
  | fuel + 1, s =>
    match s.turn timestampNs with
    | (.again, s') => consumeFrames timestampNs fuel s'
    | (.wait, s') => (.wait, s')
    | (.done result, s') => (.done result, s')

def chunk (count : Nat) : List UInt8 := s.incoming.take (min count s.connection.read.room)

def recvChunk (count : Nat) : Session :=
  { s with
    connection := { s.connection with read := s.connection.read.append (s.chunk count) }
    incoming := s.incoming.drop (s.chunk count).length
    received := s.received ++ s.chunk count }

/-- The call of `recv` and what follows it; `again` starts the next pass. -/
def recv (result : RecvResult) : Turn × Session :=
  match result with
  | .bytes count => if (s.chunk count).isEmpty then (.done true, s) else (.again, s.recvChunk count)
  | .ended => (.done false, s.close)
  | .interrupted => (.again, s)
  | .wouldBlock => (.done true, s)
  | .failed => (.done false, s.close)

def receivePass (result : RecvResult) : Turn × Session :=
  match consumeFrames timestampNs (s.connection.read.size + 1) s with
  | (.done value, s') => (.done value, s')
  | (_, s') =>
    if s'.connection.closeAfterFlush then (.done true, s')
    else if s'.connection.read.size = kReadBufferBytes then s'.refuse 1009
    else s'.recv result

/-- The passes of `receive`; when the list of results is used up the socket has no more bytes. -/
def receivePasses (timestampNs : UInt64) : Nat → List RecvResult → Session → Bool × Session
  | 0, _, s => (true, s)
  | pass + 1, results, s =>
    match s.receivePass timestampNs (results.headD .wouldBlock) with
    | (.done value, s') => (value, s')
    | (_, s') => receivePasses timestampNs pass results.tail s'

def receive (results : List RecvResult) : Bool × Session := receivePasses timestampNs 8 results s

end

def acceptUpgrade (upgrade : Upgrade) (timestampNs receivedNs : UInt64) (results : List RecvResult) : Session :=
  let s := upgraded upgrade timestampNs
  if s.connection.read.size ≠ 0 then (s.receive receivedNs results).2 else s

end Session

/-! ## The worker on one connection -/

structure KeepAlive where
  pingIntervalNs : UInt64
  pongTimeoutNs : UInt64

structure Readiness where
  readable : Bool
  writable : Bool
  hangup : Bool
  results : List RecvResult
  send : SendResult
  timestampNs : UInt64

inductive Event where
  | io (ready : Readiness)
  | fill (payload : List UInt8)
  | tick (timestampNs : UInt64)

namespace Session

variable (s : Session)

def fanOut (payload : List UInt8) : Session :=
  if ¬ s.connection.isOpen ∨ s.connection.closeAfterFlush then s
  else
    match s.queueFrame 0x01 payload with
    | (true, s') => s'
    | (false, s') => s'.close

def sendPing (timestampNs : UInt64) : Session :=
  match s.queueFrame 0x09 [] with
  | (true, s') =>
    { s' with connection := { s'.connection with lastPingNs := timestampNs, awaitingPong := true } }
  | (false, s') => s'.close

def serviceKeepalive (keepAlive : KeepAlive) (s : Session) (timestampNs : UInt64) : Session :=
  if ¬ s.connection.isOpen then s
  else if s.connection.write.offset ≠ s.connection.write.size ∧ s.connection.writeBlockedSinceNs ≠ 0 ∧
      timestampNs - s.connection.writeBlockedSinceNs ≥ kBackpressureCloseNs then s.close
  else if s.connection.closeAfterFlush then s
  else if s.connection.awaitingPong then
    if timestampNs - s.connection.lastPingNs ≥ keepAlive.pongTimeoutNs then s.close else s
  else if keepAlive.pingIntervalNs = 0 ∨ timestampNs - s.connection.lastPingNs < keepAlive.pingIntervalNs then s
  else s.sendPing timestampNs

variable (ready : Readiness)

def readInput : Session :=
  if ready.readable then (s.receive ready.timestampNs ready.results).2 else s

def flushOutput : Session :=
  if s.connection.isOpen ∧
      (ready.writable ∨ s.connection.closeAfterFlush ∧ s.connection.write.offset ≠ s.connection.write.size) then
    (s.flush ready.send ready.timestampNs).2
  else s

def endHangup : Session :=
  if s.connection.isOpen ∧ ready.hangup ∧
      (¬ s.connection.closeAfterFlush ∨ s.connection.write.offset = s.connection.write.size) then s.close
  else s

def ioPass : Session :=
  if s.connection.isOpen then ((s.readInput ready).flushOutput ready).endHangup ready else s

end Session

def Event.step (keepAlive : KeepAlive) (event : Event) (s : Session) : Unit × Session :=
  match event with
  | .io ready => ((), s.ioPass ready)
  | .fill payload => ((), s.fanOut payload)
  | .tick timestampNs => ((), s.serviceKeepalive keepAlive timestampNs)

end LuvFlicker.Ws
