import LuvFlicker.Lib.Block
import LuvFlicker.Lib.Bytes

/-!
# One WebSocket connection

The connection slot with its two fixed buffers, and the functions that put bytes
into the write buffer and take them out: `queue_bytes`, `queue_frame`,
`queue_close`, `close_with_code` and `flush`.
-/

namespace LuvFlicker.Ws

open Bytes

def kReadBufferBytes : Nat := 2048
def kWriteBufferBytes : Nat := 4096
def kMaxClientFrameHeaderBytes : Nat := 14
def kBackpressureCloseNs : UInt64 := 5000000
def kAcceptBytes : Nat := 28

/-! ## The write buffer -/

/-- The bytes between `offset` and `size` wait for the socket. -/
structure WriteBuffer where
  bytes : Nat → UInt8 := fun _ => 0
  offset : Nat := 0
  size : Nat := 0
  offset_le : offset ≤ size := by exact Nat.le_refl 0
  size_le : size ≤ kWriteBufferBytes := by exact Nat.zero_le _

namespace WriteBuffer

variable (w : WriteBuffer)

def pending : Nat := w.size - w.offset

def contents : List UInt8 := Block.slice w.bytes w.offset w.pending

def compacted : Nat → UInt8 :=
  if w.offset ≠ 0 ∧ w.pending ≠ 0 then Block.memmove w.bytes 0 w.offset w.pending else w.bytes

def queueBytes (bytes : List UInt8) : Bool × WriteBuffer :=
  if bytes.length = 0 then (true, w)
  else if bytes.length > kWriteBufferBytes then (false, w)
  else if h : w.pending + bytes.length > kWriteBufferBytes then (false, w)
  else
    (true,
      { bytes := Block.memcpy w.compacted w.pending bytes
        offset := 0
        size := w.pending + bytes.length
        offset_le := Nat.zero_le _
        size_le := Nat.le_of_not_lt h })

def outboundHeader (opcode : UInt8) (payloadSize : Nat) : List UInt8 :=
  if payloadSize ≤ 125 then [0x80 ||| opcode, UInt8.ofNat payloadSize]
  else [0x80 ||| opcode, 126, UInt8.ofNat (payloadSize >>> 8), UInt8.ofNat payloadSize]

def queueFrame (opcode : UInt8) (payload : List UInt8) : Bool × WriteBuffer :=
  if opcode &&& 0xF0 ≠ 0 ∨ payload.length > 0xFFFF then (false, w)
  else if w.pending + (outboundHeader opcode payload.length).length + payload.length > kWriteBufferBytes then (false, w)
  else
    match w.queueBytes (outboundHeader opcode payload.length) with
    | (true, headed) => headed.queueBytes payload
    | (false, unchanged) => (false, unchanged)

def closePayload (code : UInt16) (reason : List UInt8) : List UInt8 := (code >>> 8).toUInt8 :: code.toUInt8 :: reason

def queueClose (code : UInt16) (reason : List UInt8) : Bool × WriteBuffer :=
  if reason.length > 123 then (false, w) else w.queueFrame 0x08 (closePayload code reason)

def reset : WriteBuffer where
  bytes := w.bytes

def advance (count : Nat) : WriteBuffer where
  bytes := w.bytes
  offset := w.offset + min count w.pending
  size := w.size
  offset_le := by
    have hOffset := w.offset_le
    have hCount : min count w.pending ≤ w.size - w.offset := Nat.min_le_right ..
    omega
  size_le := w.size_le

end WriteBuffer

/-! ## The read buffer -/

structure ReadBuffer where
  bytes : Nat → UInt8 := fun _ => 0
  size : Nat := 0
  size_le : size ≤ kReadBufferBytes := by exact Nat.zero_le _

namespace ReadBuffer

variable (r : ReadBuffer)

def contents : List UInt8 := Block.slice r.bytes 0 r.size

def room : Nat := kReadBufferBytes - r.size

/-- The socket gave `chunk`, of which at most what was asked for is taken. -/
def append (chunk : List UInt8) : ReadBuffer where
  bytes := Block.memcpy r.bytes r.size (chunk.take r.room)
  size := r.size + (chunk.take r.room).length
  size_le := by
    have hChunk : (chunk.take r.room).length ≤ kReadBufferBytes - r.size := List.length_take_le ..
    have hSize := r.size_le
    omega

def unmask (headerSize payloadSize : Nat) : ReadBuffer where
  bytes := fun i =>
    if headerSize + 4 ≤ i ∧ i < headerSize + 4 + payloadSize then
      r.bytes i ^^^ r.bytes (headerSize + ((i - (headerSize + 4)) &&& 0x03))
    else r.bytes i
  size := r.size
  size_le := r.size_le

def discard (frameSize : Nat) : ReadBuffer where
  bytes := if r.size - frameSize ≠ 0 then Block.memmove r.bytes 0 frameSize (r.size - frameSize) else r.bytes
  size := r.size - frameSize
  size_le := (Nat.sub_le ..).trans r.size_le

end ReadBuffer

/-! ## Connections and sessions -/

structure Connection where
  isOpen : Bool := false
  orderId : UInt64 := 0
  lastPingNs : UInt64 := 0
  lastPongNs : UInt64 := 0
  writeBlockedSinceNs : UInt64 := 0
  awaitingPong : Bool := false
  closeAfterFlush : Bool := false
  fragmentedData : Bool := false
  read : ReadBuffer := {}
  write : WriteBuffer := {}

inductive Queued where
  | raw (bytes : List UInt8)
  | frame (opcode : UInt8) (payload : List UInt8)
  deriving DecidableEq

def Queued.encode : Queued → List UInt8
  | .raw bytes => bytes
  | .frame opcode payload => WriteBuffer.outboundHeader opcode payload.length ++ payload

structure Inbound where
  final : Bool
  opcode : UInt8
  payload : List UInt8
  deriving DecidableEq

structure Session where
  connection : Connection := {}
  incoming : List UInt8 := []
  received : List UInt8 := []
  handled : List Inbound := []
  queued : List Queued := []
  sent : List UInt8 := []

inductive SendResult where
  | sent (count : Nat)
  | interrupted
  | blocked
  | failed
  deriving DecidableEq

namespace Session

variable (s : Session)

def close : Session := if s.connection.isOpen then { s with connection := {} } else s

def recordQueued (outcome : Bool × WriteBuffer) (item : Queued) : Bool × Session := (outcome.1, { s with
      connection := { s.connection with write := outcome.2 }
      queued := if outcome.1 then s.queued ++ [item] else s.queued })

def queueBytes (bytes : List UInt8) : Bool × Session :=
  s.recordQueued (s.connection.write.queueBytes bytes) (.raw bytes)

def queueFrame (opcode : UInt8) (payload : List UInt8) : Bool × Session :=
  s.recordQueued (s.connection.write.queueFrame opcode payload) (.frame opcode payload)

def queueClose (code : UInt16) (reason : List UInt8) : Bool × Session :=
  s.recordQueued (s.connection.write.queueClose code reason) (.frame 0x08 (WriteBuffer.closePayload code reason))

def setCloseAfterFlush : Session := { s with connection := { s.connection with closeAfterFlush := true } }

def closeWithCode (code : UInt16) : Bool × Session :=
  match s.queueClose code [] with
  | (true, s') => (true, s'.setCloseAfterFlush)
  | (false, s') => (false, s'.close)

def drained : Bool × Session :=
  let s' : Session :=
    { s with connection := { s.connection with write := s.connection.write.reset, writeBlockedSinceNs := 0 } }
  if s.connection.closeAfterFlush then (false, s'.close) else (true, s')

def setBlockedSince (timestampNs : UInt64) : Session :=
  { s with connection := { s.connection with writeBlockedSinceNs := timestampNs } }

def stalled (timestampNs : UInt64) : Bool × Session :=
  if s.connection.writeBlockedSinceNs = 0 then (true, s.setBlockedSince timestampNs)
  else if timestampNs - s.connection.writeBlockedSinceNs ≥ kBackpressureCloseNs then (false, s.close)
  else (true, s)

def handOver (count : Nat) : Session :=
  { s with
    connection := { s.connection with write := s.connection.write.advance count }
    sent := s.sent ++ s.connection.write.contents.take count }

def flush (result : SendResult) (timestampNs : UInt64) : Bool × Session :=
  if s.connection.write.offset = s.connection.write.size then s.drained
  else
    match result with
    | .sent count =>
      if count = 0 then s.stalled timestampNs
      else
        let s' := s.handOver count
        if s'.connection.write.offset = s'.connection.write.size then s'.drained
        else (true, s'.setBlockedSince timestampNs)
    | .interrupted => (true, s)
    | .failed => (false, s.close)
    | .blocked => s.stalled timestampNs

end Session

/-! ## The handshake -/

def handshakeHead : List UInt8 :=
  [72, 84, 84, 80, 47, 49, 46, 49, 32, 49, 48, 49, 32, 83, 119, 105, 116, 99, 104, 105, 110, 103, 32, 80, 114, 111,
    116, 111, 99, 111, 108, 115, 13, 10, 85, 112, 103, 114, 97, 100, 101, 58, 32, 119, 101, 98, 115, 111, 99, 107,
    101, 116, 13, 10, 67, 111, 110, 110, 101, 99, 116, 105, 111, 110, 58, 32, 85, 112, 103, 114, 97, 100, 101, 13,
    10, 83, 101, 99, 45, 87, 101, 98, 83, 111, 99, 107, 101, 116, 45, 65, 99, 99, 101, 112, 116, 58, 32]

def handshake (accept : List UInt8) : List UInt8 := handshakeHead ++ accept ++ [13, 10, 13, 10]

/-- An upgrade with a valid key, whose accept text is the base64 form of a digest. The HTTP server may have read bytes
behind the request, at most a read buffer of them; `incoming` is what the client sends behind those. -/
structure Upgrade where
  orderId : UInt64
  accept : List UInt8
  accept_size : accept.length = kAcceptBytes
  preRead : ReadBuffer
  incoming : List UInt8

def Session.fresh (upgrade : Upgrade) (timestampNs : UInt64) : Session where
  connection :=
    { isOpen := true, orderId := upgrade.orderId, lastPingNs := timestampNs, lastPongNs := timestampNs,
      read := upgrade.preRead }
  incoming := upgrade.incoming
  received := upgrade.preRead.contents

/-- `accept_upgrade` on a free slot up to the response, which has to fit its array of 192 bytes. -/
def Session.upgraded (upgrade : Upgrade) (timestampNs : UInt64) : Session :=
  if (handshake upgrade.accept).length ≥ 192 then (fresh upgrade timestampNs).close
  else
    match (fresh upgrade timestampNs).queueBytes (handshake upgrade.accept) with
    | (true, s) => s
    | (false, s) => s.close

end LuvFlicker.Ws
