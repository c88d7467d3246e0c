import LuvFlicker.Ws.Frames
import LuvFlicker.Ws.Output

/-!
# What the bytes of a client call for

`react` says, from the bytes alone and whether a message is open, what the front of
the input calls for: more bytes, a refusal with a close code, or a frame to take
with its reply.
-/

namespace LuvFlicker.Ws

open Bytes List Block ReadBuffer Option

inductive Reaction where
  | wait
  | refuse (frame : Option Inbound) (code : UInt16)
  | take (frame : Inbound) (reply : Option (UInt8 × List UInt8)) (fragmented : Bool) (size : Nat)
  deriving DecidableEq

def closeRefusal (payload : List UInt8) : Option UInt16 :=
  if payload.length = 1 ∨ payload.length ≥ 2 ∧ ¬ validCloseCode (beField payload 0 2) then some 1002
  else if payload.length > 2 ∧ ¬ validUtf8 (payload.drop 2) then some 1007
  else none

def nextFragmented (fragmented : Bool) (h : FrameHeader) : Option Bool :=
  if h.opcode = 0x00 then if fragmented then some !h.final else none
  else if h.opcode = 0x01 ∨ h.opcode = 0x02 then if fragmented then none else some !h.final
  else none

def clientPayload (input : List UInt8) (h : FrameHeader) : List UInt8 :=
  WireFrame.unmask ((input.drop h.headerSize).take 4) ((input.drop (h.headerSize + 4)).take h.payloadSize)

def reactTo (fragmented : Bool) (h : FrameHeader) (payload : List UInt8) : Reaction :=
  let frame : Inbound := ⟨h.final, h.opcode, payload⟩
  if h.control then
    if h.opcode = 0x08 then
      match closeRefusal payload with
      | some code => .refuse (some frame) code
      | none => .take frame (some (0x08, payload)) fragmented h.frameSize
    else if h.opcode = 0x09 then .take frame (some (0x0A, payload)) fragmented h.frameSize
    else .take frame none fragmented h.frameSize
  else
    match nextFragmented fragmented h with
    | none => .refuse (some frame) 1002
    | some fragmented => .take frame none fragmented h.frameSize

def react (fragmented : Bool) (input : List UInt8) : Reaction :=
  match parseHeader input with
  | .error .incomplete => .wait
  | .error .messageTooLarge => .refuse none 1009
  | .error .protocolError => .refuse none 1002
  | .error .invalidUtf8 => .wait
  | .error .consumed => .wait
  | .ok h => reactTo fragmented h (clientPayload input h)

/-! ## The read buffer -/

namespace ReadBuffer

variable (r : ReadBuffer)

@[simp]
theorem length_contents : r.contents.length = r.size := length_slice ..

theorem contents_append (chunk : List UInt8) : (r.append chunk).contents = r.contents ++ chunk.take r.room :=
  slice_memcpy_append ..

theorem contents_discard (n : Nat) : (r.discard n).contents = r.contents.drop n := by
  rw [contents, contents, drop_slice, zero_add, discard]
  dsimp only
  split
  · exact slice_memmove ..
  next hEmpty => rw [not_not.mp hEmpty, slice_zero, slice_zero]

theorem contents_unmask_discard {payloadSize : Nat} (headerSize : Nat) :
    ((r.unmask headerSize payloadSize).discard (headerSize + 4 + payloadSize)).contents =
      r.contents.drop (headerSize + 4 + payloadSize) := by
  rw [contents_discard, contents, contents, drop_slice, drop_slice]
  exact slice_congr fun k _ => if_neg (by omega)

variable {headerSize payloadSize : Nat}

theorem payload_unmask (h : headerSize + 4 + payloadSize ≤ r.size) :
    slice (r.unmask headerSize payloadSize).bytes (headerSize + 4) payloadSize =
      WireFrame.unmask ((r.contents.drop headerSize).take 4) ((r.contents.drop (headerSize + 4)).take payloadSize) := by
  have hKey : (r.contents.drop headerSize).take 4 = slice r.bytes headerSize 4 := by
    rw [contents, drop_slice, take_slice _ (by omega), zero_add]
  have hMasked : (r.contents.drop (headerSize + 4)).take payloadSize =
      slice r.bytes (headerSize + 4) payloadSize := by
    rw [contents, drop_slice, take_slice _ (by omega), zero_add]
  rw [hKey, hMasked]
  apply ext_getElem?
  intro k
  rw [WireFrame.unmask, getElem?_mapIdx, getElem?_slice, getElem?_slice]
  split
  · have hMask : k &&& 0x03 = k % 4 := Nat.and_two_pow_sub_one_eq_mod k 2
    have hByte : byteAt (slice r.bytes headerSize 4) (k % 4) = r.bytes (headerSize + k % 4) := by
      rw [byteAt, getD_eq_getElem?_getD, getElem?_slice, if_pos (Nat.mod_lt _ (by decide)), getD_some]
    have hInPlace : (r.unmask headerSize payloadSize).bytes (headerSize + 4 + k) =
        r.bytes (headerSize + 4 + k) ^^^ r.bytes (headerSize + ((headerSize + 4 + k - (headerSize + 4)) &&& 0x03)) :=
      if_pos (by omega)
    rw [map_some, hByte, hInPlace, Nat.add_sub_cancel_left, hMask]
  · rfl

end ReadBuffer

/-! ## The header of a frame -/

variable {input : List UInt8} {marker : UInt8} {result : FrameResult}

theorem payloadLength_error (h : payloadLength marker input = .error result) :
    result = .protocolError ∨ result = .incomplete ∧ input.length < 10 := by
  unfold payloadLength at h
  split at h
  · cases h
  split at h
  · split at h
    · cases h
      exact .inr ⟨rfl, by omega⟩
    split at h
    · cases h
      exact .inl rfl
    · cases h
  · split at h
    · cases h
      exact .inr ⟨rfl, ‹_›⟩
    split at h
    · cases h
      exact .inl rfl
    split at h
    · cases h
      exact .inl rfl
    · cases h

theorem payloadLength_ok (h : payloadLength marker input = .ok (headerSize, payloadSize)) :
    2 ≤ headerSize ∧ (headerSize ≤ 4 ∨ 0xFFFF < payloadSize) := by
  unfold payloadLength at h
  split at h
  · cases h
    exact ⟨le_refl 2, .inl (by decide)⟩
  split at h
  · split at h
    · cases h
    split at h
    · cases h
    · cases h
      exact ⟨by decide, .inl (le_refl 4)⟩
  · split at h
    · cases h
    split at h
    · cases h
    split at h
    · cases h
    · cases h
      exact ⟨by decide, .inr (by omega)⟩

theorem byteAt_append {i : Nat} (h : i < input.length) (more : List UInt8) :
    byteAt (input ++ more) i = byteAt input i := by
  rw [byteAt, byteAt, getD_eq_getElem?_getD, getD_eq_getElem?_getD, getElem?_append_left h]

theorem beField_append {offset width : Nat} (h : offset + width ≤ input.length)
    (more : List UInt8) : beField (input ++ more) offset width = beField input offset width := by
  rw [beField, beField, drop_append_of_le_length (by omega), take_append_of_le_length (by rw [length_drop]; omega)]

theorem payloadLength_append (more : List UInt8) (h : payloadLength marker input ≠ .error .incomplete) :
    payloadLength marker (input ++ more) = payloadLength marker input := by
  unfold payloadLength at h ⊢
  rw [length_append]
  split
  · rfl
  rename_i hLong
  rw [if_neg hLong] at h
  split
  next hMedium =>
    rw [if_pos hMedium] at h
    split at h
    · exact absurd rfl h
    next hRead => rw [beField_append (by omega), if_neg (by omega), if_neg hRead]
  next hMedium =>
    rw [if_neg hMedium] at h
    split at h
    · exact absurd rfl h
    next hRead => rw [beField_append (by omega), byteAt_append (by omega), if_neg (by omega), if_neg hRead]

theorem parseHeader_error (h : parseHeader input = .error result) :
    result = .protocolError ∨ result = .messageTooLarge ∨ result = .incomplete ∧ input.length < 2042 := by
  unfold parseHeader at h
  split at h
  · cases h
    exact .inr (.inr ⟨rfl, by omega⟩)
  split at h
  · cases h
    exact .inl rfl
  split at h
  next hLength =>
    cases h
    rcases payloadLength_error hLength with hError | ⟨hIncomplete, hShort⟩
    · exact .inl hError
    · exact .inr (.inr ⟨hIncomplete, by omega⟩)
  rename_i headerSize payloadSize hLength
  have hHeader := (payloadLength_ok hLength).2
  dsimp only at h
  split at h
  · cases h
    exact .inl rfl
  split at h
  · cases h
    exact .inr (.inl rfl)
  rename_i hSmall
  change ¬ payloadSize > 2034 at hSmall
  split at h
  next hShort =>
    change input.length < headerSize + 4 + payloadSize at hShort
    cases h
    exact .inr (.inr ⟨rfl, by omega⟩)
  · cases h

theorem parseHeader_ok {header : FrameHeader} (h : parseHeader input = .ok header) :
    header.frameSize ≤ input.length ∧ 6 ≤ header.frameSize := by
  unfold parseHeader at h
  split at h
  · cases h
  split at h
  · cases h
  split at h
  · cases h
  rename_i headerSize payloadSize hLength
  have hHeader := (payloadLength_ok hLength).1
  dsimp only at h
  split at h
  · cases h
  split at h
  · cases h
  split at h
  · cases h
  rename_i hComplete
  cases h
  refine ⟨not_lt.mp hComplete, ?_⟩
  change 6 ≤ headerSize + 4 + payloadSize
  omega

theorem parseHeader_append (more : List UInt8) (h : parseHeader input ≠ .error .incomplete) :
    parseHeader (input ++ more) = parseHeader input := by
  unfold parseHeader at h ⊢
  rw [length_append]
  split at h
  · exact absurd rfl h
  rename_i hTwo
  rw [if_neg (by omega), byteAt_append (by omega), byteAt_append (by omega)]
  split
  · rfl
  rename_i hBits
  rw [if_neg hBits] at h
  have hLength : payloadLength (byteAt input 1 &&& 0x7F) (input ++ more) =
      payloadLength (byteAt input 1 &&& 0x7F) input := by
    apply payloadLength_append
    intro hIncomplete
    rw [hIncomplete] at h
    exact h rfl
  rw [hLength]
  generalize payloadLength (byteAt input 1 &&& 0x7F) input = sizes at h
  cases sizes with
  | error result => rfl
  | ok sizes =>
    obtain ⟨_, _⟩ := sizes
    dsimp only at h ⊢
    split at h
    next hControl => rw [if_pos hControl, if_pos hControl]
    rename_i hControl
    rw [if_neg hControl, if_neg hControl]
    split at h
    next hLarge => rw [if_pos hLarge, if_pos hLarge]
    rename_i hLarge
    rw [if_neg hLarge, if_neg hLarge]
    split at h
    · exact absurd rfl h
    next hComplete => rw [if_neg (by omega), if_neg hComplete]

/-! ## One turn -/

def Queued.ofReply (reply : Option (UInt8 × List UInt8)) : List Queued := reply.toList.map fun r => .frame r.1 r.2

theorem Queued.flatMap_ofReply_some (opcode : UInt8) (payload : List UInt8) :
    (ofReply (some (opcode, payload))).flatMap encode = (frame opcode payload).encode :=
  flatMap_singleton ..

open Queued

namespace Session

def reaction (s : Session) : Reaction := react s.connection.fragmentedData s.connection.read.contents

def seen (s : Session) (frame : Option Inbound) (read : ReadBuffer) : Session :=
  { s with connection := { s.connection with read := read }, handled := s.handled ++ frame.toList }

theorem seen_none (s : Session) : s.seen none s.connection.read = s := by
  rw [seen, toList_none, append_nil]

inductive Turns (s : Session) : Turn × Session → Prop where
  | wait (hReact : s.reaction = .wait) : Turns s (.wait, s)
  | refused {frame : Option Inbound} {code : UInt16} {read : ReadBuffer} {write : WriteBuffer}
      (hReact : s.reaction = .refuse frame code)
      (hFits : s.connection.write.Fits 0x08 (WriteBuffer.closePayload code []))
      (hWrite : write.contents =
        s.connection.write.contents ++ (Queued.frame 0x08 (WriteBuffer.closePayload code [])).encode) :
      Turns s (.done true,
        { s.seen frame read with
          connection := { s.connection with read := read, write := write, closeAfterFlush := true }
          queued := s.queued ++ [.frame 0x08 (WriteBuffer.closePayload code [])] })
  | refusedFull {frame : Option Inbound} {code : UInt16} (hReact : s.reaction = .refuse frame code)
      (hFull : ¬ s.connection.write.Fits 0x08 (WriteBuffer.closePayload code [])) :
      Turns s (.done false, { s.seen frame {} with connection := {} })
  | taken {frame : Inbound} {reply : Option (UInt8 × List UInt8)} {fragmented : Bool} {size : Nat}
      {connection : Connection} (hReact : s.reaction = .take frame reply fragmented size)
      (hFits : ∀ r ∈ reply, s.connection.write.Fits r.1 r.2)
      (hOpen : connection.isOpen = true) (hOrder : connection.orderId = s.connection.orderId)
      (hClosing : connection.closeAfterFlush = (s.connection.closeAfterFlush || reply.any fun r => r.1 = 0x08))
      (hFragmented : connection.fragmentedData = fragmented)
      (hRead : connection.read.contents = s.connection.read.contents.drop size)
      (hWrite : connection.write.contents =
        s.connection.write.contents ++ (Queued.ofReply reply).flatMap Queued.encode) :
      Turns s (if connection.closeAfterFlush then .done true else .again,
        { s.seen (some frame) {} with connection := connection, queued := s.queued ++ Queued.ofReply reply })
  | takenFull {frame : Inbound} {reply : UInt8 × List UInt8} {fragmented : Bool} {size : Nat}
      (hReact : s.reaction = .take frame (some reply) fragmented size)
      (hFull : ¬ s.connection.write.Fits reply.1 reply.2) :
      Turns s (.done true, { s.seen (some frame) {} with connection := {} })

variable {s : Session}

theorem Turns.of_refuse {frame : Option Inbound} {code : UInt16} (hReact : s.reaction = .refuse frame code)
    (hOpen : s.connection.isOpen = true) (read : ReadBuffer) : s.Turns ((s.seen frame read).refuse code) := by
  rw [refuse, closeWithCode, queueClose_nil]
  by_cases hFits : s.connection.write.Fits 0x08 (WriteBuffer.closePayload code [])
  · obtain ⟨_, hWrite, hQueued⟩ := queueFrame_of_fits (s := s.seen _ read) hFits
    rw [hQueued]
    exact .refused hReact hFits hWrite
  rw [queueFrame_of_full (s := s.seen _ read) hFits]
  dsimp only
  rw [close_of_open (s := s.seen _ read) hOpen]
  exact .refusedFull hReact hFits

/-- The part of `consume_frame` behind the `switch`, and the test that follows it in `receive`. -/
def afterHandling (h : FrameHeader) (outcome : Option FrameResult × Session) : Turn × Session :=
  match outcome with
  | (some .consumed, s) => (if ¬ s.connection.isOpen ∨ s.connection.closeAfterFlush then .done true else .again, s)
  | (some .protocolError, s) => s.refuse 1002
  | (some .invalidUtf8, s) => s.refuse 1007
  | (some .messageTooLarge, s) => s.refuse 1009
  | (some .incomplete, s) => (.wait, s)
  | (none, s) => (if ¬ s.connection.isOpen ∨ s.connection.closeAfterFlush then .done true else .again, s.dropFrame h)

variable {h : FrameHeader}

theorem turn_of_ok (hParse : parseHeader s.connection.read.contents = .ok h) (timestampNs : UInt64) :
    s.turn timestampNs = afterHandling h ((s.seen (some ⟨h.final, h.opcode, clientPayload s.connection.read.contents h⟩)
              (s.connection.read.unmask h.headerSize h.payloadSize)).handleFrame h
          (clientPayload s.connection.read.contents h) timestampNs) := by
  have hPayload : (s.unmaskFrame h).framePayload h = clientPayload s.connection.read.contents h :=
    s.connection.read.payload_unmask (by rw [← length_contents]; exact (parseHeader_ok hParse).1)
  have hSeen : (s.unmaskFrame h).recordHandled ⟨h.final, h.opcode, clientPayload s.connection.read.contents h⟩ =
      s.seen (some ⟨h.final, h.opcode, clientPayload s.connection.read.contents h⟩)
        (s.connection.read.unmask h.headerSize h.payloadSize) := rfl
  rw [turn, consumeFrame, hParse]
  dsimp only
  rw [hPayload, hSeen]
  generalize handleFrame _ h _ timestampNs = outcome
  obtain ⟨result, _⟩ := outcome
  cases result with
  | none => rfl
  | some result => cases result <;> rfl

variable {frame : Inbound} {reply : Option (UInt8 × List UInt8)} {fragmented : Bool}

theorem Turns.of_handled {queued : List Queued} (connection : Connection)
    (hReact : s.reaction = .take frame reply fragmented h.frameSize)
    (hFits : ∀ r ∈ reply, s.connection.write.Fits r.1 r.2)
    (hOpen : connection.isOpen = true) (hOrder : connection.orderId = s.connection.orderId)
    (hClosing : connection.closeAfterFlush = (s.connection.closeAfterFlush || reply.any fun r => r.1 = 0x08))
    (hFragmented : connection.fragmentedData = fragmented)
    (hRead : connection.read = s.connection.read.unmask h.headerSize h.payloadSize)
    (hWrite : connection.write.contents = s.connection.write.contents ++ (ofReply reply).flatMap encode)
    (hQueued : queued = s.queued ++ ofReply reply) :
    s.Turns (afterHandling h (none, { s.seen (some frame) {} with connection := connection, queued := queued })) := by
  have hTaken := @Turns.taken s _ _ _ _ { connection with read := connection.read.discard _ } hReact
    hFits hOpen hOrder hClosing hFragmented
    (by rw [hRead]; exact s.connection.read.contents_unmask_discard _) hWrite
  have hGo : (¬ connection.isOpen = true ∨ connection.closeAfterFlush = true) = (connection.closeAfterFlush = true) :=
    propext (or_iff_right (not_not.mpr hOpen))
  rw [hQueued, afterHandling]
  simp only [hGo]
  exact hTaken

variable {size : Nat}

theorem Turns.of_full {reply : UInt8 × List UInt8} (hReact : s.reaction = .take frame (some reply) fragmented size)
    (hFull : ¬ s.connection.write.Fits reply.1 reply.2) :
    s.Turns (afterHandling h (some .consumed, { s.seen (some frame) {} with connection := {} })) :=
  .takenFull hReact hFull

theorem reply_cases (hOpen : s.connection.isOpen = true) (opcode : UInt8) (payload : List UInt8) :
    (∃ write : WriteBuffer, s.connection.write.Fits opcode payload ∧
        write.contents = s.connection.write.contents ++ (Queued.frame opcode payload).encode ∧
        s.reply opcode payload = (none,
          { s with connection := { s.connection with write := write }, queued := s.queued ++ [.frame opcode payload] })) ∨
      ¬ s.connection.write.Fits opcode payload ∧ s.reply opcode payload = (some .consumed, { s with connection := {} }) := by
  by_cases hFits : s.connection.write.Fits opcode payload
  · obtain ⟨write, hWrite, hQueued⟩ := queueFrame_of_fits hFits
    refine .inl ⟨_, hFits, hWrite, ?_⟩
    rw [reply, hQueued]
  refine .inr ⟨hFits, ?_⟩
  rw [reply, queueFrame_of_full hFits]
  dsimp only
  rw [close_of_open hOpen]

section Handling

variable {h : FrameHeader} {payload : List UInt8} (hOpen : s.connection.isOpen = true)
include hOpen

theorem turns_handleClose (hControl : h.control = true) (hOpcode : h.opcode = 0x08)
    (hReact : s.reaction = reactTo s.connection.fragmentedData h payload) :
    s.Turns (afterHandling h ((s.seen (some ⟨h.final, h.opcode, payload⟩)
      (s.connection.read.unmask h.headerSize h.payloadSize)).handleClose payload)) := by
  rw [reactTo, if_pos hControl, if_pos hOpcode] at hReact
  unfold handleClose
  split
  next hOne =>
    rw [show closeRefusal payload = some 1002 from if_pos (.inl hOne)] at hReact
    exact .of_refuse hReact hOpen _
  rename_i hOne
  split
  next hCode =>
    rw [show closeRefusal payload = some 1002 from if_pos (.inr hCode)] at hReact
    exact .of_refuse hReact hOpen _
  rename_i hCode
  have hValid := not_or.mpr ⟨hOne, hCode⟩
  split
  next hReason =>
    rw [show closeRefusal payload = some 1007 from (if_neg hValid).trans (if_pos hReason)] at hReact
    exact .of_refuse hReact hOpen _
  rename_i hReason
  rw [show closeRefusal payload = none from (if_neg hValid).trans (if_neg hReason)] at hReact
  obtain ⟨_, hFits, hWrite, hReply⟩ | ⟨hFull, hReply⟩ := reply_cases (s := s.seen _ (s.connection.read.unmask _ _))
    hOpen 0x08 _
  · rw [hReply]
    exact .of_handled _ hReact (fun r hr => mem_some_iff.mp hr ▸ hFits) hOpen rfl (Bool.or_true _).symm rfl rfl
      (by rw [hWrite, flatMap_ofReply_some]; rfl) rfl
  · rw [hReply]
    exact .of_full hReact hFull

theorem turns_handlePing
    (hReact : s.reaction = .take ⟨h.final, h.opcode, payload⟩ (some (0x0A, payload)) s.connection.fragmentedData
      h.frameSize) : s.Turns (afterHandling h ((s.seen (some ⟨h.final, h.opcode, payload⟩)
      (s.connection.read.unmask h.headerSize h.payloadSize)).reply 0x0A payload)) := by
  obtain ⟨_, hFits, hWrite, hReply⟩ | ⟨hFull, hReply⟩ := reply_cases (s := s.seen _ (s.connection.read.unmask _ _))
    hOpen 0x0A _
  · rw [hReply]
    exact .of_handled _ hReact (fun r hr => mem_some_iff.mp hr ▸ hFits) hOpen rfl (Bool.or_false _).symm rfl rfl
      (by rw [hWrite, flatMap_ofReply_some]; rfl) rfl
  · rw [hReply]
    exact .of_full hReact hFull

omit hOpen in
theorem Turns.of_silent {frame : Inbound} (connection : Connection)
    (hReact : s.reaction = .take frame none fragmented h.frameSize) (hOpen : connection.isOpen = true)
    (hOrder : connection.orderId = s.connection.orderId)
    (hClosing : connection.closeAfterFlush = s.connection.closeAfterFlush)
    (hFragmented : connection.fragmentedData = fragmented)
    (hRead : connection.read = s.connection.read.unmask h.headerSize h.payloadSize)
    (hWrite : connection.write = s.connection.write) :
    s.Turns (afterHandling h (none, { s.seen (some frame) {} with connection := connection })) :=
  .of_handled _ hReact (fun _ hr => nomatch hr) hOpen hOrder (hClosing.trans (Bool.or_false _).symm) hFragmented hRead
    (by rw [hWrite]; exact (append_nil _).symm) (append_nil _).symm

theorem turns_handleData (hControl : ¬ h.control = true)
    (hReact : s.reaction = reactTo s.connection.fragmentedData h payload) :
    s.Turns (afterHandling h ((s.seen (some ⟨h.final, h.opcode, payload⟩)
      (s.connection.read.unmask h.headerSize h.payloadSize)).handleData h)) := by
  rw [reactTo, if_neg hControl] at hReact
  have hRefused (hNext : nextFragmented s.connection.fragmentedData h = none) :
      s.Turns (afterHandling h (some .protocolError, s.seen (some ⟨h.final, h.opcode, payload⟩)
        (s.connection.read.unmask h.headerSize h.payloadSize))) := by
    rw [hNext] at hReact
    exact .of_refuse hReact hOpen _
  have hTaken {fragmented : Bool} (hNext : nextFragmented s.connection.fragmentedData h = some fragmented) :
      s.Turns (afterHandling h (none, (s.seen (some ⟨h.final, h.opcode, payload⟩)
        (s.connection.read.unmask h.headerSize h.payloadSize)).setFragmented fragmented)) := by
    rw [hNext] at hReact
    exact .of_silent { s.connection with
        read := s.connection.read.unmask _ _, fragmentedData := fragmented }
      hReact hOpen rfl rfl rfl rfl rfl
  unfold handleData
  split
  next hContinues =>
    have hNext : nextFragmented s.connection.fragmentedData h =
        if s.connection.fragmentedData then some !h.final else none := if_pos hContinues
    split
    next hNone => exact hRefused (hNext.trans (if_neg hNone))
    rename_i hOpened
    have hOpened : s.connection.fragmentedData = true := not_not.mp hOpened
    rw [if_pos hOpened] at hNext
    split
    next hFinal =>
      rw [hFinal] at hNext
      exact hTaken hNext
    rename_i hFinal
    rw [Bool.eq_false_iff.mpr hFinal] at hNext
    rw [hNext] at hReact
    exact .of_silent _ hReact hOpen rfl rfl hOpened rfl rfl
  next hContinues =>
    split
    next hStarts =>
      have hNext : nextFragmented s.connection.fragmentedData h =
          if s.connection.fragmentedData then none else some !h.final := (if_neg hContinues).trans (if_pos hStarts)
      split
      next hOpened => exact hRefused (hNext.trans (if_pos hOpened))
      next hNone => exact hTaken (hNext.trans (if_neg hNone))
    next hStarts => exact hRefused ((if_neg hContinues).trans (if_neg hStarts))

end Handling

theorem turn_turns (hOpen : s.connection.isOpen = true) (timestampNs : UInt64) : s.Turns (s.turn timestampNs) := by
  cases hParse : parseHeader s.connection.read.contents with
  | error result =>
    have hTurn : s.turn timestampNs = afterHandling ⟨false, 0, 0, 0⟩ (some result, s) := by
      rw [turn, consumeFrame, hParse]
      cases result <;> rfl
    have hRefused {code : UInt16} (hReact : s.reaction = .refuse none code) : s.Turns (s.refuse code) := by
      have hSeen := Turns.of_refuse hReact hOpen s.connection.read
      rwa [seen_none] at hSeen
    rw [hTurn]
    obtain rfl | rfl | ⟨rfl, -⟩ := parseHeader_error hParse
    · exact hRefused (by rw [reaction, react, hParse])
    · exact hRefused (by rw [reaction, react, hParse])
    · exact .wait (by rw [reaction, react, hParse])
  | ok h =>
    have hReact : s.reaction = reactTo s.connection.fragmentedData h (clientPayload s.connection.read.contents h) := by
      rw [reaction, react, hParse]
    rw [turn_of_ok hParse]
    unfold handleFrame
    split
    next hControl =>
      split
      next hClose => exact turns_handleClose hOpen hControl hClose hReact
      rename_i hClose
      rw [reactTo, if_pos hControl, if_neg hClose] at hReact
      split
      next hPing => exact turns_handlePing hOpen (hReact.trans (if_pos hPing))
      rename_i hPing
      have hReact := hReact.trans (if_neg hPing)
      split
      · exact .of_silent _ hReact hOpen rfl rfl rfl rfl rfl
      · exact .of_silent _ hReact hOpen rfl rfl rfl rfl rfl
    next hControl => exact turns_handleData hOpen hControl hReact

theorem reply_ne_incomplete (s : Session) (opcode : UInt8) (payload : List UInt8) :
    (s.reply opcode payload).1 ≠ some .incomplete := by
  rw [reply]
  split <;> exact nofun

theorem handleFrame_ne_incomplete (s : Session) (h : FrameHeader) (payload : List UInt8) (timestampNs : UInt64) :
    (s.handleFrame h payload timestampNs).1 ≠ some .incomplete := by
  unfold handleFrame
  split
  · split
    · unfold handleClose
      have hReply := s.reply_ne_incomplete 0x08 payload
      split
      · exact nofun
      split
      · exact nofun
      split
      · exact nofun
      generalize s.reply 0x08 payload = outcome at hReply
      obtain ⟨result, _⟩ := outcome
      cases result with
      | none => exact nofun
      | some result => exact hReply
    · split
      · exact s.reply_ne_incomplete 0x0A _
      · split <;> exact nofun
  · unfold handleData
    split
    · split
      · exact nofun
      · split <;> exact nofun
    · split
      · split <;> exact nofun
      · exact nofun

theorem size_of_incomplete (s : Session) {timestampNs : UInt64} (h : (s.consumeFrame timestampNs).1 = .incomplete) :
    (s.consumeFrame timestampNs).2.connection.read.size < 2042 := by
  unfold consumeFrame at h ⊢
  cases hParse : parseHeader s.connection.read.contents with
  | error result =>
    rw [hParse] at h
    cases (show result = .incomplete from h)
    rcases parseHeader_error hParse with hOther | hOther | ⟨-, hShort⟩
    · cases hOther
    · cases hOther
    · rwa [length_contents] at hShort
  | ok header =>
    rw [hParse] at h
    dsimp only at h
    have hOther := handleFrame_ne_incomplete ((s.unmaskFrame header).recordHandled
      ⟨header.final, header.opcode, (s.unmaskFrame header).framePayload header⟩) header
      ((s.unmaskFrame header).framePayload header) timestampNs
    generalize handleFrame _ header _ timestampNs = outcome at h hOther
    obtain ⟨result, _⟩ := outcome
    cases result with
    | none => cases h
    | some result => exact absurd (congrArg some h) hOther

variable {out : Turn × Session} {fragmented : Bool}

theorem Turns.order (h : s.Turns out) (hOpen : out.2.connection.isOpen = true) :
    out.2.connection.orderId = s.connection.orderId := by
  cases h with
  | wait | refused => rfl
  | refusedFull | takenFull => exact Bool.noConfusion hOpen
  | taken hReact hFits hOpen hOrder => exact hOrder

theorem Turns.accounted (h : s.Turns out) (hOpen : s.connection.isOpen = true)
    (hAccounted : s.Accounted) : out.2.Accounted := by
  have hAll := hAccounted.2 hOpen
  have hMore {items : List Queued} {contents : List UInt8}
      (hContents : contents = s.connection.write.contents ++ items.flatMap encode) :
      s.sent ++ contents = (s.queued ++ items).flatMap encode := by
    rw [hContents, ← append_assoc, hAll, flatMap_append, stream]
  cases h with
  | wait => exact hAccounted
  | refused hReact hFits hWrite => exact accounted_of_eq (hMore (by rw [hWrite, flatMap_singleton]))
  | refusedFull | takenFull => exact ⟨hAccounted.1, fun hOpen => Bool.noConfusion hOpen⟩
  | taken hReact hFits hOpen hOrder hClosing hFragmented hRead hWrite => exact accounted_of_eq (hMore hWrite)

/-! ## Whole calls of `receive` -/

def Live (s : Session) : Prop := s.connection.isOpen = true ∧ s.connection.closeAfterFlush = false

theorem live_upgraded (upgrade : Upgrade) (timestampNs : UInt64) : (upgraded upgrade timestampNs).Live := by
  rw [upgraded_eq]
  exact ⟨rfl, rfl⟩

theorem not_live_of_closed (h : s.connection.isOpen = false) : ¬ s.Live :=
  fun hLive => Bool.noConfusion (h.symm.trans hLive.1)

theorem not_live_of_closing (h : s.connection.closeAfterFlush = true) : ¬ s.Live :=
  fun hLive => Bool.noConfusion (h.symm.trans hLive.2)

variable {fragmented' : Bool}

theorem reactTo_take {h : FrameHeader} {payload : List UInt8}
    (hReact : reactTo fragmented h payload = .take frame reply fragmented' size) : size = h.frameSize := by
  unfold reactTo at hReact
  split at hReact
  · split at hReact
    · split at hReact
      · cases hReact
      · cases hReact
        rfl
    · split at hReact
      · cases hReact
        rfl
      · cases hReact
        rfl
  · split at hReact
    · cases hReact
    · cases hReact
      rfl

variable {input : List UInt8}

theorem react_take
    (hReact : react fragmented input = .take frame reply fragmented' size) : size ≤ input.length ∧ 6 ≤ size := by
  cases hParse : parseHeader input with
  | error result =>
    rw [react, hParse] at hReact
    cases result <;> cases hReact
  | ok h =>
    rw [react, hParse] at hReact
    rw [reactTo_take hReact]
    exact parseHeader_ok hParse

theorem react_wait (hReact : react fragmented input = .wait) : input.length < 2042 := by
  cases hParse : parseHeader input with
  | error result =>
    rw [react, hParse] at hReact
    obtain rfl | rfl | ⟨-, hShort⟩ := parseHeader_error hParse
    · cases hReact
    · cases hReact
    · exact hShort
  | ok h =>
    rw [react, hParse] at hReact
    unfold reactTo at hReact
    dsimp only at hReact
    split at hReact
    · split at hReact
      · split at hReact <;> cases hReact
      · split at hReact <;> cases hReact
    · split at hReact <;> cases hReact

theorem Turns.next (h : s.Turns out) : match out.1 with
    | .again => out.2.Live ∧ out.2.connection.read.size < s.connection.read.size
    | .wait => out.2 = s ∧ s.reaction = .wait
    | .done _ => ¬ out.2.Live := by
  cases h with
  | wait hReact => exact ⟨rfl, hReact⟩
  | refused => exact not_live_of_closing rfl
  | refusedFull | takenFull => exact not_live_of_closed rfl
  | @taken frame reply fragmented size connection hReact hFits hOpen hOrder hClosing hFragmented hRead hWrite =>
    cases hFlag : connection.closeAfterFlush with
    | true => exact not_live_of_closing hFlag
    | false =>
      refine ⟨⟨hOpen, hFlag⟩, ?_⟩
      have hSize := react_take hReact
      have hLength := congrArg List.length hRead
      rw [length_drop, length_contents, length_contents] at hLength
      rw [length_contents] at hSize
      dsimp only
      omega

/-- A property of a session and of what the socket still has for the call, kept by everything `receive` does. -/
structure Kept (P : List RecvResult → Session → Prop) : Prop where
  turn : ∀ {results s out}, s.Live → P results s → s.Turns out → P results out.2
  chunk : ∀ {results s count}, s.Live → P (.bytes count :: results) s → P results (s.recvChunk count)
  interrupted : ∀ {results s}, P (.interrupted :: results) s → P results s
  close : ∀ {result results s}, result = .ended ∨ result = .failed → P (result :: results) s →
    P (result :: results) s.close

variable {P : List RecvResult → Session → Prop} {results : List RecvResult}

theorem Kept.consumeFrames (hKept : Kept P) (timestampNs : UInt64) (fuel : Nat) :
    ∀ s : Session, s.Live → s.connection.read.size < fuel → P results s →
      match consumeFrames timestampNs fuel s with
      | (.done _, s') => P results s' ∧ ¬ s'.Live
      | (_, s') => P results s' ∧ s'.Live ∧ s'.reaction = .wait := by
  induction fuel with
  | zero => exact fun s _ hFuel => absurd hFuel (Nat.not_lt_zero _)
  | succ fuel ih =>
    intro s hLive hFuel hP
    have hTurns := turn_turns hLive.1 timestampNs
    have hNext := hTurns.next
    have hStep := hKept.turn hLive hP hTurns
    rw [Session.consumeFrames]
    generalize s.turn timestampNs = out at hNext hStep
    obtain ⟨turn, s'⟩ := out
    cases turn with
    | again => exact ih s' hNext.1 (lt_of_lt_of_le hNext.2 (Nat.le_of_lt_succ hFuel)) hStep
    | wait =>
      obtain ⟨rfl, hReact⟩ := hNext
      exact ⟨hStep, hLive, hReact⟩
    | done value => exact ⟨hStep, hNext⟩

theorem size_ne_of_wait (h : s.reaction = .wait) : s.connection.read.size ≠ kReadBufferBytes := by
  have hLength := react_wait h
  rw [length_contents] at hLength
  change _ ≠ 2048
  omega

def Ends (P : List RecvResult → Session → Prop) (passes : Nat) (results : List RecvResult) (s : Session) : Prop :=
  (∃ rest, P rest s) ∧ (results.length < passes → s.Live → s.reaction = .wait)

theorem Kept.receivePasses (hKept : Kept P) (timestampNs : UInt64) (passes : Nat) :
    ∀ (results : List RecvResult) (s : Session), s.Live → P results s →
      Ends P passes results (receivePasses timestampNs passes results s).2 := by
  induction passes with
  | zero => exact fun results s _ hP => ⟨⟨_, hP⟩, fun hShort => absurd hShort (Nat.not_lt_zero _)⟩
  | succ passes ih =>
    intro results s hLive hP
    have hFrames := hKept.consumeFrames timestampNs _ s hLive (Nat.lt_succ_self _) hP
    -- behind the inner loop the socket is read, unless the loop ended the call
    have hRead (s' : Session) (hP : P results s') (hLive : s'.Live) (hReact : s'.reaction = .wait) :
        Ends P (passes + 1) results (match s'.recv (results.headD .wouldBlock) with
          | (.done value, s') => (value, s')
          | (_, s') => Session.receivePasses timestampNs passes results.tail s').2 := by
      have hClosed : ¬ s'.close.Live := by
        rw [close_of_open hLive.1]
        exact not_live_of_closed rfl
      cases results with
      | nil => exact ⟨⟨_, hP⟩, fun _ _ => hReact⟩
      | cons result results =>
        cases result with
        | bytes count =>
          rw [headD_cons, recv]
          cases (s'.chunk count).isEmpty with
          | true => exact ⟨⟨_, hP⟩, fun _ _ => hReact⟩
          | false =>
            have hRest := ih _ (s'.recvChunk _) hLive (hKept.chunk hLive hP)
            exact ⟨hRest.1, fun hShort => hRest.2 (Nat.lt_of_succ_lt_succ hShort)⟩
        | ended => exact ⟨⟨_, hKept.close (.inl rfl) hP⟩, fun _ h => absurd h hClosed⟩
        | interrupted =>
          have hRest := ih _ s' hLive (hKept.interrupted hP)
          exact ⟨hRest.1, fun hShort => hRest.2 (Nat.lt_of_succ_lt_succ hShort)⟩
        | wouldBlock => exact ⟨⟨_, hP⟩, fun _ _ => hReact⟩
        | failed => exact ⟨⟨_, hKept.close (.inr rfl) hP⟩, fun _ h => absurd h hClosed⟩
    rw [Session.receivePasses, receivePass]
    generalize Session.consumeFrames timestampNs (s.connection.read.size + 1) s = out at hFrames
    obtain ⟨turn, s'⟩ := out
    cases turn with
    | done value => exact ⟨⟨_, hFrames.1⟩, fun _ h => absurd h hFrames.2⟩
    | again | wait =>
      obtain ⟨hP, hLive, hReact⟩ := hFrames
      dsimp only
      rw [if_neg (by rw [hLive.2]; exact Bool.false_ne_true), if_neg (size_ne_of_wait hReact)]
      exact hRead s' hP hLive hReact

theorem receive_of_closing (hOpen : s.connection.isOpen = true) (hClosing : s.connection.closeAfterFlush = true)
    (timestampNs : UInt64) (results : List RecvResult) :
    (s.receive timestampNs results).2 = (s.turn timestampNs).2 := by
  have hTurns := turn_turns hOpen timestampNs
  have hNext := hTurns.next
  have hNotAgain : (s.turn timestampNs).1 ≠ .again := by
    generalize s.turn timestampNs = out at hTurns
    cases hTurns with
    | wait | refused | refusedFull | takenFull => exact nofun
    | taken hReact hFits hOpen hOrder hFlag =>
      rw [hClosing] at hFlag
      rw [hFlag]
      exact nofun
  rw [receive, receivePasses, receivePass, consumeFrames]
  generalize s.turn timestampNs = out at hNext hNotAgain
  obtain ⟨turn, _⟩ := out
  cases turn with
  | again => exact absurd rfl hNotAgain
  | wait =>
    obtain ⟨rfl, -⟩ := hNext
    dsimp only
    rw [if_pos hClosing]
  | done value => rfl

end Session

end LuvFlicker.Ws
