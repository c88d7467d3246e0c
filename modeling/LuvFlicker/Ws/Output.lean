import LuvFlicker.Lib.Run
import LuvFlicker.Lib.WireFrame
import LuvFlicker.Ws.Connection
import Mathlib.Data.FinEnum

/-!
# The output stream of a connection

Whatever is queued and however the socket takes it, the bytes handed to the socket
and the pending bytes together are what was queued, in order.
-/

namespace LuvFlicker.Ws

open Bytes Run List Queued WireFrame Block

namespace WriteBuffer

variable (w : WriteBuffer)

theorem pending_le : w.pending ≤ kWriteBufferBytes := (Nat.sub_le ..).trans w.size_le

@[simp]
theorem length_contents : w.contents.length = w.pending := length_slice ..

theorem contents_eq_nil_iff : w.contents = [] ↔ w.offset = w.size := by
  have hOffset := w.offset_le
  rw [← length_eq_zero_iff, length_contents, pending]
  omega

theorem contents_advance (count : Nat) : (w.advance count).contents = w.contents.drop count := by
  have hOffset := w.offset_le
  rw [contents, contents, drop_slice]
  change slice w.bytes (w.offset + min count w.pending) (w.size - (w.offset + min count w.pending)) = _
  rcases le_total count w.pending with h | h
  · rw [min_eq_left h, pending, Nat.sub_sub]
  · rw [min_eq_right h, Nat.sub_eq_zero_of_le h, slice_zero, pending, Nat.add_sub_cancel' hOffset,
      tsub_self, slice_zero]

theorem slice_compacted : slice w.compacted 0 w.pending = w.contents := by
  rw [compacted, contents]
  split
  · exact slice_memmove ..
  rename_i hFront
  rcases not_and_or.mp hFront with hZero | hEmpty
  · rw [not_not.mp hZero]
  · rw [not_not.mp hEmpty, slice_zero, slice_zero]

theorem queueBytes_of_fits (bytes : List UInt8) (h : w.pending + bytes.length ≤ kWriteBufferBytes) :
    (w.queueBytes bytes).1 = true ∧ (w.queueBytes bytes).2.contents = w.contents ++ bytes := by
  rw [queueBytes]
  split
  next hEmpty =>
    rw [length_eq_zero_iff.mp hEmpty, append_nil]
    exact ⟨rfl, rfl⟩
  rw [if_neg (by omega), dif_neg (by omega)]
  refine ⟨rfl, ?_⟩
  change slice _ 0 (w.pending + bytes.length - 0) = _
  rw [tsub_zero, slice_memcpy_append, slice_compacted]

/-- What `queue_frame` asks of a frame and of the free space before it writes anything. -/
def Fits (opcode : UInt8) (payload : List UInt8) : Prop :=
  opcode &&& 0xF0 = 0 ∧ w.pending + (Queued.frame opcode payload).encode.length ≤ kWriteBufferBytes

instance (opcode : UInt8) (payload : List UInt8) : Decidable (w.Fits opcode payload) :=
  inferInstanceAs (Decidable (_ ∧ _))

variable {opcode : UInt8} {payload : List UInt8}

theorem queueFrame_of_fits (h : w.Fits opcode payload) : (w.queueFrame opcode payload).1 = true ∧
      (w.queueFrame opcode payload).2.contents = w.contents ++ (frame opcode payload).encode := by
  obtain ⟨hOpcode, hRoom⟩ := h
  rw [encode, length_append] at hRoom
  have hBound : kWriteBufferBytes = 4096 := rfl
  obtain ⟨hTrue, hHeaded⟩ := w.queueBytes_of_fits (outboundHeader opcode payload.length) (by omega)
  rw [queueFrame, if_neg (not_or.mpr ⟨not_not.mpr hOpcode, by omega⟩), if_neg (by omega)]
  generalize w.queueBytes (outboundHeader opcode payload.length) = headed at hTrue hHeaded
  obtain ⟨_, headed⟩ := headed
  subst hTrue
  have hPending : headed.pending = w.pending + (outboundHeader opcode payload.length).length := by
    rw [← length_contents, hHeaded, length_append, length_contents]
  obtain ⟨hPayload, hContents⟩ := headed.queueBytes_of_fits payload (by omega)
  refine ⟨hPayload, hContents.trans ?_⟩
  rw [hHeaded, encode, append_assoc]

theorem queueFrame_of_not_fits (h : ¬ w.Fits opcode payload) : w.queueFrame opcode payload = (false, w) := by
  rw [queueFrame]
  split
  · rfl
  rename_i hValid
  rw [not_or, not_not] at hValid
  rw [if_pos]
  rw [Fits, encode, length_append, ← add_assoc] at h
  exact not_le.mp fun hRoom => h ⟨hValid.1, hRoom⟩

theorem queueFrame_eq_true_iff : (w.queueFrame opcode payload).1 = true ↔ w.Fits opcode payload := by
  constructor
  · intro h
    by_contra hNot
    rw [w.queueFrame_of_not_fits hNot] at h
    cases h
  · intro h
    exact (w.queueFrame_of_fits h).1

end WriteBuffer

/-! ## Reading a queued frame back -/

theorem header_bits : ∀ opcode : UInt8, opcode &&& 0xF0 = 0 →
    (0x80 ||| opcode) &&& 0x80 ≠ 0 ∧ (0x80 ||| opcode) &&& 0x70 = 0 ∧ (0x80 ||| opcode) &&& 0x0F = opcode := by
  decide +kernel

theorem short_length_bits : ∀ size : UInt8, size ≤ 125 → size &&& 0x80 = 0 ∧ size &&& 0x7F = size := by
  decide +kernel

variable {payload : List UInt8} {opcode : UInt8}

open WriteBuffer

theorem decode_encode (h : opcode &&& 0xF0 = 0) (hSize : payload.length ≤ 0xFFFF)
    (rest : List UInt8) : decode ((frame opcode payload).encode ++ rest) =
      some (⟨true, 0, opcode, false, payload⟩, rest) := by
  obtain ⟨hFin, hReserved, hOpcode⟩ := header_bits _ h
  have hFrame (second : UInt8) (size : List UInt8) (hMask : second &&& 0x80 = 0)
      (hLength : decodeLength (second &&& 0x7F) (size ++ (payload ++ rest)) = some (payload.length, payload ++ rest)) :
      decode ((0x80 ||| opcode) :: second :: (size ++ payload) ++ rest) =
        some (⟨true, 0, opcode, false, payload⟩, rest) := by
    rw [decode_unmasked rest hMask hLength, hReserved, hOpcode, decide_eq_true hFin]
  rw [encode, WriteBuffer.outboundHeader]
  split
  next hShort =>
    have hNat := UInt8.toNat_ofNat_of_lt' (hShort.trans_lt (by decide))
    obtain ⟨hMask, hMarker⟩ := short_length_bits _ (UInt8.le_iff_toNat_le.mpr (hNat.trans_le hShort))
    exact hFrame _ [] hMask (decodeLength_short (by rw [hMarker, hNat]) hShort)
  · have hBytes : [UInt8.ofNat (payload.length >>> 8), UInt8.ofNat payload.length] = toBytesBe 2 payload.length := by
      rw [Nat.shiftRight_eq_div_pow]
      rfl
    rw [hBytes]
    exact hFrame 126 _ (by decide) (decodeLength_medium (by omega))

theorem WriteBuffer.Fits.decode {w : WriteBuffer} (h : w.Fits opcode payload)
    (rest : List UInt8) : decode ((frame opcode payload).encode ++ rest) =
      some (⟨true, 0, opcode, false, payload⟩, rest) := by
  have hRoom : w.pending + (frame opcode payload).encode.length ≤ 4096 := h.2
  rw [encode, length_append] at hRoom
  exact decode_encode h.1 (by omega) rest

/-! ## The bytes of a session -/

namespace Session

variable {s : Session}

def stream (s : Session) : List UInt8 := s.queued.flatMap Queued.encode

/-- Nothing is sent that was not queued, and on an open connection the rest is pending. -/
def Accounted (s : Session) : Prop :=
  s.sent <+: s.stream ∧ (s.connection.isOpen = true → s.sent ++ s.connection.write.contents = s.stream)

theorem accounted_of_eq (h : s.sent ++ s.connection.write.contents = s.stream) : s.Accounted := ⟨⟨_, h⟩, fun _ => h⟩

theorem Accounted.close (h : s.Accounted) : s.close.Accounted := by
  rw [Session.close]
  split
  · exact ⟨h.1, fun hOpen => Bool.noConfusion hOpen⟩
  · exact h

section

variable (s : Session)

def Appends (outcome : Bool × WriteBuffer) (item : Queued) : Prop :=
  outcome.1 = true ∧ outcome.2.contents = s.connection.write.contents ++ item.encode ∨
    outcome = (false, s.connection.write)

theorem appends_queueBytes (bytes : List UInt8) : s.Appends (s.connection.write.queueBytes bytes) (.raw bytes) := by
  rcases lt_or_ge kWriteBufferBytes (s.connection.write.pending + bytes.length) with h | h
  · have hPending := s.connection.write.pending_le
    right
    rw [WriteBuffer.queueBytes, if_neg (by omega), dif_pos h, ite_self]
  · exact .inl (queueBytes_of_fits _ _ h)

theorem appends_queueFrame (opcode : UInt8) (payload : List UInt8) :
    s.Appends (s.connection.write.queueFrame opcode payload) (.frame opcode payload) := by
  by_cases h : s.connection.write.Fits opcode payload
  · exact .inl (queueFrame_of_fits _ h)
  · exact .inr (queueFrame_of_not_fits _ h)

end

theorem queueFrame_of_fits (h : s.connection.write.Fits opcode payload) :
    ∃ write : WriteBuffer, write.contents = s.connection.write.contents ++ (frame opcode payload).encode ∧
      s.queueFrame opcode payload = (true,
          { s with connection := { s.connection with write := write }, queued := s.queued ++ [.frame opcode payload] }) := by
  obtain ⟨hTrue, hContents⟩ := s.connection.write.queueFrame_of_fits h
  refine ⟨_, hContents, ?_⟩
  rw [queueFrame, recordQueued, hTrue]
  rfl

theorem queueFrame_of_full (h : ¬ s.connection.write.Fits opcode payload) :
    s.queueFrame opcode payload = (false, s) := by
  rw [queueFrame, s.connection.write.queueFrame_of_not_fits h]
  rfl

theorem queueClose_nil (s : Session) (code : UInt16) :
    s.queueClose code [] = s.queueFrame 0x08 (closePayload code []) := rfl

theorem close_of_open (h : s.connection.isOpen = true) : s.close = { s with connection := {} } := if_pos h

section

variable (h : s.Accounted)
include h

variable (hOpen : s.connection.isOpen = true)
include hOpen

theorem Accounted.recordQueued {outcome : Bool × WriteBuffer}
    {item : Queued} (hAppends : s.Appends outcome item) : (s.recordQueued outcome item).2.Accounted := by
  have hAll := h.2 hOpen
  apply accounted_of_eq
  obtain ⟨_, write⟩ := outcome
  rcases hAppends with ⟨hTrue, hContents⟩ | hSame
  · subst hTrue
    change s.sent ++ write.contents = (s.queued ++ [item]).flatMap encode
    rw [hContents, ← append_assoc, hAll, stream, flatMap_append, flatMap_singleton]
  · cases hSame
    exact hAll

theorem Accounted.drained (hEmpty : s.connection.write.offset = s.connection.write.size) : s.drained.2.Accounted := by
  have hAll := h.2 hOpen
  rw [(contents_eq_nil_iff _).mpr hEmpty] at hAll
  rw [Session.drained]
  split
  · exact (accounted_of_eq hAll).close
  · exact accounted_of_eq hAll

omit hOpen in
theorem Accounted.stalled (timestampNs : UInt64) : (s.stalled timestampNs).2.Accounted := by
  rw [Session.stalled]
  split
  · exact h
  split
  · exact h.close
  · exact h

theorem Accounted.handOver (count : Nat) : (s.handOver count).Accounted := by
  apply accounted_of_eq
  change s.sent ++ s.connection.write.contents.take count ++ (s.connection.write.advance count).contents = s.stream
  rw [contents_advance, append_assoc, take_append_drop, h.2 hOpen]

theorem Accounted.flush (result : SendResult) (timestampNs : UInt64) : (s.flush result timestampNs).2.Accounted := by
  unfold Session.flush
  split
  · exact h.drained hOpen ‹_›
  cases result with
  | sent count =>
    have hHanded := h.handOver hOpen count
    dsimp only
    split
    · exact h.stalled _
    split
    · exact hHanded.drained hOpen ‹_›
    · exact hHanded
  | interrupted => exact h
  | failed => exact h.close
  | blocked => exact h.stalled _

end

variable (upgrade : Upgrade)

theorem length_handshake : (handshake upgrade.accept).length = 129 := by
  rw [handshake, length_append, length_append, upgrade.accept_size]
  rfl

variable (timestampNs : UInt64)

theorem queueBytes_handshake : ((fresh upgrade timestampNs).queueBytes (handshake upgrade.accept)).1 = true := by
  apply (queueBytes_of_fits _ _ _).1
  rw [length_handshake]
  change 0 + 129 ≤ 4096
  decide

theorem upgraded_eq :
    upgraded upgrade timestampNs = ((fresh upgrade timestampNs).queueBytes (handshake upgrade.accept)).2 := by
  have hTrue := queueBytes_handshake upgrade timestampNs
  rw [upgraded, if_neg (by rw [length_handshake]; decide)]
  split
  next s hCall => rw [hCall]
  next s hCall =>
    rw [hCall] at hTrue
    cases hTrue

theorem accounted_upgraded : (upgraded upgrade timestampNs).Accounted := by
  rw [upgraded_eq]
  exact Accounted.recordQueued (accounted_of_eq rfl) rfl (appends_queueBytes _ _)

theorem queued_recordQueued (s : Session) {outcome : Bool × WriteBuffer} {item : Queued} :
    (s.recordQueued outcome item).2.queued = s.queued ++ (if outcome.1 then [item] else []) := by
  obtain ⟨ok, _⟩ := outcome
  cases ok with
  | true => rfl
  | false => exact (append_nil _).symm

theorem queued_upgraded : (upgraded upgrade timestampNs).queued = [.raw (handshake upgrade.accept)] := by
  have hTrue : ((fresh upgrade timestampNs).connection.write.queueBytes (handshake upgrade.accept)).1 = true :=
    queueBytes_handshake _ _
  rw [upgraded_eq, queueBytes, queued_recordQueued, hTrue]
  rfl

variable (s : Session)

@[simp]
theorem queued_close : s.close.queued = s.queued := by
  rw [close]
  split <;> rfl

@[simp]
theorem queued_drained : s.drained.2.queued = s.queued := by
  rw [drained]
  split
  · exact queued_close _
  · rfl

@[simp]
theorem queued_stalled (timestampNs : UInt64) : (s.stalled timestampNs).2.queued = s.queued := by
  rw [stalled]
  split
  · rfl
  split
  · exact queued_close s
  · rfl

theorem queued_flush (result : SendResult) {timestampNs : UInt64} :
    (s.flush result timestampNs).2.queued = s.queued := by
  unfold flush
  split
  · exact queued_drained s
  cases result with
  | sent count =>
    dsimp only
    split
    · exact queued_stalled s _
    split
    · exact queued_drained _
    · rfl
  | interrupted => rfl
  | failed => exact queued_close s
  | blocked => exact queued_stalled s _

end Session

/-- A call on the output side of a connection. `closing` is what the callers of `queue_close` do next. -/
inductive OutputOp where
  | queueBytes (bytes : List UInt8)
  | queueFrame (opcode : UInt8) (payload : List UInt8)
  | queueClose (code : UInt16) (reason : List UInt8)
  | closing
  | flush (result : SendResult) (timestampNs : UInt64)

namespace OutputOp

def item : OutputOp → Option Queued
  | queueBytes bytes => some (.raw bytes)
  | queueFrame opcode payload => some (.frame opcode payload)
  | queueClose code reason => some (.frame 0x08 (WriteBuffer.closePayload code reason))
  | closing => none
  | flush _ _ => none

def step (op : OutputOp) (s : Session) : Bool × Session :=
  if s.connection.isOpen then
    match op with
    | queueBytes bytes => s.queueBytes bytes
    | queueFrame opcode payload => s.queueFrame opcode payload
    | queueClose code reason => s.queueClose code reason
    | closing => (true, s.setCloseAfterFlush)
    | flush result timestampNs => s.flush result timestampNs
  else (false, s)

def accepted : List OutputOp → List Bool → List Queued
  | op :: ops, ok :: results => (if ok then op.item.toList else []) ++ accepted ops results
  | [], _ => []
  | _ :: _, [] => []

theorem step_accounted (op : OutputOp) (s : Session) (h : s.Accounted) : (op.step s).2.Accounted := by
  unfold step
  split
  next hOpen =>
    cases op with
    | queueBytes bytes => exact h.recordQueued hOpen (s.appends_queueBytes _)
    | queueFrame opcode payload => exact h.recordQueued hOpen (s.appends_queueFrame _ _)
    | queueClose code reason =>
      refine h.recordQueued hOpen ?_
      rw [WriteBuffer.queueClose]
      split
      · exact .inr rfl
      · exact s.appends_queueFrame _ _
    | closing => exact h
    | flush result timestampNs => exact h.flush hOpen _ _
  · exact h

theorem queued_step (op : OutputOp) (s : Session) :
    (op.step s).2.queued = s.queued ++ (if (op.step s).1 then op.item.toList else []) := by
  unfold step
  split
  · cases op with
    | queueBytes | queueFrame | queueClose => exact s.queued_recordQueued
    | closing => exact (append_nil _).symm
    | flush result timestampNs =>
      rw [item, Option.toList_none, ite_self, append_nil]
      exact s.queued_flush _
  · exact (append_nil _).symm

theorem fits_of_step {op : OutputOp} {s : Session} (h : (op.step s).1 = true)
    (hItem : op.item = some (.frame opcode payload)) :
    s.connection.write.Fits opcode payload := by
  unfold step at h
  split at h
  · cases op with
    | queueBytes bytes => cases hItem
    | queueFrame opcode payload =>
      cases hItem
      exact (queueFrame_eq_true_iff _).mp h
    | queueClose code reason =>
      cases hItem
      change (WriteBuffer.queueClose _ code reason).1 = true at h
      rw [WriteBuffer.queueClose] at h
      split at h
      · cases h
      · exact (queueFrame_eq_true_iff _).mp h
    | closing | flush => cases hItem
  · cases h

theorem run_accepted (ops : List OutputOp) (s : Session) :
    (final step ops s).queued = s.queued ++ accepted ops (run step ops s).1 := by
  induction ops generalizing s with
  | nil => exact (append_nil _).symm
  | cons op ops ih => rw [final_cons, ih, queued_step, run, accepted, append_assoc]

theorem run_decodes (ops : List OutputOp) (s : Session)
    (h : .frame opcode payload ∈ accepted ops (run step ops s).1) (rest : List UInt8) :
    decode ((frame opcode payload).encode ++ rest) = some (⟨true, 0, opcode, false, payload⟩, rest) := by
  induction ops generalizing s with
  | nil => cases h
  | cons op ops ih =>
    rw [run, accepted, mem_append] at h
    rcases h with hHere | hLater
    · split at hHere
      next hTrue =>
        rw [Option.mem_toList] at hHere
        exact (fits_of_step hTrue hHere).decode rest
      · cases hHere
    · exact ih _ hLater

end OutputOp

/-- The output side of a connection keeps its stream whole: the socket gets a prefix of the handshake and the
accepted frames, a refused frame leaves the pending bytes alone, and an accepted frame is read back as it was given. -/
theorem output_stream (upgrade : Upgrade) (timestampNs : UInt64) (ops : List OutputOp) :
    let outcome := run OutputOp.step ops (Session.upgraded upgrade timestampNs)
    outcome.2.sent <+: handshake upgrade.accept ++ (OutputOp.accepted ops outcome.1).flatMap Queued.encode ∧
      (∀ opcode payload, (outcome.2.queueFrame opcode payload).1 = false →
        (outcome.2.queueFrame opcode payload).2.connection.write.contents = outcome.2.connection.write.contents) ∧
      ∀ opcode payload rest, .frame opcode payload ∈ OutputOp.accepted ops outcome.1 →
        WireFrame.decode ((Queued.frame opcode payload).encode ++ rest) =
          some (⟨true, 0, opcode, false, payload⟩, rest) := by
  intro outcome
  refine ⟨?_, ?_, fun opcode payload rest h => OutputOp.run_decodes ops _ h rest⟩
  · have hSent : outcome.2.sent <+: outcome.2.stream :=
      (final_invariant OutputOp.step_accounted ops (Session.accounted_upgraded _ _)).1
    have hQueued : outcome.2.queued = _ := OutputOp.run_accepted ops _
    rw [Session.stream, hQueued, Session.queued_upgraded, flatMap_append, flatMap_singleton] at hSent
    exact hSent
  · intro opcode payload hFalse
    rcases outcome.2.appends_queueFrame opcode payload with ⟨hTrue, _⟩ | hSame
    · exact Bool.noConfusion (hFalse.symm.trans hTrue)
    · change (outcome.2.connection.write.queueFrame opcode payload).2.contents = _
      rw [hSame]

end LuvFlicker.Ws
