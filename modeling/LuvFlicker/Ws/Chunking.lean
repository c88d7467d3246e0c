import LuvFlicker.Lib.Feed
import LuvFlicker.Ws.Reaction

/-!
# Input in pieces

What a connection does with the bytes of its client is compared with a peer that has
no buffers: it reacts to the bytes it has seen, one frame after the other, until a
Close frame is due. The peer does not care how its input is cut.
-/

namespace LuvFlicker.Ws

open Bytes Run List

/-- What the bytes of a client lead to, without buffers. -/
structure Peer where
  fragmented : Bool
  handled : List Inbound
  replies : List Queued
  finished : Bool

namespace Peer

def refused (p : Peer) (frame : Option Inbound) (code : UInt16) : Peer where
  fragmented := p.fragmented
  handled := p.handled ++ frame.toList
  replies := p.replies ++ [.frame 0x08 (WriteBuffer.closePayload code [])]
  finished := true

def took (p : Peer) (frame : Inbound) (reply : Option (UInt8 × List UInt8)) (fragmented : Bool) : Peer where
  fragmented := fragmented
  handled := p.handled ++ [frame]
  replies := p.replies ++ Queued.ofReply reply
  finished := reply.any fun r => r.1 = 0x08

def next (p : Peer) (input : List UInt8) : Option (Peer × List UInt8) :=
  if p.finished then none
  else
    match react p.fragmented input with
    | .wait => none
    | .refuse frame code => some (p.refused frame code, input)
    | .take frame reply fragmented size => some (p.took frame reply fragmented, input.drop size)

def output (p : Peer) : List UInt8 := p.replies.flatMap Queued.encode

end Peer

theorem clientPayload_append {input : List UInt8} {h : FrameHeader} (hSize : h.frameSize ≤ input.length)
    (more : List UInt8) : clientPayload (input ++ more) h = clientPayload input h := by
  have hLength : h.headerSize + 4 + h.payloadSize ≤ input.length := hSize
  rw [clientPayload, clientPayload, drop_append_of_le_length (by omega),
    drop_append_of_le_length (by omega), take_append_of_le_length (by rw [length_drop]; omega),
    take_append_of_le_length (by rw [length_drop]; omega)]

variable {fragmented : Bool}

theorem react_append {input : List UInt8} (h : react fragmented input ≠ .wait)
    (more : List UInt8) : react fragmented (input ++ more) = react fragmented input := by
  have hParse : parseHeader (input ++ more) = parseHeader input := by
    apply parseHeader_append
    intro hIncomplete
    rw [react, hIncomplete] at h
    exact h rfl
  rw [react, react, hParse]
  cases hHeader : parseHeader input with
  | error result => cases result <;> rfl
  | ok header =>
    dsimp only
    rw [clientPayload_append (parseHeader_ok hHeader).1]

open Ws.Session

namespace Peer

variable {p : Peer} {input : List UInt8}

theorem next_of_refuse {frame : Option Inbound} {code : UInt16} (hGoing : p.finished = false)
    (hReact : react p.fragmented input = .refuse frame code) : p.next input = some (p.refused frame code, input) := by
  rw [next, hGoing, hReact]
  rfl

variable {frame : Inbound}

theorem next_of_take {reply : Option (UInt8 × List UInt8)} {size : Nat}
    (hGoing : p.finished = false) (hReact : react p.fragmented input = .take frame reply fragmented size) :
    p.next input = some (p.took frame reply fragmented, input.drop size) := by
  rw [next, hGoing, hReact]
  rfl

theorem next_of_wait (hReact : react p.fragmented input = .wait) : p.next input = none := by
  rw [next, hReact]
  exact ite_self _

inductive Goes (p : Peer) (input : List UInt8) : Peer × List UInt8 → Prop where
  | refused {frame : Option Inbound} {code : UInt16} (hReact : react p.fragmented input = .refuse frame code) :
      Goes p input (p.refused frame code, input)
  | took {frame : Inbound} {reply : Option (UInt8 × List UInt8)} {fragmented : Bool} {size : Nat}
      (hReact : react p.fragmented input = .take frame reply fragmented size) :
      Goes p input (p.took frame reply fragmented, input.drop size)

theorem goes_of_next {q : Peer × List UInt8} (h : p.next input = some q) : p.finished = false ∧ p.Goes input q := by
  rw [next] at h
  split at h
  · cases h
  rename_i hGoing
  refine ⟨Bool.eq_false_iff.mpr hGoing, ?_⟩
  split at h
  · cases h
  next hReact =>
    cases h
    exact .refused hReact
  next hReact =>
    cases h
    exact .took hReact

theorem next_stable : Feed.Stable next := by
  intro p _ _ _ hNext _
  obtain ⟨hGoing, hGoes⟩ := goes_of_next hNext
  cases hGoes with
  | refused hReact =>
    apply next_of_refuse hGoing
    rw [react_append (by rw [hReact]; exact nofun), hReact]
  | took hReact =>
    rw [← drop_append_of_le_length (react_take hReact).1]
    apply next_of_take hGoing
    rw [react_append (by rw [hReact]; exact nofun), hReact]

def size (p : Peer × List UInt8) : Nat := if p.1.finished then 0 else p.2.length + 1

theorem next_size (p q : Peer × List UInt8) (h : next p.1 p.2 = some q) : size q < size p := by
  obtain ⟨hGoing, hGoes⟩ := goes_of_next h
  rw [size, size, hGoing]
  cases hGoes with
  | refused hReact => exact Nat.succ_pos _
  | took hReact =>
    have hSize := react_take hReact
    split
    · exact Nat.succ_pos _
    rw [length_drop]
    change _ < p.2.length + 1
    omega

theorem output_mono {p q : Peer × List UInt8} (h : Feed.Reaches next p q) : p.1.output <+: q.1.output := by
  induction h with
  | refl => exact prefix_refl _
  | tail _ hStep ih =>
    refine ih.trans ?_
    cases (goes_of_next hStep).2 with
    | refused hReact =>
      rw [output, output, refused, flatMap_append]
      exact prefix_append _ _
    | took hReact =>
      rw [output, output, took, flatMap_append]
      exact prefix_append _ _

end Peer

theorem react_reply {fragmented fragmented' : Bool} {input : List UInt8} {reply : UInt8 × List UInt8} {size : Nat}
    (hReact : react fragmented input = .take frame (some reply) fragmented' size) : reply.1 &&& 0xF0 = 0 := by
  rw [react] at hReact
  split at hReact
  any_goals cases hReact
  rename_i h _
  unfold reactTo at hReact
  split at hReact
  · split at hReact
    · split at hReact
      · cases hReact
      · cases hReact
        exact (by decide : (0x08 : UInt8) &&& 0xF0 = 0)
    · split at hReact
      · cases hReact
        exact (by decide : (0x0A : UInt8) &&& 0xF0 = 0)
      · cases hReact
  · split at hReact <;> cases hReact

open Peer

namespace Session

variable {s : Session}

section

variable (s : Session)

def peer : Peer := ⟨s.connection.fragmentedData, s.handled, s.queued, false⟩

variable (count : Nat)

def input : List UInt8 := s.connection.read.contents ++ s.incoming.take count

/-- The replies to the frames completed by the next `count` bytes fit the write buffer. -/
def Room : Prop :=
  (Feed.drain Peer.next (Peer.size (s.peer, s.input count) + 1) (s.peer, s.input count)).1.output.length ≤
    s.sent.length + kWriteBufferBytes

instance : Decidable (s.Room count) := inferInstanceAs (Decidable (_ ≤ _))

def Bounded : Prop :=
  ∀ q, Feed.Reaches Peer.next (s.peer, s.input count) q → q.1.output.length ≤ s.sent.length + kWriteBufferBytes

end

variable {count : Nat} {peer : Peer} {rest : List UInt8}

theorem Room.bounded (h : s.Room count) : s.Bounded count := by
  intro q hReaches
  have hSettled := Feed.drain_settled next_size (Nat.lt_succ_self (Peer.size (s.peer, s.input count)))
  have hEnd := hReaches.to_settled (Feed.reaches_drain _ _) hSettled
  exact (output_mono hEnd).length_le.trans h

variable {payload : List UInt8} {opcode : UInt8}

theorem fits_of_bound (hAccounted : s.Accounted) (hOpen : s.connection.isOpen = true) (hOpcode : opcode &&& 0xF0 = 0)
    (hBound : (s.stream ++ (Queued.frame opcode payload).encode).length ≤ s.sent.length + kWriteBufferBytes) :
    s.connection.write.Fits opcode payload := by
  refine ⟨hOpcode, ?_⟩
  rw [← hAccounted.2 hOpen, length_append, length_append, WriteBuffer.length_contents] at hBound
  omega

structure Tracks (start : Peer) (stream : List UInt8) (s : Session) : Prop where
  whole : s.received ++ s.incoming = stream
  live : s.Live → Feed.Reaches Peer.next (start, s.received) (s.peer, s.connection.read.contents)
  ended : ¬ s.Live → ∃ peer rest, Feed.Reaches Peer.next (start, s.received) (peer, rest) ∧ peer.finished = true ∧
    peer.handled = s.handled ∧ peer.replies = s.queued

structure Going (start : Peer) (stream : List UInt8) (results : List RecvResult) (s : Session) : Prop where
  tracks : s.Tracks start stream
  accounted : s.Accounted
  bounded : ∃ counts : List Nat, results = counts.map .bytes ∧ (s.Live → s.Bounded counts.sum)

variable {start : Peer} {stream : List UInt8} {results : List RecvResult} {s' : Session}

theorem Going.finish (h : s.Going start stream results) (hLive : s.Live)
    (hNext : s.peer.next s.connection.read.contents = some (peer, rest)) (hFinished : peer.finished = true)
    (hHandled : s'.handled = peer.handled) (hQueued : s'.queued = peer.replies) (hEnded : ¬ s'.Live)
    (hReceived : s'.received = s.received) (hIncoming : s'.incoming = s.incoming) (hAccounted : s'.Accounted) :
    s'.Going start stream results where
  tracks :=
    { whole := by rw [hReceived, hIncoming]; exact h.tracks.whole
      live := fun hLive => absurd hLive hEnded
      ended := fun _ => ⟨peer, rest, hReceived ▸ (h.tracks.live hLive).tail hNext, hFinished, hHandled.symm,
        hQueued.symm⟩ }
  accounted := hAccounted
  bounded := by
    obtain ⟨_, hResults, -⟩ := h.bounded
    exact ⟨_, hResults, fun hLive => absurd hLive hEnded⟩

theorem Going.fits (h : s.Going start stream results) (hLive : s.Live)
    (hNext : s.peer.next s.connection.read.contents = some (peer, rest))
    (hOpcode : opcode &&& 0xF0 = 0) (hReplies : peer.replies = s.queued ++ [.frame opcode payload]) :
    s.connection.write.Fits opcode payload := by
  obtain ⟨_, -, hBounded⟩ := h.bounded
  apply fits_of_bound h.accounted hLive.1 hOpcode
  have hBound := hBounded hLive _ (.single (next_stable _ _ _ _ hNext _))
  rw [output, hReplies, flatMap_append, flatMap_singleton] at hBound
  exact hBound

theorem drop_length_take {α : Type} (xs : List α) (n : Nat) : xs.drop (xs.take n).length = xs.drop n := by
  rw [length_take]
  rcases le_total n xs.length with h | h
  · rw [min_eq_left h]
  · rw [min_eq_right h, drop_length, drop_eq_nil_of_le h]

theorem contents_recvChunk (s : Session) (count : Nat) :
    (s.recvChunk count).connection.read.contents = s.connection.read.contents ++ s.chunk count := by
  have hRoom : (s.chunk count).take s.connection.read.room = s.chunk count := by
    rw [chunk, take_take, min_eq_right (min_le_right ..)]
  exact (s.connection.read.contents_append _).trans (by rw [hRoom])

theorem input_recvChunk (s : Session) (count rest : Nat) :
    (s.recvChunk count).input rest = s.input (min count s.connection.read.room + rest) := by
  change (s.recvChunk count).connection.read.contents ++ (s.incoming.drop (s.chunk count).length).take rest = _
  rw [contents_recvChunk, chunk, drop_length_take, input, take_add, append_assoc]

theorem Bounded.mono {count' : Nat} (h : s.Bounded count) (hLe : count' ≤ count) : s.Bounded count' := by
  intro q hReaches
  obtain ⟨more, rfl⟩ := Nat.exists_eq_add_of_le hLe
  have hLonger := hReaches.append next_stable ((s.incoming.drop count').take more)
  rw [input, append_assoc, ← take_add] at hLonger
  have hBound := h _ hLonger
  exact hBound

theorem Going.took (h : s.Going start stream results) (hLive : s.Live)
    (hNext : s.peer.next s.connection.read.contents = some (peer, rest)) (hPeer : s'.peer = peer)
    (hRead : s'.connection.read.contents = rest) (hReceived : s'.received = s.received)
    (hIncoming : s'.incoming = s.incoming) (hSent : s'.sent = s.sent) (hLive' : s'.Live) (hAccounted : s'.Accounted) :
    s'.Going start stream results where
  tracks :=
    { whole := by rw [hReceived, hIncoming]; exact h.tracks.whole
      live := fun _ => by
        rw [hPeer, hRead, hReceived]
        exact (h.tracks.live hLive).tail hNext
      ended := fun hEnded => absurd hLive' hEnded }
  accounted := hAccounted
  bounded := by
    obtain ⟨_, hResults, hBounded⟩ := h.bounded
    refine ⟨_, hResults, fun _ q hReaches => ?_⟩
    rw [input, hPeer, hRead, hIncoming] at hReaches
    rw [hSent]
    exact hBounded hLive q (.head (next_stable _ _ _ _ hNext _) hReaches)

theorem Going.recvChunk (hLive : s.Live) (h : s.Going start stream (.bytes count :: results)) :
    (s.recvChunk count).Going start stream results where
  tracks :=
    { whole := by
        change s.received ++ s.chunk count ++ s.incoming.drop (s.chunk count).length = stream
        rw [← h.tracks.whole, chunk, drop_length_take, append_assoc, take_append_drop]
      live := fun _ => by
        rw [contents_recvChunk]
        exact (h.tracks.live hLive).append next_stable _
      ended := fun hEnded => absurd hLive hEnded }
  accounted := h.accounted
  bounded := by
    obtain ⟨counts, hResults, hBounded⟩ := h.bounded
    cases counts with
    | nil => cases hResults
    | cons first counts =>
      cases hResults
      refine ⟨_, rfl, fun _ q hReaches => ?_⟩
      rw [input_recvChunk] at hReaches
      have hLe : min count s.connection.read.room + counts.sum ≤ (count :: counts).sum := by
        exact Nat.add_le_add_right (min_le_left ..) _
      exact (hBounded hLive).mono hLe q hReaches

theorem going_kept {start : Peer} {stream : List UInt8} : Kept (Going start stream) where
  turn := by
    intro results s _ hLive h hTurns
    have hAccounted := hTurns.accounted hLive.1 h.accounted
    cases hTurns with
    | wait => exact h
    | refused hReact =>
      have hNext : s.peer.next s.connection.read.contents = _ := next_of_refuse rfl hReact
      exact h.finish hLive hNext rfl rfl rfl (not_live_of_closing rfl) rfl rfl hAccounted
    | refusedFull hReact hFull =>
      have hNext : s.peer.next s.connection.read.contents = _ := next_of_refuse rfl hReact
      exact absurd (h.fits hLive hNext (by decide) rfl) hFull
    | @taken frame reply fragmented size connection hReact hFits hOpen hOrder hClosing hFragmented hRead hWrite =>
      have hNext : s.peer.next s.connection.read.contents = _ := next_of_take rfl hReact
      rw [hLive.2, Bool.false_or] at hClosing
      cases hFlag : connection.closeAfterFlush with
      | true =>
        exact h.finish hLive hNext (hClosing.symm.trans hFlag) rfl rfl (not_live_of_closing hFlag) rfl rfl hAccounted
      | false =>
        refine h.took hLive hNext ?_ hRead rfl rfl rfl ⟨hOpen, hFlag⟩ hAccounted
        rw [peer, took, ← hClosing, hFlag, hFragmented]
        rfl
    | takenFull hReact hFull =>
      have hNext : s.peer.next s.connection.read.contents = _ := next_of_take rfl hReact
      exact absurd (h.fits hLive hNext (react_reply hReact) rfl) hFull
  chunk := Going.recvChunk
  interrupted := by
    intro results s h
    obtain ⟨counts, hResults, -⟩ := h.bounded
    cases counts <;> cases hResults
  close := by
    intro _ results s hEnd h
    obtain ⟨counts, hResults, -⟩ := h.bounded
    cases counts with
    | nil => cases hResults
    | cons count counts =>
      cases hResults
      rcases hEnd with hEnd | hEnd <;> cases hEnd

/-! ## Between the calls -/

structure Settled (start : Peer) (stream : List UInt8) (s : Session) : Prop where
  tracks : s.Tracks start stream
  accounted : s.Accounted
  waits : s.Live → s.reaction = .wait

structure Ready (s : Session) (counts : List Nat) : Prop where
  live : s.connection.closeAfterFlush = false
  passes : counts.length < 8
  room : s.Room counts.sum

theorem Settled.receive (hTracks : s.Tracks start stream) (hAccounted : s.Accounted)
    (hOpen : s.connection.isOpen = true) {counts : List Nat} (hReady : s.Ready counts) (timestampNs : UInt64) :
    (s.receive timestampNs (counts.map .bytes)).2.Settled start stream := by
  have hGoing : s.Going start stream (counts.map .bytes) :=
    ⟨hTracks, hAccounted, _, rfl, fun _ => hReady.room.bounded⟩
  obtain ⟨⟨_, hEnd⟩, hWaits⟩ :=
    going_kept.receivePasses _ 8 _ s ⟨hOpen, hReady.live⟩ hGoing
  exact ⟨hEnd.tracks, hEnd.accounted, hWaits (by rw [length_map]; exact hReady.passes)⟩

structure Forwards (s s' : Session) : Prop where
  handled : s'.handled = s.handled
  queued : s'.queued = s.queued
  received : s'.received = s.received
  incoming : s'.incoming = s.incoming
  live : s'.Live → s.Live ∧ s'.connection.fragmentedData = s.connection.fragmentedData ∧
    s'.connection.read = s.connection.read
  ended : ¬ s'.Live → ¬ s.Live

theorem Settled.forwards (h : s.Settled start stream) (hForwards : Forwards s s') (hAccounted : s'.Accounted) :
    s'.Settled start stream where
  tracks :=
    { whole := by rw [hForwards.received, hForwards.incoming]; exact h.tracks.whole
      live := fun hLive => by
        obtain ⟨hBefore, hFragmented, hRead⟩ := hForwards.live hLive
        rw [peer, hForwards.received, hFragmented, hRead, hForwards.handled, hForwards.queued]
        exact h.tracks.live hBefore
      ended := fun hEnded => by
        rw [hForwards.received, hForwards.handled, hForwards.queued]
        exact h.tracks.ended (hForwards.ended hEnded) }
  accounted := hAccounted
  waits hLive := by
    obtain ⟨hBefore, hFragmented, hRead⟩ := hForwards.live hLive
    rw [reaction, hFragmented, hRead]
    exact h.waits hBefore

theorem forwards_drained (s : Session) : Forwards s s.drained.2 := by
  rw [drained]
  split
  next hClosing =>
    have hEnded : ¬ ({ s with
        connection := { s.connection with write := s.connection.write.reset, writeBlockedSinceNs := 0 } } :
          Session).close.Live := by
      rw [close]
      split
      · exact not_live_of_closed rfl
      · exact not_live_of_closing hClosing
    refine ⟨?_, ?_, ?_, ?_, fun h => absurd h hEnded, fun _ => not_live_of_closing hClosing⟩
    all_goals
      rw [close]
      split <;> rfl
  · exact ⟨rfl, rfl, rfl, rfl, fun h => ⟨h, rfl, rfl⟩, fun h => h⟩

theorem forwards_flush {s : Session} {timestampNs : UInt64} :
    Forwards s (s.flush (.sent kWriteBufferBytes) timestampNs).2 := by
  unfold flush
  split
  · exact forwards_drained s
  have hAll : (s.handOver kWriteBufferBytes).connection.write.offset =
      (s.handOver kWriteBufferBytes).connection.write.size := by
    have hOffset := s.connection.write.offset_le
    change s.connection.write.offset + min kWriteBufferBytes s.connection.write.pending = s.connection.write.size
    rw [min_eq_right s.connection.write.pending_le, WriteBuffer.pending]
    omega
  have hDrained := forwards_drained (s.handOver kWriteBufferBytes)
  dsimp only
  rw [if_pos hAll]
  exact ⟨hDrained.handled, hDrained.queued, hDrained.received, hDrained.incoming, hDrained.live, hDrained.ended⟩

end Session

/-! ## Schedules -/

structure Pass where
  readable : Bool
  counts : List Nat
  timestampNs : UInt64

namespace Pass

def ready (pass : Pass) : Readiness :=
  ⟨pass.readable, true, false, pass.counts.map .bytes, .sent kWriteBufferBytes, pass.timestampNs⟩

def step (pass : Pass) (s : Session) : Unit × Session := ((), s.ioPass pass.ready)

/-- A connection that is read from is not closing, and the call of `receive` can follow the peer. -/
def Orderly (pass : Pass) (s : Session) : Prop :=
  s.connection.isOpen = true → pass.readable = true → s.Ready pass.counts

theorem step_settled {start : Peer} {stream : List UInt8} (pass : Pass) (s : Session) (hOrderly : pass.Orderly s)
    (h : s.Settled start stream) : (pass.step s).2.Settled start stream := by
  change (s.ioPass pass.ready).Settled start stream
  rw [ioPass]
  split
  next hOpen =>
    have hInput : (s.readInput pass.ready).Settled start stream := by
      rw [readInput]
      split
      next hReadable => exact .receive h.tracks h.accounted hOpen (hOrderly hOpen hReadable) _
      · exact h
    have hFlushed : ((s.readInput pass.ready).flushOutput pass.ready).Settled start stream := by
      rw [flushOutput]
      split
      next hFlush => exact hInput.forwards forwards_flush (hInput.accounted.flush hFlush.1 _ _)
      · exact hInput
    rw [endHangup, if_neg (fun hEnd => Bool.noConfusion hEnd.2.1)]
    exact hFlushed
  · exact h

end Pass

structure Schedule where
  upgrade : Upgrade
  timestampNs : UInt64
  receivedNs : UInt64
  counts : List Nat
  passes : List Pass

namespace Schedule

variable (a : Schedule)

def stream : List UInt8 := a.upgrade.preRead.contents ++ a.upgrade.incoming

def accepted : Session := Session.acceptUpgrade a.upgrade a.timestampNs a.receivedNs (a.counts.map .bytes)

def final : Session := Run.final Pass.step a.passes a.accepted

structure Orderly : Prop where
  accept : a.upgrade.preRead.size ≠ 0 → (Session.upgraded a.upgrade a.timestampNs).Ready a.counts
  passes : Always Pass.step Pass.Orderly a.passes a.accepted

/-- The connection ended, or all bytes of the client were read. -/
def Delivered : Prop := ¬ a.final.Live ∨ a.final.incoming = []

def peer : Peer := ⟨false, [], [.raw (handshake a.upgrade.accept)], false⟩

variable {a}

theorem accepted_settled (h : a.Orderly) : a.accepted.Settled a.peer a.stream := by
  have hLive := live_upgraded a.upgrade a.timestampNs
  have hRead : (upgraded a.upgrade a.timestampNs).connection.read = a.upgrade.preRead := by
    rw [upgraded_eq]
    rfl
  have hPeer : (Session.upgraded a.upgrade a.timestampNs).peer = a.peer := by
    rw [Session.peer, Session.queued_upgraded, Session.upgraded_eq]
    rfl
  have hReceived : (Session.upgraded a.upgrade a.timestampNs).received = a.upgrade.preRead.contents := by
    rw [upgraded_eq]
    rfl
  have hTracks : (upgraded a.upgrade a.timestampNs).Tracks a.peer a.stream :=
    { whole := by
        rw [upgraded_eq]
        rfl
      live := fun _ => by
        rw [hReceived, hPeer, hRead]
        exact .refl
      ended := fun hEnded => absurd hLive hEnded }
  have hAccounted := accounted_upgraded a.upgrade a.timestampNs
  rw [accepted, acceptUpgrade, hRead]
  split
  next hSome => exact .receive hTracks hAccounted hLive.1 (h.accept hSome) _
  rename_i hNone
  refine ⟨hTracks, hAccounted, fun _ => ?_⟩
  -- without bytes there is nothing to react to
  have hEmpty : a.upgrade.preRead.contents = [] := by
    rw [← length_eq_zero_iff, ReadBuffer.length_contents]
    exact not_not.mp hNone
  rw [reaction, hRead, hEmpty]
  rfl

theorem final_settled (h : a.Orderly) : a.final.Settled a.peer a.stream :=
  h.passes.invariant _ Pass.step_settled (accepted_settled h)

theorem final_used (h : a.Orderly) (hDelivered : a.Delivered) :
    ∃ peer, Feed.Used next a.peer a.stream peer ∧ peer.handled = a.final.handled ∧
      peer.replies = a.final.queued ∧ (peer.finished = false ↔ a.final.Live) := by
  obtain ⟨hTracks, -, hWaits⟩ := final_settled h
  by_cases hLive : a.final.Live
  · have hAll : a.final.received = a.stream := by
      rw [← hTracks.whole, hDelivered.resolve_left (not_not.mpr hLive), append_nil]
    refine ⟨_, ⟨_, _, hAll ▸ prefix_refl _, hTracks.live hLive, .inr ⟨hAll, ?_⟩⟩, rfl, rfl, iff_of_true rfl hLive⟩
    exact next_of_wait (hWaits hLive)
  · obtain ⟨peer, rest, hReaches, hFinished, hHandled, hReplies⟩ := hTracks.ended hLive
    refine ⟨peer, ⟨_, rest, ⟨_, hTracks.whole⟩, hReaches, .inl fun _ => if_pos hFinished⟩, hHandled,
      hReplies, iff_of_false ?_ hLive⟩
    rw [hFinished]
    exact Bool.noConfusion

end Schedule

/-- Two orderly schedules of the same bytes make the connection handle the same frames and queue the same ones, the
Close frame with its code among them; and the branch of `receive` for a full buffer is never taken. -/
theorem chunking_invariant (a b : Schedule) :
    (a.upgrade.accept = b.upgrade.accept → a.stream = b.stream → a.Orderly → b.Orderly → a.Delivered → b.Delivered →
      a.final.handled = b.final.handled ∧ a.final.queued = b.final.queued ∧ (a.final.Live ↔ b.final.Live)) ∧
    ∀ (s : Session) (timestampNs : UInt64), (s.consumeFrame timestampNs).1 = .incomplete →
      (s.consumeFrame timestampNs).2.connection.read.size ≠ kReadBufferBytes := by
  constructor
  · intro hAccept hStream ha hb hDelivered hDelivered'
    obtain ⟨_, hUsed, hHandled, hReplies, hLive⟩ := Schedule.final_used ha hDelivered
    obtain ⟨_, hUsed', hHandled', hReplies', hLive'⟩ := Schedule.final_used hb hDelivered'
    have hStart : a.peer = b.peer := by rw [Schedule.peer, Schedule.peer, hAccept]
    rw [hStart, hStream] at hUsed
    obtain rfl := hUsed.unique next_stable hUsed'
    exact ⟨hHandled.symm.trans hHandled', hReplies.symm.trans hReplies', hLive.symm.trans hLive'⟩
  · intro s timestampNs hIncomplete
    have hSize := s.size_of_incomplete hIncomplete
    change _ ≠ 2048
    omega

def onePass (preRead incoming : List UInt8) (h : preRead.length ≤ kReadBufferBytes) (counts : List Nat) : Schedule where
  upgrade := ⟨7, List.replicate 28 0x41, rfl, ⟨fun i => byteAt preRead i, preRead.length, h⟩, incoming⟩
  timestampNs := 1
  receivedNs := 2
  counts := []
  passes := [⟨true, counts, 3⟩]

/-- A Ping cut inside its key, and the same bytes in one piece. -/
theorem chunking_invariant_ping : (onePass [0x89, 0x81, 1] [2, 3, 4, 5] (by decide) [4]).final.queued =
      (onePass [] [0x89, 0x81, 1, 2, 3, 4, 5] (by decide) [7]).final.queued :=
  ((chunking_invariant (onePass [0x89, 0x81, 1] [2, 3, 4, 5] (by decide) [4])
    (onePass [] [0x89, 0x81, 1, 2, 3, 4, 5] (by decide) [7])).1 rfl (by decide +kernel)
    ⟨fun _ => ⟨by decide +kernel, by decide, by decide +kernel⟩,
      fun _ _ => ⟨by decide +kernel, by decide, by decide +kernel⟩, trivial⟩
    ⟨fun h => absurd rfl h, fun _ _ => ⟨by decide +kernel, by decide, by decide +kernel⟩, trivial⟩
    (.inr (by decide +kernel)) (.inr (by decide +kernel))).2.1

def preReadClose : Schedule := onePass [0x88, 0x80, 0, 0, 0, 0, 0x89, 0x80, 0, 0, 0, 0] [0] (by decide) [1]

def receivedClose : Schedule := onePass [] [0x88, 0x80, 0, 0, 0, 0, 0x89, 0x80, 0, 0, 0, 0, 0] (by decide) [13]

def ping (counts : List Nat) : Schedule := onePass [] [0x89, 0x82, 0, 0, 0, 0, 1, 2] (by decide) counts

/-- A Close and a Ping that were read with the request are both answered, read from the socket only the Close is; and a
Ping that takes eight reads stays in the buffer. -/
theorem chunking_differs :
    (preReadClose.stream = receivedClose.stream ∧ preReadClose.Delivered ∧ receivedClose.Delivered ∧
      preReadClose.final.queued ≠ receivedClose.final.queued) ∧
    (ping [8]).stream = (ping [1, 1, 1, 1, 1, 1, 1, 1]).stream ∧ (ping [8]).Delivered ∧
      (ping [1, 1, 1, 1, 1, 1, 1, 1]).Delivered ∧
      (ping [8]).final.handled ≠ (ping [1, 1, 1, 1, 1, 1, 1, 1]).final.handled := by
  refine ⟨⟨by decide +kernel, .inl ?_, .inl ?_, by decide +kernel⟩, rfl, .inr (by decide +kernel),
    .inr (by decide +kernel), by decide +kernel⟩
  all_goals exact not_live_of_closed (by decide +kernel)

end LuvFlicker.Ws
