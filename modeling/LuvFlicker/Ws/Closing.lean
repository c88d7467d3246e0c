import LuvFlicker.Ws.Reaction

/-!
# What follows a Close frame

`receive` does not ask whether a Close frame is already queued before it takes a
frame. A frame that is answered is then answered behind the Close frame.
-/

namespace LuvFlicker.Ws

open Run List Event

/-- A Close frame can only be the last thing queued. -/
def CloseLast (queued : List Queued) : Prop :=
  ∀ front payload back, queued = front ++ .frame 0x08 payload :: back → back = []

namespace CloseLast

variable {queued more : List Queued}

theorem of_append (h : CloseLast (queued ++ more)) : CloseLast queued := by
  rintro _ _ _ rfl
  rw [append_assoc] at h
  exact (append_eq_nil_iff.mp (h _ _ _ rfl)).1

variable {payload : List UInt8}

theorem more_eq_nil (h : CloseLast (queued ++ more)) (hMem : .frame 0x08 payload ∈ queued) : more = [] := by
  obtain ⟨_, _, rfl⟩ := append_of_mem hMem
  rw [append_assoc] at h
  exact (append_eq_nil_iff.mp (h _ _ _ rfl)).2

theorem concat (h : ∀ payload, .frame 0x08 payload ∉ queued) (item : Queued) : CloseLast (queued ++ [item]) := by
  intro _ payload back hSplit
  rcases eq_nil_or_concat' back with rfl | ⟨back, _, rfl⟩
  · rfl
  rw [← cons_append, ← append_assoc] at hSplit
  obtain ⟨rfl, -⟩ := append_inj' hSplit rfl
  exact absurd (mem_append_right _ mem_cons_self) (h _)

end CloseLast

namespace Session

structure Flagged (s : Session) : Prop where
  last : CloseLast s.queued
  queued : s.connection.isOpen = true → s.connection.closeAfterFlush = true → ∃ payload, .frame 0x08 payload ∈ s.queued
  none : s.Live → ∀ payload, .frame 0x08 payload ∉ s.queued

variable {s s' : Session}

structure Keeps (s s' : Session) : Prop where
  queued : s'.queued = s.queued
  flag : s'.connection.isOpen = true →
    s.connection.isOpen = true ∧ s'.connection.closeAfterFlush = s.connection.closeAfterFlush
  order : s'.connection.isOpen = true → s'.connection.orderId = s.connection.orderId

theorem Flagged.keeps (h : s.Flagged) (hKeeps : Keeps s s') : s'.Flagged where
  last := hKeeps.queued ▸ h.last
  queued hOpen hClosing := by
    obtain ⟨hBefore, hFlag⟩ := hKeeps.flag hOpen
    rw [hKeeps.queued]
    exact h.queued hBefore (hFlag ▸ hClosing)
  none hLive := by
    obtain ⟨hBefore, hFlag⟩ := hKeeps.flag hLive.1
    rw [hKeeps.queued]
    exact h.none ⟨hBefore, hFlag ▸ hLive.2⟩

theorem Keeps.refl (s : Session) : Keeps s s := ⟨rfl, fun h => ⟨h, rfl⟩, fun _ => rfl⟩

theorem Keeps.trans {s'' : Session} (h : Keeps s s') (h' : Keeps s' s'') : Keeps s s'' where
  queued := h'.queued.trans h.queued
  flag hOpen := by
    obtain ⟨hMiddle, hFlag'⟩ := h'.flag hOpen
    obtain ⟨hBefore, hFlag⟩ := h.flag hMiddle
    exact ⟨hBefore, hFlag'.trans hFlag⟩
  order hOpen := (h'.order hOpen).trans (h.order (h'.flag hOpen).1)

theorem keeps_of_closed (hQueued : s'.queued = s.queued) (hClosed : s'.connection.isOpen = false) : Keeps s s' :=
  ⟨hQueued, fun hOpen => Bool.noConfusion (hClosed.symm.trans hOpen),
    fun hOpen => Bool.noConfusion (hClosed.symm.trans hOpen)⟩

section

variable (s : Session)

theorem keeps_close : Keeps s s.close := by
  rw [close]
  split
  · exact keeps_of_closed rfl rfl
  · exact .refl s

theorem keeps_drained : Keeps s s.drained.2 := by
  have hReset : Keeps s { s with
      connection := { s.connection with write := s.connection.write.reset, writeBlockedSinceNs := 0 } } :=
    ⟨rfl, fun h => ⟨h, rfl⟩, fun _ => rfl⟩
  rw [drained]
  split
  · exact hReset.trans (keeps_close _)
  · exact hReset

theorem keeps_stalled (timestampNs : UInt64) : Keeps s (s.stalled timestampNs).2 := by
  rw [stalled]
  split
  · exact ⟨rfl, fun h => ⟨h, rfl⟩, fun _ => rfl⟩
  split
  · exact keeps_close s
  · exact .refl s

theorem keeps_flush (result : SendResult) (timestampNs : UInt64) : Keeps s (s.flush result timestampNs).2 := by
  unfold flush
  split
  · exact keeps_drained s
  cases result with
  | sent count =>
    have hHanded : Keeps s (s.handOver count) := ⟨rfl, fun h => ⟨h, rfl⟩, fun _ => rfl⟩
    dsimp only
    split
    · exact keeps_stalled s _
    split
    · exact hHanded.trans (keeps_drained _)
    · exact ⟨rfl, fun h => ⟨h, rfl⟩, fun _ => rfl⟩
  | interrupted => exact .refl s
  | failed => exact keeps_close s
  | blocked => exact keeps_stalled s _

theorem keeps_flushOutput {ready : Readiness} : Keeps s (s.flushOutput ready) := by
  rw [flushOutput]
  split
  · exact keeps_flush s _ _
  · exact .refl s

theorem keeps_endHangup {ready : Readiness} : Keeps s (s.endHangup ready) := by
  rw [endHangup]
  split
  · exact keeps_close s
  · exact .refl s

end

/-! ## Reading -/

def answer (s : Session) : Option (UInt8 × List UInt8) :=
  match s.reaction with
  | .wait => none
  | .refuse _ code => some (0x08, WriteBuffer.closePayload code [])
  | .take _ reply _ _ => reply

/-- No answer is called for that the write buffer has room for. -/
def Silent (s : Session) : Prop := ∀ reply ∈ s.answer, ¬ s.connection.write.Fits reply.1 reply.2

variable {out : Turn × Session}

theorem Turns.queued (h : s.Turns out) : s.Silent ∧ out.2.queued = s.queued ∨
      ∃ reply ∈ s.answer, ¬ s.Silent ∧ out.2.queued = s.queued ++ [.frame reply.1 reply.2] := by
  have hAnswered {reply : UInt8 × List UInt8} (hAnswer : s.answer = some reply)
      (hFits : s.connection.write.Fits reply.1 reply.2) : reply ∈ s.answer ∧ ¬ s.Silent :=
    ⟨hAnswer, fun hSilent => hSilent reply hAnswer hFits⟩
  have hSilent {reply : UInt8 × List UInt8} (hAnswer : s.answer = some reply)
      (hFull : ¬ s.connection.write.Fits reply.1 reply.2) : s.Silent := by
    intro _ hReply'
    rw [hAnswer] at hReply'
    cases hReply'
    exact hFull
  cases h with
  | wait hReact =>
    refine .inl ⟨?_, rfl⟩
    rw [Silent, answer, hReact]
    exact nofun
  | @refused frame code read write hReact hFits hWrite =>
    have hAnswer : s.answer = some (0x08, WriteBuffer.closePayload code []) := by rw [answer, hReact]
    exact .inr ⟨_, (hAnswered hAnswer hFits).1, (hAnswered hAnswer hFits).2, rfl⟩
  | @refusedFull frame code hReact hFull =>
    have hAnswer : s.answer = some (0x08, WriteBuffer.closePayload code []) := by rw [answer, hReact]
    exact .inl ⟨hSilent hAnswer hFull, rfl⟩
  | @taken frame reply fragmented size connection hReact hFits =>
    have hAnswer : s.answer = reply := by rw [answer, hReact]
    cases reply with
    | none =>
      refine .inl ⟨?_, append_nil _⟩
      rw [Silent, hAnswer]
      exact nofun
    | some reply =>
      have hFits := hFits _ rfl
      exact .inr ⟨_, (hAnswered hAnswer hFits).1, (hAnswered hAnswer hFits).2, rfl⟩
  | @takenFull frame reply fragmented size hReact hFull =>
    have hAnswer : s.answer = some reply := by rw [answer, hReact]
    exact .inl ⟨hSilent hAnswer hFull, rfl⟩

theorem Flagged.queue (h : s.Flagged) (hLive : s.Live) {opcode : UInt8}
    (hQueued : s'.queued = s.queued ++ [.frame opcode payload])
    (hFlag : s'.connection.isOpen = true → s'.connection.closeAfterFlush = decide (opcode = 0x08)) : s'.Flagged where
  last := hQueued ▸ .concat (h.none hLive) _
  queued hOpen hClosing := by
    have hClose : opcode = 0x08 := of_decide_eq_true ((hFlag hOpen).symm.trans hClosing)
    refine ⟨payload, ?_⟩
    rw [hQueued, hClose]
    exact mem_append_right _ mem_cons_self
  none hLive' close hMem := by
    have hOther : opcode ≠ 0x08 := of_decide_eq_false ((hFlag hLive'.1).symm.trans hLive'.2)
    rw [hQueued, mem_append, mem_singleton] at hMem
    rcases hMem with hBefore | hHere
    · exact h.none hLive _ hBefore
    · cases hHere
      exact hOther rfl

theorem flagged_kept : Kept fun _ s => s.Flagged where
  turn := by
    intro _ s _ hLive h hTurns
    cases hTurns with
    | wait => exact h
    | refused => exact h.queue hLive rfl fun _ => rfl
    | refusedFull | takenFull => exact h.keeps (keeps_of_closed rfl rfl)
    | @taken frame reply fragmented size connection hReact hFits hOpen hOrder hClosing =>
      rw [hLive.2] at hClosing
      cases reply with
      | none => exact h.keeps ⟨append_nil _, fun _ => ⟨hLive.1, hClosing.trans hLive.2.symm⟩, fun _ => hOrder⟩
      | some reply => exact h.queue hLive rfl fun _ => hClosing
  chunk _ h := h.keeps ⟨rfl, fun h => ⟨h, rfl⟩, fun _ => rfl⟩
  interrupted h := h
  close _ h := h.keeps (keeps_close _)

theorem Flagged.receive (h : s.Flagged) (hLive : s.Live) (timestampNs : UInt64) (results : List RecvResult) :
    (s.receive timestampNs results).2.Flagged := by
  obtain ⟨⟨_, hEnd⟩, -⟩ := flagged_kept.receivePasses _ 8 _ s hLive h
  exact hEnd

theorem queued_prefix_kept {queued : List Queued} : Kept fun _ s => queued <+: s.queued where
  turn := by
    intro _ s _ _ h hTurns
    rcases hTurns.queued with ⟨-, hSame⟩ | ⟨_, -, -, hMore⟩
    · exact hSame ▸ h
    · exact hMore ▸ h.trans (prefix_append _ _)
  chunk _ h := h
  interrupted h := h
  close _ h := by rwa [queued_close]

/-! ## Writing -/

inductive Sends (s : Session) : Session → Prop where
  | keeps {s' : Session} (hKeeps : Keeps s s') : Sends s s'
  | frame {s' : Session} {opcode : UInt8} {payload : List UInt8} (hLive : s.Live) (hOpcode : opcode ≠ 0x08)
      (hQueued : s'.queued = s.queued ++ [.frame opcode payload]) (hLive' : s'.Live)
      (hOrder : s'.connection.orderId = s.connection.orderId) : Sends s s'

theorem Sends.flagged (h : Sends s s') (hFlagged : s.Flagged) : s'.Flagged := by
  cases h with
  | keeps hKeeps => exact hFlagged.keeps hKeeps
  | frame hLive hOpcode hQueued hLive' =>
    exact hFlagged.queue hLive hQueued fun _ => hLive'.2.trans (decide_eq_false hOpcode).symm

theorem Sends.queued (h : Sends s s') : s.queued <+: s'.queued := by
  cases h with
  | keeps hKeeps => rw [hKeeps.queued]
  | frame _ _ hQueued => exact hQueued ▸ prefix_append _ _

theorem sends_fanOut (s : Session) (payload : List UInt8) : Sends s (s.fanOut payload) := by
  rw [fanOut]
  split
  · exact .keeps (.refl s)
  rename_i hLive
  rw [not_or, not_not, Bool.not_eq_true] at hLive
  by_cases hFits : s.connection.write.Fits 0x01 payload
  · obtain ⟨_, -, hQueued⟩ := queueFrame_of_fits hFits
    rw [hQueued]
    exact .frame hLive (by decide) rfl hLive rfl
  · rw [queueFrame_of_full hFits]
    exact .keeps (keeps_close s)

theorem sends_sendPing (hLive : s.Live) (timestampNs : UInt64) : Sends s (s.sendPing timestampNs) := by
  rw [sendPing]
  by_cases hFits : s.connection.write.Fits 0x09 []
  · obtain ⟨_, -, hQueued⟩ := queueFrame_of_fits hFits
    rw [hQueued]
    exact .frame hLive (by decide) rfl hLive rfl
  · rw [queueFrame_of_full hFits]
    exact .keeps (keeps_close s)

theorem sends_serviceKeepalive (keepAlive : KeepAlive) (s : Session) (timestampNs : UInt64) :
    Sends s (s.serviceKeepalive keepAlive timestampNs) := by
  have hSame : Sends s s := .keeps (.refl s)
  have hClose : Sends s s.close := .keeps (keeps_close s)
  rw [serviceKeepalive]
  split
  · exact hSame
  rename_i hOpen
  split
  · exact hClose
  split
  · exact hSame
  rename_i hClosing
  split
  · split
    · exact hClose
    · exact hSame
  · split
    · exact hSame
    · exact sends_sendPing ⟨not_not.mp hOpen, Bool.eq_false_iff.mpr hClosing⟩ _

end Session

/-! ## Runs -/

/-- A closing connection that is read from has nothing to answer. -/
def Event.Quiet (event : Event) (s : Session) : Prop :=
  match event with
  | .io ready => ready.readable = true → s.connection.isOpen = true → s.connection.closeAfterFlush = true → s.Silent
  | .fill _ => True
  | .tick _ => True

open Ws.Session

section Runs

variable (keepAlive : KeepAlive) {s : Session}

theorem Session.Turns.keeps (h : s.Turns out) (hOpen : s.connection.isOpen = true)
    (hClosing : s.connection.closeAfterFlush = true) (hSilent : s.Silent) : Session.Keeps s out.2 := by
  have hQueued : out.2.queued = s.queued := by
    rcases h.queued with ⟨-, hSame⟩ | ⟨_, -, hLoud, -⟩
    · exact hSame
    · exact absurd hSilent hLoud
  refine ⟨hQueued, fun hStill => ⟨hOpen, ?_⟩, h.order⟩
  rw [hClosing]
  cases h with
  | wait => exact hClosing
  | refused => rfl
  | refusedFull | takenFull => exact Bool.noConfusion hStill
  | taken _ _ _ _ hFlag => rw [hFlag, hClosing, Bool.true_or]

theorem Session.Flagged.readInput {ready : Readiness} (h : s.Flagged) (hOpen : s.connection.isOpen = true)
    (hQuiet : Event.Quiet (.io ready) s) : (s.readInput ready).Flagged := by
  rw [Session.readInput]
  split
  next hReadable =>
    cases hClosing : s.connection.closeAfterFlush with
    | false => exact h.receive ⟨hOpen, hClosing⟩ _ _
    | true =>
      rw [receive_of_closing hOpen hClosing]
      exact h.keeps ((turn_turns hOpen _).keeps hOpen hClosing (hQuiet hReadable hOpen hClosing))
  · exact h

theorem Session.queued_readInput (hOpen : s.connection.isOpen = true) (ready : Readiness) :
    s.queued <+: (s.readInput ready).queued := by
  rw [readInput]
  split
  · cases hClosing : s.connection.closeAfterFlush with
    | false =>
      obtain ⟨⟨_, hEnd⟩, -⟩ := queued_prefix_kept.receivePasses _ 8 _ s ⟨hOpen, hClosing⟩ (prefix_refl _)
      exact hEnd
    | true =>
      rw [receive_of_closing hOpen hClosing]
      rcases (turn_turns hOpen ready.timestampNs).queued with ⟨-, hSame⟩ | ⟨_, -, -, hMore⟩
      · rw [hSame]
      · exact hMore ▸ prefix_append _ _
  · exact prefix_refl _

theorem Session.keeps_behind_input (ready : Readiness) :
    Session.Keeps (s.readInput ready) (((s.readInput ready).flushOutput ready).endHangup ready) :=
  (keeps_flushOutput _).trans (keeps_endHangup _)

theorem Event.step_flagged (event : Event) (s : Session) (hQuiet : event.Quiet s) (h : s.Flagged) :
    (event.step keepAlive s).2.Flagged := by
  cases event with
  | fill payload => exact (s.sends_fanOut _).flagged h
  | tick timestampNs => exact (s.sends_serviceKeepalive keepAlive _).flagged h
  | io ready =>
    change (s.ioPass ready).Flagged
    rw [ioPass]
    split
    next hOpen => exact (h.readInput hOpen hQuiet).keeps (keeps_behind_input _)
    · exact h

theorem Event.step_queued (event : Event) (s : Session) : s.queued <+: (event.step keepAlive s).2.queued := by
  cases event with
  | fill payload => exact (s.sends_fanOut _).queued
  | tick timestampNs => exact (s.sends_serviceKeepalive _ _).queued
  | io ready =>
    change s.queued <+: (s.ioPass ready).queued
    rw [ioPass]
    split
    next hOpen =>
      rw [(keeps_behind_input _).queued]
      exact queued_readInput hOpen _
    · exact prefix_refl _

theorem Event.step_loud {event : Event} (h : s.Flagged) (hLoud : ¬ event.Quiet s) :
    ¬ CloseLast (event.step keepAlive s).2.queued := by
  cases event with
  | fill | tick => exact absurd trivial hLoud
  | io ready =>
    simp only [Event.Quiet, Classical.not_imp] at hLoud
    obtain ⟨hReadable, hOpen, hClosing, hAnswers⟩ := hLoud
    obtain ⟨_, hClose⟩ := h.queued hOpen hClosing
    change ¬ CloseLast (s.ioPass ready).queued
    rw [ioPass, if_pos hOpen, (keeps_behind_input _).queued, readInput, if_pos hReadable,
      receive_of_closing hOpen hClosing]
    rcases (turn_turns hOpen ready.timestampNs).queued with ⟨hSilent, -⟩ | ⟨_, -, -, hMore⟩
    · exact absurd hSilent hAnswers
    rw [hMore]
    intro hLast
    cases hLast.more_eq_nil hClose

theorem run_closeLast_iff (events : List Event) {s : Session} (h : s.Flagged) :
    CloseLast (final (step keepAlive) events s).queued ↔ Always (step keepAlive) Event.Quiet events s := by
  constructor
  · intro hLast
    induction events generalizing s with
    | nil => trivial
    | cons event events ih =>
      have hQuiet : event.Quiet s := by
        by_contra hLoud
        obtain ⟨_, hMore⟩ := @final_invariant _ _ _ _ _ (fun t => (event.step _ s).2.queued <+: t.queued)
          (fun e t hPrefix => hPrefix.trans (e.step_queued _ t)) events (prefix_refl _)
        rw [final_cons, ← hMore] at hLast
        exact step_loud _ h hLoud hLast.of_append
      exact ⟨hQuiet, ih (event.step_flagged _ s hQuiet h) hLast⟩
  · intro hAlways
    exact (hAlways.invariant _ (step_flagged _) h).last

end Runs

theorem Session.flagged_acceptUpgrade {upgrade : Upgrade} {timestampNs receivedNs : UInt64}
    {results : List RecvResult} : (acceptUpgrade upgrade timestampNs receivedNs results).Flagged := by
  have hLive := live_upgraded upgrade timestampNs
  have hQueued := queued_upgraded upgrade timestampNs
  have hAlone : CloseLast ([] ++ [.raw (handshake upgrade.accept)]) := .concat (fun _ => not_mem_nil) _
  have hFlagged : (upgraded upgrade timestampNs).Flagged :=
    { last := hQueued ▸ hAlone
      queued := fun _ hClosing => absurd hLive (not_live_of_closing hClosing)
      none := by
        intro _ _ hMem
        rw [hQueued, mem_singleton] at hMem
        cases hMem }
  rw [acceptUpgrade]
  split
  · exact hFlagged.receive hLive _ _
  · exact hFlagged

/-- Nothing is ever queued behind a Close frame exactly when the connection is silent each time it is read from while
it closes. -/
theorem nothing_follows_close_iff (keepAlive : KeepAlive) (upgrade : Upgrade) (timestampNs receivedNs : UInt64)
    (results : List RecvResult) (events : List Event) :
    CloseLast (final (Event.step keepAlive) events
        (Session.acceptUpgrade upgrade timestampNs receivedNs results)).queued ↔
      Always (Event.step keepAlive) Event.Quiet events (Session.acceptUpgrade upgrade timestampNs receivedNs results) :=
  run_closeLast_iff _ _ (Session.flagged_acceptUpgrade)

/-- An unmasked frame is refused while the socket takes nothing; the frame is still there when the next byte comes. -/
theorem close_twice : ¬ CloseLast (final (Event.step ⟨0, 0⟩)
      [.io ⟨true, false, false, [.bytes 2], .blocked, 1⟩, .io ⟨true, false, false, [.bytes 1], .blocked, 2⟩]
      (Session.acceptUpgrade ⟨7, List.replicate 28 0x41, rfl, {}, [0x81, 0x00, 0x00]⟩ 0 0 [])).queued := by
  have hQueued : (final (Event.step ⟨0, 0⟩)
      [.io ⟨true, false, false, [.bytes 2], .blocked, 1⟩, .io ⟨true, false, false, [.bytes 1], .blocked, 2⟩]
      (acceptUpgrade ⟨7, List.replicate 28 0x41, rfl, {}, [0x81, 0x00, 0x00]⟩ 0 0 [])).queued =
      [.raw (handshake (List.replicate 28 0x41)), .frame 0x08 [3, 234], .frame 0x08 [3, 234]] := by
    decide +kernel
  rw [hQueued]
  intro hLast
  cases hLast [_] [3, 234] [.frame 0x08 [3, 234]] rfl

end LuvFlicker.Ws
