import LuvFlicker.Http.Server

/-!
# The life of a client slot

A slot that is in use is reading a request, waiting for a reply or sending a
response, in this order.
-/

namespace LuvFlicker.Http

open Bytes Scan Text Function List

/-! ## The extent of a request -/

variable {incoming : List UInt8}

theorem measure_append (h : measure incoming ≠ .incomplete) (more : List UInt8) :
    measure (incoming ++ more) = measure incoming := by
  obtain ⟨rest, hText⟩ := exists_cstr_append more
  rw [measure, measure, hText]
  rw [measure] at h
  cases hEnd : strstr (crlf ++ crlf) (cstr incoming) with
  | none =>
    rw [hEnd] at h
    exact absurd rfl h
  | some blockEnd =>
    rw [strstr_append hEnd rest]
    dsimp only
    rw [header_append hEnd rest]

theorem measure_complete {headerSize requiredSize : Nat} (h : measure incoming = .complete headerSize requiredSize) :
    strstr (crlf ++ crlf) (cstr incoming) = some (headerSize - 4) ∧ 4 ≤ headerSize ∧ headerSize ≤ requiredSize := by
  have hBody {blockEnd bodySize : Nat} (h : measureBody (blockEnd + 4) bodySize = .complete headerSize requiredSize) :
      blockEnd + 4 = headerSize ∧ headerSize ≤ requiredSize := by
    rw [measureBody] at h
    split at h
    · cases h
    · cases h
      exact ⟨rfl, Nat.le_add_right _ _⟩
  rw [measure] at h
  cases hEnd : strstr (crlf ++ crlf) (cstr incoming) with
  | none =>
    rw [hEnd] at h
    cases h
  | some blockEnd =>
    rw [hEnd] at h
    have hSizes : blockEnd + 4 = headerSize ∧ headerSize ≤ requiredSize := by
      dsimp only at h
      split at h
      · exact hBody h
      split at h
      · cases h
      · exact hBody h
    obtain ⟨rfl, hLe⟩ := hSizes
    exact ⟨rfl, by omega, hLe⟩

/-! ## The stages -/

variable (config : ListenerConfig) (keys : BearerKeyStore)

structure PeerOk (peer : Peer) : Prop where
  sound : peer.received <+: peer.stream
  routed : ∀ routed, peer.routed = some routed → ∃ headerSize requiredSize,
    measure peer.received = .complete headerSize requiredSize ∧ requiredSize ≤ peer.received.length ∧
      routed = route keys config.websocket peer.received headerSize requiredSize
  calls : peer.calls ≠ [] → ∃ routed, peer.routed = some routed ∧ routed.HasEffect
  silent : peer.answer = none → peer.sent = []
  answer : ∀ answer, peer.answer = some answer → peer.sent <+: answer.message ∧
    ∀ response, answer.response = some response → peer.issued = some response.requestId

section

variable (client : ClientSlot)

structure Reading (peer : Peer) : Prop where
  incoming : client.incoming = peer.received
  sound : peer.received <+: peer.stream
  routed : peer.routed = none
  calls : peer.calls = []
  issued : peer.issued = none

def Sized : Prop := measure client.incoming =
    if client.headerComplete then .complete client.headerSize client.requiredSize else .incomplete

def shared (body : List UInt8) : List UInt8 := if client.ownsPositionsBody then body else []

structure Sending (peer : Peer) (body : List UInt8) : Prop where
  answer : ∃ response, peer.answer = some ⟨client.outgoing ++ shared client body, response⟩
  sent : peer.sent = client.outgoing.take client.outgoingOffset ++ (shared client body).take client.positionsBodyOffset
  order : client.outgoingOffset < client.outgoing.length → client.positionsBodyOffset = 0

inductive Stage (peer : Peer) (body : List UInt8) : Prop where
  | reading (flags : client.sendingResponse = false ∧ client.waitingResponse = false)
      (body : client.ownsPositionsBody = false) (answer : peer.answer = none) (reading : Reading client peer)
      (sized : Sized client) (short : client.complete = false)
  | waiting (flags : client.sendingResponse = false ∧ client.waitingResponse = true)
      (body : client.command = .kPositions → client.ownsPositionsBody = true) (answer : peer.answer = none)
      (issued : peer.issued = some client.requestId)
  | sending (flags : client.sendingResponse = true ∧ client.waitingResponse = false)
      (sending : Sending client peer body)

end

def Peer.heard (peer : Peer) : List UInt8 × Option Routed := (peer.received, peer.routed)

namespace Server

structure Fits (i fd : Nat) (s : Server) : Prop where
  stage : s.clients i = {} ∨ (s.clients i).fd = some fd ∧ (s.peers fd).closed = false ∧
    Stage (s.clients i) (s.peers fd) s.positionsBody
  peer : PeerOk config keys (s.peers fd)
  owner : (s.clients i).ownsPositionsBody = true ↔ s.positionsBodyOwner = some i

structure Apart (i fd : Nat) (s s' : Server) : Prop where
  clients : ∀ j, j ≠ i → s'.clients j = s.clients j
  peers : ∀ g, g ≠ fd → s'.peers g = s.peers g
  accepted : s'.accepted = s.accepted
  owner : ∀ j, j ≠ i → (s'.positionsBodyOwner = some j ↔ s.positionsBodyOwner = some j)
  body : ∀ j, j ≠ i → s.positionsBodyOwner = some j → s'.positionsBody = s.positionsBody

structure SameIds (fd : Nat) (s s' : Server) : Prop where
  outstanding : s'.outstandingResponseIds = s.outstandingResponseIds
  pending : s'.pending = s.pending
  nextRequestId : s'.nextRequestId = s.nextRequestId
  issued : (s'.peers fd).issued = (s.peers fd).issued
  heard : (s'.peers fd).heard = (s.peers fd).heard

variable {config keys} {i fd : Nat} {s s' s'' : Server}

theorem Apart.refl (i fd : Nat) (s : Server) : Apart i fd s s :=
  ⟨fun _ _ => rfl, fun _ _ => rfl, rfl, fun _ _ => Iff.rfl, fun _ _ _ => rfl⟩

theorem Apart.trans (h : Apart i fd s s') (h' : Apart i fd s' s'') : Apart i fd s s'' where
  clients j hj := (h'.clients j hj).trans (h.clients j hj)
  peers g hg := (h'.peers g hg).trans (h.peers g hg)
  accepted := h'.accepted.trans h.accepted
  owner j hj := (h'.owner j hj).trans (h.owner j hj)
  body j hj hOwner := (h'.body j hj ((h.owner j hj).mpr hOwner)).trans (h.body j hj hOwner)

theorem SameIds.refl (fd : Nat) (s : Server) : SameIds fd s s := ⟨rfl, rfl, rfl, rfl, rfl⟩

theorem SameIds.trans (h : SameIds fd s s') (h' : SameIds fd s' s'') : SameIds fd s s'' :=
  ⟨h'.outstanding.trans h.outstanding, h'.pending.trans h.pending, h'.nextRequestId.trans h.nextRequestId,
    h'.issued.trans h.issued, h'.heard.trans h.heard⟩

section

variable (s : Server)

theorem apart_setClient (i fd : Nat) (client : ClientSlot) : Apart i fd s (s.setClient i client) :=
  ⟨fun _ hj => update_of_ne hj _ _, fun _ _ => rfl, rfl, fun _ _ => Iff.rfl, fun _ _ _ => rfl⟩

theorem apart_setPeer (i fd : Nat) (peer : Peer) : Apart i fd s (s.setPeer fd peer) :=
  ⟨fun _ _ => rfl, fun _ hg => update_of_ne hg _ _, rfl, fun _ _ => Iff.rfl, fun _ _ _ => rfl⟩

theorem apart_releasePositionsBody (i fd : Nat) : Apart i fd s (s.releasePositionsBody i) := by
  rw [releasePositionsBody]
  split
  · split
    next hOwner =>
      have hOther {j : Nat} (hj : j ≠ i) : ¬ s.positionsBodyOwner = some j := by
        rw [hOwner]
        exact fun hSame => hj (Option.some.inj hSame).symm
      exact ⟨fun _ hj => update_of_ne hj _ _, fun _ _ => rfl, rfl,
        fun _ hj => iff_of_false nofun (hOther hj), fun _ hj hSame => absurd hSame (hOther hj)⟩
    · exact apart_setClient s i fd _
  · exact .refl i fd s

@[simp]
theorem peers_setPeer {fd : Nat} {peer : Peer} : (s.setPeer fd peer).peers fd = peer := update_self ..

@[simp]
theorem peers_setClient (i : Nat) (client : ClientSlot) : (s.setClient i client).peers = s.peers := rfl

@[simp]
theorem clients_setClient {i : Nat} {client : ClientSlot} : (s.setClient i client).clients i = client :=
  update_self ..

theorem apart_set (i fd : Nat) (client : ClientSlot) (peer : Peer) :
    Apart i fd s ((s.setPeer fd peer).setClient i client) :=
  (apart_setPeer s i fd peer).trans (apart_setClient _ i fd _)

end

theorem record_of_open (hOpen : (s.clients i).fd = some fd) (note : Peer → Peer) :
    s.record i note = s.setPeer fd (note (s.peers fd)) := by
  rw [record, hOpen]

theorem Fits.of_open (h : Fits config keys i fd s) (hOpen : (s.clients i).fd = some fd) :
    (s.peers fd).closed = false ∧ Stage (s.clients i) (s.peers fd) s.positionsBody := by
  rcases h.stage with hEmpty | ⟨-, hRest⟩
  · rw [hEmpty] at hOpen
    cases hOpen
  · exact hRest

/-! ## Writing -/

variable (config keys)

structure Wrote (i fd : Nat) (s s' : Server) : Prop where
  apart : Apart i fd s s'
  ids : SameIds fd s s'
  fits : Fits config keys i fd s'

structure Unanswered (i fd : Nat) (s : Server) : Prop where
  isOpen : (s.clients i).fd = some fd
  alive : (s.peers fd).closed = false
  answer : (s.peers fd).answer = none
  peer : PeerOk config keys (s.peers fd)
  owner : (s.clients i).ownsPositionsBody = true ↔ s.positionsBodyOwner = some i

variable {config keys}

theorem Wrote.of_apart (hApart : Apart i fd s s') (hIds : SameIds fd s s') (h : Wrote config keys i fd s' s'') :
    Wrote config keys i fd s s'' :=
  ⟨hApart.trans h.apart, hIds.trans h.ids, h.fits⟩

section

variable (s : Server)

theorem sameIds_releasePositionsBody (i fd : Nat) : SameIds fd s (s.releasePositionsBody i) := by
  rw [releasePositionsBody]
  split
  · split
    all_goals exact ⟨rfl, rfl, rfl, rfl, rfl⟩
  · exact .refl fd s

variable (i : Nat)

@[simp]
theorem peers_releasePositionsBody : (s.releasePositionsBody i).peers = s.peers := by
  rw [releasePositionsBody]
  split
  · split
    · rfl
    · rfl
  · rfl

theorem clients_releasePositionsBody : (s.releasePositionsBody i).clients i =
      if (s.clients i).ownsPositionsBody then { s.clients i with ownsPositionsBody := false, positionsBodyOffset := 0 }
      else s.clients i := by
  rw [releasePositionsBody]
  split
  · split
    all_goals exact update_self ..
  · rfl

@[simp]
theorem fd_releasePositionsBody : ((s.releasePositionsBody i).clients i).fd = (s.clients i).fd := by
  rw [clients_releasePositionsBody]
  split
  · rfl
  · rfl

theorem owns_releasePositionsBody : ((s.releasePositionsBody i).clients i).ownsPositionsBody = false := by
  rw [clients_releasePositionsBody]
  split
  · rfl
  next hNot => exact Bool.eq_false_iff.mpr hNot

end

theorem owner_releasePositionsBody (hOwner : (s.clients i).ownsPositionsBody = true ↔ s.positionsBodyOwner = some i) :
    (s.releasePositionsBody i).positionsBodyOwner ≠ some i := by
  rw [releasePositionsBody]
  split
  next hOwns =>
    rw [if_pos (hOwner.mp hOwns)]
    exact nofun
  next hNot => exact fun hSame => hNot (hOwner.mpr hSame)

theorem fits_set {client : ClientSlot} {peer : Peer}
    (hStage : client = {} ∨ client.fd = some fd ∧ peer.closed = false ∧ Stage client peer s.positionsBody)
    (hPeer : PeerOk config keys peer) (hOwner : client.ownsPositionsBody = true ↔ s.positionsBodyOwner = some i) :
    Fits config keys i fd ((s.setPeer fd peer).setClient i client) := by
  refine ⟨?_, ?_, ?_⟩
  · rw [clients_setClient, peers_setClient, peers_setPeer]
    exact hStage
  · rw [peers_setClient, peers_setPeer]
    exact hPeer
  · rw [clients_setClient]
    exact hOwner

theorem sameIds_set {client : ClientSlot} {peer : Peer} (hIssued : peer.issued = (s.peers fd).issued)
    (hHeard : peer.heard = (s.peers fd).heard) : SameIds fd s ((s.setPeer fd peer).setClient i client) := by
  refine ⟨rfl, rfl, rfl, ?_, ?_⟩
  all_goals rwa [peers_setClient, peers_setPeer]

theorem wrote_closeClient (hOpen : (s.clients i).fd = some fd) (hPeer : PeerOk config keys (s.peers fd))
    (hOwner : (s.clients i).ownsPositionsBody = true ↔ s.positionsBodyOwner = some i) :
    Wrote config keys i fd s (s.closeClient i) := by
  have hNone := owner_releasePositionsBody hOwner
  rw [closeClient, record_of_open ((s.fd_releasePositionsBody i).trans hOpen), peers_releasePositionsBody]
  refine .of_apart (s.apart_releasePositionsBody i fd) (s.sameIds_releasePositionsBody i fd)
    ⟨apart_set _ i fd _ _, ?_, fits_set (.inl rfl) ?_ ?_⟩
  · rw [← s.peers_releasePositionsBody i]
    exact sameIds_set rfl rfl
  · exact ⟨hPeer.sound, hPeer.routed, hPeer.calls, hPeer.silent, hPeer.answer⟩
  · exact iff_of_false nofun hNone

theorem wrote_sendFrom (h : Fits config keys i fd s) (hOpen : (s.clients i).fd = some fd)
    (hAlive : (s.peers fd).closed = false) {bytes : List UInt8} {offset : Nat} {advance : Nat → ClientSlot → ClientSlot}
    (hFd : ∀ n, (advance n (s.clients i)).fd = some fd)
    (hOwns : ∀ n, (advance n (s.clients i)).ownsPositionsBody = (s.clients i).ownsPositionsBody)
    (hNext : ∀ n, let peer := { s.peers fd with sent := (s.peers fd).sent ++ (bytes.drop offset).take n }
      Stage (advance n (s.clients i)) peer s.positionsBody ∧ PeerOk config keys peer) (send : SendResult) :
    Wrote config keys i fd s (s.sendFrom config i bytes offset advance send) := by
  have hClose := wrote_closeClient hOpen h.peer h.owner
  unfold sendFrom
  cases send with
  | blocked => exact ⟨.refl i fd s, .refl fd s, h⟩
  | failed => exact hClose
  | sent count =>
    dsimp only
    generalize min count (min (bytes.length - offset) (if config.maxWriteChunkBytes = 0 then kDefaultWriteChunkBytes
      else config.maxWriteChunkBytes.toNat)) = n
    split
    · exact hClose
    obtain ⟨hStage, hPeer⟩ := hNext n
    rw [record_of_open hOpen]
    refine ⟨apart_set s i fd _ _, sameIds_set rfl rfl, fits_set (.inr ⟨hFd n, hAlive, hStage⟩) hPeer ?_⟩
    rw [hOwns]
    exact h.owner

end Server

variable {client : ClientSlot} {peer : Peer}

theorem Sending.isPrefix {body : List UInt8} (h : Sending client peer body) :
    peer.sent <+: client.outgoing ++ shared client body := by
  rw [h.sent]
  rcases lt_or_ge client.outgoingOffset client.outgoing.length with hLess | hDone
  · rw [h.order hLess, take_zero, append_nil]
    exact IsPrefix.trans ⟨_, take_append_drop _ _⟩ (prefix_append _ _)
  · rw [take_of_length_le hDone]
    exact (prefix_append_right_inj _).mpr ⟨_, take_append_drop _ _⟩

theorem PeerOk.send {config : ListenerConfig} {keys : BearerKeyStore}
    {body more : List UInt8} (h : PeerOk config keys peer) (hAnswer : peer.answer ≠ none)
    (hSending : Sending client { peer with sent := peer.sent ++ more } body) :
    PeerOk config keys { peer with sent := peer.sent ++ more } where
  sound := h.sound
  routed := h.routed
  calls := h.calls
  silent hNone := absurd hNone hAnswer
  answer answer hSome := by
    obtain ⟨_, hMessage⟩ := hSending.answer
    have hPrefix := hSending.isPrefix
    cases hSome.symm.trans hMessage
    exact ⟨hPrefix, (h.answer _ hSome).2⟩

namespace Server

variable {config : ListenerConfig} {keys : BearerKeyStore} {i fd : Nat} {s s' : Server}

theorem wrote_flushClient (h : Fits config keys i fd s) (hOpen : (s.clients i).fd = some fd)
    (hSending : (s.clients i).sendingResponse = true) (send : SendResult) :
    Wrote config keys i fd s (s.flushClient config i send) := by
  obtain ⟨hAlive, hWaiting, hStage⟩ : (s.peers fd).closed = false ∧ (s.clients i).waitingResponse = false ∧
      Sending _ _ _ := by
    obtain ⟨hAlive, hStage⟩ := h.of_open hOpen
    refine ⟨hAlive, ?_⟩
    cases hStage with
    | reading flags | waiting flags => exact Bool.noConfusion (flags.1.symm.trans hSending)
    | sending flags sending => exact ⟨flags.2, sending⟩
  have hAnswer : (s.peers fd).answer ≠ none := by
    obtain ⟨_, hSome⟩ := hStage.answer
    rw [hSome]
    exact nofun
  rw [flushClient, if_neg (by rw [hOpen, hSending]; simp)]
  split
  next hLess =>
    refine wrote_sendFrom h hOpen hAlive (fun _ => hOpen) (fun _ => rfl) (fun n => ?_) send
    have hNext : Sending { s.clients i with outgoingOffset := (s.clients i).outgoingOffset + n }
        { s.peers fd with
          sent := (s.peers fd).sent ++ ((s.clients i).outgoing.drop (s.clients i).outgoingOffset).take n }
        s.positionsBody := by
      refine ⟨hStage.answer, ?_, fun _ => hStage.order hLess⟩
      rw [hStage.sent, hStage.order hLess, take_zero, take_zero, append_nil, append_nil, ← take_add]
    exact ⟨.sending ⟨hSending, hWaiting⟩ hNext, h.peer.send hAnswer hNext⟩
  next hDone =>
    split
    next hOwns =>
      refine wrote_sendFrom h hOpen hAlive (fun _ => hOpen) (fun _ => rfl) (fun n => ?_) send
      have hNext : Sending { s.clients i with positionsBodyOffset := (s.clients i).positionsBodyOffset + n }
          { s.peers fd with
            sent := (s.peers fd).sent ++ (s.positionsBody.drop (s.clients i).positionsBodyOffset).take n }
          s.positionsBody := by
        have hShared : shared (s.clients i) s.positionsBody = s.positionsBody := if_pos hOwns.1
        refine ⟨hStage.answer, ?_, fun hLess => absurd hLess hDone⟩
        change (s.peers fd).sent ++ _ = (s.clients i).outgoing.take (s.clients i).outgoingOffset ++
          (shared (s.clients i) s.positionsBody).take _
        rw [hStage.sent, hShared, append_assoc, ← take_add]
      exact ⟨.sending ⟨hSending, hWaiting⟩ hNext, h.peer.send hAnswer hNext⟩
    · exact wrote_closeClient hOpen h.peer h.owner

variable (h : Unanswered config keys i fd s)

include h

theorem wrote_startSending (outgoing : List UInt8) (response : Option Response)
    (hResponse : ∀ r, response = some r → (s.peers fd).issued = some r.requestId) (write : Write) :
    Wrote config keys i fd s (s.startSending config i outgoing
      ⟨outgoing ++ shared (s.clients i) s.positionsBody, response⟩ write) := by
  have hSilent := h.peer.silent h.answer
  rw [startSending, record_of_open h.isOpen]
  have hStart : Wrote config keys i fd s ((s.setPeer fd { s.peers fd with
      answer := some ⟨outgoing ++ shared (s.clients i) s.positionsBody, response⟩ }).setClient i
      { s.clients i with
        outgoing := outgoing, outgoingOffset := 0, positionsBodyOffset := 0, waitingResponse := false,
        sendingResponse := true, deadlineNs := write.nowNs + kResponseWriteTimeoutNs }) := by
    refine ⟨apart_set s i fd _ _, sameIds_set rfl rfl,
      fits_set (.inr ⟨h.isOpen, h.alive, .sending ⟨rfl, rfl⟩ ?_⟩) ?_ h.owner⟩
    · constructor
      · exact ⟨_, by dsimp only [shared]⟩
      · exact hSilent
      · exact fun _ => rfl
    · refine ⟨h.peer.sound, h.peer.routed, h.peer.calls, nofun, fun answer hAnswer => ?_⟩
      cases hAnswer
      rw [hSilent]
      exact ⟨⟨_, rfl⟩, hResponse⟩
  refine .of_apart hStart.apart hStart.ids (wrote_flushClient hStart.fits ?_ ?_ _)
  · rw [clients_setClient]
    exact h.isOpen
  · rw [clients_setClient]

theorem Unanswered.release : Unanswered config keys i fd (s.releasePositionsBody i) where
  isOpen := (s.fd_releasePositionsBody i).trans h.isOpen
  alive := by
    rw [peers_releasePositionsBody]
    exact h.alive
  answer := by
    rw [peers_releasePositionsBody]
    exact h.answer
  peer := by
    rw [peers_releasePositionsBody]
    exact h.peer
  owner := by
    rw [owns_releasePositionsBody]
    exact iff_of_false nofun (owner_releasePositionsBody h.owner)

theorem wrote_queueInlineJson (status : Nat) (reason : String) (body : List UInt8)
    {response : Option Response} (hResponse : ∀ r, response = some r → (s.peers fd).issued = some r.requestId)
    (write : Write) : Wrote config keys i fd s (s.queueInlineJson config i status reason body response write) := by
  have hReleased := h.release
  have hShared : shared ((s.releasePositionsBody i).clients i) (s.releasePositionsBody i).positionsBody = [] := by
    rw [shared, owns_releasePositionsBody]
    rfl
  rw [queueInlineJson, if_neg (by rw [h.isOpen]; exact nofun)]
  refine .of_apart (s.apart_releasePositionsBody i fd) (s.sameIds_releasePositionsBody i fd) ?_
  dsimp only
  split
  · exact wrote_closeClient hReleased.isOpen hReleased.peer hReleased.owner
  have hStart := wrote_startSending hReleased (responseHead status reason body.length ++ body) _
    (by rwa [peers_releasePositionsBody]) write
  rwa [hShared, append_nil] at hStart

theorem wrote_refuse (refusal : Refusal) (write : Write) : Wrote config keys i fd s (s.refuse config i refusal write) :=
  @wrote_queueInlineJson _ _ _ _ _ h _ _ _ none nofun _

variable {response : Response}

theorem wrote_queuePositionsJson (hOwns : (s.clients i).ownsPositionsBody = true)
    (hIssued : (s.peers fd).issued = some response.requestId) (write : Write) :
    Wrote config keys i fd s (s.queuePositionsJson config i response write) := by
  rw [queuePositionsJson, if_neg (by rw [h.isOpen, hOwns]; simp)]
  split
  · exact wrote_refuse h _ _
  rename_i body _
  have hOwner := h.owner.mp hOwns
  have hApart : Apart i fd s { s with positionsBody := body } := by
    refine ⟨fun _ _ => rfl, fun _ _ => rfl, rfl, fun _ _ => Iff.rfl, fun j hj hOther => ?_⟩
    exact absurd (Option.some.inj (hOther.symm.trans hOwner)) hj
  have hWritten : Unanswered config keys i fd { s with positionsBody := body } :=
    ⟨h.isOpen, h.alive, h.answer, h.peer, h.owner⟩
  refine .of_apart hApart ⟨rfl, rfl, rfl, rfl, rfl⟩ ?_
  dsimp only
  split
  · exact wrote_refuse hWritten _ _
  have hStart := wrote_startSending hWritten (responseHead 200 "OK" body.length) _
    (fun r hr => Option.some.inj hr ▸ hIssued) write
  have hShared : shared (s.clients i) body = body := if_pos hOwns
  rwa [hShared] at hStart

theorem wrote_sendResponse (hOwns : (s.clients i).command = .kPositions → (s.clients i).ownsPositionsBody = true)
    (hIssued : (s.peers fd).issued = some response.requestId) (write : Write) :
    Wrote config keys i fd s (s.sendResponse config i response write) := by
  have hResponse : ∀ r, some response = some r → (s.peers fd).issued = some r.requestId :=
    fun r hr => Option.some.inj hr ▸ hIssued
  rw [sendResponse]
  split
  next hPositions => exact wrote_queuePositionsJson h (hOwns hPositions) hIssued _
  dsimp only
  split
  · exact wrote_refuse h _ _
  split
  all_goals exact wrote_queueInlineJson h _ _ _ hResponse _

end Server

/-! ## Reading -/

structure ReadOn (results : List Ws.RecvResult) (client : ClientSlot) (peer : Peer)
    (out : ReadEnd × ClientSlot × Peer) : Prop where
  client : ∃ incoming headerSize requiredSize headerComplete, out.2.1 =
    { client with
      incoming := incoming, headerSize := headerSize, requiredSize := requiredSize, headerComplete := headerComplete }
  peer : ∃ received, out.2.2 = { peer with received := received }
  reading : Reading out.2.1 out.2.2
  sized : out.1 = .done → Sized out.2.1
  done : .failed ∉ results → ∀ headerSize requiredSize, measure out.2.1.incoming = .complete headerSize requiredSize →
    requiredSize ≤ out.2.1.incoming.length → out.1 = .done

theorem ReadOn.trans {client client' : ClientSlot} {peer peer' : Peer} {out : ReadEnd × ClientSlot × Peer}
    {result : Ws.RecvResult} {results : List Ws.RecvResult}
    (hClient : ∃ incoming headerSize requiredSize headerComplete, client' =
      { client with
        incoming := incoming, headerSize := headerSize, requiredSize := requiredSize, headerComplete := headerComplete })
    (hPeer : ∃ received, peer' = { peer with received := received }) (h : ReadOn results client' peer' out) :
    ReadOn (result :: results) client peer out := by
  obtain ⟨_, _, _, _, rfl⟩ := hClient
  obtain ⟨_, rfl⟩ := hPeer
  exact ⟨h.client, h.peer, h.reading, h.sized, fun hSound => h.done fun hMem => hSound (mem_cons_of_mem _ hMem)⟩

theorem Sized.complete (h : Sized client) {headerSize requiredSize : Nat}
    (hMeasure : measure client.incoming = .complete headerSize requiredSize)
    (hLong : requiredSize ≤ client.incoming.length) :
    client.headerComplete = true ∧ client.headerSize = headerSize ∧ client.requiredSize = requiredSize ∧
      client.complete = true := by
  rw [Sized, hMeasure] at h
  split at h
  next hHeader =>
    cases h
    exact ⟨hHeader, rfl, rfl, decide_eq_true ⟨hHeader, hLong⟩⟩
  · cases h

theorem ReadOn.refl {results : List Ws.RecvResult} (hReading : Reading client peer) (hSized : Sized client)
    {ending : ReadEnd}
    (hDone : .failed ∉ results → client.headerComplete = true → client.complete = true → ending = .done) :
    ReadOn results client peer (ending, client, peer) := by
  refine ⟨⟨_, _, _, _, rfl⟩, ⟨_, rfl⟩, hReading, fun _ => hSized, fun hSound _ _ hMeasure hLong => ?_⟩
  obtain ⟨hHeader, -, -, hComplete⟩ := hSized.complete hMeasure hLong
  exact hDone hSound hHeader hComplete

theorem Reading.receive (h : Reading client peer) (count : Nat) :
    Reading { client with incoming := client.incoming ++ chunk count client peer }
      { peer with received := peer.received ++ chunk count client peer } where
  incoming := by
    rw [h.incoming]
  sound := by
    obtain ⟨rest, hStream⟩ := h.sound
    have hRest : peer.stream.drop peer.received.length = rest := by rw [← hStream, drop_left]
    rw [chunk, hRest]
    rw [← hStream]
    exact (prefix_append_right_inj _).mpr ⟨_, take_append_drop _ _⟩
  routed := h.routed
  calls := h.calls
  issued := h.issued

theorem readOn_readLoop (results : List Ws.RecvResult) (hReading : Reading client peer) (hSized : Sized client) :
    ReadOn results client peer (readLoop results client peer) := by
  induction results generalizing client peer with
  | nil =>
    unfold readLoop
    split
    · exact .refl hReading hSized fun _ hHeader _ => if_pos hHeader
    · exact .refl hReading hSized fun _ _ _ => rfl
  | cons result results ih =>
    unfold readLoop
    split
    · exact .refl hReading hSized fun _ hHeader _ => if_pos hHeader
    cases result with
    | wouldBlock => exact .refl hReading hSized fun _ _ _ => rfl
    | failed => exact .refl hReading hSized fun hSound => absurd mem_cons_self hSound
    | ended => exact .refl hReading hSized fun _ _ hComplete => if_pos hComplete
    | interrupted => exact .trans ⟨_, _, _, _, rfl⟩ ⟨_, rfl⟩ (ih hReading hSized)
    | bytes count =>
      dsimp only
      split
      · exact .refl hReading hSized fun _ _ _ => rfl
      have hNext := hReading.receive count
      rw [Sized] at hSized
      split
      next hComplete =>
        refine .trans ⟨_, _, _, _, rfl⟩ ⟨_, rfl⟩ (ih hNext ?_)
        rw [if_pos hComplete] at hSized
        rw [Sized, if_pos hComplete, measure_append (by rw [hSized]; exact nofun), hSized]
      rename_i hComplete
      split
      next hMeasure =>
        refine .trans ⟨_, _, _, _, rfl⟩ ⟨_, rfl⟩ (ih hNext ?_)
        rw [Sized, if_neg hComplete]
        exact hMeasure
      next hMeasure =>
        exact ⟨⟨_, _, _, _, rfl⟩, ⟨_, rfl⟩, hNext, nofun, fun _ _ _ hOther => nomatch hMeasure.symm.trans hOther⟩
      next headerSize requiredSize hMeasure =>
        refine .trans ⟨_, _, _, _, rfl⟩ ⟨_, rfl⟩ (ih ?_ hMeasure)
        exact ⟨hNext.incoming, hNext.sound, hNext.routed, hNext.calls, hNext.issued⟩

end LuvFlicker.Http
