import LuvFlicker.Http.Invariant

/-!
# Dispatching keeps the invariant

A complete request is routed, and what follows touches its slot, its connection
and the tables of ids. With accepting, reading and restarting this covers every
operation, so the invariant holds in every state that the server reaches.
-/

namespace LuvFlicker.Http

open Bytes Run Scan Text Function List

namespace Server

variable {config : ListenerConfig} {keys : BearerKeyStore} {i fd : Nat} {s s' s'' : Server}

/-! ## A routed request -/

variable (config keys)

structure Served (i fd : Nat) (s s' : Server) : Prop where
  apart : Apart i fd s s'
  fits : Fits config keys i fd s'
  ids : IdsOk s'
  heard : (s'.peers fd).heard = (s.peers fd).heard

structure Dispatched (i fd : Nat) (routed : Routed) (s : Server) : Prop where
  unanswered : Unanswered config keys i fd s
  routed : (s.peers fd).routed = some routed
  issued : (s.peers fd).issued = none
  owns : (s.clients i).ownsPositionsBody = false
  sending : (s.clients i).sendingResponse = false

variable {config keys}

theorem Served.of_apart (hApart : Apart i fd s s') (hHeard : (s'.peers fd).heard = (s.peers fd).heard)
    (h : Served config keys i fd s' s'') : Served config keys i fd s s'' :=
  ⟨hApart.trans h.apart, h.fits, h.ids, h.heard.trans hHeard⟩

theorem Wrote.served (h : Wrote config keys i fd s s') (hIds : IdsOk s) : Served config keys i fd s s' :=
  ⟨h.apart, h.fits, hIds.of_same h.apart h.ids, h.ids.heard⟩

variable {routed : Routed}

theorem PeerOk.call {peer : Peer} (h : PeerOk config keys peer) (hRouted : peer.routed = some routed)
    (hEffect : routed.HasEffect) (calls : List Call) : PeerOk config keys { peer with calls := calls } :=
  ⟨h.sound, h.routed, fun _ => ⟨_, hRouted, hEffect⟩, h.silent, h.answer⟩

theorem Unanswered.setPeer (h : Unanswered config keys i fd s) {peer : Peer} (hAlive : peer.closed = false)
    (hAnswer : peer.answer = none) (hPeer : PeerOk config keys peer) : Unanswered config keys i fd (s.setPeer fd peer) := by
  refine ⟨h.isOpen, ?_, ?_, ?_, h.owner⟩
  all_goals rwa [peers_setPeer]

theorem Dispatched.call (h : Dispatched config keys i fd routed s) (hEffect : routed.HasEffect) (call : Call) :
    Dispatched config keys i fd routed (s.record i fun peer => { peer with calls := peer.calls ++ [call] }) ∧
      Apart i fd s (s.record i fun peer => { peer with calls := peer.calls ++ [call] }) ∧
      SameIds fd s (s.record i fun peer => { peer with calls := peer.calls ++ [call] }) := by
  have hOpen := h.unanswered.isOpen
  rw [record_of_open hOpen]
  refine ⟨⟨h.unanswered.setPeer h.unanswered.alive h.unanswered.answer ?_, ?_, ?_, h.owns, h.sending⟩,
    apart_setPeer s i fd _, rfl, rfl, rfl, ?_, ?_⟩
  · exact PeerOk.call h.unanswered.peer h.routed hEffect _
  · rw [peers_setPeer]
    exact h.routed
  · rw [peers_setPeer]
    exact h.issued
  all_goals rw [peers_setPeer]
  rfl

theorem wrote_upgradeClient {id : UInt64} {key preRead : List UInt8}
    (h : Dispatched config keys i fd (.upgrade id key preRead) s) (around : Surroundings) :
    Wrote config keys i fd s (s.upgradeClient config around i id key preRead) := by
  obtain ⟨hCalled, hApart, hIds⟩ := h.call trivial _
  have hUnanswered := hCalled.unanswered
  rw [upgradeClient]
  split
  · refine .of_apart hApart hIds ?_
    split
    · exact wrote_closeClient hUnanswered.isOpen hUnanswered.peer hUnanswered.owner
    all_goals exact wrote_refuse hUnanswered _ _
  · exact wrote_refuse h.unanswered _ _

theorem wrote_postOrder {order : OrderIntent} (h : Dispatched config keys i fd (.submit order) s)
    (around : Surroundings) : Wrote config keys i fd s (s.postOrder config around i order) := by
  rw [postOrder]
  generalize takeOrderId s.nextOrderId = taken
  obtain ⟨_, nextOrderId⟩ := taken
  dsimp only
  have hTaken : Dispatched config keys i fd (.submit order) { s with nextOrderId := nextOrderId } :=
    ⟨⟨h.unanswered.isOpen, h.unanswered.alive, h.unanswered.answer, h.unanswered.peer, h.unanswered.owner⟩, h.routed,
      h.issued, h.owns, h.sending⟩
  have hApart : Apart i fd s { s with nextOrderId := nextOrderId } :=
    ⟨fun _ _ => rfl, fun _ _ => rfl, rfl, fun _ _ => Iff.rfl, fun _ _ _ => rfl⟩
  refine .of_apart hApart ⟨rfl, rfl, rfl, rfl, rfl⟩ ?_
  split
  · exact wrote_refuse hTaken.unanswered _ _
  obtain ⟨hCalled, hCallApart, hCallIds⟩ := hTaken.call trivial _
  refine .of_apart hCallApart hCallIds ?_
  split
  · exact wrote_refuse hCalled.unanswered _ _
  split
  · exact wrote_refuse hCalled.unanswered _ _
  · exact @wrote_queueInlineJson _ _ _ _ _ hCalled.unanswered _ _ _ none nofun _

/-! ## A query -/

variable (config keys)

structure Asking (i fd : Nat) (request : Request) (s : Server) : Prop where
  unanswered : Unanswered config keys i fd s
  routed : (s.peers fd).routed = some (.ask request.command request.orderId)
  sending : (s.clients i).sendingResponse = false
  owns : request.command = .kPositions → (s.clients i).ownsPositionsBody = true
  unused : ∀ g, (s.peers g).issued ≠ some request.requestId
  used : Used s.nextRequestId request.requestId
  ids : ∃ table, IdsOk { s with outstandingResponseIds := table }
  reserved : (awaited s.outstandingResponseIds).Perm (request.requestId :: s.pending)

variable {config keys} {request : Request}

section

variable (h : Asking config keys i fd request s)

include h

theorem Asking.submitted (ok : Bool) :
    Asking config keys i fd request (s.record i fun peer => { peer with calls := peer.calls ++ [.submit request ok] }) ∧
      Apart i fd s (s.record i fun peer => { peer with calls := peer.calls ++ [.submit request ok] }) ∧
      ((s.record i fun peer => { peer with calls := peer.calls ++ [.submit request ok] }).peers fd).heard =
        (s.peers fd).heard := by
  obtain ⟨table, hIds⟩ := h.ids
  rw [record_of_open h.unanswered.isOpen]
  have hApart := apart_setPeer s i fd { s.peers fd with calls := (s.peers fd).calls ++ [.submit request ok] }
  have hIssued (g : Nat) : ((s.setPeer fd { s.peers fd with
      calls := (s.peers fd).calls ++ [.submit request ok] }).peers g).issued = (s.peers g).issued := by
    rcases eq_or_ne g fd with rfl | hg
    · rw [peers_setPeer]
    · rw [hApart.peers g hg]
  refine ⟨⟨h.unanswered.setPeer h.unanswered.alive h.unanswered.answer ?_, ?_, h.sending, h.owns, fun g => ?_, h.used,
    ⟨table, ?_⟩, h.reserved⟩, hApart, ?_⟩
  · exact PeerOk.call h.unanswered.peer h.routed trivial _
  · rw [peers_setPeer]
    exact h.routed
  · rw [hIssued]
    exact h.unused g
  · exact hIds.congr hIssued (fun _ hUsed => hUsed) hIds.outstanding
  · rw [peers_setPeer]
    rfl

theorem Asking.refused (refusal : Refusal) (write : Write) : Served config keys i fd s
      (((s.releaseResponseId request.requestId).2.releasePositionsBody i).refuse config i refusal write) := by
  obtain ⟨_, hIds⟩ := h.ids
  have hBack := ((h.reserved.erase request.requestId).symm.trans (awaited_releaseResponseId s _))
  rw [erase_cons_head] at hBack
  obtain ⟨table', hRelease⟩ := releaseResponseId_eq s _
  rw [hRelease] at hBack ⊢
  have hReleased : Unanswered config keys i fd { s with outstandingResponseIds := table' } :=
    ⟨h.unanswered.isOpen, h.unanswered.alive, h.unanswered.answer, h.unanswered.peer, h.unanswered.owner⟩
  have hIds' : IdsOk { s with outstandingResponseIds := table' } :=
    hIds.congr (fun _ => rfl) (fun _ hUsed => hUsed) hBack
  have hApart : Apart i fd s { s with outstandingResponseIds := table' } :=
    ⟨fun _ _ => rfl, fun _ _ => rfl, rfl, fun _ _ => Iff.rfl, fun _ _ _ => rfl⟩
  have hWrote := Wrote.of_apart (apart_releasePositionsBody _ i fd) (sameIds_releasePositionsBody _ i fd)
    (wrote_refuse hReleased.release refusal write)
  exact .of_apart hApart rfl (hWrote.served hIds')

theorem Asking.taken (deadlineNs : UInt64) :
    Served config keys i fd s (({ s with pending := s.pending ++ [request.requestId] }.record i fun peer =>
      { peer with issued := some request.requestId }).setClient i
        { s.clients i with
          requestId := request.requestId, command := request.command, waitingResponse := true,
          deadlineNs := deadlineNs }) := by
  obtain ⟨_, hIds⟩ := h.ids
  have hPeer := h.unanswered.peer
  have hOpen : ({ s with pending := s.pending ++ [request.requestId] }.clients i).fd = some fd := h.unanswered.isOpen
  have hStart : Apart i fd s { s with pending := s.pending ++ [request.requestId] } :=
    ⟨fun _ _ => rfl, fun _ _ => rfl, rfl, fun _ _ => Iff.rfl, fun _ _ _ => rfl⟩
  rw [record_of_open hOpen]
  refine .of_apart hStart rfl ⟨apart_set _ i fd _ _, ⟨.inr ?_, ?_, ?_⟩, ?_, ?_⟩
  · rw [clients_setClient, peers_setClient, peers_setPeer]
    exact ⟨h.unanswered.isOpen, h.unanswered.alive, .waiting ⟨h.sending, rfl⟩ h.owns h.unanswered.answer rfl⟩
  · rw [peers_setClient, peers_setPeer]
    refine ⟨hPeer.sound, hPeer.routed, hPeer.calls, hPeer.silent, fun _ hAnswer => ?_⟩
    exact nomatch h.unanswered.answer.symm.trans hAnswer
  · rw [clients_setClient]
    exact h.unanswered.owner
  · refine hIds.issue fd h.unused (fun g hg => ?_) ?_ rfl h.used ?_
    · rw [peers_setClient, (apart_setPeer _ i fd _).peers g hg]
    · rw [peers_setClient, peers_setPeer]
    · exact (perm_append_singleton _ _).trans h.reserved.symm
  · rw [peers_setClient, peers_setPeer]
    rfl

theorem Asking.served (around : Surroundings) : Served config keys i fd s (s.submitAsk config around i request) := by
  obtain ⟨hSubmitted, hApart, hHeard⟩ := h.submitted _
  rw [submitAsk]
  refine .of_apart hApart hHeard ?_
  split
  · exact hSubmitted.refused _ _
  · exact hSubmitted.taken _

end

structure Buffered (config : ListenerConfig) (keys : BearerKeyStore) (i fd : Nat) (command : Command) (s : Server)
    (out : Bool × Server) : Prop where
  unanswered : Unanswered config keys i fd out.2
  apart : Apart i fd s out.2
  ids : SameIds fd s out.2
  peers : out.2.peers = s.peers
  sending : (out.2.clients i).sendingResponse = (s.clients i).sendingResponse
  owns : out.1 = true → command = .kPositions → (out.2.clients i).ownsPositionsBody = true

theorem buffered_reserve (h : Unanswered config keys i fd s) (command : Command) :
    Buffered config keys i fd command s (if command = .kPositions then s.reservePositionsBody i else (true, s)) := by
  split
  · rw [reservePositionsBody]
    split
    · exact ⟨h, .refl i fd s, .refl fd s, rfl, rfl, nofun⟩
    rename_i hFree
    rw [not_or, not_not] at hFree
    have hNone {j : Nat} : s.positionsBodyOwner ≠ some j := by
      rw [hFree.2]
      exact nofun
    refine ⟨⟨?_, h.alive, h.answer, h.peer, ?_⟩, ?_, ⟨rfl, rfl, rfl, rfl, rfl⟩, rfl, ?_, fun _ _ => ?_⟩
    · rw [clients_setClient]
      exact h.isOpen
    · rw [clients_setClient]
      exact iff_of_true rfl rfl
    · refine ⟨fun _ hj => update_of_ne hj _ _, fun _ _ => rfl, rfl, fun j hj => ?_, fun _ _ hOwner =>
        absurd hOwner hNone⟩
      exact iff_of_false (fun hSame => hj (Option.some.inj hSame).symm) hNone
    all_goals rw [clients_setClient]
  next hOther => exact ⟨h, .refl i fd s, .refl fd s, rfl, rfl, fun _ hPositions => absurd hPositions hOther⟩

theorem reserveResponseId_cases (s : Server) (id : UInt64) :
    s.reserveResponseId id = (false, s) ∨ id ≠ 0 ∧ ∃ k, k < kMaxPendingExecutionResponses ∧
      s.outstandingResponseIds k = 0 ∧ s.reserveResponseId id =
        (true, { s with outstandingResponseIds := update s.outstandingResponseIds k id }) := by
  rw [reserveResponseId]
  split
  · exact .inl rfl
  rename_i hId
  split
  · exact .inl rfl
  next k hFirst =>
    obtain ⟨hk, hFree, -⟩ := (firstIndex_eq_some_iff _ _ _).mp hFirst
    exact .inr ⟨hId, k, hk, of_decide_eq_true hFree, rfl⟩

theorem Dispatched.ask {command : Command} {orderId : UInt64}
    (h : Dispatched config keys i fd (.ask command orderId) s) (hIds : IdsOk s) (around : Surroundings) :
    Served config keys i fd s (s.ask config around i command orderId) := by
  have hFresh := @not_used_take s.nextRequestId
  have hUsed := @used_take s.nextRequestId
  have hKeep (id : UInt64) := @Used.take id s.nextRequestId
  rw [Server.ask]
  generalize takeHttpRequestId s.nextRequestId = taken at hFresh hUsed hKeep
  obtain ⟨id, next⟩ := taken
  dsimp only at hFresh hUsed hKeep ⊢
  have hTaken : Unanswered config keys i fd { s with nextRequestId := next } :=
    ⟨h.unanswered.isOpen, h.unanswered.alive, h.unanswered.answer, h.unanswered.peer, h.unanswered.owner⟩
  have hTakenIds : IdsOk { s with nextRequestId := next } := hIds.congr (fun _ => rfl) hKeep hIds.outstanding
  have hTakenApart : Apart i fd s { s with nextRequestId := next } :=
    ⟨fun _ _ => rfl, fun _ _ => rfl, rfl, fun _ _ => Iff.rfl, fun _ _ _ => rfl⟩
  have hUnused (g : Nat) (hId : id ≠ 0) : (s.peers g).issued ≠ some id := fun hSame => hFresh hId (hIds.used g id hSame)
  refine .of_apart hTakenApart rfl ?_
  split
  · exact (wrote_refuse hTaken _ _).served hTakenIds
  rename_i hId
  have hBuffered := buffered_reserve hTaken command
  generalize (if command = .kPositions then reservePositionsBody { s with nextRequestId := next } i
    else (true, { s with nextRequestId := next })) = out at hBuffered
  obtain ⟨found, s'⟩ := out
  obtain ⟨hUnanswered, hApart, hSame, hPeers, hSending, hOwns⟩ := hBuffered
  have hIds' := hTakenIds.of_same hApart hSame
  refine .of_apart hApart hSame.heard ?_
  cases found with
  | false => exact (wrote_refuse hUnanswered _ _).served hIds'
  | true =>
    dsimp only
    rcases reserveResponseId_cases s' id with hFull | ⟨-, k, hk, hFree, hReserve⟩
    · rw [hFull]
      have hWrote := Wrote.of_apart (apart_releasePositionsBody _ i fd) (sameIds_releasePositionsBody _ i fd)
        (wrote_refuse hUnanswered.release responseQueueFull around.write)
      exact hWrote.served hIds'
    rw [hReserve]
    have hReserved : Apart i fd s' { s' with outstandingResponseIds := update s'.outstandingResponseIds k id } :=
      ⟨fun _ _ => rfl, fun _ _ => rfl, rfl, fun _ _ => Iff.rfl, fun _ _ _ => rfl⟩
    refine .of_apart hReserved rfl (Asking.served ?_ _)
    constructor
    · exact ⟨hUnanswered.isOpen, hUnanswered.alive, hUnanswered.answer, hUnanswered.peer, hUnanswered.owner⟩
    · exact (congrArg (fun peers => (peers fd).routed) hPeers).trans h.routed
    · exact hSending.trans h.sending
    · exact hOwns rfl
    · intro g
      rw [hPeers]
      exact hUnused g hId
    · rw [hSame.nextRequestId]
      exact hUsed hId
    · exact ⟨_, hIds'⟩
    · exact (awaited_update hk hFree hId).trans (hIds'.outstanding.symm.cons id)

/-! ## Reading -/

theorem Reading.peerOk {client : ClientSlot} {peer : Peer} (h : Reading client peer) (hAnswer : peer.answer = none)
    (hSent : peer.sent = []) : PeerOk config keys peer where
  sound := h.sound
  routed _ hRouted := nomatch h.routed.symm.trans hRouted
  calls hCalls := absurd h.calls hCalls
  silent _ := hSent
  answer _ hSome := nomatch hAnswer.symm.trans hSome

theorem unanswered_set {client : ClientSlot} {peer : Peer} (hOpen : client.fd = some fd) (hAlive : peer.closed = false)
    (hAnswer : peer.answer = none) (hPeer : PeerOk config keys peer)
    (hOwner : client.ownsPositionsBody = true ↔ s.positionsBodyOwner = some i) :
    Unanswered config keys i fd ((s.setPeer fd peer).setClient i client) where
  isOpen := by
    rw [clients_setClient]
    exact hOpen
  alive := by
    rw [peers_setClient, peers_setPeer]
    exact hAlive
  answer := by
    rw [peers_setClient, peers_setPeer]
    exact hAnswer
  peer := by
    rw [peers_setClient, peers_setPeer]
    exact hPeer
  owner := by
    rw [clients_setClient]
    exact hOwner

theorem served_dispatchClient (h : Unanswered config keys i fd s) (hReading : Reading (s.clients i) (s.peers fd))
    (hSized : Sized (s.clients i)) (hComplete : (s.clients i).complete = true)
    (hOwns : (s.clients i).ownsPositionsBody = false) (hSending : (s.clients i).sendingResponse = false)
    (hIds : IdsOk s) (around : Surroundings) :
    Apart i fd s (s.dispatchClient config keys around i) ∧ Fits config keys i fd (s.dispatchClient config keys around i) ∧
      IdsOk (s.dispatchClient config keys around i) ∧
      ((s.dispatchClient config keys around i).peers fd).routed ≠ none := by
  obtain ⟨hHeader, hLength⟩ := of_decide_eq_true hComplete
  rw [Sized, if_pos hHeader] at hSized
  rw [dispatchClient]
  generalize hRoute : route keys config.websocket (s.clients i).incoming (s.clients i).headerSize
    (s.clients i).requiredSize = routed
  rw [record_of_open h.isOpen]
  have hApart := apart_setPeer s i fd { s.peers fd with routed := some routed }
  have hIds' : IdsOk (s.setPeer fd { s.peers fd with routed := some routed }) := hIds.setPeer rfl
  have hDispatched : Dispatched config keys i fd routed (s.setPeer fd { s.peers fd with routed := some routed }) := by
    refine ⟨h.setPeer h.alive h.answer ?_, ?_, ?_, hOwns, hSending⟩
    · refine ⟨h.peer.sound, fun _ hRouted => ?_, fun hCalls => absurd hReading.calls hCalls, h.peer.silent,
        h.peer.answer⟩
      cases hRouted
      refine ⟨_, _, hReading.incoming ▸ hSized, hReading.incoming ▸ hLength, ?_⟩
      rw [← hRoute, hReading.incoming]
    · rw [peers_setPeer]
    · rw [peers_setPeer]
      exact hReading.issued
  suffices hServed : Served config keys i fd (s.setPeer fd { s.peers fd with routed := some routed }) _ by
    refine ⟨hApart.trans hServed.apart, hServed.fits, hServed.ids, ?_⟩
    have hRouted := congrArg Prod.snd hServed.heard
    rw [peers_setPeer] at hRouted
    exact ne_of_eq_of_ne hRouted (Option.some_ne_none _)
  cases routed with
  | refuse refusal => exact (wrote_refuse hDispatched.unanswered _ _).served hIds'
  | upgrade id key preRead => exact (wrote_upgradeClient hDispatched _).served hIds'
  | submit order => exact (wrote_postOrder hDispatched _).served hIds'
  | ask command orderId => exact hDispatched.ask hIds' _

/-- A request that is there as a whole has been routed. -/
def Heeded (heard : List UInt8 × Option Routed) : Prop :=
  ∀ headerSize requiredSize, measure heard.1 = .complete headerSize requiredSize → requiredSize ≤ heard.1.length →
    heard.2 ≠ none

theorem Inv.readClient (h : Inv config keys s) (around : Surroundings) (i : Nat) (results : List Ws.RecvResult)
    (hIdle : ¬ ((s.clients i).sendingResponse = true ∨ (s.clients i).waitingResponse = true)) :
    Turn config keys s (s.readClient config keys around i results) ∧ ∀ fd, (s.clients i).fd = some fd →
      .failed ∉ results → Heeded ((s.readClient config keys around i results).peers fd).heard := by
  rw [not_or, Bool.not_eq_true, Bool.not_eq_true] at hIdle
  rw [Server.readClient]
  cases hOpen : (s.clients i).fd with
  | none => exact ⟨.refl h, nofun⟩
  | some fd =>
    have hNew := h.unanswered hOpen hIdle.1
    obtain ⟨-, -, hAlive, hStage⟩ := h.slot hOpen
    cases hStage with
    | waiting flags => exact Bool.noConfusion (flags.2.symm.trans hIdle.2)
    | sending flags => exact Bool.noConfusion (flags.1.symm.trans hIdle.1)
    | reading _ owns answer reading sized short =>
      have hRead := readOn_readLoop results reading sized
      dsimp only
      generalize readLoop results (s.clients i) (s.peers fd) = out at hRead
      obtain ⟨ending, client, peer⟩ := out
      obtain ⟨⟨_, _, _, _, hClient⟩, ⟨_, hPeer⟩, hReading, hSized, hDone⟩ := hRead
      dsimp only at hClient hPeer hReading hSized hDone
      rw [hReading.incoming] at hDone
      have hFd : client.fd = some fd := by rw [hClient]; exact hOpen
      have hOwns : client.ownsPositionsBody = (s.clients i).ownsPositionsBody := by rw [hClient]
      have hSending : client.sendingResponse = false := by rw [hClient]; exact hIdle.1
      have hWaiting : client.waitingResponse = false := by rw [hClient]; exact hIdle.2
      have hOpened : peer.closed = false := by rw [hPeer]; exact hAlive
      have hAnswer : peer.answer = none := by rw [hPeer]; exact answer
      have hSent : peer.sent = [] := by rw [hPeer]; exact (h.peers fd).silent answer
      have hIssued : peer.issued = (s.peers fd).issued := by rw [hPeer]
      have hOwner : client.ownsPositionsBody = true ↔ s.positionsBodyOwner = some i := by
        rw [hOwns]
        exact h.owner i
      have hOk : PeerOk config keys peer := Reading.peerOk hReading hAnswer hSent
      have hUnanswered := @unanswered_set config keys i fd s client peer hFd hOpened hAnswer hOk hOwner
      have hApart := apart_set s i fd client peer
      have hIds : IdsOk ((s.setPeer fd peer).setClient i client) :=
        (h.ids.setPeer hIssued).congr (fun _ => rfl) (fun _ hUsed => hUsed) h.ids.outstanding
      have hHeard : (((s.setPeer fd peer).setClient i client).peers fd).heard = peer.heard := by
        rw [peers_setClient, peers_setPeer]
      -- An ending other than `done` is not reached by a request that is there as a whole.
      have hEnded {s' : Server} (hWrote : Wrote config keys i fd ((s.setPeer fd peer).setClient i client) s')
          (hEnding : ending ≠ .done) : Turn config keys s s' ∧ ∀ fd', some fd = some fd' → .failed ∉ results →
            Heeded (s'.peers fd').heard := by
        refine ⟨h.serve hNew (hApart.trans hWrote.apart) hWrote.fits (hIds.of_same hWrote.apart hWrote.ids), ?_⟩
        rintro _ ⟨⟩ hSound headerSize requiredSize
        rw [hWrote.ids.heard, hHeard]
        exact fun hMeasure hLong => absurd (hDone hSound headerSize requiredSize hMeasure hLong) hEnding
      cases ending with
      | refuse refusal => exact hEnded (wrote_refuse hUnanswered _ _) nofun
      | close => exact hEnded (wrote_closeClient hUnanswered.isOpen hUnanswered.peer hUnanswered.owner) nofun
      | done =>
        dsimp only
        split
        next hComplete =>
          have hServed := @served_dispatchClient config keys i fd _ hUnanswered
          rw [clients_setClient, peers_setClient, peers_setPeer] at hServed
          obtain ⟨hServedApart, hFits, hServedIds, hRouted⟩ :=
            hServed hReading (hSized rfl) hComplete (hOwns.trans owns) hSending hIds around
          refine ⟨h.serve hNew (hApart.trans hServedApart) hFits hServedIds, ?_⟩
          rintro _ ⟨⟩ - _ _ - -
          exact hRouted
        next hShort =>
          refine ⟨h.serve hNew hApart (fits_set (.inr ⟨hFd, hOpened, ?_⟩) hOk hOwner) hIds, ?_⟩
          · exact .reading ⟨hSending, hWaiting⟩ (hOwns.trans owns) hAnswer hReading (hSized rfl)
              (Bool.eq_false_iff.mpr hShort)
          rintro _ ⟨⟩ - headerSize requiredSize
          rw [hHeard, Peer.heard, ← hReading.incoming]
          exact fun hMeasure hLong => absurd ((hSized rfl).complete hMeasure hLong).2.2.2 hShort

/-! ## Accepting and restarting -/

theorem peerOk_new (stream : List UInt8) (closed : Bool) : PeerOk config keys { stream := stream, closed := closed } :=
  ⟨⟨_, rfl⟩, nofun, fun hCalls => absurd rfl hCalls, fun _ => rfl, nofun⟩

theorem peerOk_rejected (stream message : List UInt8) (taken : Nat) : PeerOk config keys
      { stream := stream, answer := some ⟨message, none⟩, sent := message.take taken, closed := true } := by
  refine ⟨⟨_, rfl⟩, nofun, fun hCalls => absurd rfl hCalls, nofun, fun _ hAnswer => ?_⟩
  cases hAnswer
  exact ⟨⟨_, take_append_drop _ _⟩, nofun⟩

structure Closed (config : ListenerConfig) (keys : BearerKeyStore) (slots : List Nat) (s s' : Server) : Prop where
  inv : Inv config keys s'
  closed : ∀ fd, (s.peers fd).closed = true → s'.peers fd = s.peers fd
  answer : ∀ fd answer, (s.peers fd).answer = some answer → (s'.peers fd).answer = some answer
  empty : ∀ i, i ∈ slots ∨ s.clients i = {} → s'.clients i = {}
  peers : ∀ i fd, i ∈ slots → (s.clients i).fd = some fd → (s'.peers fd).closed = true

section

variable (h : Inv config keys s)
include h

theorem Inv.arrive {peer : Peer} (hPeer : PeerOk config keys peer) (hIssued : peer.issued = none) :
    Turn config keys s ({ s with accepted := s.accepted + 1 }.setPeer s.accepted peer) := by
  have hOther {g : Nat} (hg : g ≠ s.accepted) :
      ({ s with accepted := s.accepted + 1 }.setPeer s.accepted peer).peers g = s.peers g :=
    update_of_ne hg _ _
  have hHere : ({ s with accepted := s.accepted + 1 }.setPeer s.accepted peer).peers s.accepted = peer :=
    peers_setPeer _
  have hFresh := h.fresh _ le_rfl
  have hSame (g : Nat) :
      (({ s with accepted := s.accepted + 1 }.setPeer s.accepted peer).peers g).issued = (s.peers g).issued := by
    rcases eq_or_ne g s.accepted with rfl | hg
    · rw [hHere, hIssued, hFresh]
    · rw [hOther hg]
  have hInv : Inv config keys ({ s with accepted := s.accepted + 1 }.setPeer s.accepted peer) := by
    refine ⟨fun j => ?_, h.distinct, h.owner, fun g hg => ?_, fun g => ?_, ?_⟩
    · rcases h.slots j with hEmpty | ⟨fd, hOpen, hj, hfd, hRest⟩
      · exact .inl hEmpty
      refine .inr ⟨fd, hOpen, hj, Nat.lt_succ_of_lt hfd, ?_⟩
      rw [hOther hfd.ne]
      exact hRest
    · have hLater : s.accepted < g := hg
      rw [hOther hLater.ne']
      exact h.fresh g hLater.le
    · rcases eq_or_ne g s.accepted with rfl | hg
      · rw [hHere]
        exact hPeer
      · rw [hOther hg]
        exact h.peers g
    · exact h.ids.congr hSame (fun _ hUsed => hUsed) h.ids.outstanding
  refine ⟨hInv, fun g hClosed => hOther ?_, fun g _ hSome => ?_, fun _ _ _ _ _ => .inl rfl⟩
  · rintro rfl
    rw [hFresh] at hClosed
    exact Bool.noConfusion hClosed
  rw [hOther]
  · exact hSome
  rintro rfl
  rw [hFresh] at hSome
  exact nomatch hSome

theorem Inv.seat (hi : i < kMaxClientSlots) (hFree : (s.clients i).fd = none)
    (hNew : ∀ j, (s.clients j).fd ≠ some fd) (hfd : fd < s.accepted) {stream : List UInt8}
    (hPeer : s.peers fd = { stream := stream }) (deadlineNs : UInt64) :
    Inv config keys (s.setClient i { fd := some fd, deadlineNs := deadlineNs }) := by
  have hOther {j : Nat} (hj : j ≠ i) (client : ClientSlot) : (s.setClient i client).clients j = s.clients j :=
    update_of_ne hj _ _
  have hNotOwner : s.positionsBodyOwner ≠ some i := by
    intro hSame
    rcases h.slots i with hEmpty | ⟨_, hOpen, -⟩
    · have hOwns := (h.owner i).mpr hSame
      rw [hEmpty] at hOwns
      exact Bool.noConfusion hOwns
    · exact nomatch hFree.symm.trans hOpen
  refine ⟨fun j => ?_, fun j k g hj hk => ?_, fun j => ?_, h.fresh, h.peers, ?_⟩
  · rcases eq_or_ne j i with rfl | hj
    · refine .inr ⟨fd, ?_, hi, hfd, ?_⟩
      · rw [clients_setClient]
      · rw [clients_setClient, peers_setClient, hPeer]
        exact ⟨rfl, .reading ⟨rfl, rfl⟩ rfl rfl ⟨rfl, nil_prefix, rfl, rfl, rfl⟩ rfl rfl⟩
    · rw [hOther hj]
      exact h.slots j
  · rcases eq_or_ne j i with rfl | hji
    · rcases eq_or_ne k j with rfl | hkj
      · rfl
      rw [clients_setClient] at hj
      rw [hOther hkj] at hk
      cases hj
      exact absurd hk (hNew k)
    · rw [hOther hji] at hj
      rcases eq_or_ne k i with rfl | hki
      · rw [clients_setClient] at hk
        cases hk
        exact absurd hj (hNew j)
      · rw [hOther hki] at hk
        exact h.distinct j k g hj hk
  · rcases eq_or_ne j i with rfl | hj
    · rw [clients_setClient]
      exact iff_of_false nofun hNotOwner
    · rw [hOther hj]
      exact h.owner j
  · exact h.ids.congr (fun _ => rfl) (fun _ hUsed => hUsed) h.ids.outstanding

theorem Inv.acceptClient (usable : Bool) (stream : List UInt8) (nowNs : UInt64) (taken : Nat) :
    Turn config keys s (s.acceptClient config usable stream nowNs taken) := by
  rw [Server.acceptClient]
  split
  · split
    · exact h.arrive (peerOk_rejected stream _ taken) rfl
    rename_i i hFirst
    obtain ⟨hi, hFree, -⟩ := (firstIndex_eq_some_iff _ _ _).mp hFirst
    obtain ⟨hInv, hClosed, hAnswer, hBody⟩ := h.arrive (peerOk_new _ _) rfl
    refine ⟨?_, hClosed, hAnswer, hBody⟩
    refine hInv.seat hi (of_decide_eq_true hFree) (fun j hOpen => ?_) (Nat.lt_succ_self _) (peers_setPeer _) _
    exact lt_irrefl _ (h.slot hOpen).2.1
  · exact h.arrive (peerOk_new _ true) rfl

theorem Inv.clients_closeClient_of_ne {i j : Nat} (hij : i ≠ j) : (s.closeClient j).clients i = s.clients i := by
  rcases h.slots j with hEmpty | ⟨fd, hOpen, -⟩
  · rw [closeClient_of_empty hEmpty]
  · exact (wrote_closeClient hOpen (h.peers fd) (h.owner j)).apart.clients i hij

theorem Inv.closeClients (slots : List Nat) : Closed config keys slots s (slots.foldl Server.closeClient s) := by
  induction slots generalizing s with
  | nil =>
    exact ⟨h, fun _ _ => rfl, fun _ _ hSome => hSome, fun i hi => hi.resolve_left not_mem_nil,
      fun _ _ hMem => absurd hMem not_mem_nil⟩
  | cons j slots ih =>
    have hTurn := h.closeClient j
    have hRest := ih hTurn.inv
    refine ⟨hRest.inv, fun fd hClosed => ?_, fun fd answer hSome => ?_, fun i hi => hRest.empty i ?_,
      fun i fd hi hOpen => ?_⟩
    · have hSame := hTurn.closed fd hClosed
      exact (hRest.closed fd (by rw [hSame]; exact hClosed)).trans hSame
    · exact hRest.answer fd _ (hTurn.answer fd answer hSome)
    · rcases eq_or_ne i j with rfl | hij
      · exact .inr (clients_setClient _)
      · rw [h.clients_closeClient_of_ne hij]
        exact hi.imp_left fun hMem => (mem_cons.mp hMem).resolve_left hij
    · rcases eq_or_ne i j with rfl | hij
      · have hGone : ((s.closeClient i).peers fd).closed = true := by rw [peers_closeClient hOpen]
        have hSame := hRest.closed fd hGone
        rw [foldl_cons, hSame]
        exact hGone
      · exact hRest.peers i fd ((mem_cons.mp hi).resolve_left hij)
          ((congrArg _ (h.clients_closeClient_of_ne hij)).trans hOpen)

theorem Inv.restart : Turn config keys s s.restart := by
  have hAll := h.closeClients (List.range kMaxClientSlots)
  rw [Server.restart]
  generalize (List.range kMaxClientSlots).foldl Server.closeClient s = s' at hAll
  have hFree (i : Nat) : s'.clients i = {} := by
    apply hAll.empty
    rcases h.slots i with hEmpty | ⟨-, -, hi, -⟩
    · exact .inr hEmpty
    · exact .inl (mem_range.mpr hi)
  have hNone : awaited (fun _ => 0) = [] := by decide
  refine ⟨⟨fun i => .inl (hFree i), hAll.inv.distinct, fun i => ?_, hAll.inv.fresh, hAll.inv.peers,
    hAll.inv.ids.congr (fun _ => rfl) (fun _ hUsed => hUsed) (by rw [hNone])⟩, hAll.closed, hAll.answer,
    fun i fd hOpen _ _ => .inr ?_⟩
  · rw [hFree]
    exact iff_of_false nofun nofun
  · exact hAll.peers i fd (mem_range.mpr (h.slot hOpen).1) hOpen

end

end Server

/-! ## Every run -/

open Server

variable {config : ListenerConfig} {keys : BearerKeyStore}

theorem Server.Inv.step {s : Server} (h : Inv config keys s) (op : ServerOp) :
    Turn config keys s (op.step config keys s).2 := by
  unfold ServerOp.step
  cases op with
  | accept usable stream nowNs taken => exact h.acceptClient _ stream _ _
  | readable i around results =>
    dsimp only
    split
    · exact .refl h
    next hIdle => exact (h.readClient _ i _ hIdle).1
  | writable i send => exact h.flushClient i send
  | hangup i =>
    dsimp only
    split
    · exact .refl h
    · exact h.closeClient i
  | drain response write => exact h.drainResponse _ _
  | expire i now write => exact h.expireClient now i _
  | restart => exact h.restart
  | takeElsewhere =>
    have hTaken := h.tables (fun _ hUsed => hUsed.take) h.ids.outstanding
    exact ⟨hTaken, fun _ _ => rfl, fun _ _ hSome => hSome, fun _ _ _ _ _ => .inl rfl⟩

theorem inv_start : Inv config keys {} where
  slots _ := .inl rfl
  distinct _ _ _ hOpen := nomatch hOpen
  owner _ := iff_of_false nofun nofun
  fresh _ _ := rfl
  peers _ := peerOk_new [] _
  ids :=
    { once := fun _ _ _ hIssued => nomatch hIssued
      used := fun _ _ hIssued => nomatch hIssued
      outstanding := by decide }

theorem inv_run (ops : List ServerOp) : Inv config keys (final (ServerOp.step config keys) ops {}) :=
  final_invariant (fun op _ h => (h.step op).inv) ops inv_start

end LuvFlicker.Http
