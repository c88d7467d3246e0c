import LuvFlicker.Http.Slots

/-!
# The invariant of the HTTP server

Every slot is in order, no two slots serve one connection, the shared buffer has
the owner that the server says, and request ids are handed out once. All
operations keep this, with whatever the sockets, the bridge and the clock do.
-/

namespace LuvFlicker.Http

open Bytes Run Scan Text Function List

/-! ## Request ids -/

def Used (next id : UInt64) : Prop := id ≠ 0 ∧ (next = 0 ∨ id < next)

variable {id next : UInt64}

theorem lt_succ_of_ne_max (h : id ≠ 0xFFFFFFFFFFFFFFFF) : id < id + 1 := by
  have hNat : id.toNat ≠ 2 ^ 64 - 1 := fun hMax => h (UInt64.toNat_inj.mp hMax)
  have hBound := id.toNat_lt
  change id.toNat < (id.toNat + 1) % 2 ^ 64
  omega

theorem not_used_take (h : (takeHttpRequestId next).1 ≠ 0) : ¬ Used next (takeHttpRequestId next).1 := by
  rw [takeHttpRequestId] at h ⊢
  split at h
  · exact absurd rfl h
  rename_i hNext
  rw [if_neg hNext]
  rintro ⟨-, hZero | hLess⟩
  · exact hNext hZero
  · exact absurd hLess (UInt64.lt_irrefl _)

theorem used_take (h : (takeHttpRequestId next).1 ≠ 0) :
    Used (takeHttpRequestId next).2 (takeHttpRequestId next).1 := by
  rw [takeHttpRequestId] at h ⊢
  split at h
  · exact absurd rfl h
  rename_i hNext
  rw [if_neg hNext]
  refine ⟨hNext, ?_⟩
  split
  · exact .inl rfl
  next hMax => exact .inr (lt_succ_of_ne_max hMax)

theorem Used.take (h : Used next id) : Used (takeHttpRequestId next).2 id := by
  refine ⟨h.1, ?_⟩
  rw [takeHttpRequestId]
  split
  · exact .inl rfl
  rename_i hNext
  split
  · exact .inl rfl
  next hMax => exact .inr (UInt64.lt_trans (h.2.resolve_left hNext) (lt_succ_of_ne_max hMax))

def awaited (table : Nat → UInt64) : List UInt64 :=
  ((List.range kMaxPendingExecutionResponses).map table).filter (· ≠ 0)

theorem length_awaited {table : Nat → UInt64} : (awaited table).length ≤ kMaxPendingExecutionResponses := by
  refine (length_filter_le _ _).trans ?_
  rw [length_map, length_range]

variable {table : Nat → UInt64} {k : Nat}

theorem awaited_update (hk : k < kMaxPendingExecutionResponses) (hFree : table k = 0) (hId : id ≠ 0) :
    (awaited (update table k id)).Perm (id :: awaited table) := by
  obtain ⟨l, r, hRange⟩ := append_of_mem (mem_range.mpr hk)
  have hNodup : (l ++ k :: r).Nodup := hRange ▸ nodup_range
  have hl : k ∉ l := fun hl => (nodup_append.mp hNodup).2.2 k hl k mem_cons_self rfl
  have hr : k ∉ r := (nodup_cons.mp (nodup_append.mp hNodup).2.1).1
  have hKeep {cells : List Nat} (hNot : k ∉ cells) : cells.map (update table k id) = cells.map table :=
    map_congr_left fun j hj => update_of_ne (ne_of_mem_of_not_mem hj hNot) _ _
  rw [awaited, awaited, hRange, map_append, map_append, map_cons, map_cons, hKeep hl, hKeep hr,
    update_self, hFree, filter_append, filter_append,
    filter_cons_of_pos (by simpa using hId)]
  exact perm_middle

theorem awaited_release (hk : k < kMaxPendingExecutionResponses) (hHeld : table k = id) (hId : id ≠ 0) :
    (awaited table).Perm (id :: awaited (update table k 0)) := by
  have hAgain : update (update table k 0) k id = table := by rw [update_idem, ← hHeld, update_eq_self]
  have hPerm := awaited_update hk (update_self k 0 table) hId
  rwa [hAgain] at hPerm

namespace Server

structure IdsOk (s : Server) : Prop where
  once : ∀ fd fd' id, (s.peers fd).issued = some id → (s.peers fd').issued = some id → fd = fd'
  used : ∀ fd id, (s.peers fd).issued = some id → Used s.nextRequestId id
  outstanding : s.pending.Perm (awaited s.outstandingResponseIds)

variable {i fd : Nat} {s s' : Server}

theorem IdsOk.congr (h : IdsOk s) (hPeers : ∀ g, (s'.peers g).issued = (s.peers g).issued)
    (hUsed : ∀ id, Used s.nextRequestId id → Used s'.nextRequestId id)
    (hOutstanding : s'.pending.Perm (awaited s'.outstandingResponseIds)) : IdsOk s' where
  once g g' id hg hg' := by
    rw [hPeers] at hg hg'
    exact h.once g g' id hg hg'
  used g id hg := by
    rw [hPeers] at hg
    exact hUsed id (h.used g id hg)
  outstanding := hOutstanding

theorem IdsOk.setPeer (h : IdsOk s) {peer : Peer} (hIssued : peer.issued = (s.peers fd).issued) :
    IdsOk (s.setPeer fd peer) := by
  refine h.congr (fun g => ?_) (fun _ hUsed => hUsed) h.outstanding
  rcases eq_or_ne g fd with rfl | hg
  · rw [peers_setPeer, hIssued]
  · rw [(apart_setPeer s 0 fd peer).peers g hg]

theorem IdsOk.of_same (h : IdsOk s) (hApart : Apart i fd s s') (hSame : SameIds fd s s') : IdsOk s' := by
  refine h.congr (fun g => ?_) (fun _ _ => ?_) ?_
  · rcases eq_or_ne g fd with rfl | hg
    · exact hSame.issued
    · rw [hApart.peers g hg]
  · rwa [hSame.nextRequestId]
  · rw [hSame.pending, hSame.outstanding]
    exact h.outstanding

theorem IdsOk.issue (h : IdsOk s) (fd : Nat) {id : UInt64} (hUnused : ∀ g, (s.peers g).issued ≠ some id)
    (hPeers : ∀ g, g ≠ fd → (s'.peers g).issued = (s.peers g).issued) (hHere : (s'.peers fd).issued = some id)
    (hNext : s'.nextRequestId = s.nextRequestId) (hId : Used s.nextRequestId id)
    (hOutstanding : s'.pending.Perm (awaited s'.outstandingResponseIds)) : IdsOk s' where
  once := by
    have hOther {g : Nat} (hg : g ≠ fd) : (s'.peers g).issued ≠ some id := by
      rw [hPeers g hg]
      exact hUnused g
    intro g g' x hg hg'
    rcases eq_or_ne g fd with rfl | hgf
    · cases hHere.symm.trans hg
      by_contra hne
      exact hOther (fun hSame => hne hSame.symm) hg'
    rcases eq_or_ne g' fd with rfl | hgf'
    · cases hHere.symm.trans hg'
      exact absurd hg (hOther hgf)
    · rw [hPeers g hgf] at hg
      rw [hPeers g' hgf'] at hg'
      exact h.once g g' x hg hg'
  used g x hg := by
    rw [hNext]
    rcases eq_or_ne g fd with rfl | hgf
    · cases hHere.symm.trans hg
      exact hId
    · rw [hPeers g hgf] at hg
      exact h.used g x hg
  outstanding := hOutstanding

/-! ## All slots -/

structure Inv (config : ListenerConfig) (keys : BearerKeyStore) (s : Server) : Prop where
  slots : ∀ i, s.clients i = {} ∨ ∃ fd, (s.clients i).fd = some fd ∧ i < kMaxClientSlots ∧ fd < s.accepted ∧
    (s.peers fd).closed = false ∧ Stage (s.clients i) (s.peers fd) s.positionsBody
  distinct : ∀ i j fd, (s.clients i).fd = some fd → (s.clients j).fd = some fd → i = j
  owner : ∀ i, (s.clients i).ownsPositionsBody = true ↔ s.positionsBodyOwner = some i
  fresh : ∀ fd, s.accepted ≤ fd → s.peers fd = {}
  peers : ∀ fd, PeerOk config keys (s.peers fd)
  ids : IdsOk s

/-- What an operation may do: the invariant is kept, nothing happens on a closed connection, a queued response is not
replaced, and its part in the shared buffer stays until the connection is closed. -/
structure Turn (config : ListenerConfig) (keys : BearerKeyStore) (s s' : Server) : Prop where
  inv : Inv config keys s'
  closed : ∀ fd, (s.peers fd).closed = true → s'.peers fd = s.peers fd
  answer : ∀ fd answer, (s.peers fd).answer = some answer → (s'.peers fd).answer = some answer
  body : ∀ i fd, (s.clients i).fd = some fd → (s.clients i).sendingResponse = true →
    (s.clients i).ownsPositionsBody = true → s'.positionsBody = s.positionsBody ∨ (s'.peers fd).closed = true

variable {config : ListenerConfig} {keys : BearerKeyStore}

theorem Turn.refl (h : Inv config keys s) : Turn config keys s s :=
  ⟨h, fun _ _ => rfl, fun _ _ hAnswer => hAnswer, fun _ _ _ _ _ => .inl rfl⟩

theorem stage_congr {client : ClientSlot} {peer : Peer} {body body' : List UInt8} (h : Stage client peer body)
    (hBody : client.ownsPositionsBody = true → body' = body) : Stage client peer body' := by
  cases h with
  | reading flags owns answer reading sized short => exact .reading flags owns answer reading sized short
  | waiting flags owns answer issued => exact .waiting flags owns answer issued
  | sending flags sending =>
    have hShared : shared client body' = shared client body := by
      rw [shared, shared]
      split
      next hOwns => exact hBody hOwns
      · rfl
    exact .sending flags ⟨hShared ▸ sending.answer, hShared ▸ sending.sent, sending.order⟩

section

variable (h : Inv config keys s)

include h

section

variable (hOpen : (s.clients i).fd = some fd)
include hOpen

theorem Inv.slot : i < kMaxClientSlots ∧ fd < s.accepted ∧ (s.peers fd).closed = false ∧
      Stage (s.clients i) (s.peers fd) s.positionsBody := by
  rcases h.slots i with hEmpty | ⟨g, hg, hRest⟩
  · rw [hEmpty] at hOpen
    cases hOpen
  · cases hg.symm.trans hOpen
    exact hRest

theorem Inv.fits : Fits config keys i fd s := by
  obtain ⟨-, -, hAlive, hStage⟩ := h.slot hOpen
  exact ⟨.inr ⟨hOpen, hAlive, hStage⟩, h.peers fd, h.owner i⟩

theorem Inv.update (hApart : Apart i fd s s')
    (hFits : Fits config keys i fd s') (hIds : IdsOk s') : Inv config keys s' := by
  obtain ⟨hi, hfd, -⟩ := h.slot hOpen
  have hOther {j g : Nat} (hj : j ≠ i) (hg : (s'.clients j).fd = some g) : (s.clients j).fd = some g ∧ g ≠ fd := by
    rw [hApart.clients j hj] at hg
    refine ⟨hg, ?_⟩
    rintro rfl
    exact hj (h.distinct j i g hg hOpen)
  have hHere {g : Nat} (hg : (s'.clients i).fd = some g) : g = fd := by
    rcases hFits.stage with hEmpty | ⟨hSame, -⟩
    · rw [hEmpty] at hg
      cases hg
    · exact Option.some.inj (hg.symm.trans hSame)
  refine ⟨fun j => ?_, fun j k g hj hk => ?_, fun j => ?_, fun g hg => ?_, fun g => ?_, hIds⟩
  · rcases eq_or_ne j i with rfl | hj
    · rcases hFits.stage with hEmpty | ⟨hSame, hRest⟩
      · exact .inl hEmpty
      · exact .inr ⟨fd, hSame, hi, hApart.accepted ▸ hfd, hRest⟩
    rw [hApart.clients j hj]
    rcases h.slots j with hEmpty | ⟨g, hg, hjs, hgs, hAlive, hStage⟩
    · exact .inl hEmpty
    have hgf := (hOther hj ((hApart.clients j hj).symm ▸ hg)).2
    refine .inr ⟨g, hg, hjs, hApart.accepted ▸ hgs, ?_⟩
    rw [hApart.peers g hgf]
    exact ⟨hAlive, stage_congr hStage fun hOwns => hApart.body j hj ((h.owner j).mp hOwns)⟩
  · rcases eq_or_ne j i with rfl | hji
    · rcases eq_or_ne k j with rfl | hkj
      · rfl
      · exact absurd (hHere hj) (hOther hkj hk).2
    · rcases eq_or_ne k i with rfl | hki
      · exact absurd (hHere hk) (hOther hji hj).2
      · exact h.distinct j k g (hOther hji hj).1 (hOther hki hk).1
  · rcases eq_or_ne j i with rfl | hj
    · exact hFits.owner
    · rw [hApart.clients j hj, hApart.owner j hj]
      exact h.owner j
  · rw [hApart.accepted] at hg
    rw [hApart.peers g (by omega)]
    exact h.fresh g hg
  · rcases eq_or_ne g fd with rfl | hg
    · exact hFits.peer
    · rw [hApart.peers g hg]
      exact h.peers g

end

theorem Inv.turn (hOpen : (s.clients i).fd = some fd) (hApart : Apart i fd s s')
    (hFits : Fits config keys i fd s') (hIds : IdsOk s')
    (hAnswer : ∀ answer, (s.peers fd).answer = some answer → (s'.peers fd).answer = some answer)
    (hBody : (s.clients i).sendingResponse = true → s'.positionsBody = s.positionsBody ∨ (s'.peers fd).closed = true) :
    Turn config keys s s' where
  inv := h.update hOpen hApart hFits hIds
  closed g hClosed := by
    apply hApart.peers
    rintro rfl
    exact Bool.noConfusion (hClosed.symm.trans (h.slot hOpen).2.2.1)
  answer g answer hSome := by
    rcases eq_or_ne g fd with rfl | hg
    · exact hAnswer _ hSome
    · rwa [hApart.peers g hg]
  body j g hj hSending hOwns := by
    rcases eq_or_ne j i with rfl | hji
    · cases hOpen.symm.trans hj
      exact hBody hSending
    · exact .inl (hApart.body j hji ((h.owner j).mp hOwns))

theorem Inv.serve (hNew : Unanswered config keys i fd s) (hApart : Apart i fd s s')
    (hFits : Fits config keys i fd s') (hIds : IdsOk s') : Turn config keys s s' := by
  refine h.turn hNew.isOpen hApart hFits hIds (fun _ hSome => ?_) fun hSending => ?_
  · exact nomatch hNew.answer.symm.trans hSome
  obtain ⟨-, -, -, hStage⟩ := h.slot hNew.isOpen
  cases hStage with
  | reading flags | waiting flags => exact Bool.noConfusion (flags.1.symm.trans hSending)
  | sending _ sending =>
    obtain ⟨_, hSome⟩ := sending.answer
    exact nomatch hNew.answer.symm.trans hSome

theorem Inv.wrote (hNew : Unanswered config keys i fd s) (hWrote : Wrote config keys i fd s s') :
    Turn config keys s s' :=
  h.serve hNew hWrote.apart hWrote.fits (h.ids.of_same hWrote.apart hWrote.ids)

end

/-! ## Writing, hanging up and expiring -/

theorem Inv.unanswered (h : Inv config keys s) (hOpen : (s.clients i).fd = some fd)
    (hSending : (s.clients i).sendingResponse = false) : Unanswered config keys i fd s := by
  obtain ⟨-, -, hAlive, hStage⟩ := h.slot hOpen
  refine ⟨hOpen, hAlive, ?_, h.peers fd, h.owner i⟩
  cases hStage with
  | reading _ _ answer => exact answer
  | waiting _ _ answer => exact answer
  | sending flags => exact Bool.noConfusion (hSending.symm.trans flags.1)

theorem closeClient_of_empty (h : s.clients i = {}) : s.closeClient i = s := by
  have hRelease : s.releasePositionsBody i = s := by rw [releasePositionsBody, h, if_neg Bool.false_ne_true]
  have hRecord (note : Peer → Peer) : s.record i note = s := by rw [record, h]
  rw [closeClient, hRelease, hRecord, setClient, ← h, update_eq_self]

theorem peers_closeClient (hOpen : (s.clients i).fd = some fd) :
    (s.closeClient i).peers fd = { s.peers fd with closed := true } := by
  rw [closeClient, record_of_open ((s.fd_releasePositionsBody i).trans hOpen), peers_setClient, peers_setPeer,
    peers_releasePositionsBody]

theorem Inv.closeClient (h : Inv config keys s) (i : Nat) : Turn config keys s (s.closeClient i) := by
  rcases h.slots i with hEmpty | ⟨fd, hOpen, -⟩
  · rw [closeClient_of_empty hEmpty]
    exact .refl h
  have hWrote := wrote_closeClient hOpen (h.peers fd) (h.owner i)
  refine h.turn hOpen hWrote.apart hWrote.fits (h.ids.of_same hWrote.apart hWrote.ids) (fun _ hSome => ?_)
    fun _ => .inr ?_
  · rw [peers_closeClient hOpen]
    exact hSome
  · rw [peers_closeClient hOpen]

theorem sendFrom_cases (s : Server) (i : Nat) (bytes : List UInt8) (offset : Nat)
    (advance : Nat → ClientSlot → ClientSlot) (send : SendResult) :
    s.sendFrom config i bytes offset advance send = s ∨
      s.sendFrom config i bytes offset advance send = s.closeClient i ∨ ∃ n,
        s.sendFrom config i bytes offset advance send =
          (s.record i fun peer => { peer with sent := peer.sent ++ (bytes.drop offset).take n }).setClient i
            (advance n (s.clients i)) := by
  cases send with
  | blocked => exact .inl rfl
  | failed => exact .inr (.inl rfl)
  | sent count =>
    rw [sendFrom]
    generalize min count (min (bytes.length - offset) (if config.maxWriteChunkBytes = 0 then kDefaultWriteChunkBytes
      else config.maxWriteChunkBytes.toNat)) = n
    split
    · exact .inr (.inl rfl)
    · exact .inr (.inr ⟨_, rfl⟩)

theorem Inv.flushClient (h : Inv config keys s) (i : Nat) (send : SendResult) :
    Turn config keys s (s.flushClient config i send) := by
  by_cases hIdle : (s.clients i).fd = none ∨ ¬ (s.clients i).sendingResponse = true
  · rw [Server.flushClient, if_pos hIdle]
    exact .refl h
  have hBusy := hIdle
  rw [not_or, not_not] at hBusy
  obtain ⟨_, hOpen⟩ := Option.ne_none_iff_exists'.mp hBusy.1
  have hWrote := wrote_flushClient (h.fits hOpen) hOpen hBusy.2 send
  have hSent {bytes : List UInt8} {offset : Nat} {advance : Nat → ClientSlot → ClientSlot}
      (hFlush : s.flushClient config i send = s.sendFrom config i bytes offset advance send) :
      Turn config keys s (s.flushClient config i send) := by
    rcases sendFrom_cases s i bytes offset advance send with hSame | hClose | ⟨n, hPart⟩
    · rw [hFlush, hSame]
      exact .refl h
    · rw [hFlush, hClose]
      exact h.closeClient i
    · rw [hFlush, hPart, record_of_open hOpen] at hWrote ⊢
      refine h.turn hOpen hWrote.apart hWrote.fits (h.ids.of_same hWrote.apart hWrote.ids) (fun _ hSome => ?_)
        fun _ => .inl rfl
      rw [peers_setClient, peers_setPeer]
      exact hSome
  by_cases hOwn : (s.clients i).outgoingOffset < (s.clients i).outgoing.length
  · apply hSent
    rw [Server.flushClient, if_neg hIdle, if_pos hOwn]
  by_cases hShared : (s.clients i).ownsPositionsBody = true ∧ (s.clients i).positionsBodyOffset < s.positionsBody.length
  · apply hSent
    rw [Server.flushClient, if_neg hIdle, if_neg hOwn, if_pos hShared]
  · rw [Server.flushClient, if_neg hIdle, if_neg hOwn, if_neg hShared]
    exact h.closeClient i

theorem Inv.expireClient (h : Inv config keys s) (now : UInt64) (i : Nat) (write : Write) :
    Turn config keys s (s.expireClient config now i write) := by
  rw [Server.expireClient]
  split
  · exact .refl h
  rename_i hDue
  rw [not_or] at hDue
  obtain ⟨_, hOpen⟩ := Option.ne_none_iff_exists'.mp hDue.1
  split
  · exact h.closeClient i
  rename_i hSending
  have hUnanswered := h.unanswered hOpen (Bool.eq_false_iff.mpr hSending)
  split
  all_goals exact h.wrote hUnanswered (wrote_refuse hUnanswered _ _)

/-! ## Replies -/

theorem releaseResponseId_eq (s : Server) (requestId : UInt64) :
    ∃ table, (s.releaseResponseId requestId).2 = { s with outstandingResponseIds := table } := by
  rw [releaseResponseId]
  split
  · exact ⟨_, rfl⟩
  split
  · exact ⟨_, rfl⟩
  · exact ⟨_, rfl⟩

theorem awaited_releaseResponseId (s : Server) (requestId : UInt64) :
    ((awaited s.outstandingResponseIds).erase requestId).Perm
      (awaited (s.releaseResponseId requestId).2.outstandingResponseIds) := by
  rw [releaseResponseId]
  split
  next hZero =>
    rw [erase_of_not_mem]
    intro hMem
    exact of_decide_eq_true (mem_filter.mp hMem).2 hZero
  rename_i hId
  split
  next hNone =>
    rw [erase_of_not_mem]
    intro hMem
    obtain ⟨k, hk, hHeld⟩ := mem_map.mp (mem_filter.mp hMem).1
    have hNot := (firstIndex_eq_none_iff _).mp hNone k (mem_range.mp hk)
    exact of_decide_eq_false hNot hHeld
  next k hFirst =>
    obtain ⟨hk, hHeld, -⟩ := (firstIndex_eq_some_iff _ _ _).mp hFirst
    have hPerm := (awaited_release hk (of_decide_eq_true hHeld) hId).erase requestId
    rwa [erase_cons_head] at hPerm

variable (h : Inv config keys s)
include h

theorem Inv.tables {pending : List UInt64} {next : UInt64}
    (hUsed : ∀ id, Used s.nextRequestId id → Used next id) (hOutstanding : pending.Perm (awaited table)) :
    Inv config keys { s with outstandingResponseIds := table, pending := pending, nextRequestId := next } :=
  ⟨h.slots, h.distinct, h.owner, h.fresh, h.peers, h.ids.congr (fun _ => rfl) hUsed hOutstanding⟩

theorem Inv.takeReply (requestId : UInt64) :
    Inv config keys ({ s with pending := s.pending.erase requestId }.releaseResponseId requestId).2 := by
  have hErase := (h.ids.outstanding.erase requestId).trans
    (awaited_releaseResponseId { s with pending := s.pending.erase requestId } _)
  obtain ⟨_, hRelease⟩ := releaseResponseId_eq _ _
  rw [hRelease] at hErase ⊢
  exact h.tables (fun _ hUsed => hUsed) hErase

theorem Inv.reply (response : Response) (write : Write) (hSome : (s.clients i).fd ≠ none)
    (hWaiting : (s.clients i).waitingResponse = true) (hId : (s.clients i).requestId = response.requestId) :
    Turn config keys s
      ((s.setClient i { s.clients i with waitingResponse := false }).sendResponse config i response write) := by
  obtain ⟨fd, hOpen⟩ := Option.ne_none_iff_exists'.mp hSome
  obtain ⟨-, -, hAlive, hStage⟩ := h.slot hOpen
  cases hStage with
  | reading flags | sending flags => exact Bool.noConfusion (flags.2.symm.trans hWaiting)
  | waiting flags owns answer issued =>
    have hServed : Unanswered config keys i fd (s.setClient i { s.clients i with waitingResponse := false }) := by
      refine ⟨?_, hAlive, answer, h.peers fd, ?_⟩
      · rw [clients_setClient]
        exact hOpen
      · rw [clients_setClient]
        exact h.owner i
    have hSent := wrote_sendResponse hServed (by rw [clients_setClient]; exact owns) (hId ▸ issued) write
    exact h.wrote (h.unanswered hOpen flags.1) (.of_apart (apart_setClient s i fd _) ⟨rfl, rfl, rfl, rfl, rfl⟩ hSent)

theorem Inv.drainResponse (response : Response) (write : Write) :
    Turn config keys s (s.drainResponse config response write) := by
  have hTaken := h.takeReply response.requestId
  obtain ⟨table, hRelease⟩ :=
    releaseResponseId_eq _ _
  rw [Server.drainResponse]
  generalize { s with pending := s.pending.erase response.requestId }.releaseResponseId response.requestId = out
    at hTaken hRelease
  obtain ⟨found, _⟩ := out
  subst hRelease
  have hTables : Turn config keys s
      { s with pending := s.pending.erase response.requestId, outstandingResponseIds := table } :=
    ⟨hTaken, fun _ _ => rfl, fun _ _ hAnswer => hAnswer, fun _ _ _ _ _ => .inl rfl⟩
  cases found with
  | false => exact hTables
  | true =>
    dsimp only
    split
    · exact hTables
    rename_i i hFirst
    obtain ⟨-, hWaits, -⟩ := (firstIndex_eq_some_iff _ _ _).mp hFirst
    obtain ⟨hSome, hWaiting, hId⟩ := of_decide_eq_true hWaits
    obtain ⟨hInv, hClosed, hAnswer, hBody⟩ := hTaken.reply _ _ hSome hWaiting hId
    exact ⟨hInv, hClosed, hAnswer, hBody⟩

end Server

end LuvFlicker.Http
