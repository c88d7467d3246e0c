import LuvFlicker.Http.Dispatch

/-!
# Replies reach their requester

An id is handed out once and stays with the connection that asked, whatever slot it
is served in.
-/

namespace LuvFlicker.Http

open Bytes Run

namespace Server

variable {config : ListenerConfig} {keys : BearerKeyStore} {i fd : Nat} {s : Server}

/-! ## What is queued -/

variable (hOpen : (s.clients i).fd = some fd)
include hOpen

theorem answer_flushClient (send : SendResult) :
    ((s.flushClient config i send).peers fd).answer = (s.peers fd).answer := by
  have hClosed : ((s.closeClient i).peers fd).answer = (s.peers fd).answer := by rw [peers_closeClient hOpen]
  have hSent (bytes : List UInt8) (offset : Nat) (advance : Nat → ClientSlot → ClientSlot) :
      ((s.sendFrom config i bytes offset advance send).peers fd).answer = (s.peers fd).answer := by
    rcases @sendFrom_cases config s i bytes offset advance send with hSame | hClose | ⟨n, hPart⟩
    · rw [hSame]
    · rw [hClose, hClosed]
    · rw [hPart, peers_setClient, record_of_open hOpen, peers_setPeer]
  rw [Server.flushClient]
  split
  · rfl
  split
  · exact hSent _ _ _
  split
  · exact hSent _ _ _
  · exact hClosed

theorem answer_startSending (outgoing : List UInt8) (answer : Answer)
    (write : Write) : ((s.startSending config i outgoing answer write).peers fd).answer = some answer := by
  rw [startSending, record_of_open hOpen, answer_flushClient, peers_setClient, peers_setPeer]
  rw [clients_setClient]
  exact hOpen

theorem answer_refuse (refusal : Refusal) (write : Write) : ((s.refuse config i refusal write).peers fd).closed = true ∨
      ∃ message, ((s.refuse config i refusal write).peers fd).answer = some ⟨message, none⟩ := by
  have hKept := (s.fd_releasePositionsBody i).trans hOpen
  rw [refuse, queueInlineJson, if_neg (by simp [hOpen])]
  dsimp only
  split
  · left
    rw [peers_closeClient hKept]
  · right
    exact ⟨_, answer_startSending hKept _ _ _⟩

theorem answer_expireClient {now : UInt64}
    (hWaiting : (s.clients i).waitingResponse = true) (hDue : (s.clients i).deadlineNs ≤ now) (write : Write) :
    ((s.expireClient config now i write).peers fd).closed = true ∨
      ∃ message, ((s.expireClient config now i write).peers fd).answer = some ⟨message, none⟩ := by
  have hOver : ¬ ((s.clients i).fd = none ∨ now < (s.clients i).deadlineNs) := by
    rw [hOpen, not_or]
    exact ⟨nofun, UInt64.not_lt.mpr hDue⟩
  rw [expireClient, if_neg hOver]
  split
  · left
    rw [peers_closeClient hOpen]
  · exact answer_refuse hOpen _ _

end Server

/-! ## Delivery -/

/-- What a connection has sent belongs to its one response, and a reply in it has the id that was given to this connection
and to no other. -/
structure Delivered (s : Server) (fd : Nat) : Prop where
  silent : (s.peers fd).answer = none → (s.peers fd).sent = []
  sent : ∀ answer, (s.peers fd).answer = some answer → (s.peers fd).sent <+: answer.message
  issued : ∀ answer response, (s.peers fd).answer = some answer → answer.response = some response →
    ∀ fd', (s.peers fd').issued = some response.requestId ↔ fd' = fd

open Server

variable {config : ListenerConfig} {keys : BearerKeyStore}

theorem Server.Inv.delivered {s : Server} (h : Inv config keys s) (fd : Nat) : Delivered s fd where
  silent := (h.peers fd).silent
  sent answer hAnswer := ((h.peers fd).answer _ hAnswer).1
  issued answer response hAnswer hResponse fd' := by
    have hHere := ((h.peers fd).answer _ hAnswer).2 _ hResponse
    constructor
    · intro hThere
      exact h.ids.once fd' fd _ hThere hHere
    · rintro rfl
      exact hHere

/-- In every state that is reached, replies are on the connections that asked for them, eight of them at most are awaited and
one client at most owns the shared body. No operation sends on a closed connection, replaces a queued response or changes
the shared body while it is being sent, and a request that times out gets a response that is not a reply. -/
theorem replies_reach_requester (config : ListenerConfig) (keys : BearerKeyStore) (ops : List ServerOp) :
    let s := final (ServerOp.step config keys) ops {}
    (∀ fd, Delivered s fd) ∧ s.pending.length ≤ 8 ∧
      (∀ i j, (s.clients i).ownsPositionsBody = true → (s.clients j).ownsPositionsBody = true → i = j) ∧
      ∀ op : ServerOp, let s' := (op.step config keys s).2
        (∀ fd, (s.peers fd).closed = true → s'.peers fd = s.peers fd) ∧
        (∀ fd answer, (s.peers fd).answer = some answer → (s'.peers fd).answer = some answer) ∧
        (∀ i fd, (s.clients i).fd = some fd → (s.clients i).sendingResponse = true →
          (s.clients i).ownsPositionsBody = true → s'.positionsBody = s.positionsBody ∨ (s'.peers fd).closed = true) ∧
        ∀ i fd now write, op = .expire i now write → (s.clients i).fd = some fd →
          (s.clients i).waitingResponse = true → (s.clients i).deadlineNs ≤ now →
          (s'.peers fd).closed = true ∨ ∃ message, (s'.peers fd).answer = some ⟨message, none⟩ := by
  have hInv := @inv_run config keys ops
  refine ⟨hInv.delivered, ?_, fun i j hi hj => ?_, fun op => ?_⟩
  · rw [hInv.ids.outstanding.length_eq]
    exact length_awaited
  · exact Option.some.inj (((hInv.owner i).mp hi).symm.trans ((hInv.owner j).mp hj))
  have hTurn := hInv.step op
  refine ⟨hTurn.closed, hTurn.answer, hTurn.body, ?_⟩
  rintro i fd now write rfl hOpen hWaiting hDue
  exact answer_expireClient hOpen hWaiting hDue _

end LuvFlicker.Http
