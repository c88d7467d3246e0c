import LuvFlicker.Http.Bridge

/-!
# One reply per request

Under every interleaving of the two threads, the ids of the requests that ask for a
response are the ids of the responses taken so far followed by those still on their
way.
-/

namespace LuvFlicker.Http

open Run Spsc List Channel Request Phase Http.Action

def awaiting (requests : List Request) : List UInt64 := (requests.filter Request.asks).map Request.requestId

@[simp]
theorem awaiting_nil : awaiting [] = [] := rfl

@[simp]
theorem awaiting_append (before rest : List Request) : awaiting (before ++ rest) = awaiting before ++ awaiting rest := by
  rw [awaiting, filter_append, map_append, awaiting, awaiting]

variable {request : Request}

theorem awaiting_submit (h : request.command = .kSubmit) (rest : List Request) :
    awaiting (request :: rest) = awaiting rest := by
  simp [awaiting, asks, h]

theorem awaiting_ask (h : request.command ≠ .kSubmit) (rest : List Request) :
    awaiting (request :: rest) = request.requestId :: awaiting rest := by
  simp [awaiting, asks, h]

namespace Bridge

def held (b : Bridge) : List Response := b.deferred.toList ++ b.phase.reply.toList

def pending (b : Bridge) : List UInt64 :=
  (b.responses.ring.contents ++ b.held).map Response.requestId ++ awaiting b.requests.ring.contents

structure Inv (b : Bridge) : Prop where
  clear : b.phase ≠ .idle → b.deferred = none
  answered : awaiting b.requests.taken = (b.responses.committed ++ b.held).map Response.requestId

theorem init_inv (gateway : ExecutionGateway) : Inv (init gateway) :=
  ⟨fun h => absurd rfl h, by rw [init, committed_new]; rfl⟩

variable {b : Bridge}

theorem Inv.clear_of_eq (h : Inv b) {phase : Phase} (hPhase : b.phase = phase) (hBusy : phase ≠ .idle) :
    b.deferred = none := h.clear (hPhase ▸ hBusy)

variable {action : Action} {result : Output × Bridge}

theorem moves_inv (h : Inv b) (hMoves : Moves b action result) : Inv result.2 := by
  have hAnswered := h.answered
  rw [held] at hAnswered
  cases hMoves with
  | refused _ => exact h
  | submitted push => exact ⟨h.clear, by rw [(contents_push push).1]; exact h.answered⟩
  | nothing _ => exact h
  | took pop => exact ⟨h.clear, by rw [committed_pop pop]; exact h.answered⟩
  | started phase empty =>
    refine ⟨fun _ => empty, ?_⟩
    rw [phase] at hAnswered
    exact hAnswered
  | blocked _ _ _ => exact h
  | flushed phase full push =>
    refine ⟨fun _ => rfl, ?_⟩
    rw [phase, full] at hAnswered
    rw [committed_push push, hAnswered, held]
    simp [reply]
  | drained phase pop =>
    refine ⟨fun hBusy => absurd rfl hBusy, ?_⟩
    rw [phase] at hAnswered
    exact hAnswered
  | built phase pop submits _ =>
    refine ⟨fun hBusy => absurd rfl hBusy, ?_⟩
    rw [phase] at hAnswered
    rw [(contents_pop pop).1, awaiting_append, awaiting_submit submits, awaiting_nil, append_nil]
    exact hAnswered
  | answered phase pop asks answers =>
    have hClear := h.clear_of_eq phase (by simp)
    have hId := answer_requestId ▸ congrArg (fun result : Response × ExecutionGateway => result.1.requestId) answers
    refine ⟨fun _ => hClear, ?_⟩
    rw [phase] at hAnswered
    rw [(contents_pop pop).1, awaiting_append, awaiting_ask asks, hAnswered, held, hId]
    simp [reply]
  | spilled phase push =>
    refine ⟨fun hBusy => absurd rfl hBusy, ?_⟩
    rw [phase, h.clear_of_eq phase (by simp)] at hAnswered
    exact hAnswered
  | replied phase push =>
    have hClear := h.clear_of_eq phase (by simp)
    refine ⟨fun hBusy => absurd rfl hBusy, ?_⟩
    rw [phase] at hAnswered
    rw [committed_push push, hAnswered, held, hClear]
    simp [reply]
  | called _ _ => exact ⟨h.clear, h.answered⟩
  | busy _ => exact h

theorem step_inv (action : Action) (b : Bridge) (h : Inv b) : Inv (step action b).2 := moves_inv h (step_moves _ b)

theorem run_inv (gateway : ExecutionGateway) (actions : List Action) : Inv (final step actions (init gateway)) :=
  final_invariant step_inv _ (init_inv _)

theorem Inv.conserved (h : Inv b) :
    awaiting b.requests.committed = b.responses.taken.map Response.requestId ++ b.pending := by
  rw [committed, awaiting_append, h.answered, committed, pending]
  simp

theorem moves_deferred (h : Inv b)
    (hMoves : Moves b action result) {response : Response} (hDeferred : b.deferred = some response) :
    result.2.deferred = some response ∧ result.2.responses.committed = b.responses.committed ∨
      result.2.deferred = none ∧ result.2.responses.committed = b.responses.committed ++ [response] := by
  cases hMoves with
  | refused | submitted | nothing | started | blocked | drained | built | answered | called | busy =>
    exact .inl ⟨hDeferred, rfl⟩
  | took pop => exact .inl ⟨hDeferred, committed_pop pop⟩
  | flushed _ full push =>
    obtain rfl := Option.some.inj (full.symm.trans hDeferred)
    exact .inr ⟨rfl, committed_push push⟩
  | spilled phase _ | replied phase _ => exact absurd (h.clear_of_eq phase (by simp)) (by simp [hDeferred])

theorem moves_taken (h : Inv b)
    (hMoves : Moves b action result) (hDeferred : b.deferred ≠ none) : result.2.requests.taken = b.requests.taken := by
  cases hMoves with
  | submitted push => exact (contents_push push).1
  | built phase _ _ _ | answered phase _ _ _ => exact absurd (h.clear_of_eq phase (by simp)) hDeferred
  | _ => rfl

/-! ## Progress -/

def rank (b : Bridge) : Nat :=
  if b.responses.ring.contents ≠ [] then 1
  else if b.held ≠ [] then 2
  else 3 + 2 * b.requests.ring.contents.findIdx Request.asks + if b.phase = .idle then 1 else 0

theorem one_le_rank (b : Bridge) : 1 ≤ rank b := by
  unfold rank
  split_ifs <;> omega

theorem rank_le (b : Bridge) : rank b ≤ 516 := by
  have hIdx : b.requests.ring.contents.findIdx asks ≤ b.requests.ring.contents.length := findIdx_le_length
  have hLength := b.requests.ring.length_contents_le
  unfold rank
  split_ifs <;> omega

theorem rank_of_response (h : b.responses.ring.contents ≠ []) : rank b = 1 := if_pos h

section

variable (h : b.responses.ring.contents = [])
include h

theorem two_le_rank : 2 ≤ rank b := by
  rw [rank, if_neg (not_not.mpr h)]
  split_ifs <;> omega

theorem rank_of_held (hHeld : b.held ≠ []) : rank b = 2 := by
  rw [rank, if_neg (not_not.mpr h), if_pos hHeld]

theorem rank_of_clear (hHeld : b.held = []) :
    rank b = 3 + 2 * b.requests.ring.contents.findIdx asks + if b.phase = .idle then 1 else 0 := by
  rw [rank, if_neg (not_not.mpr h), if_neg (not_not.mpr hHeld)]

end

theorem contents_ne_nil_of_full {α : Type} {bits : Nat} {c : Channel α bits} {a : α} (h : c.tryPush a = none) :
    c.ring.contents ≠ [] := by
  have hFull := (Ring.isFull_iff _).mp ((tryPush_eq_none_iff c a).mp h)
  intro hNil
  rw [hNil] at hFull
  exact (Nat.two_pow_pos bits).ne hFull

end Bridge

def Action.isProcess : Action → Bool
  | .process _ _ => true
  | _ => false

def Action.isTake : Action → Bool
  | .take => true
  | _ => false

namespace Bridge

structure Closer (process take : Bool) (b b' : Bridge) : Prop where
  le : rank b' ≤ rank b
  process : process = true → rank b ≤ 1 ∨ rank b' < rank b
  take : take = true → 2 ≤ rank b

theorem closer_of_rank_one {b b' : Bridge} (h : rank b' = 1) : Closer true false b b' := by
  have hOne := one_le_rank b
  exact ⟨by omega, fun _ => by omega, fun hTake => absurd hTake (by simp)⟩

theorem closer_of_lt {b b' : Bridge} (h : rank b' < rank b) : Closer true false b b' :=
  ⟨h.le, fun _ => .inr h, fun hTake => absurd hTake (by simp)⟩

theorem closer_refl (b : Bridge) : Closer false false b b := ⟨le_rfl, by simp, by simp⟩

theorem findIdx_asks_append {requests : List Request} (h : awaiting requests ≠ []) (rest : List Request) :
    (requests ++ rest).findIdx asks = requests.findIdx asks := by
  obtain ⟨request, hMem, hAsks⟩ : ∃ request ∈ requests, request.asks = _ := by
    obtain ⟨_, hId⟩ := exists_mem_of_ne_nil _ h
    obtain ⟨request, hMem, -⟩ := mem_map.mp hId
    exact ⟨_, mem_filter.mp hMem⟩
  rw [findIdx_append, if_pos (findIdx_lt_length_of_exists ⟨_, hMem, hAsks⟩)]

variable {b : Bridge} {result : Output × Bridge} {action : Action}

theorem moves_closer (h : Inv b) (hPending : b.pending ≠ []) (hMoves : Moves b action result) :
    b.responses.taken.length < result.2.responses.taken.length ∨ Closer action.isProcess action.isTake b result.2 := by
  cases hMoves with
  | refused _ | busy _ => exact .inr (closer_refl b)
  | @submitted request requests push =>
    refine .inr ⟨le_of_eq ?_, by simp [isProcess], by simp [isTake]⟩
    by_cases hRing : b.responses.ring.contents = []
    · by_cases hHeld : b.held = []
      · -- the request goes behind the one that is awaited
        have hAwaiting : awaiting b.requests.ring.contents ≠ [] := by simpa [pending, hRing, hHeld] using hPending
        rw [rank_of_clear hRing hHeld, rank_of_clear (b := { b with requests := requests }) hRing hHeld,
          (contents_push push).2, findIdx_asks_append hAwaiting]
      · rw [rank_of_held hRing hHeld, rank_of_held (b := { b with requests := requests }) hRing hHeld]
    · rw [rank_of_response hRing, rank_of_response (b := { b with requests := requests }) hRing]
  | nothing pop =>
    have hRing := (tryPop_eq_none_iff _).mp pop
    exact .inr ⟨le_rfl, by simp [isProcess], fun _ => two_le_rank hRing⟩
  | took pop =>
    left
    rw [(contents_pop pop).1, length_append]
    exact Nat.lt_succ_self _
  | started phase empty =>
    right
    by_cases hRing : b.responses.ring.contents = []
    · have hRank := rank_of_clear hRing (by simp [held, phase, empty, reply])
      have hRank' := rank_of_clear (b := { b with phase := .polling false }) hRing (by simp [held, empty, reply])
      rw [if_pos phase] at hRank
      rw [if_neg (by simp)] at hRank'
      exact closer_of_lt (by rw [hRank']; simp only; omega)
    · exact closer_of_rank_one (rank_of_response hRing)
  | blocked _ _ push | spilled phase push =>
    exact .inr (closer_of_rank_one (rank_of_response (contents_ne_nil_of_full push)))
  | flushed _ _ push | replied phase push =>
    refine .inr (closer_of_rank_one (rank_of_response ?_))
    rw [(contents_push push).2]
    exact append_ne_nil_of_right_ne_nil _ (cons_ne_nil _ _)
  | drained phase pop =>
    have hHeld : b.held = [] := by simp [held, phase, h.clear_of_eq phase (by simp), reply]
    have hRing : b.responses.ring.contents ≠ [] := by
      intro hRing
      apply hPending
      simp [pending, hRing, hHeld, (tryPop_eq_none_iff _).mp pop]
    exact .inr (closer_of_rank_one (rank_of_response hRing))
  | @built _ _ _ request requests _ _ gateway phase pop submits _ =>
    right
    by_cases hRing : b.responses.ring.contents = []
    · have hClear := h.clear_of_eq phase (by simp)
      have hRank := rank_of_clear hRing (by simp [held, phase, hClear, reply])
      have hRank' := rank_of_clear (b := { b with requests := requests, phase := .idle, gateway := gateway }) hRing
        (by simp [held, hClear, reply])
      have hSkip : (request :: requests.ring.contents).findIdx asks =
          requests.ring.contents.findIdx asks + 1 := by
        simp [findIdx_cons, asks, submits]
      rw [(contents_pop pop).2] at hRank
      rw [if_pos rfl] at hRank'
      exact closer_of_lt (by rw [hRank']; simp only; omega)
    · exact closer_of_rank_one (rank_of_response hRing)
  | @answered _ _ _ request requests response gateway phase pop asks _ =>
    right
    by_cases hRing : b.responses.ring.contents = []
    · have hRank := rank_of_clear hRing (by simp [held, phase, h.clear_of_eq phase (by simp), reply])
      have hRank' := rank_of_held
        (b := { b with requests := requests, phase := .replying response, gateway := gateway }) hRing
        (by simp [held, reply])
      exact closer_of_lt (by rw [hRank']; omega)
    · exact closer_of_rank_one (rank_of_response hRing)
  | called _ _ => exact .inr ⟨le_rfl, by simp [isProcess], by simp [isTake]⟩

/-- What the calls return: the requests that `submit` accepted, and the responses that `try_take_response` handed out. -/
def noteExchange (action : Action) (_ : Bridge) (output : Output) (seen : List Request × List Response) :
    List Request × List Response :=
  match action, output with
  | .submit request, .submitted true => (seen.1 ++ [request], seen.2)
  | .take, .took (some response) => (seen.1, seen.2 ++ [response])
  | _, _ => seen

def exchanged (b : Bridge) : List Request × List Response := (b.requests.committed, b.responses.taken)

theorem moves_exchanged (hMoves : Moves b action result) :
    result.2.exchanged = noteExchange action b result.1 b.exchanged := by
  cases hMoves with
  | submitted push => exact Prod.ext (committed_push push) rfl
  | took pop => exact Prod.ext rfl (contents_pop pop).1
  | flushed _ _ push | replied _ push => exact Prod.ext rfl (contents_push push).1
  | built _ pop _ _ | answered _ pop _ _ => exact Prod.ext (committed_pop pop) rfl
  | _ => rfl

theorem run_exchanged (gateway : ExecutionGateway) (actions : List Action) :
    history step noteExchange actions (init gateway) ([], []) = (final step actions (init gateway)).exchanged := by
  let Seen (b : Bridge) (seen : List Request × List Response) : Prop := seen = b.exchanged
  have hStep (action : Action) (c : Bridge) (seen : List Request × List Response) (hc : Seen c seen) :
      Seen (step action c).2 (noteExchange action c (step action c).1 seen) := by
    obtain rfl : seen = c.exchanged := hc
    exact (moves_exchanged (step_moves action c)).symm
  exact history_invariant hStep actions (Prod.ext (committed_new _).symm rfl)

structure Grows (b b' : Bridge) : Prop where
  requests : b.requests.committed <+: b'.requests.committed
  responses : b.responses.taken <+: b'.responses.taken

theorem Grows.refl (b : Bridge) : Grows b b := ⟨prefix_rfl, prefix_rfl⟩

theorem Grows.trans {b₁ b₂ b₃ : Bridge} (h : Grows b₁ b₂) (h' : Grows b₂ b₃) : Grows b₁ b₃ :=
  ⟨h.requests.trans h'.requests, h.responses.trans h'.responses⟩

theorem moves_grows (hMoves : Moves b action result) : Grows b result.2 := by
  have hNote := moves_exchanged hMoves
  unfold noteExchange at hNote
  split at hNote
  all_goals obtain ⟨hRequests, hResponses⟩ := Prod.mk.inj hNote
  · exact ⟨⟨_, hRequests.symm⟩, hResponses ▸ prefix_rfl⟩
  · exact ⟨hRequests ▸ prefix_rfl, ⟨_, hResponses.symm⟩⟩
  · exact ⟨hRequests ▸ prefix_rfl, hResponses ▸ prefix_rfl⟩

theorem run_grows (actions : List Action) (b : Bridge) : Grows b (final step actions b) :=
  final_invariant (fun action c h => h.trans (moves_grows (step_moves action c))) actions (Grows.refl b)

structure Owes (target : Nat) (b : Bridge) : Prop where
  inv : Inv b
  asked : target ≤ (awaiting b.requests.committed).length

variable {target : Nat}

theorem step_owes (action : Action) (b : Bridge) (h : Owes target b) : Owes target (step action b).2 := by
  refine ⟨step_inv _ b h.inv, le_trans h.asked ?_⟩
  obtain ⟨_, hRest⟩ := (moves_grows (step_moves _ b)).requests
  rw [← hRest, awaiting_append, length_append]
  exact Nat.le_add_right _ _

theorem Owes.pending_ne_nil (h : Owes target b) (hOpen : b.responses.taken.length < target) : b.pending ≠ [] := by
  have hAsked := h.asked
  rw [h.inv.conserved, length_append, length_map] at hAsked
  apply ne_nil_of_length_pos
  omega

theorem round_closer (round : List Action) (h : Owes target b) (hOpen : b.responses.taken.length < target) :
    b.responses.taken.length < (final step round b).responses.taken.length ∨
      Closer (round.any isProcess) (round.any isTake) b (final step round b) := by
  induction round generalizing b with
  | nil => exact .inr (closer_refl b)
  | cons action round ih =>
    have hMoves := step_moves action b
    have hLater := (run_grows round (step action b).2).responses.length_le
    rw [final_cons]
    rcases moves_closer h.inv (h.pending_ne_nil hOpen) hMoves with hTook | hStep
    · exact .inl (by omega)
    rcases lt_or_ge b.responses.taken.length (step action b).2.responses.taken.length with hTook | _
    · exact .inl (by omega)
    rcases ih (step_owes action b h) (by omega) with hTook | hRound
    · have hGrows := (moves_grows hMoves).responses.length_le
      exact .inl (by omega)
    have hLe := hStep.le
    have hLe' := hRound.le
    refine .inr ⟨by omega, fun hProcess => ?_, fun hTake => ?_⟩
    · rcases Bool.or_eq_true_iff.mp hProcess with hNow | hThen
      · have := hStep.process hNow
        omega
      · have := hRound.process hThen
        omega
    · rcases Bool.or_eq_true_iff.mp hTake with hNow | hThen
      · exact hStep.take hNow
      · have := hRound.take hThen
        omega

def Fair (round : List Action) : Prop := round.any Action.isProcess = true ∧ round.any Action.isTake = true

theorem taken_of_rounds {rounds : List (List Action)} (hFair : ∀ round ∈ rounds, Fair round)
    (h : Owes target b) (hLength : 516 * (target - b.responses.taken.length + 1) < rounds.length) :
    target ≤ (final step rounds.flatten b).responses.taken.length := by
  have hStays : ∀ action c, target ≤ c.responses.taken.length → target ≤ (step action c).2.responses.taken.length :=
    fun action c hc => le_trans hc (moves_grows (step_moves action c)).responses.length_le
  refine reaches_of_rounds (fun c => 516 * (target - c.responses.taken.length) + rank c) step_owes hStays ?_ hFair h ?_
  · intro round c hRound hOwes hOpen
    have hRank := rank_le (final step round c)
    have hOne := one_le_rank c
    rcases round_closer round hOwes (not_le.mp hOpen) with _ | hCloser
    · exact .inr (by omega)
    have hTake := hCloser.take hRound.2
    have hGrows := (run_grows round c).responses.length_le
    have hProcess := hCloser.process hRound.1
    exact .inr (by omega)
  · have hRank := rank_le b
    omega

/-- What the calls return is what the rings have seen. Every request that asks for a response and was accepted by
`submit` gets one response with its id, in the order of the requests; a spilled response is not overwritten or dropped,
and no request is popped meanwhile. -/
theorem exactlyOneReply (gateway : ExecutionGateway) (actions : List Action) :
    let b := final step actions (init gateway)
    history step noteExchange actions (init gateway) ([], []) = (b.requests.committed, b.responses.taken) ∧
    awaiting b.requests.committed = b.responses.taken.map Response.requestId ++ b.pending ∧
    (∀ action response, b.deferred = some response →
      (step action b).2.deferred = some response ∧ (step action b).2.responses.committed = b.responses.committed ∨
      (step action b).2.deferred = none ∧ (step action b).2.responses.committed = b.responses.committed ++ [response]) ∧
    (∀ action, b.deferred ≠ none → (step action b).2.requests.taken = b.requests.taken) ∧
    ∀ rounds : List (List Action), (∀ round ∈ rounds, Fair round) → 516 * (b.pending.length + 1) < rounds.length →
      awaiting b.requests.committed <+: (final step rounds.flatten b).responses.taken.map Response.requestId := by
  intro b
  have hInv : Inv b := run_inv gateway actions
  have hSeen : history step noteExchange actions (init gateway) ([], []) = b.exchanged := run_exchanged gateway actions
  refine ⟨hSeen, hInv.conserved, fun action response hDeferred => moves_deferred hInv (step_moves action b) hDeferred,
    fun action hDeferred => moves_taken hInv (step_moves action b) hDeferred, fun rounds hFair hLength => ?_⟩
  have hCount := congrArg List.length hInv.conserved
  rw [length_append, length_map] at hCount
  have hTaken := taken_of_rounds hFair ⟨hInv, le_rfl⟩ (by rw [hCount, Nat.add_sub_cancel_left]; exact hLength)
  -- the replies taken and the ids accepted earlier begin the same list, the ids accepted by then
  have hEnd : Inv (final step rounds.flatten b) := final_invariant step_inv _ hInv
  obtain ⟨_, hRest⟩ := (run_grows _ b).requests
  have hAccepted : awaiting b.requests.committed <+: awaiting (final step rounds.flatten b).requests.committed := by
    rw [← hRest, awaiting_append]
    exact prefix_append _ _
  rw [hEnd.conserved] at hAccepted
  exact prefix_of_prefix_length_le hAccepted (prefix_append _ _) (by rw [length_map]; exact hTaken)

def queried : Bridge :=
  final step [.submit { command := .kQuery, requestId := 5 }] (init (.init 100 (fun _ => .default) {} none))

/-- The query with the id 5 is answered when both threads go on for 1033 rounds. -/
theorem exactlyOneReply_queried :
    [5] <+: (final step (List.replicate 1033 [.process {} {}, .take]).flatten queried).responses.taken.map
      Response.requestId := by
  have hReplies (rounds : List (List Action)) (hFair : ∀ round ∈ rounds, Fair round)
      (hLength : 516 * (queried.pending.length + 1) < rounds.length) : awaiting queried.requests.committed <+:
        (final step rounds.flatten queried).responses.taken.map Response.requestId :=
    (exactlyOneReply _ _).2.2.2.2 rounds hFair hLength
  have hPending : queried.pending.length = 1 := by decide +kernel
  have hAsked : awaiting queried.requests.committed = [5] := by decide +kernel
  rw [hPending, hAsked] at hReplies
  refine hReplies _ (fun round hRound => ?_) ?_
  · rw [eq_of_mem_replicate hRound]
    exact ⟨rfl, rfl⟩
  · rw [length_replicate]
    decide

end Bridge

end LuvFlicker.Http
