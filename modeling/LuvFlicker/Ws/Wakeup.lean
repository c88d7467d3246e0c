import LuvFlicker.Ws.Admission

/-!
# Wake-ups

The worker empties the pipe, serves the queues, looks whether they are empty and
then waits. An item that comes after it has looked comes with a byte in the pipe,
or its producer is still on the way to writing one.
-/

namespace LuvFlicker.Ws

open Function Server Option

universe u

variable {F : Type u} {limits : Limits} {s s' : Server F}

namespace Server

def Woken (s : Server F) : Prop := ∃ bytes, s.wakePipe = some bytes ∧ 0 < bytes

section

variable (limits : Limits) (s : Server F)

/-- Every fill in the queue has a byte in the pipe, or its producer has still to write one. -/
def FillsCovered : Prop :=
  ∀ fill ∈ s.events.contents, s.Woken ∨ ∃ caller < limits.publishers, s.publishers caller = .pushed fill

def UpgradesCovered : Prop :=
  ∀ ticket ∈ s.upgrades.contents, s.Woken ∨ ∃ caller < limits.enqueuers, s.enqueuers caller = .pushed ticket

def Needs : Phase → Prop
  | .testUpgrades => s.FillsCovered limits
  | .maintaining false | .polling false _ => s.FillsCovered limits ∧ s.UpgradesCovered limits
  | .polling true timeout => timeout = 0
  | _ => True

def Watch : Prop := ∀ worker, s.worker = some worker → s.Needs limits worker.phase

end

variable {phase : Phase} {i : Nat}

theorem Needs.mono (h : s.Needs limits phase) (hFills : s.FillsCovered limits → s'.FillsCovered limits)
    (hUpgrades : s.UpgradesCovered limits → s'.UpgradesCovered limits) : s'.Needs limits phase := by
  cases phase with
  | testUpgrades => exact hFills h
  | maintaining remains =>
    cases remains with
    | false => exact ⟨hFills h.1, hUpgrades h.2⟩
    | true => trivial
  | polling remains timeout =>
    cases remains with
    | false => exact ⟨hFills h.1, hUpgrades h.2⟩
    | true => exact h
  | _ => trivial

theorem Watch.frame (h : s.Watch limits) (hWorker : s'.worker = s.worker)
    (hFills : s.FillsCovered limits → s'.FillsCovered limits)
    (hUpgrades : s.UpgradesCovered limits → s'.UpgradesCovered limits) : s'.Watch limits := by
  intro _ hEq
  exact (h _ (hWorker ▸ hEq)).mono hFills hUpgrades

theorem Watch.of_none (hWorker : s.worker = none) : s.Watch limits := by
  intro _ hEq
  rw [hWorker] at hEq
  cases hEq

theorem watch_setWorker {closing : Closing} (h : (s.setWorker phase closing).Needs limits phase) :
    (s.setWorker phase closing).Watch limits := by
  intro _ hEq
  obtain rfl := Option.some.inj hEq
  exact h

/-! ## Callers -/

theorem UpgradesCovered.set {caller : Enqueue} (h : s.UpgradesCovered limits)
    (hCaller : ∀ ticket, s.enqueuers i ≠ .pushed ticket) : (s.setEnqueuer i caller).UpgradesCovered limits := by
  intro ticket hTicket
  rcases h ticket hTicket with hWoken | ⟨j, hj, hPushed⟩
  · exact .inl hWoken
  refine .inr ⟨j, hj, (update_of_ne ?_ ..).trans hPushed⟩
  rintro rfl
  exact hCaller _ hPushed

theorem FillsCovered.set {caller : Publish F} (h : s.FillsCovered limits)
    (hCaller : ∀ fill, s.publishers i ≠ .pushed fill) : (s.setPublisher i caller).FillsCovered limits := by
  intro fill hFill
  rcases h fill hFill with hWoken | ⟨j, hj, hPushed⟩
  · exact .inl hWoken
  refine .inr ⟨j, hj, (update_of_ne ?_ ..).trans hPushed⟩
  rintro rfl
  exact hCaller fill hPushed

theorem woken_signalWorker {limits : Limits} (hPipe : s.wakePipe.isSome = true) : (s.signalWorker limits).Woken := by
  obtain ⟨_, hBytes⟩ := isSome_iff_exists.mp hPipe
  have hPos := limits.pipe_pos
  simp only [signalWorker, hBytes, map_some]
  split
  · exact ⟨_, rfl, Nat.succ_pos _⟩
  · exact ⟨_, rfl, by omega⟩

theorem watch_of_woken (h : s.Watch limits) (hWorker : s'.worker = s.worker) (hWoken : s.worker ≠ none → s'.Woken) :
    s'.Watch limits := by
  intro _ hEq
  rw [hWorker] at hEq
  have hByte := hWoken (by rw [hEq]; exact some_ne_none _)
  exact (h _ hEq).mono (fun _ _ _ => .inl hByte) (fun _ _ _ => .inl hByte)

theorem Inv.signal_woken (h : Inv limits s) (hWorker : s.worker ≠ none) : (s.signalWorker limits).Woken :=
  woken_signalWorker (h.manned (isSome_iff_ne_none.mpr hWorker)).2

theorem enqueue_watch (hInv : Inv limits s) (h : s.Watch limits) (hi : i < limits.enqueuers)
    (hMove : EnqueueMoves limits s i s') : s'.Watch limits := by
  cases hMove with
  | think hLocal =>
    have hCaller (ticket : Nat) : s.enqueuers i ≠ .pushed ticket := by
      intro hPushed
      rw [hPushed] at hLocal
      cases hLocal
    exact h.frame rfl id (fun hCovered => hCovered.set hCaller)
  | lease hCaller _ | reserve hCaller _ | giveBack hCaller =>
    exact h.frame rfl id (fun hCovered => .set hCovered fun _ hPushed => nomatch hCaller.symm.trans hPushed)
  | @push ticket ring hCaller hPush =>
    refine h.frame rfl id (fun hCovered => ?_)
    intro other hOther
    have hContents := Spsc.Ring.contents_push hPush
    rcases List.mem_append.mp (hContents ▸ hOther : other ∈ s.upgrades.contents ++ [ticket]) with hOld | hNew
    · have hStill : (s.setEnqueuer i (.pushed ticket)).UpgradesCovered limits :=
        hCovered.set fun _ hPushed => nomatch hCaller.symm.trans hPushed
      exact hStill _ hOld
    · obtain rfl := List.mem_singleton.mp hNew
      exact .inr ⟨i, hi, update_self ..⟩
  | signal hCaller => exact watch_of_woken h rfl hInv.signal_woken
  | leave hCaller =>
    refine h.frame rfl id (fun hCovered => .set hCovered fun _ hPushed => ?_)
    rcases hCaller with hCaller | hCaller
    all_goals exact nomatch hCaller.symm.trans hPushed

theorem publish_watch (hInv : Inv limits s) (h : s.Watch limits) (hi : i < limits.publishers)
    (hMove : PublishMoves limits s i s') : s'.Watch limits := by
  cases hMove with
  | think hLocal =>
    have hCaller (fill : F) : s.publishers i ≠ .pushed fill := by
      intro hPushed
      rw [hPushed] at hLocal
      cases hLocal
    exact h.frame rfl (fun hCovered => hCovered.set hCaller) id
  | lease hCaller _ | leave hCaller =>
    exact h.frame rfl (fun hCovered => .set hCovered fun _ hPushed => nomatch hCaller.symm.trans hPushed) id
  | @push fill ring hCaller hPush =>
    refine h.frame rfl (fun hCovered => ?_) id
    intro other hOther
    have hContents := Spsc.Ring.contents_push hPush
    rcases List.mem_append.mp (hContents ▸ hOther : other ∈ s.events.contents ++ [fill]) with hOld | hNew
    · have hStill : (s.setPublisher i (.pushed fill)).FillsCovered limits :=
        hCovered.set fun _ hPushed => nomatch hCaller.symm.trans hPushed
      exact hStill _ hOld
    · obtain rfl := List.mem_singleton.mp hNew
      exact .inr ⟨i, hi, update_self ..⟩
  | signal hCaller => exact watch_of_woken h rfl hInv.signal_woken

/-! ## The worker -/

theorem FillsCovered.of_nil (h : s.events.contents = []) : s.FillsCovered limits := by
  intro _ hFill
  rw [h] at hFill
  cases hFill

theorem UpgradesCovered.of_nil (h : s.upgrades.contents = []) : s.UpgradesCovered limits := by
  intro _ hTicket
  rw [h] at hTicket
  cases hTicket

theorem Turns.needs {next : Phase} (hTurn : Turns s phase next) (h : s.Needs limits phase) : s.Needs limits next := by
  cases hTurn with
  | noFills hEmpty => exact .of_nil hEmpty
  | noUpgrades hEmpty => exact ⟨h, .of_nil hEmpty⟩
  | @wait remains timeout hTimeout =>
    cases remains with
    | false => exact h
    | true => exact hTimeout rfl
  | _ => trivial

theorem work_watch (h : s.Watch limits) (hMove : WorkMoves limits s s') : s'.Watch limits := by
  cases hMove with
  | rest => exact h
  | turn hWorker hTurn => exact watch_setWorker ((hTurn.needs (h _ hWorker)).mono id id)
  | drain hWorker =>
    intro _ hEq
    obtain rfl := Option.some.inj (hWorker.symm.trans hEq)
    trivial
  | popFill | popUpgrade | place | refused | count => exact watch_setWorker trivial
  | vacate hWorker _ _ _ | uncount hWorker | retire hWorker => exact watch_setWorker ((h _ hWorker).mono id id)

/-! ## The owner -/

theorem manage_watch (call : Call) (ok : Bool) (hInv : Inv limits s) (h : s.Watch limits) :
    (s.manage limits call ok).Watch limits := by
  cases hControl : s.control with
  | prepare =>
    simp only [manage, hControl]
    split
    · intro _ hEq
      obtain rfl := Option.some.inj hEq
      trivial
    · exact h.frame rfl id id
  | signal =>
    simp only [manage, hControl]
    exact watch_of_woken h rfl hInv.signal_woken
  | join =>
    simp only [manage, hControl]
    split
    · exact .of_none rfl
    · exact .of_none rfl
    · exact h
  | down | up =>
    simp only [manage, hControl]
    cases call with
    | start =>
      dsimp only
      split
      · exact h
      · exact h.frame rfl id id
    | stop => exact h.frame rfl id id
  | drainUpgrade | drainPublish =>
    simp only [manage, hControl]
    split
    · exact h.frame rfl id id
    · exact h
  | abandon | pending =>
    have hNone := hInv.worker_eq_none (by rw [hControl]; rfl)
    simp only [manage, hControl]
    cases s.upgrades.tryPop <;> exact .of_none hNone
  | fills =>
    have hNone := hInv.worker_eq_none (by rw [hControl]; rfl)
    simp only [manage, hControl]
    cases s.events.tryPop <;> exact .of_none hNone
  | sweep slot closing =>
    have hNone := hInv.worker_eq_none (by rw [hControl]; rfl)
    simp only [manage, hControl]
    cases closing with
    | vacated | retired => exact .of_none hNone
    | none =>
      simp only [sweep]
      split
      · cases s.connections slot <;> exact .of_none hNone
      · exact .of_none hNone
  | _ =>
    simp only [manage, hControl]
    exact h.frame rfl id id

end Server

theorem step_watch (action : Action F) (s : Server F) (h : s.Inv limits ∧ s.Watch limits) :
    (step limits action s).2.Inv limits ∧ (step limits action s).2.Watch limits := by
  obtain ⟨hInv, hWatch⟩ := h
  refine ⟨step_inv _ s hInv, ?_⟩
  cases action with
  | enqueue caller spurious =>
    rw [step]
    split
    next hCaller => exact enqueue_watch hInv hWatch hCaller (enqueue_moves _ _ _ s)
    · exact hWatch
  | publish caller fill spurious =>
    rw [step]
    split
    next hCaller => exact publish_watch hInv hWatch hCaller (publish_moves _ _ fill _ s)
    · exact hWatch
  | work choice => exact work_watch hWatch (work_moves _ _ s)
  | manage call ok => exact manage_watch call ok hInv hWatch

/-- The worker does not sleep on an item: while it waits, every item in a queue has a byte in the pipe, or the caller
that pushed it has not written its byte yet. -/
def Server.NoLostWakeup (limits : Limits) (s : Server F) : Prop :=
  ∀ remains timeout closing, s.worker = some ⟨.polling remains timeout, closing⟩ → 0 < timeout →
    s.FillsCovered limits ∧ s.UpgradesCovered limits

theorem no_lost_wakeup (limits : Limits) (slots : Nat → F) (actions : List (Action F)) :
    (Run.final (step limits) actions (Server.new slots)).NoLostWakeup limits := by
  have hStart : (Server.new slots).Inv limits ∧ (Server.new slots).Watch limits :=
    ⟨Server.inv_new _ _, .of_none rfl⟩
  have hRun := Run.final_invariant step_watch actions hStart
  intro remains timeout _ hWorker hTimeout
  have hNeeds := hRun.2 _ hWorker
  cases remains with
  | false => exact hNeeds
  | true =>
    obtain rfl : timeout = 0 := hNeeds
    exact absurd hTimeout (lt_irrefl 0)

end LuvFlicker.Ws
