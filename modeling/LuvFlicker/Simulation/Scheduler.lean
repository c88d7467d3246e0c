import LuvFlicker.Lib.Insertion
import LuvFlicker.Lib.Run

/-!
# The replay scheduler

Events stand in one array, sorted by their time stamps, with a cursor in front of
those that are still to be dispatched. A new event is inserted by its time stamp
into the whole array, the part behind the cursor included.
-/

namespace LuvFlicker.Simulation

open Block Insertion Run Function List UInt64

inductive ReplayEventType where
  | addOrder
  | modifyOrder
  | cancelOrder
  | tradeExecution
  | snapshot
  deriving DecidableEq

structure ReplayEvent where
  timestampNs : UInt64 := 0
  sequenceNo : UInt64 := 0
  orderId : UInt64 := 0
  symbolId : UInt64 := 0
  price : UInt64 := 0
  quantity : UInt64 := 0
  isBuy : Bool := true
  type : ReplayEventType := .addOrder
  deriving DecidableEq

def ReplayEvent.time (event : ReplayEvent) : Nat := event.timestampNs.toNat

def kMaxEvents : Nat := 512

structure NanosecondReplayScheduler where
  events : Nat → ReplayEvent := fun _ => {}
  eventCount : Nat := 0
  processedCount : Nat := 0
  currentSimTimeNs : UInt64 := 0

namespace NanosecondReplayScheduler

def scheduleEvent (event : ReplayEvent) (s : NanosecondReplayScheduler) : Bool × NanosecondReplayScheduler :=
  if s.eventCount ≥ kMaxEvents then (false, s)
  else
    (true,
      { s with
        events := sift ReplayEvent.time s.eventCount (update s.events s.eventCount event)
        eventCount := s.eventCount + 1 })

/-- The loop of `step_until`; the events handed to the handler come first. -/
def stepLoop (targetTimeNs : UInt64) : Nat → NanosecondReplayScheduler → List ReplayEvent × NanosecondReplayScheduler
  | 0, s => ([], s)
  | fuel + 1, s =>
    if s.processedCount < s.eventCount then
      let event := s.events s.processedCount
      if event.timestampNs > targetTimeNs then ([], s)
      else
        let out := stepLoop targetTimeNs fuel
          { s with currentSimTimeNs := event.timestampNs, processedCount := s.processedCount + 1 }
        (event :: out.1, out.2)
    else ([], s)

def stepUntil (targetTimeNs : UInt64) (s : NanosecondReplayScheduler) : List ReplayEvent × NanosecondReplayScheduler :=
  let out := stepLoop targetTimeNs (s.eventCount - s.processedCount) s
  (out.1,
    if out.2.currentSimTimeNs < targetTimeNs then { out.2 with currentSimTimeNs := targetTimeNs } else out.2)

variable (s : NanosecondReplayScheduler)

def all : List ReplayEvent := slice s.events 0 s.eventCount

/-- The events in front of the cursor, which `step_until` takes as dispatched. -/
def consumed : List ReplayEvent := s.all.take s.processedCount

def pending : List ReplayEvent := s.all.drop s.processedCount

end NanosecondReplayScheduler

inductive ReplayOp where
  | schedule (event : ReplayEvent)
  | stepUntil (targetTimeNs : UInt64)

inductive Outcome where
  | scheduled (ok : Bool)
  | dispatched (events : List ReplayEvent)

def ReplayOp.step (op : ReplayOp) (s : NanosecondReplayScheduler) : Outcome × NanosecondReplayScheduler :=
  match op with
  | .schedule event => (.scheduled (s.scheduleEvent event).1, (s.scheduleEvent event).2)
  | .stepUntil target => (.dispatched (s.stepUntil target).1, (s.stepUntil target).2)

structure Told where
  scheduled : List ReplayEvent := []
  dispatched : List ReplayEvent := []

def Told.note (op : ReplayOp) (_ : NanosecondReplayScheduler) (outcome : Outcome) (told : Told) : Told :=
  match op, outcome with
  | .schedule event, .scheduled true => { told with scheduled := told.scheduled ++ [event] }
  | _, .dispatched events => { told with dispatched := told.dispatched ++ events }
  | _, _ => told

/-! ## Stepping -/

open ReplayEvent

namespace NanosecondReplayScheduler

variable {s : NanosecondReplayScheduler}

theorem pending_eq_cons (h : s.processedCount < s.eventCount) :
    s.pending = s.events s.processedCount :: { s with processedCount := s.processedCount + 1 }.pending := by
  have hLength : s.processedCount < s.all.length := by rwa [all, length_slice]
  rw [pending, drop_eq_getElem_cons hLength]
  congr 1
  have hGet := getElem?_slice s.events 0 s.eventCount s.processedCount
  rw [if_pos h, zero_add] at hGet
  exact Option.some.inj ((getElem?_eq_getElem _).symm.trans hGet)

structure Stepped (target : UInt64) (s : NanosecondReplayScheduler) (out : List ReplayEvent × NanosecondReplayScheduler) :
    Prop where
  events : out.2.events = s.events
  eventCount : out.2.eventCount = s.eventCount
  processed : out.2.processedCount = s.processedCount + out.1.length
  dispatched : out.1 = s.pending.takeWhile fun event => event.time ≤ target.toNat

theorem pending_eq_nil (h : s.eventCount ≤ s.processedCount) : s.pending = [] :=
  drop_eq_nil_of_le (by rwa [all, length_slice])

theorem stepped_stepLoop {target : UInt64} {fuel : Nat} (hFuel : s.eventCount - s.processedCount ≤ fuel) :
    Stepped target s (stepLoop target fuel s) := by
  induction fuel generalizing s with
  | zero => exact ⟨rfl, rfl, rfl, by rw [pending_eq_nil (by omega)]; rfl⟩
  | succ fuel ih =>
    rw [stepLoop]
    split
    next hMore =>
      have hPending := pending_eq_cons hMore
      dsimp only
      split
      next hLate =>
        refine ⟨rfl, rfl, rfl, ?_⟩
        rw [hPending, takeWhile_cons_of_neg]
        rw [decide_eq_true_iff, not_le]
        exact lt_iff_toNat_lt.mp hLate
      rename_i hDue
      have hDue : (s.events s.processedCount).time ≤ target.toNat := by
        exact not_lt.mp fun hLess => hDue (lt_iff_toNat_lt.mpr hLess)
      obtain ⟨hEvents, hCount, hProcessed, hDispatched⟩ := @ih { s with
        currentSimTimeNs := (s.events _).timestampNs, processedCount := s.processedCount + 1 }
        (by dsimp only; omega)
      refine ⟨hEvents, hCount, ?_, ?_⟩
      · rw [hProcessed, length_cons]
        dsimp only
        omega
      · rw [hPending, takeWhile_cons_of_pos (by rwa [decide_eq_true_iff]), hDispatched]
        rfl
    next hEnd => exact ⟨rfl, rfl, rfl, by rw [pending_eq_nil (by omega)]; rfl⟩

theorem stepped_stepUntil (target : UInt64) (s : NanosecondReplayScheduler) :
    Stepped target s (s.stepUntil target) := by
  obtain ⟨hEvents, hCount, hProcessed, hDispatched⟩ :=
    stepped_stepLoop (s := s) le_rfl
  rw [stepUntil]
  split
  all_goals exact ⟨hEvents, hCount, hProcessed, hDispatched⟩

variable {out : List ReplayEvent × NanosecondReplayScheduler} {target : UInt64}

theorem Stepped.all_eq (h : Stepped target s out) : out.2.all = s.all := by
  rw [all, all, h.events, h.eventCount]

theorem Stepped.pending_eq (h : Stepped target s out) : s.pending = out.1 ++ out.2.pending ∧
      out.2.pending = s.pending.dropWhile fun event => event.time ≤ target.toNat := by
  have hSplit := @takeWhile_append_dropWhile _ (fun event : ReplayEvent => event.time ≤ target.toNat) s.pending
  have hRest : out.2.pending = s.pending.drop out.1.length := by
    rw [pending, h.all_eq, h.processed, ← drop_drop, pending]
  rw [← h.dispatched] at hSplit
  have hDrop : s.pending.drop out.1.length = s.pending.dropWhile fun event => event.time ≤ target.toNat := by
    nth_rw 1 [← hSplit]
    exact drop_left
  exact ⟨by rw [hRest, hDrop, hSplit], hRest.trans hDrop⟩

/-! ## Scheduling -/

/-- No event in front of the cursor is later than the new one, unless the array is full. -/
def NotLate (event : ReplayEvent) (s : NanosecondReplayScheduler) : Prop :=
  s.eventCount < kMaxEvents → ∀ old ∈ s.consumed, old.timestampNs ≤ event.timestampNs

theorem inserted_scheduleEvent (hSorted : Sorted time s.all) (hRoom : s.eventCount < kMaxEvents)
    (event : ReplayEvent) : Inserted time event s.all (s.scheduleEvent event).2.all := by
  have hSame : slice (update s.events s.eventCount event) 0 s.eventCount = s.all :=
    slice_congr fun k _ => update_of_ne (by omega) _ _
  have hInserted := inserted_sift _ _ _ (by rw [hSame]; exact hSorted)
  rw [hSame, update_self] at hInserted
  rw [scheduleEvent, if_neg (not_le_of_gt hRoom)]
  exact hInserted

variable {event : ReplayEvent}

section

variable (hSorted : Sorted ReplayEvent.time s.all) (hCursor : s.processedCount ≤ s.eventCount)
include hSorted hCursor

theorem consumed_scheduleEvent (hRoom : s.eventCount < kMaxEvents) (hNot : NotLate event s) :
    (s.scheduleEvent event).2.consumed = s.consumed ∧ Inserted time event s.pending
      (s.scheduleEvent event).2.pending := by
  obtain ⟨before, after, hOld, hNew, hGreater, hBefore⟩ := inserted_scheduleEvent hSorted hRoom _
  have hProcessed : (s.scheduleEvent event).2.processedCount = s.processedCount := by
    rw [scheduleEvent, if_neg (not_le_of_gt hRoom)]
  have hLong : s.processedCount ≤ before.length := by
    by_contra hShort
    have hAt := not_le.mp hShort
    have hLength := congrArg List.length hOld
    rw [all, length_slice, length_append] at hLength
    cases after with
    | nil => exact absurd hLength (by rw [length_nil]; omega)
    | cons y rest =>
      have hConsumed : y ∈ s.consumed := by
        rw [consumed, hOld, take_append, mem_append]
        obtain ⟨n, _⟩ := Nat.exists_eq_add_of_lt hAt
        have hTake : s.processedCount - before.length = n + 1 := by omega
        rw [hTake]
        exact .inr mem_cons_self
      have hLate := hGreater y mem_cons_self
      exact absurd (le_iff_toNat_le.mp (hNot hRoom y hConsumed)) (not_le_of_gt hLate)
  rw [consumed, pending, consumed, pending, hProcessed, hNew, hOld]
  refine ⟨?_, before.drop s.processedCount, _, ?_, ?_, hGreater, fun y hy => hBefore y (mem_of_mem_drop hy)⟩
  · rw [take_append_of_le_length hLong, take_append_of_le_length hLong]
  all_goals rw [drop_append_of_le_length hLong]

theorem pending_scheduleEvent_of_late (hLate : ¬ NotLate event s) :
    s.eventCount < kMaxEvents ∧ ∃ last ∈ s.consumed, event.time < last.time ∧
      (s.scheduleEvent event).2.pending = last :: s.pending := by
  rw [NotLate, Classical.not_imp] at hLate
  obtain ⟨hRoom, hOlder⟩ := hLate
  push Not at hOlder
  obtain ⟨old, hOld, hLess⟩ := hOlder
  obtain ⟨before, after, hAll, hNew, hGreater, hBefore⟩ := inserted_scheduleEvent hSorted hRoom event
  have hProcessed : (s.scheduleEvent event).2.processedCount = s.processedCount := by
    rw [scheduleEvent, if_neg (not_le_of_gt hRoom)]
  have hShort : before.length < s.processedCount := by
    by_contra hLong
    rw [consumed, hAll, take_append_of_le_length (not_lt.mp hLong)] at hOld
    have hNotGreater := hBefore old (mem_of_mem_take hOld)
    exact hLess (le_iff_toNat_le.mpr hNotGreater)
  have hLength := congrArg List.length hAll
  rw [all, length_slice, length_append] at hLength
  obtain ⟨k, _⟩ := Nat.exists_eq_add_of_lt hShort
  have hInside : k < after.length := by omega
  refine ⟨hRoom, _, ?_, hGreater _ (getElem_mem hInside), ?_⟩
  · rw [consumed, hAll, take_append, mem_append]
    right
    rw [mem_take_iff_getElem]
    exact ⟨k, by omega, rfl⟩
  · have hFront : s.processedCount - before.length = k + 1 := by omega
    rw [pending, hProcessed, hNew, drop_append, hFront, drop_succ_cons, pending, hAll, drop_append,
      drop_eq_nil_of_le hShort.le, hFront]
    exact drop_eq_getElem_cons _

end

/-! ## Runs -/

structure Aligned (s : NanosecondReplayScheduler) (told : Told) : Prop where
  sorted : Sorted ReplayEvent.time s.all
  cursor : s.processedCount ≤ s.eventCount
  dispatched : told.dispatched = s.consumed
  scheduled : ∀ time, s.all.filter (·.time = time) = told.scheduled.filter (·.time = time)

theorem all_eq (s : NanosecondReplayScheduler) : s.all = s.consumed ++ s.pending := (take_append_drop _ _).symm

variable {told : Told}

theorem Aligned.stepUntil (h : Aligned s told) (target : UInt64) :
    Aligned (s.stepUntil target).2 { told with dispatched := told.dispatched ++ (s.stepUntil target).1 } := by
  have hStepped := stepped_stepUntil target s
  generalize s.stepUntil target = out at hStepped
  have hLength : out.1.length ≤ s.eventCount - s.processedCount := by
    have hSplit := congrArg List.length hStepped.pending_eq.1
    rw [length_append, pending, length_drop, all, length_slice] at hSplit
    omega
  have hCursor := h.cursor
  have hConsumed : out.2.consumed = s.consumed ++ out.1 := by
    rw [consumed, hStepped.all_eq, hStepped.processed, take_add, ← pending, hStepped.pending_eq.1, take_left]
    rfl
  refine ⟨hStepped.all_eq ▸ h.sorted, ?_, ?_, hStepped.all_eq ▸ h.scheduled⟩
  · rw [hStepped.processed, hStepped.eventCount]
    omega
  · rw [hConsumed, h.dispatched]

theorem Aligned.scheduleEvent (h : Aligned s told) (hRoom : s.eventCount < kMaxEvents) (hNot : NotLate event s) :
    Aligned (s.scheduleEvent event).2 { told with scheduled := told.scheduled ++ [event] } := by
  have hInserted := inserted_scheduleEvent h.sorted hRoom event
  obtain ⟨hConsumed, -⟩ := consumed_scheduleEvent h.sorted h.cursor hRoom hNot
  refine ⟨hInserted.sorted h.sorted, ?_, h.dispatched.trans hConsumed.symm, fun _ => ?_⟩
  · rw [NanosecondReplayScheduler.scheduleEvent, if_neg (not_le_of_gt hRoom)]
    exact Nat.le_succ_of_le h.cursor
  · rw [hInserted.filter, filter_append, h.scheduled, ← filter_append]

/-- What a call of `step_until` owes: every event scheduled so far up to the target has been dispatched once, none more than
once, and the events of the call come in the order of their time stamps and, at one time stamp, of their scheduling. -/
structure ExactlyOnce (told : Told) (target : UInt64) (out : List ReplayEvent) : Prop where
  once : ∀ event : ReplayEvent, event.timestampNs ≤ target →
    (told.dispatched ++ out).count event = told.scheduled.count event
  notTwice : ∀ event, (told.dispatched ++ out).count event ≤ told.scheduled.count event
  ordered : out.Pairwise fun a b => a.timestampNs ≤ b.timestampNs
  ties : ∀ time, (told.dispatched ++ out).filter (·.time = time) <+: told.scheduled.filter (·.time = time)

theorem count_eq_count_filter (l : List ReplayEvent) (event : ReplayEvent) :
    l.count event = (l.filter (·.time = event.time)).count event :=
  (count_filter (p := fun x : ReplayEvent => x.time = event.time) (decide_eq_true rfl)).symm

variable (h : Aligned s told)
include h

theorem Aligned.count (event : ReplayEvent) : s.all.count event = told.scheduled.count event := by
  rw [count_eq_count_filter, h.scheduled, ← count_eq_count_filter]

theorem Aligned.exactlyOnce (target : UInt64) : ExactlyOnce told target (s.stepUntil target).1 := by
  have hStepped := stepped_stepUntil target s
  generalize s.stepUntil target = out at hStepped
  obtain ⟨hPending, hRest⟩ := hStepped.pending_eq
  have hAll : s.all = told.dispatched ++ out.1 ++ out.2.pending := by rw [all_eq, hPending, h.dispatched, append_assoc]
  have hSorted := h.sorted
  rw [hAll, Sorted, pairwise_append, pairwise_append] at hSorted
  obtain ⟨⟨-, hOut, -⟩, _, -⟩ := hSorted
  have hCount (event : ReplayEvent) : (told.dispatched ++ out.1).count event + out.2.pending.count event =
      told.scheduled.count event := by
    rw [← h.count, hAll]
    exact count_append.symm
  refine ⟨fun event hDue => ?_, fun event => ?_, hOut.imp fun hLe => le_iff_toNat_le.mpr hLe, fun _ => ?_⟩
  · have hNone : event ∉ out.2.pending := by
      intro hMem
      have hSortedPending : Sorted time s.pending := h.sorted.sublist (drop_sublist _ _)
      have hLate := hSortedPending.lt_of_mem_dropWhile (hRest ▸ hMem)
      exact absurd (le_iff_toNat_le.mp hDue) (not_le_of_gt hLate)
    have hSum := hCount event
    rwa [count_eq_zero_of_not_mem hNone] at hSum
  · have hSum := hCount event
    omega
  · rw [← h.scheduled, hAll, filter_append _ out.2.pending]
    exact prefix_append _ _

theorem Aligned.not_exactlyOnce (hLate : ¬ s.NotLate event) : (s.scheduleEvent event).1 = true ∧ ∃ target,
      ¬ ExactlyOnce { told with scheduled := told.scheduled ++ [event] } target
        ((s.scheduleEvent event).2.stepUntil target).1 := by
  obtain ⟨hRoom, last, _, hLess, hPending⟩ := pending_scheduleEvent_of_late h.sorted h.cursor hLate
  have hInserted := inserted_scheduleEvent h.sorted hRoom event
  have hSorted : Sorted time (s.scheduleEvent event).2.pending :=
    (hInserted.sorted h.sorted).sublist (drop_sublist _ _)
  refine ⟨by rw [NanosecondReplayScheduler.scheduleEvent, if_neg (not_le_of_gt hRoom)], last.timestampNs,
    fun hOnce => ?_⟩
  have hStepped := stepped_stepUntil last.timestampNs (s.scheduleEvent event).2
  generalize (s.scheduleEvent event).2.stepUntil last.timestampNs = out at hOnce hStepped
  obtain ⟨hSplit, hRest⟩ := hStepped.pending_eq
  have hOut : out.1.count last = s.pending.count last + 1 := by
    have hNone : last ∉ out.2.pending := fun hMem => lt_irrefl _ (hSorted.lt_of_mem_dropWhile (hRest ▸ hMem))
    have hCount := congrArg (List.count last) hSplit
    rw [hPending, count_cons_self, count_append, count_eq_zero_of_not_mem hNone] at hCount
    exact hCount.symm
  have hOther : [event].count last = 0 := by
    rw [count_eq_zero, mem_singleton]
    rintro rfl
    exact lt_irrefl _ hLess
  have hAll := h.count last
  rw [all_eq, count_append, ← h.dispatched] at hAll
  have hTwice := hOnce.notTwice last
  dsimp only at hTwice
  rw [count_append, count_append] at hTwice
  omega

end NanosecondReplayScheduler

open NanosecondReplayScheduler

def told (ops : List ReplayOp) : Told := history ReplayOp.step Told.note ops {} {}

/-- No event is scheduled with a time stamp before one that has been dispatched. -/
def ReplayOp.InTime (op : ReplayOp) (s : NanosecondReplayScheduler) : Prop :=
  match op with
  | .schedule event => s.NotLate event
  | .stepUntil _ => True

theorem aligned_of_always {ops : List ReplayOp} (h : Always ReplayOp.step ReplayOp.InTime ops {}) :
    Aligned (final ReplayOp.step ops {}) (told ops) := by
  refine h.invariant_history _ (fun op s told hInTime hAligned => ?_) ?_
  · cases op with
    | schedule event =>
      by_cases hRoom : s.eventCount < kMaxEvents
      · have hNext := hAligned.scheduleEvent hRoom hInTime
        have hTaken : (s.scheduleEvent event).1 = true := by
          rw [NanosecondReplayScheduler.scheduleEvent, if_neg (not_le_of_gt hRoom)]
        rw [ReplayOp.step, hTaken]
        exact hNext
      · have hFull : s.scheduleEvent event = (false, s) := if_pos (not_lt.mp hRoom)
        rw [ReplayOp.step, hFull]
        exact hAligned
    | stepUntil target => exact hAligned.stepUntil _
  · exact ⟨List.Pairwise.nil, le_rfl, rfl, fun _ => rfl⟩

/-- Every call of `step_until` in a run, and every one that could follow, does what it owes exactly if no event is scheduled
too late. -/
theorem replay_exactlyOnce_iff (ops : List ReplayOp) : (∀ before rest, ops = before ++ rest → ∀ target,
      ExactlyOnce (told before) target ((final ReplayOp.step before {}).stepUntil target).1) ↔
    Always ReplayOp.step ReplayOp.InTime ops {} := by
  constructor
  · intro h
    induction ops using List.reverseRecOn with
    | nil => trivial
    | append_singleton ops op ih =>
      have hBefore : Always ReplayOp.step ReplayOp.InTime ops {} := by
        refine ih fun before rest hSplit => h _ (rest ++ [op]) ?_
        rw [hSplit, append_assoc]
      have hAligned := aligned_of_always hBefore
      rw [always_append]
      refine ⟨hBefore, ?_, trivial⟩
      cases op with
      | stepUntil target => trivial
      | schedule event =>
        by_contra hLate
        obtain ⟨hTaken, target, hNot⟩ := hAligned.not_exactlyOnce hLate
        have hOnce := h _ [] (append_nil _).symm target
        rw [told, history_append, final_append, history, ReplayOp.step, hTaken] at hOnce
        exact hNot hOnce
  · rintro h before rest rfl target
    have hBefore := ((always_append _ rest _).mp h).1
    exact (aligned_of_always hBefore).exactlyOnce _

def lateOps : List ReplayOp := [.schedule { timestampNs := 5 }, .stepUntil 5, .schedule { timestampNs := 3 }]

/-- The next call dispatches the event at 5 again and the one at 3 not at all. -/
theorem late_event_repeats : ((final ReplayOp.step lateOps {}).stepUntil 5).1 = [{ timestampNs := 5 }] ∧
      ¬ ExactlyOnce (told lateOps) 5 ((final ReplayOp.step lateOps {}).stepUntil 5).1 := by
  have hRun : ((final ReplayOp.step lateOps {}).stepUntil 5).1 = [{ timestampNs := 5 }] ∧
      ((told lateOps).dispatched ++ ((final ReplayOp.step lateOps {}).stepUntil 5).1).count { timestampNs := 5 } = 2 ∧
      (told lateOps).scheduled.count { timestampNs := 5 } = 1 := by
    decide +kernel
  refine ⟨hRun.1, fun hOnce => ?_⟩
  have hTwice := hOnce.notTwice { timestampNs := 5 }
  exact absurd hTwice (by decide)

end LuvFlicker.Simulation
