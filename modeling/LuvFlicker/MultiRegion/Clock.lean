import LuvFlicker.Lib.Causality
import LuvFlicker.Lib.Run
import LuvFlicker.MultiRegion.Cluster

/-!
# Causality of the hybrid logical clock

Any number of instances append entries and take in each other's. As long as the
counter does not run over, an entry appended after another has a greater clock, in
the order of happened-before.
-/

namespace LuvFlicker.MultiRegion

open Causality Run Function List MultiRegionRaftCluster Option

universe u

variable {ι : Type u} [DecidableEq ι]

/-- An append, or the delivery of the entry of an append, which stands at a place among the events. -/
inductive ClockEvent (ι : Type u) where
  | appended (site : ι) (entry : CrossDCLogEntry)
  | received (site : ι) (source : Nat) (hlc : UInt64)

def ClockEvent.toEvent : ClockEvent ι → Event ι
  | .appended site entry => { site := site, source := none, stamp := entry.hybridLogicalClock.toNat }
  | .received site source hlc => { site := site, source := some source, stamp := hlc.toNat }

structure Deployment (ι : Type u) where
  instances : ι → MultiRegionRaftCluster
  events : List (ClockEvent ι) := []

variable (region : ι → DataCenterRegion)

def Deployment.start : Deployment ι where
  instances site := { localRegion := region site }

inductive ClockOp (ι : Type u) where
  | append (site : ι) (orderId : UInt64) (eventType : UInt32) (price qty nowNs : UInt64)
  | deliver (site : ι) (source : Nat) (nowNs : UInt64)

namespace ClockOp

def nowNs : ClockOp ι → UInt64
  | .append _ _ _ _ _ nowNs => nowNs
  | .deliver _ _ nowNs => nowNs

def step (op : ClockOp ι) (w : Deployment ι) : Unit × Deployment ι :=
  match op with
  | .append site orderId eventType price qty nowNs =>
    match (w.instances site).appendOrderEvent orderId eventType price qty nowNs with
    | none => ((), w)
    | some (entry, s) => ((), { instances := update w.instances site s, events := w.events ++ [.appended site entry] })
  | .deliver site source nowNs =>
    match w.events[source]? with
    | some (.appended _ entry) =>
      let s := ((w.instances site).replicateFromRemote entry nowNs).2
      if entry.term < (w.instances site).currentTerm then ((), { w with instances := update w.instances site s })
      else
        ((), { instances := update w.instances site s,
               events := w.events ++ [.received site source s.hlcCounter] })
    | _ => ((), w)

end ClockOp

/-! ## The counter -/

namespace MultiRegionRaftCluster

theorem toNat_max (a b : UInt64) : (max a b).toNat = max a.toNat b.toNat := by
  have hMax : max a b = if a ≤ b then b else a := rfl
  rw [hMax, Nat.max_def, apply_ite UInt64.toNat]
  simp [UInt64.le_iff_toNat_le]

variable {s : MultiRegionRaftCluster} {entry : CrossDCLogEntry}

theorem hlc_appendOrderEvent {orderId : UInt64} {eventType : UInt32} {price qty nowNs : UInt64}
    {s' : MultiRegionRaftCluster}
    (h : s.appendOrderEvent orderId eventType price qty nowNs = some (entry, s')) :
    entry.hybridLogicalClock = max (s.hlcCounter + 1) nowNs ∧ s'.hlcCounter = entry.hybridLogicalClock := by
  rw [appendOrderEvent] at h
  split at h
  · cases h
  · cases h
    exact ⟨rfl, rfl⟩

theorem replicateFromRemote_of_lt
    (h : entry.term < s.currentTerm) (nowNs : UInt64) : (s.replicateFromRemote entry nowNs).2 = s := by
  rw [replicateFromRemote, if_pos h]

theorem hlc_replicateFromRemote (h : ¬ entry.term < s.currentTerm) (nowNs : UInt64) :
    (s.replicateFromRemote entry nowNs).2.hlcCounter = max (max s.hlcCounter nowNs) entry.hybridLogicalClock + 1 := by
  rw [replicateFromRemote, if_neg h]
  dsimp only
  split
  all_goals exact observe_hlcCounter entry nowNs s

end MultiRegionRaftCluster

/-! ## Runs -/

inductive Happened (nowNs : UInt64) (w : Deployment ι) : Deployment ι → Prop
  | nothing : Happened nowNs w w
  | appended (site : ι) {s : MultiRegionRaftCluster} {entry : CrossDCLogEntry}
      (hEntry : entry.hybridLogicalClock = s.hlcCounter)
      (hCounter : s.hlcCounter = max ((w.instances site).hlcCounter + 1) nowNs) :
      Happened nowNs w { instances := update w.instances site s, events := w.events ++ [.appended site entry] }
  | received (site : ι) {s : MultiRegionRaftCluster} {source : Nat} {origin : ι} {entry : CrossDCLogEntry}
      (hSource : w.events[source]? = some (.appended origin entry))
      (hCounter : s.hlcCounter = max (max (w.instances site).hlcCounter nowNs) entry.hybridLogicalClock + 1) :
      Happened nowNs w
        { instances := update w.instances site s, events := w.events ++ [.received site source s.hlcCounter] }

theorem happened (op : ClockOp ι) (w : Deployment ι) : Happened op.nowNs w (op.step w).2 := by
  cases op with
  | append site orderId eventType price qty nowNs =>
    rw [ClockOp.step]
    split
    · exact .nothing
    next entry s hSome =>
      obtain ⟨hEntry, hCounter⟩ := hlc_appendOrderEvent hSome
      exact .appended site hCounter.symm (hCounter.trans hEntry)
  | deliver site source nowNs =>
    rw [ClockOp.step]
    dsimp only
    split
    next origin entry hSource =>
      split
      next hOld =>
        rw [replicateFromRemote_of_lt hOld, update_eq_self]
        exact .nothing
      next hTerm => exact .received site hSource (hlc_replicateFromRemote hTerm _)
    · exact .nothing

def Deployment.clock (w : Deployment ι) (site : ι) : Nat := (w.instances site).hlcCounter.toNat

structure Deployment.Inv (w : Deployment ι) : Prop where
  clocked : Clocked w.clock (w.events.map ClockEvent.toEvent)
  bounded : ∀ site, w.clock site + 2 ≤ 2 ^ 63 + w.events.length

open ClockEvent

namespace Deployment

variable {w : Deployment ι}

theorem clock_update (site : ι) (s : MultiRegionRaftCluster) (events : List (ClockEvent ι)) :
    clock { instances := update w.instances site s, events := events } = update w.clock site s.hlcCounter.toNat :=
  Function.comp_update (fun s : MultiRegionRaftCluster => s.hlcCounter.toNat) _ site s

theorem Inv.event (h : Inv w) {s : MultiRegionRaftCluster} (e : ClockEvent ι)
    (hStamp : e.toEvent.stamp = s.hlcCounter.toNat) (hLocal : w.clock e.toEvent.site < s.hlcCounter.toNat)
    (hSource : ∀ i, e.toEvent.source = some i → ∃ f, (w.events.map toEvent)[i]? = some f ∧ f.stamp < s.hlcCounter.toNat)
    (hBound : s.hlcCounter.toNat + 1 ≤ 2 ^ 63 + w.events.length) :
    Inv { instances := update w.instances e.toEvent.site s, events := w.events ++ [e] } := by
  constructor
  · rw [clock_update, map_append]
    rw [← hStamp] at hLocal hSource ⊢
    have hNew : update w.clock e.toEvent.site e.toEvent.stamp e.toEvent.site = e.toEvent.stamp := update_self ..
    refine h.clocked.extend hLocal hSource (fun site => ?_) hNew.ge
    by_cases hSite : site = e.toEvent.site
    · rw [hSite, update_self]
      exact hLocal.le
    · rw [update_of_ne hSite]
  · intro site
    rw [clock_update, length_append, length_singleton]
    by_cases hSite : site = e.toEvent.site
    · rw [hSite, update_self]
      omega
    · rw [update_of_ne hSite]
      have hOld := h.bounded site
      omega

theorem Inv.step (h : Inv w) {op : ClockOp ι} (hNow : op.nowNs.toNat < 2 ^ 63)
    (hEvents : (op.step w).2.events.length ≤ 2 ^ 63 + 1) : Inv (op.step w).2 := by
  have hHappened := happened op w
  generalize (op.step w).2 = w' at hHappened hEvents
  cases hHappened with
  | nothing => exact h
  | @appended site s entry hEntry hCounter =>
    rw [length_append, length_singleton] at hEvents
    have hBound := h.bounded site
    have hValue : s.hlcCounter.toNat = max (w.clock site + 1) op.nowNs.toNat := by
      rw [hCounter, toNat_max, UInt64.toNat_add, UInt64.toNat_one, clock]
      rw [clock] at hBound
      omega
    refine h.event (.appended site entry) (congrArg UInt64.toNat hEntry) ?_ nofun ?_
    · rw [hValue]
      exact lt_max_of_lt_left (Nat.lt_succ_self _)
    · omega
  | @received site s source origin entry hSource hCounter =>
    rw [length_append, length_singleton] at hEvents
    have hBound := h.bounded site
    have hFrom : (w.events.map toEvent)[source]? = some (appended origin entry).toEvent := by
      rw [getElem?_map, hSource, map_some]
    have hBelow := h.clocked.below _ (mem_of_getElem? hFrom)
    have hOrigin := h.bounded origin
    have hSome : 0 < w.events.length := length_pos_of_mem (mem_of_getElem? hSource)
    have hValue : s.hlcCounter.toNat = max (max (w.clock site) op.nowNs.toNat) entry.hybridLogicalClock.toNat + 1 := by
      rw [hCounter, UInt64.toNat_add, toNat_max, toNat_max, UInt64.toNat_one, clock]
      rw [clock] at hBound
      dsimp only [toEvent] at hBelow
      omega
    dsimp only [toEvent] at hBelow
    refine h.event (.received site source _) rfl ?_ ?_ ?_
    · dsimp only [toEvent]
      omega
    · rintro i ⟨⟩
      refine ⟨_, hFrom, ?_⟩
      dsimp only [toEvent]
      omega
    · omega

omit [DecidableEq ι] in
theorem inv_start : Inv (start region) where
  clocked := clocked_nil
  bounded _ := (by decide : 0 + 2 ≤ 2 ^ 63 + 0)

theorem length_le_step (op : ClockOp ι) (w : Deployment ι) : w.events.length ≤ (op.step w).2.events.length := by
  have hHappened := happened op w
  generalize (op.step w).2 = w' at hHappened
  cases hHappened with
  | nothing => exact Nat.le_refl _
  | appended | received =>
    rw [length_append]
    exact Nat.le_add_right _ _

theorem inv_run (region : ι → DataCenterRegion) {ops : List (ClockOp ι)} (hNow : ∀ op ∈ ops, op.nowNs.toNat < 2 ^ 63)
    (hEvents : (final ClockOp.step ops (start region)).events.length ≤ 2 ^ 63 + 1) :
    Inv (final ClockOp.step ops (start region)) := by
  have hAlways : Always ClockOp.step (fun op _ => op.nowNs.toNat < 2 ^ 63) ops (start region) :=
    always_of_forall_mem hNow _
  refine hAlways.invariant (fun w => w.events.length ≤ 2 ^ 63 + 1 → Inv w) (fun op w hOp h hLength => ?_)
    (fun _ => inv_start _) hEvents
  exact (h ((length_le_step op w).trans hLength)).step hOp hLength

end Deployment

/-- If an append happened before another then its clock is smaller, in every run of at most 2^63 + 1 events. -/
theorem hlc_lt_of_happenedBefore (ops : List (ClockOp ι))
    (hNow : ∀ op ∈ ops, op.nowNs.toNat < 2 ^ 63)
    (hEvents : (final ClockOp.step ops (Deployment.start region)).events.length ≤ 2 ^ 63 + 1)
    {i j : Nat} {a b : ι} {e f : CrossDCLogEntry}
    (he : (final ClockOp.step ops (Deployment.start region)).events[i]? = some (.appended a e))
    (hf : (final ClockOp.step ops (Deployment.start region)).events[j]? = some (.appended b f))
    (hBefore : HappenedBefore ((final ClockOp.step ops (Deployment.start region)).events.map ClockEvent.toEvent) i j) :
    e.hybridLogicalClock < f.hybridLogicalClock := by
  have hInv := Deployment.inv_run region hNow hEvents
  refine UInt64.lt_iff_toNat_lt.mpr (hInv.clocked.stamp_lt hBefore (e := (appended a e).toEvent)
    (f := (appended b f).toEvent) ?_ ?_)
  · rw [getElem?_map, he, map_some]
  · rw [getElem?_map, hf, map_some]

omit [DecidableEq ι] in
theorem happenedBefore_of_received {events : List (ClockEvent ι)} {i j k : Nat} {a b : ι} {e f : CrossDCLogEntry}
    {hlc : UInt64} (he : events[i]? = some (.appended a e)) (hReceived : events[j]? = some (.received b i hlc))
    (hf : events[k]? = some (.appended b f)) (hjk : j < k) :
    HappenedBefore (events.map toEvent) i k := by
  have hMap {n : Nat} {event : ClockEvent ι} (h : events[n]? = some event) :
      (events.map toEvent)[n]? = some event.toEvent := by
    rw [getElem?_map, h, map_some]
  have hDelivery : Direct (events.map toEvent) i j := ⟨_, _, hMap he, hMap hReceived, .inr rfl⟩
  have hLocal : Direct (events.map toEvent) j k := ⟨_, _, hMap hReceived, hMap hf, .inl ⟨hjk, rfl⟩⟩
  exact .tail (.single hDelivery) hLocal

def passedOn : List (ClockOp Bool) := [.append false 0 0 0 0 10, .deliver true 0 0, .append true 0 0 0 0 0]

theorem passedOn_ordered :
    ∃ e f, (final ClockOp.step passedOn (Deployment.start fun _ => .ny4)).events[0]? = some (.appended false e) ∧
      (final ClockOp.step passedOn (Deployment.start fun _ => .ny4)).events[2]? = some (.appended true f) ∧
      e.hybridLogicalClock < f.hybridLogicalClock := by
  refine ⟨_, _, rfl, rfl, hlc_lt_of_happenedBefore (fun _ => .ny4) passedOn (by decide) (by decide) (i := 0) (j := 2)
    rfl rfl ?_⟩
  exact happenedBefore_of_received (j := 1) rfl rfl rfl (by decide)

/-! ## The counter runs over -/

def latest : CrossDCLogEntry where
  logIndex := 1
  originTimestampNs := 9223372036854775807
  hybridLogicalClock := 9223372036854775807

structure Redelivered (n : Nat) (w : Deployment Bool) : Prop where
  first : w.events[0]? = some (.appended false latest)
  second : ∃ hlc, w.events[1]? = some (.received true 0 hlc)
  term : (w.instances true).currentTerm = 1
  index : (w.instances true).localCommitIndex = 1
  count : (w.instances true).logCount = 1
  counter : (w.instances true).hlcCounter.toNat = 2 ^ 63 + n

def firstDelivery : List (ClockOp Bool) := [.append false 0 0 0 0 9223372036854775807, .deliver true 0 0]

theorem redelivered_zero : Redelivered 0 (final ClockOp.step firstDelivery (Deployment.start fun _ => .ny4)) where
  first := rfl
  second := ⟨_, rfl⟩
  term := rfl
  index := rfl
  count := rfl
  counter := by decide +kernel

variable {n : Nat} {w : Deployment Bool}

theorem Redelivered.replicate (h : Redelivered n w) : ((w.instances true).replicateFromRemote latest 0).2 =
      { w.instances true with hlcCounter := max (max (w.instances true).hlcCounter 0) latest.hybridLogicalClock + 1 } := by
  have hTerm : ¬ latest.term < (w.instances true).currentTerm := by
    rw [h.term]
    decide
  have hSameTerm : ¬ latest.term > (w.instances true).currentTerm := by
    rw [h.term]
    decide
  have hIndex : ¬ latest.logIndex = (w.instances true).localCommitIndex + 1 := by
    rw [h.index]
    decide
  rw [replicateFromRemote, if_neg hTerm]
  dsimp only
  rw [observe_localCommitIndex, if_neg hIndex, observe, if_neg hSameTerm]

theorem Redelivered.step (h : Redelivered n w) (hn : n + 1 < 2 ^ 63) :
    Redelivered (n + 1) (ClockOp.step (.deliver true 0 0) w).2 := by
  have hTerm : ¬ latest.term < (w.instances true).currentTerm := by
    rw [h.term]
    decide
  have hStep : ((ClockOp.deliver true 0 0).step w).2 =
      { instances := update w.instances true ((w.instances true).replicateFromRemote latest 0).2,
        events := w.events ++
          [.received true 0 ((w.instances true).replicateFromRemote latest 0).2.hlcCounter] } := by
    rw [ClockOp.step, h.first]
    dsimp only
    rw [if_neg hTerm]
  have hInstance : ((ClockOp.deliver true 0 0).step w).2.instances true =
      ((w.instances true).replicateFromRemote latest 0).2 := by
    rw [hStep]
    exact update_self true _ w.instances
  rw [h.replicate] at hInstance
  obtain ⟨hlc, hSecond⟩ := h.second
  constructor
  · rw [hStep]
    exact getElem?_append_left (List.getElem?_eq_some_iff.mp h.first).1 ▸ h.first
  · refine ⟨hlc, ?_⟩
    rw [hStep]
    exact getElem?_append_left (List.getElem?_eq_some_iff.mp hSecond).1 ▸ hSecond
  · rw [hInstance]
    exact h.term
  · rw [hInstance]
    exact h.index
  · rw [hInstance]
    exact h.count
  · rw [hInstance]
    have hLatest : latest.hybridLogicalClock.toNat = 2 ^ 63 - 1 := by decide +kernel
    have hCounter := h.counter
    rw [UInt64.toNat_add, toNat_max, toNat_max, UInt64.toNat_zero, UInt64.toNat_one]
    omega

theorem redelivered_replicate (hn : n < 2 ^ 63) (h : Redelivered 0 w) :
    Redelivered n (final ClockOp.step (List.replicate n (.deliver true 0 0)) w) := by
  induction n with
  | zero => exact h
  | succ n ih =>
    rw [replicate_succ', final_append]
    exact (ih (by omega)).step hn

theorem Redelivered.append (h : Redelivered n w) (hn : n + 1 = 2 ^ 63) :
    ∃ e, (ClockOp.step (.append true 0 0 0 0 0) w).2.events = w.events ++ [.appended true e] ∧
      e.hybridLogicalClock = 0 := by
  have hRoom : ¬ (w.instances true).logCount ≥ kLogCapacity := by
    rw [h.count]
    decide
  refine ⟨(w.instances true).nextEntry 0 0 0 0 0, ?_, ?_⟩
  · rw [ClockOp.step, appendOrderEvent, if_neg hRoom]
  rw [← UInt64.toNat_inj, nextEntry]
  rw [toNat_max, UInt64.toNat_add, h.counter, UInt64.toNat_one]
  omega

def overrun (n : Nat) : List (ClockOp Bool) :=
  firstDelivery ++ (List.replicate n (.deliver true 0 0) ++ [.append true 0 0 0 0 0])

theorem overrun_reverses (hn : n + 1 = 2 ^ 63) :
    ∃ j f, (final ClockOp.step (overrun n) (Deployment.start fun _ => .ny4)).events[0]? =
        some (.appended false latest) ∧
      (final ClockOp.step (overrun n) (Deployment.start fun _ => .ny4)).events[j]? = some (.appended true f) ∧
      HappenedBefore ((final ClockOp.step (overrun n) (Deployment.start fun _ => .ny4)).events.map toEvent) 0 j ∧
      f.hybridLogicalClock = 0 := by
  have hMany := redelivered_replicate (by omega : n < 2 ^ 63) redelivered_zero
  obtain ⟨f, hEvents, hZero⟩ := hMany.append hn
  rw [overrun, final_append, final_append, final_cons, final_nil, hEvents]
  generalize final ClockOp.step (List.replicate n (.deliver true 0 0)) _ = w at hMany
  obtain ⟨hlc, hSecond⟩ := hMany.second
  have hLength := (List.getElem?_eq_some_iff.mp hSecond).1
  have hFirst : (w.events ++ [.appended true f])[0]? = some (.appended false latest) := by
    rw [getElem?_append_left (by omega), hMany.first]
  have hReceived : (w.events ++ [.appended true f])[1]? = some (.received true 0 hlc) := by
    rw [getElem?_append_left hLength, hSecond]
  have hLast : (w.events ++ [.appended true f])[w.events.length]? = some (.appended true f) := getElem?_concat_length
  exact ⟨w.events.length, f, hFirst, hLast, happenedBefore_of_received hFirst hReceived hLast hLength, hZero⟩

/-- After 2^63 deliveries of one entry the next append starts again from zero. -/
theorem counter_runs_over :
    ∃ ops : List (ClockOp Bool), ops.length = 2 ^ 63 + 2 ∧ (∀ op ∈ ops, op.nowNs.toNat < 2 ^ 63) ∧
      ∃ i j e f, (final ClockOp.step ops (Deployment.start fun _ => .ny4)).events[i]? = some (.appended false e) ∧
        (final ClockOp.step ops (Deployment.start fun _ => .ny4)).events[j]? = some (.appended true f) ∧
        HappenedBefore ((final ClockOp.step ops (Deployment.start fun _ => .ny4)).events.map ClockEvent.toEvent) i j ∧
        ¬ e.hybridLogicalClock < f.hybridLogicalClock := by
  obtain ⟨n, hn⟩ : ∃ n, n + 1 = 2 ^ 63 := ⟨2 ^ 63 - 1, by omega⟩
  obtain ⟨j, f, hFirst, hLast, hBefore, hZero⟩ := overrun_reverses hn
  refine ⟨overrun n, ?_, ?_, 0, j, latest, f, hFirst, hLast, hBefore, ?_⟩
  · rw [overrun, length_append, length_append, length_replicate, length_singleton]
    have hTwo : firstDelivery.length = 2 := rfl
    omega
  · intro op hop
    rw [overrun, mem_append, mem_append, mem_replicate, mem_singleton] at hop
    rcases hop with _ | ⟨-, rfl⟩ | rfl
    · revert op
      decide
    · decide
    · decide
  · rw [hZero]
    decide

end LuvFlicker.MultiRegion
