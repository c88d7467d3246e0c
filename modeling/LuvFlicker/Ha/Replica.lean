import LuvFlicker.Lib.RingLog
import LuvFlicker.Lib.Run

/-!
# The hot standby

A leader commits each entry as soon as it has appended it, and a follower commits
the entries it receives in sequence. A follower that has not heard of the leader for
too long takes over.
-/

namespace LuvFlicker.Ha

open RingLog Run Function UInt64 List

universe u

inductive NodeRole where
  | follower
  | candidate
  | leader
  deriving DecidableEq

inductive SyncEventType where
  | heartbeat
  | orderInserted
  | orderCanceled
  | tradeExecuted
  deriving DecidableEq

structure RaftLogEntry where
  term : UInt64 := 1
  logIndex : UInt64 := 0
  eventType : SyncEventType := .heartbeat
  symbolIdx : UInt16 := 0
  side : UInt8 := 0
  orderId : UInt64 := 0
  price : Int64 := 0
  qty : Int64 := 0
  eventTimestampNs : UInt64 := 0
  deriving DecidableEq

def kMaxLogCapacity : UInt64 := 4096

def kHeartbeatTimeoutNs : UInt64 := 20000000

structure HotStandbyReplica where
  role : NodeRole := .follower
  currentTerm : UInt64 := 1
  commitIndex : UInt64 := 0
  lastHeartbeatTsNs : UInt64 := 0
  appliedCount : UInt64 := 0
  log : Nat → RaftLogEntry := fun _ => {}

structure Append where
  type : SyncEventType
  symbolIdx : UInt16 := 0
  side : UInt8 := 0
  orderId : UInt64 := 0
  price : Int64 := 0
  qty : Int64 := 0
  tsNs : UInt64 := 0

def slot (index : UInt64) : Nat := (index &&& (kMaxLogCapacity - 1)).toNat

namespace HotStandbyReplica

def nextEntry (call : Append) (s : HotStandbyReplica) : RaftLogEntry where
  term := s.currentTerm
  logIndex := s.commitIndex + 1
  eventType := call.type
  symbolIdx := call.symbolIdx
  side := call.side
  orderId := call.orderId
  price := call.price
  qty := call.qty
  eventTimestampNs := call.tsNs

variable (entry : RaftLogEntry)

def commit (s : HotStandbyReplica) : HotStandbyReplica :=
  { s with log := update s.log (slot entry.logIndex) entry, commitIndex := entry.logIndex }

def leaderAppend (call : Append) (s : HotStandbyReplica) : Option (RaftLogEntry × HotStandbyReplica) :=
  if s.role ≠ .leader then none
  else
    let entry := s.nextEntry call
    some (entry, { s.commit entry with lastHeartbeatTsNs := call.tsNs })

variable (nowNs : UInt64)

section

variable (s : HotStandbyReplica)

def hear : HotStandbyReplica :=
  let s := if entry.term > s.currentTerm then { s with currentTerm := entry.term, role := .follower } else s
  { s with lastHeartbeatTsNs := nowNs }

def followerApply : Bool × HotStandbyReplica :=
  if entry.term < s.currentTerm then (false, s)
  else
    let s := s.hear entry nowNs
    if entry.eventType = .heartbeat then (true, s)
    else if entry.logIndex = s.commitIndex + 1 then
      (true, { s.commit entry with appliedCount := s.appliedCount + 1 })
    else (false, s)

def checkFailover : Bool × HotStandbyReplica :=
  if s.role = .leader then (false, s)
  else if nowNs > s.lastHeartbeatTsNs + kHeartbeatTimeoutNs then
    (true, { s with role := .leader, currentTerm := s.currentTerm + 1 })
  else (false, s)

end

inductive Committed (s : HotStandbyReplica) (entry : RaftLogEntry) : HotStandbyReplica → Prop
  | kept {s' : HotStandbyReplica} (hIndex : s'.commitIndex = s.commitIndex) (hLog : s'.log = s.log) :
      Committed s entry s'
  | next {s' : HotStandbyReplica} (hNext : entry.logIndex = s.commitIndex + 1) (hIndex : s'.commitIndex = entry.logIndex)
      (hLog : s'.log = update s.log (slot entry.logIndex) entry) : Committed s entry s'

section

variable (s : HotStandbyReplica)

@[simp]
theorem hear_commitIndex : (s.hear entry nowNs).commitIndex = s.commitIndex := by
  dsimp only [hear]
  split <;> rfl

@[simp]
theorem hear_log : (s.hear entry nowNs).log = s.log := by
  dsimp only [hear]
  split <;> rfl

theorem committed_followerApply : Committed s entry (s.followerApply entry nowNs).2 := by
  rw [followerApply]
  split
  · exact .kept rfl rfl
  dsimp only
  split
  · exact .kept (hear_commitIndex ..) (hear_log ..)
  rw [hear_commitIndex]
  split
  next hNext =>
    refine .next hNext rfl ?_
    dsimp only [commit]
    rw [hear_log]
  · exact .kept (hear_commitIndex ..) (hear_log ..)

end

variable {entry : RaftLogEntry}

end HotStandbyReplica

/-! ## Deployments -/

structure Deployment (ι : Type u) where
  nodes : ι → HotStandbyReplica
  sent : List RaftLogEntry := []

inductive HaOp (ι : Type u) where
  | append (site : ι) (call : Append)
  | deliver (site : ι) (source : Nat) (nowNs : UInt64)
  /-- A heartbeat, whatever else it says. -/
  | heartbeat (site : ι) (entry : RaftLogEntry) (nowNs : UInt64)
  | failover (site : ι) (nowNs : UInt64)

variable {ι : Type u} [DecidableEq ι]

namespace Deployment

def start (leader : ι) : Deployment ι where
  nodes site := { role := if site = leader then .leader else .follower }

def put (site : ι) (s : HotStandbyReplica) (w : Deployment ι) : Deployment ι :=
  { w with nodes := update w.nodes site s }

end Deployment

namespace HaOp

def step (op : HaOp ι) (w : Deployment ι) : Unit × Deployment ι :=
  match op with
  | .append site call =>
    match (w.nodes site).leaderAppend call with
    | none => ((), w)
    | some (entry, s) => ((), { w.put site s with sent := w.sent ++ [entry] })
  | .deliver site source nowNs =>
    match w.sent[source]? with
    | none => ((), w)
    | some entry => ((), w.put site ((w.nodes site).followerApply entry nowNs).2)
  | .heartbeat site entry nowNs =>
    ((), w.put site ((w.nodes site).followerApply { entry with eventType := .heartbeat } nowNs).2)
  | .failover site nowNs => ((), w.put site ((w.nodes site).checkFailover nowNs).2)

/-- A leader appends only while no replica is ahead of it, and has a next index. -/
def Foremost (op : HaOp ι) (w : Deployment ι) : Prop :=
  match op with
  | .append site _ =>
    (w.nodes site).role = .leader → (∀ other, (w.nodes other).commitIndex ≤ (w.nodes site).commitIndex) ∧
        (w.nodes site).commitIndex.toNat + 1 < 2 ^ 64
  | _ => True

end HaOp

open HotStandbyReplica

namespace Deployment

/-- Any two replicas hold the same entry at an index that both have committed and retain. -/
def Agreement (w : Deployment ι) : Prop :=
  ∀ (a b : ι) (i : UInt64), i ≤ (w.nodes a).commitIndex → i ≤ (w.nodes b).commitIndex →
    (w.nodes a).commitIndex.toNat < i.toNat + 4096 → (w.nodes b).commitIndex.toNat < i.toNat + 4096 →
    (w.nodes a).log (slot i) = (w.nodes b).log (slot i)

structure Inv (w : Deployment ι) : Prop where
  indexed : ∀ k entry, w.sent[k]? = some entry → entry.logIndex.toNat = k + 1
  retains : ∀ site, Retains 4096 {} w.sent (w.nodes site).commitIndex.toNat (w.nodes site).log
  foremost : ∃ site, w.sent.length ≤ (w.nodes site).commitIndex.toNat

variable {w : Deployment ι}

theorem slot_eq (index : UInt64) : slot index = index.toNat % 4096 := by
  have hMask : (kMaxLogCapacity - 1).toNat = 2 ^ 12 - 1 := rfl
  rw [slot, UInt64.toNat_and, hMask, Nat.and_two_pow_sub_one_eq_mod]

omit [DecidableEq ι] in
theorem Inv.agreement (h : Inv w) : w.Agreement := by
  intro a b i hia hib hca hcb
  rw [slot_eq]
  exact (h.retains a).agree (h.retains b) (le_iff_toNat_le.mp hia) (le_iff_toNat_le.mp hib) hca hcb

variable {s : HotStandbyReplica} {site : ι}

theorem retains_update {sent : List RaftLogEntry}
    (hAll : ∀ site, Retains 4096 {} sent (w.nodes site).commitIndex.toNat (w.nodes site).log)
    (hNew : Retains 4096 {} sent s.commitIndex.toNat s.log) (other : ι) :
    Retains 4096 {} sent (update w.nodes site s other).commitIndex.toNat (update w.nodes site s other).log := by
  by_cases hOther : other = site
  · rw [hOther, update_self]
    exact hNew
  · rw [update_of_ne hOther]
    exact hAll _

theorem Inv.put (h : Inv w) (site : ι) (hLe : (w.nodes site).commitIndex ≤ s.commitIndex)
    (hRetains : Retains 4096 {} w.sent s.commitIndex.toNat s.log) : Inv (w.put site s) where
  indexed := h.indexed
  retains := retains_update h.retains hRetains
  foremost := by
    obtain ⟨other, hAll⟩ := h.foremost
    refine ⟨other, hAll.trans ?_⟩
    rw [Deployment.put]
    by_cases hOther : other = site
    · dsimp only
      rw [hOther, update_self]
      exact le_iff_toNat_le.mp hLe
    · dsimp only
      rw [update_of_ne hOther]

theorem Inv.put_kept (h : Inv w) (site : ι)
    (hKept : s.commitIndex = (w.nodes site).commitIndex ∧ s.log = (w.nodes site).log) : Inv (w.put site s) := by
  refine h.put site (UInt64.le_of_eq hKept.1.symm) ?_
  rw [hKept.1, hKept.2]
  exact h.retains site

omit [DecidableEq ι] in
theorem Inv.commitIndex_eq (h : Inv w) (hForemost : ∀ other, (w.nodes other).commitIndex ≤ (w.nodes site).commitIndex) :
    (w.nodes site).commitIndex.toNat = w.sent.length := by
  obtain ⟨other, hAll⟩ := h.foremost
  have hLe := (h.retains site).commit_le (by decide)
  exact le_antisymm hLe (hAll.trans (le_iff_toNat_le.mp (hForemost other)))

theorem Inv.append (h : Inv w) (hForemost : ∀ other, (w.nodes other).commitIndex ≤ (w.nodes site).commitIndex)
    (hEntry : entry.logIndex.toNat = (w.nodes site).commitIndex.toNat + 1) (hIndex : s.commitIndex = entry.logIndex)
    (hLog : s.log = update (w.nodes site).log (slot entry.logIndex) entry) :
    Inv { w.put site s with sent := w.sent ++ [entry] } := by
  have hAll := h.commitIndex_eq hForemost
  have hRetains (other : ι) : Retains 4096 {} (w.sent ++ [entry]) (w.nodes other).commitIndex.toNat (w.nodes other).log :=
    (h.retains _).append _
  constructor
  · intro k e hk
    rcases lt_or_ge k w.sent.length with hOld | hNew
    · rw [List.getElem?_append_left hOld] at hk
      exact h.indexed k e hk
    obtain rfl : k = w.sent.length := by
      have hBound := (List.getElem?_eq_some_iff.mp hk).1
      rw [List.length_append, List.length_singleton] at hBound
      omega
    rw [getElem?_concat_length, Option.some_inj] at hk
    rw [← hk, hEntry, hAll]
  · refine retains_update hRetains ?_
    rw [hIndex, hLog, slot_eq, hEntry]
    refine (hRetains site).push ?_
    rw [hAll]
    exact getElem?_concat_length
  · refine ⟨site, ?_⟩
    have hNew : update w.nodes site s site = s := update_self ..
    dsimp only [Deployment.put]
    rw [hNew, hIndex, hEntry, hAll, length_append, length_singleton]

theorem Inv.deliver (h : Inv w) (site : ι) {source : Nat} (hSource : w.sent[source]? = some entry)
    (nowNs : UInt64) : Inv (w.put site ((w.nodes site).followerApply entry nowNs).2) := by
  have hEntry := h.indexed _ _ hSource
  have hCommitted := committed_followerApply entry nowNs (w.nodes site)
  cases hCommitted with
  | kept hIndex hLog => exact h.put_kept site ⟨hIndex, hLog⟩
  | next hNext hIndex hLog =>
    have hValue : entry.logIndex.toNat = ((w.nodes site).commitIndex.toNat + 1) % 2 ^ 64 := by
      rw [hNext, UInt64.toNat_add, toNat_one]
    -- the index of an entry is not zero, so the commit index has not run over
    have hCommit : (w.nodes site).commitIndex.toNat = source := by
      have hBound := (w.nodes site).commitIndex.toNat_lt
      omega
    refine h.put site ?_ ?_
    · rw [le_iff_toNat_le, hIndex, hEntry, hCommit]
      exact Nat.le_succ _
    · rw [hIndex, hLog, slot_eq, hEntry, ← hCommit]
      exact (h.retains site).push (hCommit ▸ hSource)

theorem Inv.step (h : Inv w) {op : HaOp ι} (hForemost : op.Foremost w) : Inv (op.step w).2 := by
  cases op with
  | append site call =>
    rw [HaOp.step, leaderAppend]
    by_cases hRole : (w.nodes site).role = .leader
    · obtain ⟨hAll, hRoom⟩ := hForemost hRole
      rw [if_neg (not_not.mpr hRole)]
      refine h.append hAll ?_ rfl rfl
      rw [nextEntry, UInt64.toNat_add, toNat_one, Nat.mod_eq_of_lt hRoom]
    · rw [if_pos hRole]
      exact h
  | deliver site source nowNs =>
    rw [HaOp.step]
    split
    · exact h
    next entry hSource => exact h.deliver site hSource _
  | heartbeat site entry nowNs =>
    refine h.put_kept site ?_
    rw [followerApply]
    split
    · exact ⟨rfl, rfl⟩
    · exact ⟨hear_commitIndex .., hear_log ..⟩
  | failover site nowNs =>
    refine h.put_kept site ?_
    rw [checkFailover]
    split
    · exact ⟨rfl, rfl⟩
    split
    all_goals exact ⟨rfl, rfl⟩

theorem inv_start (leader : ι) : Inv (start leader) where
  indexed := nofun
  retains _ := retains_zero [] rfl
  foremost := ⟨leader, Nat.zero_le _⟩

end Deployment

/-- The replicas agree in every run in which only foremost leaders append. -/
theorem agreement_of_foremost (leader : ι) (ops : List (HaOp ι))
    (hForemost : Always HaOp.step HaOp.Foremost ops (Deployment.start leader)) :
    (final HaOp.step ops (Deployment.start leader)).Agreement :=
  (hForemost.invariant _ (fun _ _ hOp h => h.step hOp) (Deployment.inv_start _)).agreement

def takeover : List (HaOp Bool) :=
  [.append false { type := .orderInserted }, .deliver true 0 0, .failover true 20000001,
    .append true { type := .orderCanceled }]

theorem takeover_agrees : (final HaOp.step takeover (Deployment.start false)).Agreement := by
  refine agreement_of_foremost false takeover ⟨fun _ => ?_, trivial, trivial, fun _ => ?_, trivial⟩
  all_goals exact ⟨by decide +kernel, by decide +kernel⟩

def splitBrain : List (HaOp Bool) :=
  [.append false { type := .orderInserted }, .failover true 20000001, .append true { type := .orderCanceled }]

theorem splitBrain_disagrees : ¬ (final HaOp.step splitBrain (Deployment.start false)).Agreement := by
  intro hAgreement
  have hSame := hAgreement false true 1 (by decide +kernel) (by decide +kernel) (by decide +kernel) (by decide +kernel)
  exact absurd hSame (by decide +kernel)

end LuvFlicker.Ha
