import LuvFlicker.Lib.Run
import LuvFlicker.MultiRegion.Cluster

/-!
# The global commit index

Each call records at most one index, for one region or for two. The global commit
index is backed by three regions that have reached it.
-/

namespace LuvFlicker.MultiRegion

open OrderStatistic Run Function List

inductive ClusterOp where
  | heartbeat (fromRegion : DataCenterRegion) (nowNs rttNs : UInt64) (clockOffsetNs : Int64) (peerAckedIndex : UInt64)
  | timeout (fromRegion : DataCenterRegion)
  | append (orderId : UInt64) (eventType : UInt32) (price qty nowNs : UInt64)
  | replicate (entry : CrossDCLogEntry) (nowNs : UInt64)
  /-- A region gets further, which the instance does not see. -/
  | reach (region : DataCenterRegion) (index : UInt64)

namespace MultiRegionRaftCluster

variable (acked : DataCenterRegion → UInt64)

theorem le_median_iff (x : UInt64) : x ≤ median acked ↔ 3 ≤ regions.countP fun region => x ≤ acked region := by
  have hLength : (regions.map acked).length = 5 := rfl
  rw [median, le_nth_iff (by rw [hLength]; decide), countP_map]
  have hSame : ((fun y => decide (x ≤ y)) ∘ acked) = fun region => decide (x ≤ acked region) := rfl
  rw [hSame]
  omega

def recorded (index : UInt64) (written : List DataCenterRegion) (region : DataCenterRegion) : UInt64 :=
  if region ∈ written then index else acked region

theorem recorded_cons (index : UInt64) (region : DataCenterRegion) (written : List DataCenterRegion) :
    recorded acked index (region :: written) = update (recorded acked index written) region index := by
  funext other
  by_cases hOther : other = region
  · rw [hOther, update_self, recorded, if_pos mem_cons_self]
  · rw [update_of_ne hOther, recorded, recorded]
    simp [hOther]

theorem acked_acknowledge {region : DataCenterRegion} {index : UInt64} {s : MultiRegionRaftCluster} :
    (s.acknowledge region index).acked = update s.acked region index :=
  Function.comp_update _ _ _ _

theorem acked_store {entry : CrossDCLogEntry} {s : MultiRegionRaftCluster} :
    (s.store entry).acked = update s.acked s.localRegion entry.logIndex := by
  rw [store, acked_acknowledge]
  rfl

def records (op : ClusterOp) (s : MultiRegionRaftCluster) : Option (UInt64 × List DataCenterRegion) :=
  match op with
  | .heartbeat fromRegion _ _ _ peerAckedIndex => some (peerAckedIndex, [fromRegion])
  | .timeout _ => none
  | .append .. => if s.logCount ≥ kLogCapacity then none else some (s.localCommitIndex + 1, [s.localRegion])
  | .replicate entry _ =>
    if ¬ entry.term < s.currentTerm ∧ entry.logIndex = s.localCommitIndex + 1 then
      some (entry.logIndex, [entry.originRegion, s.localRegion])
    else none
  | .reach .. => none

def step (op : ClusterOp) (s : MultiRegionRaftCluster) : MultiRegionRaftCluster :=
  match op with
  | .heartbeat fromRegion nowNs rttNs clockOffsetNs peerAckedIndex =>
    s.onPeerHeartbeat fromRegion nowNs rttNs clockOffsetNs peerAckedIndex
  | .timeout fromRegion => s.onPeerTimeout fromRegion
  | .append orderId eventType price qty nowNs =>
    ((s.appendOrderEvent orderId eventType price qty nowNs).map Prod.snd).getD s
  | .replicate entry nowNs => (s.replicateFromRemote entry nowNs).2
  | .reach .. => s

inductive Recorded (s : MultiRegionRaftCluster) : Option (UInt64 × List DataCenterRegion) → MultiRegionRaftCluster → Prop
  | kept {s' : MultiRegionRaftCluster} (hAcked : s'.acked = s.acked)
      (hGlobal : s'.globalCommitIndex = s.globalCommitIndex) : Recorded s none s'
  | written {s' : MultiRegionRaftCluster} {index : UInt64} {written : List DataCenterRegion}
      (hAcked : s'.acked = recorded s.acked index written) (hGlobal : s'.globalCommitIndex = median s'.acked) :
      Recorded s (some (index, written)) s'

theorem Recorded.global {s s' : MultiRegionRaftCluster} {what : Option (UInt64 × List DataCenterRegion)}
    (h : Recorded s what s') (hs : s.globalCommitIndex = median s.acked) : s'.globalCommitIndex = median s'.acked := by
  cases h with
  | kept hAcked hGlobal => rw [hGlobal, hAcked, hs]
  | written hAcked hGlobal => exact hGlobal

theorem recorded_step (op : ClusterOp) (s : MultiRegionRaftCluster) : Recorded s (records op s) (step op s) := by
  cases op with
  | heartbeat fromRegion nowNs rttNs clockOffsetNs peerAckedIndex =>
    refine .written ?_ rfl
    rw [recorded_cons]
    exact Function.comp_update _ _ _ _
  | timeout fromRegion =>
    refine .kept ?_ rfl
    refine (Function.comp_update _ _ _ _).trans ?_
    exact update_eq_self _ s.acked
  | append orderId eventType price qty nowNs =>
    rw [records, step, appendOrderEvent]
    split
    · exact .kept rfl rfl
    refine .written ?_ rfl
    rw [recorded_cons]
    exact acked_store
  | replicate entry nowNs =>
    rw [records, step, replicateFromRemote]
    by_cases hOld : entry.term < s.currentTerm
    · rw [if_pos hOld, if_neg fun hBoth => hBoth.1 hOld]
      exact .kept rfl rfl
    simp only [hOld, not_false_eq_true, true_and, observe_localCommitIndex]
    have hAcked : (s.observe entry nowNs).acked = s.acked := by
      funext region
      rw [acked, observe_nodes, acked]
    split
    · refine .written ?_ rfl
      rw [recorded_cons, recorded_cons]
      refine acked_acknowledge.trans ?_
      rw [acked_store, hAcked, observe_localRegion]
      rfl
    · exact .kept hAcked (observe_globalCommitIndex _ _ s)
  | reach region index => exact .kept rfl rfl

theorem le_median_recorded_iff {acked : DataCenterRegion → UInt64} {x : UInt64} (hx : x ≤ median acked) (index : UInt64)
    (written : List DataCenterRegion) :
    x ≤ median (recorded acked index written) ↔
      x ≤ index ∨ 3 ≤ regions.countP fun region => region ∉ written ∧ x ≤ acked region := by
  rw [le_median_iff]
  by_cases hIndex : x ≤ index
  · refine iff_of_true (((le_median_iff _ x).mp hx).trans ?_) (.inl hIndex)
    refine countP_mono_left fun region _ hRegion => ?_
    rw [decide_eq_true_iff] at hRegion ⊢
    rw [recorded]
    split
    · exact hIndex
    · exact hRegion
  · rw [or_iff_right hIndex]
    have hSame (region : DataCenterRegion) :
        x ≤ recorded acked index written region ↔ region ∉ written ∧ x ≤ acked region := by
      rw [recorded]
      split
      next hWritten => exact iff_of_false hIndex fun hBoth => hBoth.1 hWritten
      next hWritten => rw [and_iff_right hWritten]
    simp only [hSame]

end MultiRegionRaftCluster

open MultiRegionRaftCluster

structure Observed where
  cluster : MultiRegionRaftCluster := {}
  reached : DataCenterRegion → Nat := fun _ => 0

namespace Observed

section

variable (op : ClusterOp)

def evidence (s : MultiRegionRaftCluster) : Option (UInt64 × List DataCenterRegion) :=
  match op with
  | .heartbeat .. => none
  | .reach region index => some (index, [region])
  | _ => records op s

def reachedBy (w : Observed) (region : DataCenterRegion) : Nat :=
  match evidence op w.cluster with
  | some (index, written) => if region ∈ written then max (w.reached region) index.toNat else w.reached region
  | none => w.reached region

def step (w : Observed) : Unit × Observed :=
  ((), { cluster := w.cluster.step op, reached := w.reachedBy op })

/-- Heartbeats carry an index their region has reached, at whatever time. -/
def Truthful (w : Observed) : Prop :=
  match op with
  | .heartbeat fromRegion _ _ _ peerAckedIndex => peerAckedIndex.toNat ≤ w.reached fromRegion
  | _ => True

end

instance decidableTruthful : ∀ op w, Decidable (Truthful op w)
  | .heartbeat fromRegion _ _ _ peerAckedIndex, w => inferInstanceAs (Decidable (peerAckedIndex.toNat ≤ w.reached fromRegion))
  | .timeout _, _ | .append .., _ | .replicate .., _ | .reach .., _ => isTrue trivial

/-- The global commit index is one of those recorded, and three regions have reached it. -/
def Backed (w : Observed) : Prop := (∃ region, w.cluster.acked region = w.cluster.globalCommitIndex) ∧
    3 ≤ regions.countP fun region => w.cluster.globalCommitIndex.toNat ≤ w.reached region

/-- The global commit index does not move backwards and is backed. -/
def Advances (op : ClusterOp) (w : Observed) : Prop :=
  w.cluster.globalCommitIndex ≤ (step op w).2.cluster.globalCommitIndex ∧ Backed w ∧ Backed (step op w).2

/-- A call that records an index below the global commit index leaves three other regions that hold it up. -/
def Upheld (op : ClusterOp) (w : Observed) : Prop := ∀ index written, records op w.cluster = some (index, written) →
    w.cluster.globalCommitIndex ≤ index ∨
      3 ≤ regions.countP fun region => region ∉ written ∧ w.cluster.globalCommitIndex ≤ w.cluster.acked region

structure Inv (w : Observed) : Prop where
  global : w.cluster.globalCommitIndex = median w.cluster.acked
  acked_le : ∀ region, (w.cluster.acked region).toNat ≤ w.reached region

variable {w : Observed} {op : ClusterOp}

theorem Inv.backed (h : Inv w) : Backed w := by
  constructor
  · have hMem : median w.cluster.acked ∈ regions.map _ := nth_mem (by rw [length_map]; decide)
    obtain ⟨region, -, hRegion⟩ := mem_map.mp hMem
    exact ⟨region, hRegion.trans h.global.symm⟩
  refine ((le_median_iff w.cluster.acked _).mp (UInt64.le_refl _)).trans ?_
  refine countP_mono_left fun _ _ hRegion => ?_
  rw [decide_eq_true_iff] at hRegion ⊢
  rw [h.global]
  exact (UInt64.le_iff_toNat_le.mp hRegion).trans (h.acked_le _)

theorem reached_le (op : ClusterOp) (w : Observed) (region : DataCenterRegion) :
    w.reached region ≤ w.reachedBy op region := by
  rw [reachedBy]
  split
  · split
    · exact le_max_left _ _
    · exact le_rfl
  · exact le_rfl

variable {written : List DataCenterRegion} {region : DataCenterRegion} {index : UInt64}

theorem index_le_of_evidence {op : ClusterOp} (w : Observed)
    (hEvidence : evidence op w.cluster = some (index, written)) (hMem : region ∈ written) :
    index.toNat ≤ w.reachedBy op region := by
  rw [reachedBy, hEvidence]
  dsimp only
  rw [if_pos hMem]
  exact le_max_right _ _

theorem index_le_reachedBy (hTruthful : Truthful op w)
    (hRecords : records op w.cluster = some (index, written)) (hMem : region ∈ written) :
    index.toNat ≤ w.reachedBy op region := by
  cases op with
  | heartbeat fromRegion nowNs rttNs clockOffsetNs peerAckedIndex =>
    cases hRecords
    rw [mem_singleton.mp hMem]
    exact hTruthful.trans (reached_le _ _ _)
  | timeout fromRegion | reach region index => cases hRecords
  | append orderId eventType price qty nowNs => exact index_le_of_evidence w hRecords hMem
  | replicate entry nowNs => exact index_le_of_evidence w hRecords hMem

theorem Inv.step (h : Inv w) (hTruthful : Truthful op w) : Inv (step op w).2 := by
  have hRecorded := recorded_step op w.cluster
  generalize hRecords : records op w.cluster = what at hRecorded
  generalize hNext : w.cluster.step op = next at hRecorded
  rw [Observed.step, hNext]
  cases hRecorded with
  | kept hAcked hGlobal =>
    constructor
    · rw [hGlobal, hAcked, h.global]
    intro region
    rw [hAcked]
    exact (h.acked_le _).trans (reached_le op w _)
  | written hAcked hGlobal =>
    constructor
    · exact hGlobal
    intro region
    rw [hAcked, recorded]
    split
    next hMem => exact index_le_reachedBy hTruthful hRecords hMem
    · exact (h.acked_le _).trans (reached_le op w region)

theorem Inv.advances_iff (h : Inv w) (hTruthful : Truthful op w) : Advances op w ↔ Upheld op w := by
  rw [Advances, and_iff_left ⟨h.backed, (h.step hTruthful).backed⟩, Upheld]
  have hRecorded := recorded_step op w.cluster
  generalize hRecords : records op w.cluster = what at hRecorded
  generalize hNext : w.cluster.step op = next at hRecorded
  rw [Observed.step, hNext]
  cases hRecorded with
  | kept hAcked hGlobal => exact iff_of_true (UInt64.le_of_eq hGlobal.symm) nofun
  | written hAcked hGlobal =>
    rw [hGlobal, hAcked, le_median_recorded_iff (UInt64.le_of_eq h.global)]
    constructor
    · rintro hUpheld _ _ ⟨⟩
      exact hUpheld
    · intro hUpheld
      exact hUpheld _ _ rfl

theorem inv_start (region : DataCenterRegion) : Inv { cluster := { localRegion := region } } where
  global := (by decide +kernel : (0 : UInt64) = median fun _ => 0)
  acked_le _ := le_refl 0

end Observed

/-- The reported index is the largest that three regions have acknowledged. -/
theorem le_reported_iff (region : DataCenterRegion) (ops : List ClusterOp) (nowNs x : UInt64) :
    x ≤ ((final Observed.step ops { cluster := { localRegion := region } }).cluster.evaluateClusterHealth
        nowNs).globalCommitIndex ↔
      3 ≤ regions.countP fun r => x ≤ (final Observed.step ops { cluster := { localRegion := region } }).cluster.acked r := by
  have hGlobal := @final_invariant _ _ _ Observed.step _ (fun w => w.cluster.globalCommitIndex = median w.cluster.acked)
    (fun op _ => (recorded_step op _).global) ops (Observed.inv_start region).global
  rw [← le_median_iff, ← hGlobal]
  rfl

/-- With truthful heartbeats in any order, the global commit index never moves backwards and is always backed by three
regions, exactly in the runs in which no call takes away one of just three regions that hold it up. -/
theorem advances_run_iff (region : DataCenterRegion) (ops : List ClusterOp)
    (hTruthful : Always Observed.step Observed.Truthful ops { cluster := { localRegion := region } }) :
    Always Observed.step Observed.Advances ops { cluster := { localRegion := region } } ↔
      Always Observed.step Observed.Upheld ops { cluster := { localRegion := region } } :=
  hTruthful.iff_of_invariant _ (fun _ _ hOp h => h.advances_iff hOp) (fun _ _ hOp _ h => h.step hOp)
    (Observed.inv_start _)

def threeReports : List ClusterOp :=
  [.reach .ld4 5, .reach .ty3 5, .reach .fr2 5, .heartbeat .ld4 0 0 0 5, .heartbeat .ty3 0 0 0 5,
    .heartbeat .fr2 0 0 0 5]

theorem threeReports_advance : Always Observed.step Observed.Advances threeReports {} := by
  refine (advances_run_iff .ny4 threeReports (by decide +kernel)).mpr ⟨nofun, nofun, nofun, ?_, ?_, ?_, trivial⟩
  all_goals
    rintro _ _ ⟨⟩
    exact .inl (by decide +kernel)

/-- The report of an index that a region had reached earlier comes late. -/
theorem late_heartbeat_moves_back :
    Always Observed.step Observed.Truthful (threeReports ++ [.heartbeat .ld4 0 0 0 3]) {} ∧
    (final Observed.step threeReports {}).cluster.globalCommitIndex = 5 ∧
    (final Observed.step (threeReports ++ [.heartbeat .ld4 0 0 0 3]) {}).cluster.globalCommitIndex = 3 ∧
    ¬ Always Observed.step Observed.Advances (threeReports ++ [.heartbeat .ld4 0 0 0 3]) {} := by
  refine ⟨by decide +kernel, by decide +kernel, by decide +kernel, fun hAdvances => ?_⟩
  have hLast := ((always_append threeReports _ _).mp hAdvances).2.1.1
  exact absurd hLast (by decide +kernel)

end LuvFlicker.MultiRegion
