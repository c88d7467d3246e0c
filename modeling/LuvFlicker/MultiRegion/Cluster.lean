import LuvFlicker.Lib.OrderStatistic

/-!
# The multi-region cluster

One instance of the cluster as its own region sees it: what the five regions have
acknowledged, the log, and the hybrid logical clock.
-/

namespace LuvFlicker.MultiRegion

open OrderStatistic Function

inductive DataCenterRegion where
  | ny4
  | ld4
  | ty3
  | fr2
  | sg1
  deriving DecidableEq

def regions : List DataCenterRegion := [.ny4, .ld4, .ty3, .fr2, .sg1]

inductive CrossDCSyncState where
  | fullySynchronized
  | degradedLatency
  | partitionedSevered
  deriving DecidableEq

structure CrossDCLogEntry where
  term : UInt64 := 1
  logIndex : UInt64 := 0
  originRegion : DataCenterRegion := .ny4
  originTimestampNs : UInt64 := 0
  hybridLogicalClock : UInt64 := 0
  orderId : UInt64 := 0
  eventType : UInt32 := 0
  price : UInt64 := 0
  quantity : UInt64 := 0
  deriving DecidableEq

structure RegionNodeStatus where
  region : DataCenterRegion := .ny4
  lastHeartbeatNs : UInt64 := 0
  roundTripLatencyNs : UInt64 := 0
  clockOffsetNs : Int64 := 0
  isReachable : Bool := true
  ackedLogIndex : UInt64 := 0

structure ClusterQuorumResult where
  hasGlobalQuorum : Bool := true
  hasLocalQuorum : Bool := true
  activeNodeCount : Nat := 0
  globalCommitIndex : UInt64 := 0
  currentLeaderRegion : DataCenterRegion := .ny4
  syncState : CrossDCSyncState := .fullySynchronized

def kMaxRegions : Nat := 5

def kLogCapacity : UInt64 := 512

def kHeartbeatTimeoutNs : UInt64 := 200000000

structure MultiRegionRaftCluster where
  localRegion : DataCenterRegion := .ny4
  leaderRegion : DataCenterRegion := .ny4
  currentTerm : UInt64 := 1
  nodes : DataCenterRegion → RegionNodeStatus := fun region => { region := region }
  log : UInt64 → CrossDCLogEntry := fun _ => {}
  logCount : UInt64 := 0
  localCommitIndex : UInt64 := 0
  globalCommitIndex : UInt64 := 0
  hlcCounter : UInt64 := 0

namespace MultiRegionRaftCluster

def acked (s : MultiRegionRaftCluster) (region : DataCenterRegion) : UInt64 := (s.nodes region).ackedLogIndex

def median (acked : DataCenterRegion → UInt64) : UInt64 := nth (regions.map acked) 2 0

def updateGlobalCommitIndex (s : MultiRegionRaftCluster) : MultiRegionRaftCluster :=
  { s with globalCommitIndex := median s.acked }

def acknowledge (region : DataCenterRegion) (index : UInt64) (s : MultiRegionRaftCluster) : MultiRegionRaftCluster :=
  { s with nodes := update s.nodes region { s.nodes region with ackedLogIndex := index } }

def store (entry : CrossDCLogEntry) (s : MultiRegionRaftCluster) : MultiRegionRaftCluster :=
  { s with
    log := update s.log (entry.logIndex &&& (kLogCapacity - 1)) entry
    localCommitIndex := entry.logIndex }.acknowledge s.localRegion entry.logIndex

def onPeerHeartbeat (fromRegion : DataCenterRegion) (nowNs rttNs : UInt64) (clockOffsetNs : Int64)
    (peerAckedIndex : UInt64) (s : MultiRegionRaftCluster) : MultiRegionRaftCluster :=
  { s with
    nodes := update s.nodes fromRegion
      { s.nodes fromRegion with
        lastHeartbeatNs := nowNs
        roundTripLatencyNs := rttNs
        clockOffsetNs := clockOffsetNs
        isReachable := true
        ackedLogIndex := peerAckedIndex } }.updateGlobalCommitIndex

def onPeerTimeout (fromRegion : DataCenterRegion) (s : MultiRegionRaftCluster) : MultiRegionRaftCluster :=
  { s with nodes := update s.nodes fromRegion { s.nodes fromRegion with isReachable := false } }

def nextEntry (orderId : UInt64) (eventType : UInt32) (price qty nowNs : UInt64) (s : MultiRegionRaftCluster) :
    CrossDCLogEntry where
  term := s.currentTerm
  logIndex := s.localCommitIndex + 1
  originRegion := s.localRegion
  originTimestampNs := nowNs
  hybridLogicalClock := max (s.hlcCounter + 1) nowNs
  orderId := orderId
  eventType := eventType
  price := price
  quantity := qty

def appendOrderEvent (orderId : UInt64) (eventType : UInt32) (price qty nowNs : UInt64) (s : MultiRegionRaftCluster) :
    Option (CrossDCLogEntry × MultiRegionRaftCluster) :=
  if s.logCount ≥ kLogCapacity then none
  else
    let entry := s.nextEntry orderId eventType price qty nowNs
    let s := { s with hlcCounter := entry.hybridLogicalClock }.store entry
    some (entry, { s with logCount := s.logCount + 1 }.updateGlobalCommitIndex)

def observe (entry : CrossDCLogEntry) (nowNs : UInt64) (s : MultiRegionRaftCluster) : MultiRegionRaftCluster :=
  let s := if entry.term > s.currentTerm then
      { s with currentTerm := entry.term, leaderRegion := entry.originRegion }
    else s
  { s with hlcCounter := max (max s.hlcCounter nowNs) entry.hybridLogicalClock + 1 }

def replicateFromRemote (entry : CrossDCLogEntry) (nowNs : UInt64) (s : MultiRegionRaftCluster) :
    Bool × MultiRegionRaftCluster :=
  if entry.term < s.currentTerm then (false, s)
  else
    let s := s.observe entry nowNs
    if entry.logIndex = s.localCommitIndex + 1 then
      let s := (s.store entry).acknowledge entry.originRegion entry.logIndex
      (true, { s with logCount := s.logCount + 1 }.updateGlobalCommitIndex)
    else (false, s)

def reachable (nowNs : UInt64) (node : RegionNodeStatus) : Bool :=
  node.isReachable && decide (nowNs ≥ node.lastHeartbeatNs) &&
    decide (nowNs - node.lastHeartbeatNs ≤ kHeartbeatTimeoutNs)

def evaluateClusterHealth (nowNs : UInt64) (s : MultiRegionRaftCluster) : ClusterQuorumResult :=
  let reachableCount := regions.countP fun region => reachable nowNs (s.nodes region)
  { currentLeaderRegion := s.leaderRegion
    hasLocalQuorum := true
    activeNodeCount := reachableCount
    hasGlobalQuorum := decide (reachableCount ≥ 3)
    globalCommitIndex := s.globalCommitIndex
    syncState :=
      if reachableCount = kMaxRegions then .fullySynchronized
      else if reachableCount ≥ 3 then .degradedLatency
      else .partitionedSevered }

section Observe

variable (entry : CrossDCLogEntry) (nowNs : UInt64) (s : MultiRegionRaftCluster)

@[simp]
theorem observe_nodes : (s.observe entry nowNs).nodes = s.nodes := by
  dsimp only [observe]
  split <;> rfl

@[simp]
theorem observe_localRegion : (s.observe entry nowNs).localRegion = s.localRegion := by
  dsimp only [observe]
  split <;> rfl

@[simp]
theorem observe_localCommitIndex : (s.observe entry nowNs).localCommitIndex = s.localCommitIndex := by
  dsimp only [observe]
  split <;> rfl

@[simp]
theorem observe_globalCommitIndex : (s.observe entry nowNs).globalCommitIndex = s.globalCommitIndex := by
  dsimp only [observe]
  split <;> rfl

@[simp]
theorem observe_hlcCounter :
    (s.observe entry nowNs).hlcCounter = max (max s.hlcCounter nowNs) entry.hybridLogicalClock + 1 := by
  dsimp only [observe]
  split <;> rfl

end Observe

end MultiRegionRaftCluster

end LuvFlicker.MultiRegion
