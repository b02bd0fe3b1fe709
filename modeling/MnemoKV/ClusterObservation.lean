import MnemoKV.ClusterViews

/-!
# Observing the cluster

In each round the observer asks every peer for its slot table, counts the misses
of those that do not answer, and builds a view from the table that a majority of
the peers reports.
-/

namespace MnemoKV

/-- Whether the data of a node is admitted. -/
inductive DataState
  | active
  | recovering
  deriving DecidableEq

/-- A slot in a state response. -/
structure SlotStatus where
  number : Nat
  leaderID : String
  replicaID : String
  term : Nat
  replicaReady : Bool
  deriving DecidableEq

/-- The response to a health request. -/
structure HealthResponse where
  status : String
  nodeID : String

/-- The response to a request for the cluster state. -/
structure ClusterStateResponse where
  enabled : Bool
  nodeID : String
  clusterID : String
  slotCount : Nat
  metadataVersion : Nat
  slots : List SlotStatus
  dataState : DataState
  deriving DecidableEq

/-- The fields that nodes have to agree on. -/
def ClusterStateResponse.agrees (first second : ClusterStateResponse) : Bool :=
  first.metadataVersion == second.metadataVersion &&
    first.clusterID == second.clusterID && first.slotCount == second.slotCount &&
    first.slots == second.slots

def SlotStatus.view (slot : SlotStatus) : SlotView :=
  { number := slot.number, leaderID := slot.leaderID, replicaID := slot.replicaID
    term := slot.term, replicaReady := slot.replicaReady }

/-- What a peer answers in a round, if anything. -/
structure PeerAnswer where
  health : Option HealthResponse
  state : Option ClusterStateResponse

/-- The table of a peer that answers under its own name. -/
def PeerAnswer.accepted (answer : PeerAnswer) (peer : String) :
    Option ClusterStateResponse :=
  match answer.health with
  | none => none
  | some health =>
      if health.status ≠ "ok" ∨ health.nodeID ≠ peer then none
      else
        match answer.state with
        | none => none
        | some state =>
            if state.enabled = false ∨ state.nodeID ≠ peer then none else some state

/-- `firstMiss` is absent for the zero time. -/
structure FailureRecord where
  consecutive : Nat
  firstMiss : Option Int
  failed : Bool

def FailureRecord.clear : FailureRecord :=
  { consecutive := 0, firstMiss := none, failed := false }

/-- The observer with its thresholds and its record of each peer. -/
structure Observer where
  peers : List String
  failureAfter : Int
  failureCount : Nat
  skewThreshold : Nat
  failures : String → FailureRecord

namespace Observer

def missed (observer : Observer) (now : Int) (record : FailureRecord) :
    FailureRecord :=
  let consecutive := record.consecutive + 1
  let firstMiss := record.firstMiss.getD now
  { consecutive, firstMiss := some firstMiss
    failed :=
      (decide (0 < observer.failureCount) &&
          decide (observer.failureCount ≤ consecutive)) ||
        (decide (0 < observer.failureAfter) &&
          decide (observer.failureAfter ≤ now - firstMiss)) }

/-- The record and the row of a peer after its answer. -/
def visitPeer (observer : Observer) (now : Int) (peer : String)
    (answer : Option ClusterStateResponse) : FailureRecord × NodeView :=
  match answer with
  | some state =>
      let returning := decide (state.dataState = .recovering)
      (.clear,
        { id := peer, reachable := true, suspected := false, consecFails := 0
          leaderSlots := 0, replicaSlots := 0, eligible := !returning, returning })
  | none =>
      let record := observer.missed now (observer.failures peer)
      (record,
        { id := peer, reachable := !record.failed, suspected := !record.failed
          consecFails := record.consecutive, leaderSlots := 0, replicaSlots := 0
          eligible := !record.failed, returning := false })

end Observer

/-- The newest table that a quorum of the answers agrees on. -/
def selectQuorumState (states : List ClusterStateResponse) (quorum : Nat) :
    Option ClusterStateResponse :=
  let candidates := states.filter fun state =>
    decide (quorum ≤ states.countP fun other => other.agrees state)
  (candidates.insertionSort fun first second =>
    second.metadataVersion ≤ first.metadataVersion).head?

def NodeView.zero : NodeView :=
  { id := "", reachable := false, suspected := false, consecFails := 0
    leaderSlots := 0, replicaSlots := 0, eligible := false, returning := false }

namespace NodeViews

/-- An owner that no peer is named after gets an empty row of its own. -/
def adjust (nodes : NodeViews) (nodeID : String) (change : NodeView → NodeView) :
    NodeViews :=
  nodes.insert nodeID (change (nodes.getD nodeID .zero))

def countOwners (nodes : NodeViews) (slot : SlotStatus) : NodeViews :=
  let led := nodes.adjust slot.leaderID fun node =>
    { node with leaderSlots := node.leaderSlots + 1 }
  if slot.replicaID = "" then led
  else
    led.adjust slot.replicaID fun node =>
      { node with replicaSlots := node.replicaSlots + 1 }

end NodeViews

def StatusSummary.zero : StatusSummary :=
  { state := .unset, failedNodes := [], suspectedNodes := [], degradedSlots := 0
    unavailableSlots := 0, latestCommittedOperation := none }

/-- The view of a round from the rows of the peers and the agreed table. -/
def ClusterView.observed (canonical : ClusterStateResponse) (nodes : NodeViews)
    (now : Int) (skewThreshold : Nat) : ClusterView :=
  let view : ClusterView :=
    { clusterID := canonical.clusterID
      metadataVersion := canonical.metadataVersion
      slots := canonical.slots.map SlotStatus.view
      nodes := canonical.slots.foldl NodeViews.countOwners nodes
      observedAt := now, status := .zero }
  { view with status := view.summarizeStatus skewThreshold }

/-- One round of the observer; it has no view without a quorum. -/
def Observer.pollOnce (observer : Observer) (now : Int)
    (answers : String → PeerAnswer) : Observer × Option ClusterView :=
  let accepted peer := (answers peer).accepted peer
  let visited peer := observer.visitPeer now peer (accepted peer)
  let nodes := observer.peers.foldl
    (fun (nodes : NodeViews) peer => nodes.insert peer (visited peer).2) ∅
  let failures peer :=
    if peer ∈ observer.peers then (visited peer).1 else observer.failures peer
  let quorum := observer.peers.length / 2 + 1
  ({ observer with failures },
    (selectQuorumState (observer.peers.filterMap accepted) quorum).map
      fun canonical => .observed canonical nodes now observer.skewThreshold)

deriving instance DecidableEq for ClusterView

/-- The view without what `materiallyEqualViews` sets aside. -/
def ClusterView.material (view : ClusterView) : ClusterView :=
  { view with
    observedAt := 0
    status := { view.status with latestCommittedOperation := none } }

/-- Whether a new view says nothing new. -/
def materiallyEqualViews (left right : ClusterView) : Bool :=
  decide (left.material = right.material)

end MnemoKV
