import MnemoKV.LeaderRestarts
import MnemoKV.PlanExecution

/-!
# Nodes that come back

A node that was started before begins empty and fenced.  `ReconcileOnce` has it
cleared once more, commits its admission and lifts the fence.  The controller
compares versions and counts entries; it never asks whether the node is still the
owner of a slot.
-/

namespace MnemoKV

/-- `RemovedSnapshots` is left out, which the controller does not read. -/
structure ReturningNodeResponse where
  clusterID : String
  metadataVersion : Nat
  entryCount : Nat
  dataState : DataState
  deriving DecidableEq

/-- The refusals of a node that is to be cleared or admitted. -/
inductive ReturningNodeError
  | invalidBody
  | snapshot (failure : SnapshotError)
  /-- "latest committed cluster metadata is not installed" -/
  | metadataMissing
  /-- "returning node validation failed" -/
  | validationFailed

namespace Node

/-- A node that finds the marker of an earlier start; it restores no snapshot. -/
def startReturning (config : ClusterConfig) (engineConfig : EngineConfig) (id : String)
    (answers : List (Option MetadataSnapshot)) : Node :=
  { metadata := (newMetadata config id).syncMetadata answers
    engine := Engine.new engineConfig, admitted := false }

/-- `writeReturningNodeState`. -/
def returningNodeState (now : Int) (node : Node) :
    Except ReturningNodeError ReturningNodeResponse :=
  match node.engine.snapshotEntries now with
  | .error failure => .error (.snapshot failure)
  | .ok entries =>
      .ok { clusterID := node.metadata.clusterID
            metadataVersion := node.metadata.version
            entryCount := entries.length
            dataState := if node.admitted then .active else .recovering }

/-- `handleReturningNodePrepare` behind the fence against stale controllers;
`answers` are the tables of the peers. -/
def prepareReturning (clusterID : String) (metadataVersion : Nat) (now : Int)
    (answers : List (Option MetadataSnapshot)) (node : Node) :
    Except ReturningNodeError ReturningNodeResponse × Node :=
  if clusterID = "" ∨ metadataVersion = 0 then (.error .invalidBody, node)
  else
    let fenced := { node with admitted := false }
    match fenced.engine.restoreSnapshotEntries [] now with
    | (.error failure, engine) => (.error (.snapshot failure), { fenced with engine })
    | (.ok _, engine) =>
        let refreshed := { fenced with
          engine, metadata := node.metadata.syncMetadata answers }
        if refreshed.metadata.clusterID ≠ clusterID ∨
            refreshed.metadata.version < metadataVersion then
          (.error .metadataMissing, refreshed)
        else (refreshed.returningNodeState now, refreshed)

/-- `handleReturningNodeAdmit` behind the same fence. -/
def admitReturning (clusterID : String) (metadataVersion : Nat) (now : Int)
    (node : Node) : Except ReturningNodeError ReturningNodeResponse × Node :=
  if clusterID = "" ∨ metadataVersion = 0 then (.error .invalidBody, node)
  else
    match node.engine.snapshotEntries now with
    | .error failure => (.error (.snapshot failure), node)
    | .ok entries =>
        if node.metadata.clusterID ≠ clusterID ∨
            node.metadata.version < metadataVersion ∨ entries ≠ [] then
          (.error .validationFailed, node)
        else
          let admitted := { node with admitted := true }
          (admitted.returningNodeState now, admitted)

end Node

/-- How far a pass of `ReconcileOnce` has come. -/
inductive ReturningStage
  | preparing
  | validated
  | committed
  deriving DecidableEq

/-- A pass that has taken up a node, with what it read of the committed view. -/
structure ReturningPass where
  nodeID : String
  clusterID : String
  metadataVersion : Nat
  stage : ReturningStage
  deriving DecidableEq

/-- What `ReconcileOnce` does first. -/
inductive ReconcileStart
  | idle
  | noClient (nodeID : String)
  /-- The node is recorded as not admitted before anything else happens to it. -/
  | track (nodeID : String)
  | prepare (nodeID : String)
  deriving DecidableEq

def reconcileStart (clients : List String) (state : FSMSnapshot) : ReconcileStart :=
  if state.activePlan.isSome then .idle
  else
    match (state.latestView.nodeIDs fun node =>
      node.reachable && node.returning).head? with
    | none => .idle
    | some nodeID =>
        if nodeID ∉ clients then .noClient nodeID
        else
          match state.returningNodes[nodeID]? with
          | some false => .prepare nodeID
          | _ => .track nodeID

/-- The validation of a preparation. -/
def ReturningPass.accepts (pass : ReturningPass) (prepared : ReturningNodeResponse) :
    Bool :=
  prepared.clusterID == pass.clusterID &&
    decide (pass.metadataVersion ≤ prepared.metadataVersion) &&
    prepared.entryCount == 0 && prepared.dataState == .recovering

end MnemoKV
