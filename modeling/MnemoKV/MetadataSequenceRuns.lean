import MnemoKV.LabelledRuns
import MnemoKV.ClusterMetadata
import Mathlib.Logic.Function.Basic

/-!
# Sequence numbers along metadata runs

The nodes of one cluster each own a metadata table.  A run interleaves the
operations that write a slot's counters: sequence commits, topology changes,
the two halves of `SyncReplica` that touch metadata, and merges of tables
published by other nodes.  A slot leader draws its next sequence number from
`LastSequence`, so a number is reused inside a term only when that counter
moves backwards.  A merge takes `LastSequence` from the sender even when the
local node leads the slot in the same term, a synchronization writes back the
value it read at its start, and the commit after the largest number starts
again at zero; these are the only ways back.
-/

namespace MnemoKV

/-- What a running `SyncReplica` call remembers between reading the slot and
marking the replica ready. -/
structure PendingSync where
  node : String
  slot : Nat
  term : Nat
  sequence : Nat
  deriving DecidableEq, Repr

/-- All metadata tables of a cluster, with the tables that were ever sent to a
peer and the synchronizations that were ever started. -/
structure MetadataCluster where
  nodes : String → Metadata
  published : List (String × MetadataSnapshot)
  syncs : List PendingSync

/-- The operations on the metadata of the nodes of a cluster. -/
inductive MetadataOp
  | commitLeaderSequence (node : String) (slot term sequence : Nat)
  | commitReplicaSequence (node : String) (slot term sequence : Nat)
  | promote (node : String) (slot : Nat)
  | assignReplica (node : String) (slot : Nat) (target : String)
  | startSync (node : String) (slot : Nat) (target : String)
  | markReplicaReady (sync : Nat)
  | publish (node : String)
  | applyRemote (node : String) (message : Nat)
  deriving DecidableEq, Repr

/-- The opening checks of `SyncReplica`, which read the slot once. -/
def readForSync (metadata : Metadata) (slot : Nat) (target : String) :
    Except ClusterError SlotState :=
  match metadata.slot slot with
  | none => .error .slotOutOfRange
  | some state =>
      if state.leaderID ≠ metadata.localID then .error .notLeader
      else
        let target := if target = "" then state.replicaID else target
        if target = "" ∨ target ≠ state.replicaID then .error .notReplica
        else .ok state

namespace MetadataCluster

/-- Install the table an operation produced; a failed operation installs
nothing. -/
def install (cluster : MetadataCluster) (node : String)
    (result : Except ClusterError Metadata) : MetadataCluster :=
  match result with
  | .ok metadata =>
      { cluster with nodes := Function.update cluster.nodes node metadata }
  | .error _ => cluster

def step (cluster : MetadataCluster) : MetadataOp → MetadataCluster
  | .commitLeaderSequence node slot term sequence =>
      cluster.install node
        ((cluster.nodes node).commitLeaderSequence slot term sequence)
  | .commitReplicaSequence node slot term sequence =>
      cluster.install node
        ((cluster.nodes node).commitReplicaSequence slot term sequence)
  | .promote node slot =>
      cluster.install node ((cluster.nodes node).promote slot)
  | .assignReplica node slot target =>
      cluster.install node ((cluster.nodes node).assignReplica slot target)
  | .startSync node slot target =>
      match readForSync (cluster.nodes node) slot target with
      | .ok state =>
          { cluster with
            syncs := cluster.syncs ++
              [⟨node, slot, state.term, state.lastSequence⟩] }
      | .error _ => cluster
  | .markReplicaReady sync =>
      match cluster.syncs[sync]? with
      | some pending =>
          cluster.install pending.node
            ((cluster.nodes pending.node).markReplicaReady pending.slot
              pending.term pending.sequence)
      | none => cluster
  | .publish node =>
      { cluster with
        published := cluster.published ++
          [(node, (cluster.nodes node).snapshot)] }
  | .applyRemote node message =>
      match cluster.published[message]? with
      | some (sender, incoming) =>
          if sender = node then cluster
          else cluster.install node ((cluster.nodes node).applyRemote incoming)
      | none => cluster

/-- Every node of `config` starts from the table built by `NewMetadata`. -/
def boot (config : ClusterConfig) : MetadataCluster :=
  { nodes := newMetadata config, published := [], syncs := [] }

def lastSequence (cluster : MetadataCluster) (node : String) (slot : Nat) : Nat :=
  (((cluster.nodes node).slot slot).map SlotState.lastSequence).getD 0

/-- `node` considers itself leader of `slot` in `term`. -/
def Leads (cluster : MetadataCluster) (node : String) (slot term : Nat) : Prop :=
  ∃ state, (cluster.nodes node).slot slot = some state ∧
    state.leaderID = (cluster.nodes node).localID ∧ state.term = term

end MetadataCluster

namespace Metadata

/-- The counter of the slot is not lower than before, unless its term is another. -/
def KeepsSequence (slot : Nat) (metadata result : Metadata) : Prop :=
  ∀ before after, metadata.slot slot = some before → result.slot slot = some after →
    after.term = before.term → before.lastSequence ≤ after.lastSequence

theorem KeepsSequence.of_eq {metadata result : Metadata} {slot : Nat}
    (same : result.slot slot = metadata.slot slot) : KeepsSequence slot metadata result := by
  intro before after beforeEq afterEq _
  rw [same, beforeEq] at afterEq
  cases afterEq
  exact Nat.le_refl _

variable {metadata result : Metadata} {number term sequence slot : Nat}

end Metadata

namespace MetadataCluster

instance (cluster : MetadataCluster) (node : String) (slot term : Nat) :
    Decidable (cluster.Leads node slot term) :=
  match present : (cluster.nodes node).slot slot with
  | none => isFalse (by rintro ⟨state, stateEq, -⟩; simp [present] at stateEq)
  | some state =>
      decidable_of_iff
        (state.leaderID = (cluster.nodes node).localID ∧ state.term = term)
        (by simp [Leads, present])

open LabelledRuns

/-- Three peers with one slot each: slot `i` is led by peer `i + 1` and
replicated on the next one. -/
def threePeerConfig : ClusterConfig :=
  { id := "demo", enabled := true, replicationEnabled := true, slotCount := 3
    peers :=
      [⟨"node-1", "127.0.0.1:7001", "127.0.0.1:8001"⟩,
        ⟨"node-2", "127.0.0.1:7002", "127.0.0.1:8002"⟩,
        ⟨"node-3", "127.0.0.1:7003", "127.0.0.1:8003"⟩] }

end MetadataCluster
end MnemoKV
