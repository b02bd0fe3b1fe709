import MnemoKV.EngineRuns
import MnemoKV.ReplicaPairOutcomes

/-!
# Restarts of a leader

A node saves its entries together with its slot table.  When it starts again, it
begins with the table of its configuration, restores the saved snapshot if there
is one, and then asks its peers for newer tables.  Meanwhile its replica keeps
running.  Roles in a saved table are never read back and are left out, as are
the file formats.
-/

namespace MnemoKV

/-- What the persistence manager writes for one node. -/
structure SavedSnapshot where
  metadata : MetadataSnapshot
  entries : List SnapshotEntry

/-- Why a node does not start. -/
inductive StartError
  | metadata (failure : ClusterError)
  | entries (failure : SnapshotError)

namespace Metadata

/-- A table without owners dates from before the fixed slots and is skipped; one
without peers takes those of the configuration. -/
def restoreSnapshot (metadata : Metadata) (saved : MetadataSnapshot) :
    Except ClusterError Metadata :=
  if saved.clusterID = "" then .ok metadata
  else if saved.slots.any fun row => row.leaderID = "" then .ok metadata
  else metadata.restore { saved with
    peers := if saved.peers = [] then metadata.peers else saved.peers }

/-- What a node does with the table of one peer, if the peer answers. -/
def adopt (metadata : Metadata) : Option MetadataSnapshot → Metadata
  | none => metadata
  | some incoming =>
      if incoming.version > metadata.version then
        match metadata.applyRemote incoming with
        | .error _ => metadata
        | .ok applied => applied
      else metadata

def syncMetadata (answers : List (Option MetadataSnapshot))
    (metadata : Metadata) : Metadata :=
  answers.foldl adopt metadata

end Metadata

namespace Node

/-- `Manager.Snapshot` of the persistence package. -/
def capture (now : Int) (node : Node) : Except SnapshotError SavedSnapshot :=
  match node.engine.snapshotEntries now with
  | .error failure => .error failure
  | .ok entries => .ok { metadata := node.metadata.snapshot, entries := entries }

/-- A node takes over a saved table and its entries. -/
def restoreLatest (saved : Option SavedSnapshot) (now : Int) (node : Node) :
    Except StartError Node :=
  match saved with
  | none => .ok node
  | some saved =>
      match node.metadata.restoreSnapshot saved.metadata with
      | .error failure => .error (.metadata failure)
      | .ok metadata =>
          match node.engine.restoreSnapshotEntries saved.entries now with
          | (.error failure, _) => .error (.entries failure)
          | (.ok _, engine) =>
              .ok { node with metadata := metadata, engine := engine }

/-- The start of a node up to the point where it serves clients. -/
def start (config : ClusterConfig) (engineConfig : EngineConfig) (id : String)
    (saved : Option SavedSnapshot) (now : Int)
    (answers : List (Option MetadataSnapshot)) : Except StartError Node :=
  let blank : Node :=
    { metadata := newMetadata config id, engine := Engine.new engineConfig
      admitted := true }
  match blank.restoreLatest saved now with
  | .error failure => .error failure
  | .ok node =>
      .ok { node with metadata := node.metadata.syncMetadata answers }

end Node

/-- A leader with its last snapshot, while its replica keeps running; a leader
that fails to start does not serve. -/
structure RestartablePair where
  pair : Pair
  serving : Bool
  saved : Option SavedSnapshot

/-- What happens to a leader that restarts from snapshots. -/
inductive LeaderEvent
  | client (call : ClientCall)
  | capture (now : Int)
  | restart (now : Int) (answers : List (Option MetadataSnapshot))

namespace RestartablePair

/-- One event at the leader. -/
def step [FloatText] (config : ClusterConfig) (engineConfig : EngineConfig)
    (state : RestartablePair) : LeaderEvent → RestartablePair
  | .client call =>
      if state.serving then { state with pair := state.pair.step call }
      else state
  | .capture now =>
      if state.serving then
        match state.pair.leader.capture now with
        | .error _ => state
        | .ok saved => { state with saved := some saved }
      else state
  | .restart now answers =>
      match Node.start config engineConfig state.pair.leader.id state.saved now
        answers with
      | .error _ => { state with serving := false }
      | .ok leader =>
          { state with
            pair := { state.pair with leader := leader }, serving := true }

end RestartablePair

namespace Metadata

/-- Without a newer answer a node keeps its table. -/
theorem syncMetadata_of_not_newer {metadata : Metadata}
    {answers : List (Option MetadataSnapshot)}
    (old : ∀ incoming, some incoming ∈ answers →
      incoming.version ≤ metadata.version) :
    metadata.syncMetadata answers = metadata := by
  induction answers with
  | nil => rfl
  | cons answer rest induction =>
      have kept : metadata.adopt answer = metadata := by
        cases answer with
        | none => rfl
        | some incoming =>
            exact if_neg (Nat.not_lt.mpr (old incoming List.mem_cons_self))
      rw [syncMetadata, List.foldl_cons, kept]
      exact induction fun incoming member =>
        old incoming (List.mem_cons_of_mem _ member)

end Metadata

end MnemoKV
