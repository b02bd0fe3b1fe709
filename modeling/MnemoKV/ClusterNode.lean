import MnemoKV.ClusterMetadata
import MnemoKV.SlotDatasets

/-!
# A cluster node

A node is its slot table together with its engine.  `route` is the part of
`Coordinator.Execute` that decides where a client command runs, and
`applyReplication` is what a replica does with a record.
-/

namespace MnemoKV

def Metadata.slotForKey (metadata : Metadata) (key : Bytes) : Nat :=
  if metadata.slotCount = 0 then 0 else fnv32a key % metadata.slotCount

/-- A cluster node; it serves clients only once it is admitted. -/
structure Node where
  metadata : Metadata
  engine : Engine
  admitted : Bool

namespace Node

def id (node : Node) : String := node.metadata.localID

def dataset (node : Node) : Dataset := node.engine.store.dataset

/-- Where the coordinator sends a client command. -/
inductive Route
  | internal
  | reply (frame : Frame)
  | forward (nodeID : String)
  | here

/-- `Coordinator.Execute` up to the call of the engine or the proxy. -/
def route (node : Node) (cmd : Command) : Route :=
  match cmd.verb with
  | some .replicate | some .clusterMeta | some .clusterApply
  | some .clusterSnapshot => .internal
  | some .flushdb | some .flushall =>
      .reply (.newError "ERR"
        "global flush commands are not supported in cluster mode")
  | _ =>
      if !node.admitted then
        .reply (.newError "CLUSTERDOWN" "node is recovering and not admitted")
      else
        match cmd.extractKeys with
        | [] => .here
        | key :: rest =>
            let slot := node.metadata.slotForKey key
            if rest.any fun other => node.metadata.slotForKey other ≠ slot then
              .reply (.newError "CROSSSLOT"
                "Keys in request don't hash to the same slot")
            else
              match node.metadata.slot slot with
              | none => .reply (.newError "CLUSTERDOWN" "slot has no leader")
              | some state =>
                  if state.leaderID = "" then
                    .reply (.newError "CLUSTERDOWN" "slot has no leader")
                  else if state.leaderID ≠ node.id then .forward state.leaderID
                  else .here

/-- `Manager.ApplyReplication`: duplicates are acknowledged without effect, and
a record whose command fails is refused after it was executed. -/
def applyReplication [FloatText] (now : Readings) (record : ReplicationRecord)
    (node : Node) : Except ClusterError Unit × Node :=
  match node.metadata.validateReplication record with
  | .error failure => (.error failure, node)
  | .ok true => (.ok (), node)
  | .ok false =>
      match record.args with
      | [] => (.error .emptyRecord, node)
      | name :: args =>
          let (frame, engine) := node.engine.applyReplicated now
            { name := name, args := args }
          let executed := { node with engine := engine }
          if frame.isError then (.error .replicatedCommandFailed, executed)
          else
            match node.metadata.commitReplicaSequence record.slot record.term
              record.sequence with
            | .error failure => (.error failure, executed)
            | .ok metadata => (.ok (), { executed with metadata := metadata })

theorem route_here {node : Node} {cmd : Command} (routed : node.route cmd = .here) :
    cmd.isFlush = false ∧
      (cmd.extractKeys = [] ∨
        ∃ state, node.metadata.slot
            (node.metadata.slotForKey cmd.extractPrimaryKey) = some state ∧
          state.leaderID = node.id ∧
          cmd.KeysIn fun key => node.metadata.slotForKey key =
            node.metadata.slotForKey cmd.extractPrimaryKey) := by
  unfold route at routed
  split at routed
  · cases routed
  · cases routed
  · cases routed
  · cases routed
  · cases routed
  · cases routed
  · rename_i _ _ _ _ _ notFlushdb notFlushall
    refine ⟨by simpa [Command.isFlush] using ⟨notFlushdb, notFlushall⟩, ?_⟩
    split_ifs at routed
    split at routed
    · rename_i noKeys
      exact .inl noKeys
    · rename_i key rest keys
      dsimp only at routed
      split_ifs at routed with crossed
      split at routed
      · cases routed
      · rename_i state present
        split_ifs at routed with leaderless foreign
        have primary : cmd.extractPrimaryKey = key := by
          simp [Command.extractPrimaryKey, keys]
        refine .inr ⟨state, by rw [primary]; exact present, by simpa using foreign,
          ?_⟩
        intro other member
        rw [keys] at member
        rw [primary]
        rcases List.mem_cons.mp member with same | later
        · rw [same]
        · by_contra different
          exact crossed (List.any_eq_true.mpr
            ⟨other, later, by simpa using different⟩)

/-- The coordinator's own replies are errors. -/
theorem route_reply {node : Node} {cmd : Command} {frame : Frame}
    (routed : node.route cmd = .reply frame) : frame.isError = true := by
  unfold route at routed
  split at routed
  · cases routed
  · cases routed
  · cases routed
  · cases routed
  · cases routed
    rfl
  · cases routed
    rfl
  · split_ifs at routed
    · cases routed
      rfl
    · split at routed
      · cases routed
      · dsimp only at routed
        split_ifs at routed
        · cases routed
          rfl
        · split at routed
          · cases routed
            rfl
          · split_ifs at routed
            cases routed
            rfl

end Node
end MnemoKV
