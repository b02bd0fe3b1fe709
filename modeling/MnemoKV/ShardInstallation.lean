import MnemoKV.ReplicaPairEvictions
import MnemoKV.SnapshotRestores

/-!
# Installing the snapshot of a shard

`ApplyShardSnapshot` captures what the node stores, puts the transferred entries
in place of those of their slot and restores the result.  The two locked steps
are separate: client commands may run between them, and what they wrote into
other slots is replaced by what the capture had found.
-/

namespace MnemoKV

/-- The entries of one slot, under way to its new replica. -/
structure ShardSnapshot where
  sourceNodeID : String
  slot : Nat
  term : Nat
  sequence : Nat
  entries : List SnapshotEntry
  deriving DecidableEq

/-- Why a shard snapshot is not installed. -/
inductive InstallError
  | cluster (failure : ClusterError)
  | snapshot (failure : SnapshotError)
  deriving DecidableEq

namespace Node

/-- The checks before `applyMu` is taken. -/
def validateTransfer (transfer : ShardSnapshot) (node : Node) :
    Except InstallError Unit :=
  match node.metadata.slot transfer.slot with
  | none => .error (.cluster .slotOutOfRange)
  | some state =>
      if state.replicaID ≠ node.id ∨ transfer.sourceNodeID ≠ state.leaderID ∨
          transfer.term ≠ state.term then .error (.cluster .staleTerm)
      else if transfer.entries.any fun item =>
          node.metadata.slotForKey item.key ≠ transfer.slot then
        .error (.cluster .clusterMismatch)
      else .ok ()

/-- The first locked step: captured entries of other slots, then the transferred
ones. -/
def combineEntries (transfer : ShardSnapshot) (now : Int) (node : Node) :
    Except InstallError (List SnapshotEntry) :=
  match node.engine.snapshotEntries now with
  | .error failure => .error (.snapshot failure)
  | .ok current => .ok ((current.filter fun item =>
      node.metadata.slotForKey item.key ≠ transfer.slot) ++ transfer.entries)

/-- The second locked step. -/
def restoreCombined (combined : List SnapshotEntry) (now : Int) (node : Node) :
    Except InstallError Unit × Node :=
  match node.engine.restoreSnapshotEntries combined now with
  | (.error failure, engine) =>
      (.error (.snapshot failure), { node with engine := engine })
  | (.ok _, engine) => (.ok (), { node with engine := engine })

/-- The record of the applied sequence. -/
def recordApplied (transfer : ShardSnapshot) (node : Node) :
    Except InstallError Unit × Node :=
  match node.metadata.setReplicaApplied transfer.slot transfer.term
    transfer.sequence with
  | .error failure => (.error (.cluster failure), node)
  | .ok metadata => (.ok (), { node with metadata := metadata })

/-- `ApplyShardSnapshot` with nothing in between. -/
def applyShardSnapshot (transfer : ShardSnapshot) (captureTime restoreTime : Int)
    (node : Node) : Except InstallError Unit × Node :=
  match node.validateTransfer transfer with
  | .error failure => (.error failure, node)
  | .ok () =>
      match node.combineEntries transfer captureTime with
      | .error failure => (.error failure, node)
      | .ok combined =>
          match node.restoreCombined combined restoreTime with
          | (.error failure, restored) => (.error failure, restored)
          | (.ok (), restored) => restored.recordApplied transfer

theorem validateTransfer_ok {transfer : ShardSnapshot} {node : Node}
    (valid : node.validateTransfer transfer = .ok ()) :
    (∃ owner, node.metadata.owner transfer.slot = some owner ∧
      owner.leaderID = transfer.sourceNodeID ∧
      owner.replicaID = node.metadata.localID ∧ owner.term = transfer.term) ∧
    ∀ item ∈ transfer.entries,
      node.metadata.slotForKey item.key = transfer.slot := by
  unfold validateTransfer at valid
  split at valid
  · cases valid
  · rename_i state present
    split_ifs at valid with stale foreign
    simp only [not_or, not_not] at stale
    refine ⟨⟨state.ownership, ?_, stale.2.1.symm, stale.1, stale.2.2.symm⟩, ?_⟩
    · simp [Metadata.owner, present]
    · simpa using foreign

theorem recordApplied_of_owner {transfer : ShardSnapshot} {node : Node}
    {owner : Ownership}
    (present : node.metadata.owner transfer.slot = some owner)
    (replica : owner.replicaID = node.metadata.localID)
    (current : owner.term = transfer.term) :
    ∃ metadata, node.recordApplied transfer =
      (.ok (), { node with metadata := metadata }) := by
  obtain ⟨row, rowPresent, rfl⟩ := Option.map_eq_some_iff.mp present
  have replicaID : row.replicaID = node.metadata.localID := replica
  have rowTerm : row.term = transfer.term := current
  simp [recordApplied, Metadata.setReplicaApplied, rowPresent, replicaID, rowTerm]

theorem restoreCombined_error {combined : List SnapshotEntry} {now : Int}
    {node : Node} {failure : InstallError}
    (failed : (node.restoreCombined combined now).1 = .error failure) :
    (node.restoreCombined combined now).2 = node := by
  have untouched := @Engine.restoreSnapshotEntries_error combined now node.engine
  unfold restoreCombined at failed ⊢
  generalize node.engine.restoreSnapshotEntries combined now = outcome at *
  rcases outcome with ⟨failure' | count, engine⟩
  · obtain rfl : engine = node.engine := untouched rfl
    rfl
  · cases failed

theorem restoreCombined_ok {combined : List SnapshotEntry} {now : Int}
    {node : Node} (restores : (node.restoreCombined combined now).1 = .ok ()) :
    ∃ store, (node.restoreCombined combined now).2 =
        { node with engine := node.engine.withStore store } ∧
      store.Holds now combined := by
  have restored := @Engine.restoreSnapshotEntries_ok combined now node.engine
  unfold restoreCombined at restores ⊢
  generalize node.engine.restoreSnapshotEntries combined now = outcome at *
  rcases outcome with ⟨failure | count, engine⟩
  · cases restores
  · obtain ⟨store, rfl, holds⟩ := restored rfl
    exact ⟨store, rfl, holds⟩

theorem combineEntries_subset {transfer : ShardSnapshot} {node : Node} {now : Int}
    {combined : List SnapshotEntry}
    (combines : node.combineEntries transfer now = .ok combined) :
    transfer.entries ⊆ combined := by
  unfold combineEntries at combines
  split at combines
  · cases combines
  · obtain rfl := Except.ok.inj combines
    exact List.subset_append_right _ _

theorem combineEntries_other {transfer : ShardSnapshot} {node : Node} {now : Int}
    {combined : List SnapshotEntry}
    (combines : node.combineEntries transfer now = .ok combined)
    {item : SnapshotEntry} (member : item ∈ combined)
    (foreign : item ∉ transfer.entries) :
    node.metadata.slotForKey item.key ≠ transfer.slot := by
  unfold combineEntries at combines
  split at combines
  · cases combines
  · obtain rfl := Except.ok.inj combines
    rcases List.mem_append.mp member with kept | transferred
    · simpa using (List.mem_filter.mp kept).2
    · exact absurd transferred foreign

theorem combined_holds {transfer : ShardSnapshot} {node : Node}
    {captureTime restoreTime : Int} {combined : List SnapshotEntry}
    (combines : node.combineEntries transfer captureTime = .ok combined)
    (inSlot : ∀ item ∈ transfer.entries,
      node.metadata.slotForKey item.key = transfer.slot)
    {store : Store} (holds : store.Holds restoreTime combined) {key : Bytes}
    (other : node.metadata.slotForKey key ≠ transfer.slot) :
    store.dataset key =
      liveAt restoreTime (liveAt captureTime (node.dataset key)) := by
  unfold combineEntries at combines
  split at combines
  · cases combines
  · rename_i current captured
    obtain rfl := Except.ok.inj combines
    have stored : node.dataset key =
        (node.engine.store.find key).map Entry.item := rfl
    -- A key that the capture does not list is nowhere in the combined entries.
    have unlisted : (∀ item ∈ current, item.key ≠ key) →
        store.dataset key = none := by
      intro missing
      refine holds.absent key fun listed => ?_
      obtain ⟨item, member, rfl⟩ := List.mem_map.mp listed
      rcases List.mem_append.mp member with kept | transferred
      · exact missing item (List.mem_filter.mp kept).1 rfl
      · exact other (inSlot item transferred)
    cases found : node.engine.store.find key with
    | none =>
        rw [stored, found]
        refine unlisted fun item member same => ?_
        obtain ⟨entry, present, -, encoded⟩ :=
          (Store.mem_snapshotEntries captured).mp member
        rw [← (snapshot_fields encoded).1, same, found] at present
        cases present
    | some entry =>
        have ownKey := Store.key_of_find found
        rw [stored, found, Option.map_some, liveAt_some]
        by_cases expired : entry.item.isExpired captureTime = true
        · rw [if_pos expired]
          refine unlisted fun item member same => ?_
          obtain ⟨entry', present, live, encoded⟩ :=
            (Store.mem_snapshotEntries captured).mp member
          rw [← (snapshot_fields encoded).1, same, found] at present
          obtain rfl := Option.some.inj present
          have dead : entry.isExpired captureTime = true := expired
          rw [dead] at live
          cases live
        · rw [if_neg expired]
          have live : entry.isExpired captureTime = false :=
            eq_false_of_ne_true expired
          obtain ⟨item, member, encoded⟩ :=
            Store.snapshot_of_find captured found live
          have sameKey : item.key = key :=
            (snapshot_fields encoded).1.trans ownKey
          have listed : item ∈ (current.filter fun item =>
              node.metadata.slotForKey item.key ≠ transfer.slot) ++
                transfer.entries := by
            refine List.mem_append_left _ (List.mem_filter.mpr ⟨member, ?_⟩)
            simpa [sameKey] using other
          rw [← sameKey, holds.listed item listed]
          exact restored_snapshot encoded (holds.restorable.decodes item listed)

/-- The restored store, and where its entries come from. -/
structure Installed (transfer : ShardSnapshot) (captureTime restoreTime : Int)
    (node : Node) (store : Store) : Prop where
  replica : ∃ owner, node.metadata.owner transfer.slot = some owner ∧
    owner.leaderID = transfer.sourceNodeID ∧
    owner.replicaID = node.metadata.localID ∧ owner.term = transfer.term
  decodes : ∀ item ∈ transfer.entries, item.isExpired restoreTime = false →
    ∃ entry, decodeSnapshotEntry item restoreTime = .ok entry
  transferred : ∀ item ∈ transfer.entries,
    store.dataset item.key = item.restored restoreTime
  unlisted : ∀ key ∉ transfer.entries.map SnapshotEntry.key,
    node.metadata.slotForKey key = transfer.slot → store.dataset key = none
  others : ∀ key, node.metadata.slotForKey key ≠ transfer.slot →
    store.dataset key =
      liveAt restoreTime (liveAt captureTime (node.dataset key))

theorem installed {transfer : ShardSnapshot} {captureTime restoreTime : Int}
    {node : Node} {combined : List SnapshotEntry} {store : Store}
    (valid : node.validateTransfer transfer = .ok ())
    (combines : node.combineEntries transfer captureTime = .ok combined)
    (holds : store.Holds restoreTime combined) :
    Installed transfer captureTime restoreTime node store := by
  obtain ⟨replica, inSlot⟩ := validateTransfer_ok valid
  have included := combineEntries_subset combines
  refine ⟨replica, ?_, ?_, ?_, ?_⟩
  · intro item member
    exact holds.restorable.decodes item (included member)
  · intro item member
    exact holds.listed item (included member)
  · intro key unlisted routed
    refine holds.absent key fun listed => ?_
    obtain ⟨item, member, rfl⟩ := List.mem_map.mp listed
    have foreign : item ∉ transfer.entries := fun transferred =>
      unlisted (List.mem_map_of_mem transferred)
    exact combineEntries_other combines member foreign routed
  · intro key other
    exact combined_holds combines inSlot holds other

theorem setReplicaApplied_ok {metadata result : Metadata}
    {number term sequence : Nat}
    (recorded : metadata.setReplicaApplied number term sequence = .ok result) :
    ∃ row, metadata.slot number = some row ∧
      result = metadata.setSlot number
        { row with
          lastAppliedSequence := sequence, lastSequence := sequence } := by
  unfold Metadata.setReplicaApplied at recorded
  split at recorded
  · cases recorded
  · rename_i row present
    split_ifs at recorded
    obtain rfl := Except.ok.inj recorded
    exact ⟨row, present, rfl⟩

end Node
end MnemoKV
