import MnemoKV.ManagedClusters

/-!
# The slot tables of a managed cluster

Whatever happens to the nodes, the tables of those that run afterwards were there
before, except that a topology call changes one row of one table and hands the
result on, and that a node which starts may bring the table of its configuration.
-/

namespace MnemoKV

open AddressedUpdates

abbrev SlotTable := List SlotView

/-! ### The table of one node -/

namespace Metadata

variable {metadata result : Metadata}

theorem views_setSlot_same {number : Nat} {row changed : SlotState}
    (present : metadata.slot number = some row)
    (same : changed.status.view = row.status.view) :
    (metadata.setSlot number changed).views = metadata.views := by
  have found : metadata.slots[number]? = some row := present
  apply List.ext_getElem?
  intro index
  simp only [views, setSlot, List.getElem?_map, List.getElem?_set]
  split_ifs with here inRange
  · subst here
    simp [found, same]
  · subst here
    rw [List.getElem?_eq_none (by omega)]
  · rfl

theorem views_resequence (sequences : Nat → Nat × Nat) (metadata : Metadata) :
    (metadata.resequence sequences).views = metadata.views := by
  apply List.ext_getElem?
  intro index
  simp only [views, resequence, List.getElem?_map, List.getElem?_mapIdx, Option.map_map]
  rfl

theorem views_apply {incoming : MetadataSnapshot} {allowEqual : Bool}
    (applied : metadata.apply incoming allowEqual = .ok result) :
    result.views = incoming.slots.map fun row => row.status.view := by
  obtain ⟨-, -, -, rfl⟩ := apply_ok applied
  apply List.ext_getElem?
  intro index
  simp only [views, List.getElem?_map, List.getElem?_mapIdx, Option.map_map]
  congr 1
  funext row
  unfold mergeSlot
  dsimp only [Function.comp]
  split
  · rfl
  · split_ifs <;> rfl

theorem views_applyRemote {incoming : MetadataSnapshot}
    (applied : metadata.applyRemote incoming = .ok result) :
    result.views = incoming.slots.map fun row => row.status.view :=
  views_apply applied

/-- A node that asks its peers ends with its own table or with one of theirs. -/
theorem views_syncMetadata (answers : List (Option MetadataSnapshot))
    (metadata : Metadata) :
    (metadata.syncMetadata answers).views = metadata.views ∨
      ∃ incoming, some incoming ∈ answers ∧
        (metadata.syncMetadata answers).views =
          incoming.slots.map fun row => row.status.view := by
  induction answers generalizing metadata with
  | nil => exact .inl rfl
  | cons answer rest induction =>
      have adopted : (metadata.adopt answer).views = metadata.views ∨
          ∃ incoming, answer = some incoming ∧ (metadata.adopt answer).views =
            incoming.slots.map fun row => row.status.view := by
        cases answer with
        | none => exact .inl rfl
        | some incoming =>
            unfold adopt
            dsimp only
            split_ifs
            · split
              · exact .inl rfl
              · rename_i applied
                exact .inr ⟨incoming, rfl, views_applyRemote applied⟩
            · exact .inl rfl
      rcases induction (metadata.adopt answer) with same | ⟨incoming, listed, taken⟩
      · rcases adopted with kept | ⟨incoming, rfl, taken⟩
        · exact .inl (same.trans kept)
        · exact .inr ⟨incoming, List.mem_cons_self, same.trans taken⟩
      · exact .inr ⟨incoming, List.mem_cons_of_mem _ listed, taken⟩

end Metadata

/-- An installation changes at most the counters of a row. -/
theorem Node.metadata_applyShardSnapshot (transfer : ShardSnapshot)
    (captureTime restoreTime : Int) (node : Node) :
    let installed := (node.applyShardSnapshot transfer captureTime restoreTime).2
    (installed.metadata = node.metadata ∨ ∃ number row changed,
      node.metadata.slot number = some row ∧
        changed.status.view = row.status.view ∧
        installed.metadata = node.metadata.setSlot number changed) ∧
      installed.admitted = node.admitted := by
  dsimp only
  unfold applyShardSnapshot
  split
  · exact ⟨.inl rfl, rfl⟩
  · split
    · exact ⟨.inl rfl, rfl⟩
    · rename_i combined _
      have restored : (node.restoreCombined combined restoreTime).2.metadata =
          node.metadata ∧
          (node.restoreCombined combined restoreTime).2.admitted = node.admitted := by
        unfold restoreCombined
        split <;> exact ⟨rfl, rfl⟩
      split
      · rename_i _ after failed
        rw [failed] at restored
        exact ⟨.inl restored.1, restored.2⟩
      · rename_i _ after succeeded
        rw [succeeded] at restored
        obtain ⟨table, admitted⟩ := restored
        dsimp only at table admitted
        unfold recordApplied
        split
        · exact ⟨.inl table, admitted⟩
        · rename_i metadata applied
          obtain ⟨row, present, rfl⟩ := setReplicaApplied_ok applied
          rw [table] at present ⊢
          refine ⟨.inr ⟨_, row, _, present, ?_, rfl⟩, admitted⟩
          rfl

theorem Node.views_applyShardSnapshot (transfer : ShardSnapshot)
    (captureTime restoreTime : Int) (node : Node) :
    let installed := (node.applyShardSnapshot transfer captureTime restoreTime).2
    installed.metadata.views = node.metadata.views ∧
      installed.admitted = node.admitted := by
  obtain ⟨metadata, admitted⟩ :=
    node.metadata_applyShardSnapshot transfer captureTime restoreTime
  refine ⟨?_, admitted⟩
  rcases metadata with same | ⟨number, row, changed, present, unchanged, rewritten⟩
  · rw [same]
  · rw [rewritten]
    exact Metadata.views_setSlot_same present unchanged

/-! ### What a call does to a table -/

/-- Rows stand at their numbers, and only a slot with a replica is ready. -/
structure SlotTable.Tidy (table : SlotTable) : Prop where
  numbered : ∀ (number : Nat) (slot : SlotView), table[number]? = some slot →
    slot.number = number
  assigned : ∀ slot ∈ table, slot.replicaReady = true → slot.replicaID ≠ ""

theorem Metadata.numbered_of_tidy {metadata : Metadata}
    (tidy : SlotTable.Tidy metadata.views) : metadata.Numbered := by
  intro number row present
  have found : metadata.slots[number]? = some row := present
  exact tidy.numbered number row.status.view (by simp [views, found])

/-- The table changes by a step on a slot that has a replica, if the step needs
one. -/
structure SlotTable.Altered (step : PlanStep) (old new : SlotTable) : Prop where
  moves : step.kind ≠ .markUnavailable
  replica : step.kind = .sync → ∀ slot ∈ old, slot.number = step.slot →
    slot.replicaID ≠ ""
  acted : new = update SlotView.number PlanStep.slot PlanStep.act old step

namespace SlotTable

variable {step : PlanStep} {old new : SlotTable}

/-- The rows of the new table are those of the old one, changed or not. -/
theorem Altered.row (altered : Altered step old new) {slot : SlotView}
    (member : slot ∈ new) :
    ∃ before ∈ old, slot = before ∨
      before.number = step.slot ∧ slot = step.act before := by
  rw [altered.acted] at member
  obtain ⟨before, listed, rfl⟩ := List.mem_map.mp member
  refine ⟨before, listed, ?_⟩
  split_ifs with own
  · exact .inr ⟨own, rfl⟩
  · exact .inl rfl

theorem Altered.elsewhere (altered : Altered step old new) (tidy : old.Tidy)
    {number : Nat} (other : step.slot ≠ number) : new[number]? = old[number]? := by
  rw [altered.acted, update, List.getElem?_map]
  cases found : old[number]? with
  | none => rfl
  | some slot =>
      have own := tidy.numbered number slot found
      have apart : ¬ slot.number = step.slot := fun same => other (same.symm.trans own)
      simp [apart]

theorem Altered.tidy (altered : Altered step old new) (tidy : old.Tidy) :
    new.Tidy := by
  refine ⟨?_, ?_⟩
  · intro number slot found
    rw [altered.acted, update, List.getElem?_map] at found
    obtain ⟨before, present, rfl⟩ := Option.map_eq_some_iff.mp found
    have own := tidy.numbered number before present
    split_ifs
    · rw [PlanStep.number_act]
      exact own
    · exact own
  · intro slot member ready
    obtain ⟨before, listed, rfl | ⟨own, rfl⟩⟩ := altered.row member
    · exact tidy.assigned slot listed ready
    · have replica := altered.replica
      have moves := altered.moves
      obtain ⟨kind, number, target⟩ := step
      cases kind with
      | promote => cases ready
      | assignReplica => cases ready
      | sync => exact replica rfl before listed own
      | markUnavailable => exact absurd rfl moves
      | other => exact tidy.assigned before listed ready

/-- A node is the leader or the replica of no slot. -/
def Unnamed (nodeID : String) (table : SlotTable) : Prop :=
  ∀ slot ∈ table, slot.leaderID ≠ nodeID ∧ slot.replicaID ≠ nodeID

instance (nodeID : String) (table : SlotTable) : Decidable (table.Unnamed nodeID) :=
  inferInstanceAs (Decidable (∀ slot ∈ table, _))

/-- Only an assignment names a node that was not there. -/
theorem Altered.unnamed (altered : Altered step old new) {nodeID : String}
    (named : nodeID ≠ "")
    (other : step.kind = .assignReplica → step.target ≠ nodeID)
    (unnamed : old.Unnamed nodeID) : new.Unnamed nodeID := by
  intro slot member
  obtain ⟨before, listed, rfl | ⟨-, rfl⟩⟩ := altered.row member
  · exact unnamed slot listed
  · obtain ⟨leader, replica⟩ := unnamed before listed
    obtain ⟨kind, number, target⟩ := step
    cases kind with
    | promote => exact ⟨replica, named.symm⟩
    | assignReplica => exact ⟨leader, other rfl⟩
    | sync => exact ⟨leader, replica⟩
    | markUnavailable => exact ⟨leader, replica⟩
    | other => exact ⟨leader, replica⟩

end SlotTable

/-! ### The tables of the nodes that run -/

namespace ManagedCluster

variable {state : ManagedCluster}

def tables (state : ManagedCluster) : List SlotTable :=
  state.peers.filterMap fun peer =>
    (state.nodes peer).map fun node => node.metadata.views

/-- Whether a node runs and may serve data. -/
def admission (state : ManagedCluster) (nodeID : String) : Option Bool :=
  (state.nodes nodeID).map Node.admitted

theorem mem_tables {table : SlotTable} :
    table ∈ state.tables ↔ ∃ peer ∈ state.peers, ∃ node,
      state.nodes peer = some node ∧ node.metadata.views = table := by
  simp [tables]

theorem admission_eq_none {nodeID : String} :
    state.admission nodeID = none ↔ state.nodes nodeID = none := by
  simp [admission]

/-- The tables are old ones or satisfy the condition. -/
def TablesFrom (before after : ManagedCluster) (New : SlotTable → Prop) : Prop :=
  after.peers = before.peers ∧
    ∀ table ∈ after.tables, table ∈ before.tables ∨ New table

theorem tablesFrom_of_nodes {before after : ManagedCluster} {New : SlotTable → Prop}
    (peers : after.peers = before.peers)
    (nodes : ∀ nodeID node, nodeID ∈ before.peers → after.nodes nodeID = some node →
      node.metadata.views ∈ before.tables ∨ New node.metadata.views) :
    TablesFrom before after New := by
  refine ⟨peers, fun table member => ?_⟩
  obtain ⟨peer, listed, node, present, rfl⟩ := mem_tables.mp member
  exact nodes peer node (peers ▸ listed) present

theorem table_of_node {nodeID : String} {node : Node} (listed : nodeID ∈ state.peers)
    (present : state.nodes nodeID = some node) : node.metadata.views ∈ state.tables :=
  mem_tables.mpr ⟨nodeID, listed, node, present, rfl⟩

theorem nodes_setNode {nodeID other : String} {changed : Option Node} :
    (state.setNode nodeID changed).nodes other =
      if other = nodeID then changed else state.nodes other :=
  Function.update_apply ..

theorem tablesFrom_setNode {nodeID : String} {changed : Option Node}
    {New : SlotTable → Prop}
    (own : ∀ node, changed = some node → nodeID ∈ state.peers →
      node.metadata.views ∈ state.tables ∨ New node.metadata.views) :
    TablesFrom state (state.setNode nodeID changed) New := by
  refine tablesFrom_of_nodes rfl fun other node listed present => ?_
  rw [nodes_setNode] at present
  split_ifs at present with same
  · exact own node present (same ▸ listed)
  · exact .inl (table_of_node listed present)

theorem admission_setNode {nodeID other : String} {changed : Option Node} :
    (state.setNode nodeID changed).admission other =
      if other = nodeID then changed.map Node.admitted else state.admission other := by
  rw [admission, nodes_setNode]
  split_ifs <;> rfl

theorem mem_peerTables {reached : List String} {nodeID : String}
    {incoming : MetadataSnapshot}
    (answered : some incoming ∈ state.peerTables reached nodeID) :
    (incoming.slots.map fun row => row.status.view) ∈ state.tables := by
  obtain ⟨peer, listed, given⟩ := List.mem_map.mp answered
  obtain ⟨node, found, rfl⟩ := Option.map_eq_some_iff.mp given
  unfold reach at found
  split_ifs at found
  exact table_of_node (List.mem_filter.mp listed).1 found

/-- A node that asks its peers keeps its table or takes one that was there. -/
theorem views_syncMetadata_peerTables (metadata : Metadata) (reached : List String)
    (nodeID : String) :
    (metadata.syncMetadata (state.peerTables reached nodeID)).views = metadata.views ∨
      (metadata.syncMetadata (state.peerTables reached nodeID)).views ∈
        state.tables := by
  rcases metadata.views_syncMetadata (state.peerTables reached nodeID) with
    same | ⟨incoming, answered, taken⟩
  · exact .inl same
  · exact .inr (taken ▸ mem_peerTables answered)

/-! ### Topology calls -/

theorem receive_views (table : MetadataSnapshot) (node : Node) :
    ((node.receive table).metadata.views = node.metadata.views ∨
      (node.receive table).metadata.views =
        table.slots.map fun row => row.status.view) ∧
      (node.receive table).admitted = node.admitted := by
  unfold Node.receive
  split
  · exact ⟨.inl rfl, rfl⟩
  · rename_i applied
    exact ⟨.inr (Metadata.views_applyRemote applied), rfl⟩

theorem admission_broadcast (reached : List String) (sender : String)
    (table : MetadataSnapshot) :
    (state.broadcast reached sender table).admission = state.admission := by
  funext nodeID
  unfold admission broadcast
  dsimp only
  split_ifs
  · rw [Option.map_map]
    congr 1
    funext node
    exact (receive_views table node).2
  · rfl

theorem install_effect (reached : List String) {nodeID : String} {node : Node}
    {result : Except ClusterError Metadata} {New : SlotTable → Prop}
    (admitted : state.admission nodeID = some node.admitted)
    (changes : ∀ metadata, result = .ok metadata → New metadata.views) :
    TablesFrom state (state.install reached nodeID node result) New ∧
      (state.install reached nodeID node result).admission = state.admission := by
  cases result with
  | error _ => exact ⟨⟨rfl, fun _ member => .inl member⟩, rfl⟩
  | ok metadata =>
      have own := changes metadata rfl
      refine ⟨tablesFrom_of_nodes rfl fun other after listed present => ?_, ?_⟩
      · have kept : ∀ before,
            (state.setNode nodeID (some { node with metadata })).nodes other =
              some before →
            before.metadata.views ∈ state.tables ∨ New before.metadata.views := by
          intro before found
          rw [nodes_setNode] at found
          split_ifs at found
          · obtain rfl := Option.some.inj found
            exact .inr own
          · exact .inl (table_of_node listed found)
        simp only [install, broadcast] at present
        split_ifs at present
        · obtain ⟨before, found, rfl⟩ := Option.map_eq_some_iff.mp present
          rcases (receive_views metadata.snapshot before).1 with same | taken
          · rw [same]
            exact kept before found
          · exact .inr (taken ▸ own)
        · exact kept after present
      · rw [install, admission_broadcast]
        funext other
        rw [admission_setNode]
        split_ifs with same
        · subst same
          exact admitted.symm
        · rfl

variable {reached : List String} {nodeID : String} {node : Node} {slot : Nat}

/-- The tables that a call may leave behind: the changed one of the called node. -/
def ChangedBy (state : ManagedCluster) (call : AdminCall) (table : SlotTable) : Prop :=
  ∃ old ∈ state.tables, SlotTable.Altered call.planStep old table

theorem altered_markReplicaReady {metadata after : Metadata}
    (tidy : SlotTable.Tidy metadata.views) {term sequence : Nat}
    (marked : metadata.markReplicaReady slot term sequence = .ok after)
    (target : String) :
    SlotTable.Altered ⟨.sync, slot, target⟩ metadata.views after.views := by
  refine ⟨nofun, fun _ row member own => ?_,
    metadata.views_markReplicaReady (Metadata.numbered_of_tidy tidy) marked target⟩
  obtain ⟨found, present, -, -, assigned, -⟩ := Metadata.markReplicaReady_ok marked
  obtain ⟨index, here⟩ := List.mem_iff_getElem?.mp member
  have place : index = slot := (tidy.numbered index row here).symm.trans own
  subst place
  have stored : metadata.slots[index]? = some found := present
  have same : found.status.view = row := by
    simpa [Metadata.views, stored] using here
  exact same ▸ assigned

theorem syncReplica_effect {target : String} (listed : nodeID ∈ state.peers)
    (present : state.nodes nodeID = some node)
    (tidy : SlotTable.Tidy node.metadata.views) :
    TablesFrom state (state.syncReplica reached nodeID node slot target)
        (state.ChangedBy (.syncReplica nodeID slot target)) ∧
      (state.syncReplica reached nodeID node slot target).admission =
        state.admission := by
  have unchanged : TablesFrom state state
      (state.ChangedBy (.syncReplica nodeID slot target)) ∧
      state.admission = state.admission :=
    ⟨⟨rfl, fun _ member => .inl member⟩, rfl⟩
  unfold syncReplica
  split
  · exact unchanged
  · rename_i row _
    split
    · rename_i entries replica _ found
      dsimp only
      split_ifs
      · exact unchanged
      · have running : state.nodes row.replicaID = some replica := by
          unfold reach at found
          split_ifs at found
          exact found
        set transfer : ShardSnapshot := _
        obtain ⟨views, admitted⟩ := replica.views_applyShardSnapshot transfer.overJSON
          state.clock state.clock
        set installed := (replica.applyShardSnapshot transfer.overJSON state.clock
          state.clock).2
        have tables : TablesFrom state (state.setNode row.replicaID (some installed))
            fun _ => False := by
          refine tablesFrom_setNode fun after same known => .inl ?_
          obtain rfl := Option.some.inj same
          rw [views]
          exact table_of_node known running
        have kept : (state.setNode row.replicaID (some installed)).admission =
            state.admission := by
          funext other
          rw [admission_setNode]
          split_ifs with same
          · rw [same, admission, running]
            exact congrArg some admitted
          · rfl
        split
        · exact ⟨⟨rfl, fun table member =>
            .inl ((tables.2 table member).resolve_right id)⟩, kept⟩
        · have own : (state.setNode row.replicaID (some installed)).admission nodeID =
              some node.admitted := by
            rw [kept, admission, present]
            rfl
          have changes : ∀ metadata,
              node.metadata.markReplicaReady slot row.term row.lastSequence =
                .ok metadata →
              state.ChangedBy (.syncReplica nodeID slot target) metadata.views :=
            fun metadata marked => ⟨_, table_of_node listed present,
              altered_markReplicaReady tidy marked target⟩
          obtain ⟨later, keptLater⟩ := install_effect reached own changes
          refine ⟨⟨later.1, fun table member => ?_⟩, keptLater.trans kept⟩
          rcases later.2 table member with old | new
          · exact .inl ((tables.2 table old).resolve_right id)
          · exact .inr new
    · exact unchanged

theorem call_effect {call : AdminCall}
    (tidy : ∀ table ∈ state.tables, SlotTable.Tidy table)
    (listed : call.node ∈ state.peers) :
    TablesFrom state (state.call reached call) (state.ChangedBy call) ∧
      (state.call reached call).admission = state.admission := by
  have unchanged : TablesFrom state state (state.ChangedBy call) ∧
      state.admission = state.admission :=
    ⟨⟨rfl, fun _ member => .inl member⟩, rfl⟩
  cases call with
  | promote nodeID slot =>
      simp only [ManagedCluster.call]
      split
      · exact unchanged
      · rename_i node present
        have own := table_of_node listed present
        refine install_effect _ (by rw [admission, present]; rfl) fun metadata promoted => ?_
        exact ⟨_, own, nofun, nofun, node.metadata.views_promote
          (Metadata.numbered_of_tidy (tidy _ own)) promoted nodeID⟩
  | assignReplica nodeID slot target =>
      simp only [ManagedCluster.call]
      split
      · exact unchanged
      · rename_i node present
        have own := table_of_node listed present
        refine install_effect _ (by rw [admission, present]; rfl) fun metadata assigned => ?_
        exact ⟨_, own, nofun, nofun, node.metadata.views_assignReplica
          (Metadata.numbered_of_tidy (tidy _ own)) assigned⟩
  | syncReplica nodeID slot target =>
      simp only [ManagedCluster.call]
      split
      · exact unchanged
      · rename_i node present
        exact syncReplica_effect listed present (tidy _ (table_of_node listed present))

end ManagedCluster

/-! ### The calls of the executor -/

/-- A call carries out the step that it is made for. -/
theorem executeTopologyStep_call {clients : List String} {plan : RecoveryPlan}
    {step : PlanStep} {before : List Round} {current : Round}
    {perform : AdminCall → Bool × List Round} {call : AdminCall}
    (called : (executeTopologyStep clients plan step before current perform).1 =
      some call) :
    call.planStep = step ∧ call.node ∈ clients := by
  unfold executeTopologyStep at called
  split at called
  · cases called
  · split_ifs at called
    split at called
    · cases called
    · split at called
      · cases called
      · rename_i needed
        obtain rfl := Option.some.inj called
        exact stepCall_spec needed

end MnemoKV
