import MnemoKV.AdmissionGuards
import MnemoKV.PlanEffects

/-!
# Nodes that share a table

As long as broadcasts reach every node that runs, the nodes agree on one table.  A
topology call either fails and changes nothing, or moves all of them on by one step,
and nothing else that happens to the cluster changes the table.
-/

namespace MnemoKV

open AddressedUpdates

namespace Metadata

/-- What no topology call changes. -/
def frame (metadata : Metadata) : String × Nat × List MetadataPeer :=
  (metadata.clusterID, metadata.slotCount, metadata.peers)

def topology (metadata : Metadata) : Topology := ⟨metadata.version, metadata.views⟩

/-- The table passes the check of every node that receives it. -/
def Valid (metadata : Metadata) : Prop :=
  validateMetadataSnapshot metadata.snapshot = true

/-- The same table, whatever the counters are. -/
structure SameTable (first second : Metadata) : Prop where
  frame : second.frame = first.frame
  topology : second.topology = first.topology

theorem SameTable.refl (metadata : Metadata) : metadata.SameTable metadata := ⟨rfl, rfl⟩

variable {metadata changed : Metadata} {number : Nat} {row new : SlotState}

theorem validSlots_iff (metadata : Metadata) :
    validSlots metadata.slots = true ↔ ∀ (number : Nat) (slot : SlotView),
      metadata.views[number]? = some slot →
        slot.number = number ∧ slot.leaderID ≠ "" ∧ slot.term ≠ 0 := by
  simp only [validSlots, List.all_eq_true, Bool.and_eq_true, beq_iff_eq, bne_iff_ne,
    Prod.forall, List.mem_zipIdx_iff_getElem?, views, List.getElem?_map,
    Option.map_eq_some_iff, and_assoc]
  constructor
  · rintro valid number _ ⟨row, found, rfl⟩
    exact valid row number found
  · intro valid row number found
    exact valid number _ ⟨row, found, rfl⟩

theorem valid_iff (metadata : Metadata) :
    metadata.Valid ↔ (metadata.clusterID ≠ "" ∧ metadata.slotCount ≠ 0 ∧
      2 ≤ metadata.peers.length ∧ metadata.peers.length ≤ 5 ∧
      validPeers metadata.peers = true) ∧
      metadata.views.length = metadata.slotCount ∧
      ∀ (number : Nat) (slot : SlotView), metadata.views[number]? = some slot →
        slot.number = number ∧ slot.leaderID ≠ "" ∧ slot.term ≠ 0 := by
  rw [← validSlots_iff]
  simp only [Valid, validateMetadataSnapshot, snapshot, Bool.and_eq_true, bne_iff_ne,
    beq_iff_eq, views, List.length_map]
  constructor
  · rintro ⟨⟨⟨⟨⟨⟨cluster, count⟩, two⟩, five⟩, length⟩, peers⟩, slots⟩
    exact ⟨⟨cluster, count, of_decide_eq_true two, of_decide_eq_true five, peers⟩,
      length, slots⟩
  · rintro ⟨⟨cluster, count, two, five, peers⟩, length, slots⟩
    exact ⟨⟨⟨⟨⟨⟨cluster, count⟩, decide_eq_true two⟩, decide_eq_true five⟩, length⟩,
      peers⟩, slots⟩

theorem Valid.numbered (valid : metadata.Valid) :
    SlotTable.Numbered metadata.views :=
  fun number slot found => ((valid_iff metadata).mp valid).2.2 number slot found |>.1

theorem Valid.slots (valid : metadata.Valid) : metadata.Numbered := by
  intro number row present
  have found : metadata.views[number]? = some row.status.view := by
    have stored : metadata.slots[number]? = some row := present
    simp [views, stored]
  exact valid.numbered number _ found

theorem id_ne_empty_of_validPeers {peers : List MetadataPeer}
    (valid : validPeers peers = true) {peer : MetadataPeer} (listed : peer ∈ peers) :
    peer.id ≠ "" := by
  induction peers using validPeers.induct with
  | case1 => cases listed
  | case2 only =>
      obtain rfl := List.mem_singleton.mp listed
      simp only [validPeers, Bool.and_eq_true, bne_iff_ne] at valid
      exact valid.1.1
  | case3 first second rest induction =>
      simp only [validPeers, Bool.and_eq_true, bne_iff_ne] at valid
      rcases List.mem_cons.mp listed with rfl | later
      · exact valid.1.1.1.1
      · exact induction valid.2 later

theorem Valid.named (valid : metadata.Valid) {peer : MetadataPeer}
    (listed : peer ∈ metadata.peers) : peer.id ≠ "" :=
  have ⟨⟨_, _, _, _, peers⟩, _⟩ := (valid_iff metadata).mp valid
  id_ne_empty_of_validPeers peers listed

/-- What a topology call makes of a table. -/
structure Steps (step : PlanStep) (before after : Metadata) : Prop where
  frame : after.frame = before.frame
  topology : after.topology = step.take before.topology
  newer : before.version < after.version
  valid : after.Valid

theorem Valid.setSlot (valid : metadata.Valid) (present : metadata.slot number = some row)
    (own : new.number = row.number) (leader : new.leaderID ≠ "") (term : new.term ≠ 0) :
    (metadata.setSlot number new).bumpVersion.Valid := by
  rw [valid_iff] at valid ⊢
  obtain ⟨frame, length, rows⟩ := valid
  have found : metadata.slots[number]? = some row := present
  refine ⟨frame, ?_, fun index slot here => ?_⟩
  · refine Eq.trans ?_ length
    simp [views, Metadata.setSlot, bumpVersion]
  · have before := rows index
    simp only [views, Metadata.setSlot, bumpVersion, List.getElem?_map,
      List.getElem?_set] at here before
    split_ifs at here with same inRange
    · subst same
      obtain rfl := Option.some.inj here
      have stood := before row.status.view (by rw [found]; rfl)
      exact ⟨own.trans stood.1, leader, term⟩
    · cases here
    · exact before slot here

theorem Valid.checked (valid : metadata.Valid) (present : metadata.slot number = some row) :
    row.leaderID ≠ "" ∧ row.term ≠ 0 := by
  have found : metadata.slots[number]? = some row := present
  have checked := ((valid_iff metadata).mp valid).2.2 number row.status.view
    (by simp [views, found])
  exact checked.2

theorem Steps.of_setSlot {step : PlanStep} (valid : metadata.Valid)
    (moves : step.kind.isTopology = true)
    (present : metadata.slot number = some row)
    (views : (metadata.setSlot number new).bumpVersion.views =
      update SlotView.number PlanStep.slot PlanStep.act metadata.views step)
    (own : new.number = row.number) (leader : new.leaderID ≠ "") (term : new.term ≠ 0) :
    Steps step metadata (metadata.setSlot number new).bumpVersion := by
  refine ⟨rfl, ?_, Nat.lt_succ_self _, valid.setSlot present own leader term⟩
  unfold Metadata.topology PlanStep.take
  rw [views, if_pos moves]
  rfl

theorem steps_promote (valid : metadata.Valid)
    (promoted : metadata.promote number = .ok changed) (target : String) :
    Steps ⟨.promote, number, target⟩ metadata changed := by
  have views := metadata.views_promote valid.slots promoted target
  obtain ⟨row, present, assigned, rfl⟩ := promote_ok promoted
  exact .of_setSlot valid rfl present views rfl assigned (Nat.succ_ne_zero _)

theorem steps_assignReplica (valid : metadata.Valid) {nodeID : String}
    (assigned : metadata.assignReplica number nodeID = .ok changed) :
    Steps ⟨.assignReplica, number, nodeID⟩ metadata changed := by
  have views := metadata.views_assignReplica valid.slots assigned
  obtain ⟨row, present, -, -, rfl⟩ := assignReplica_ok assigned
  exact .of_setSlot valid rfl present views rfl (valid.checked present).1
    (Nat.succ_ne_zero _)

theorem steps_markReplicaReady (valid : metadata.Valid) {term sequence : Nat}
    (marked : metadata.markReplicaReady number term sequence = .ok changed)
    (target : String) : Steps ⟨.sync, number, target⟩ metadata changed := by
  have views := metadata.views_markReplicaReady valid.slots marked target
  obtain ⟨row, present, -, -, -, rfl⟩ := markReplicaReady_ok marked
  exact .of_setSlot valid rfl present views rfl (valid.checked present).1
    (valid.checked present).2

/-- A node takes over a newer table of its own cluster. -/
theorem applyRemote_newer {incoming : Metadata} (valid : incoming.Valid)
    (frame : metadata.frame = incoming.frame)
    (newer : metadata.version < incoming.version) :
    ∃ result, metadata.applyRemote incoming.snapshot = .ok result ∧
      incoming.SameTable result := by
  simp only [Metadata.frame, Prod.mk.injEq] at frame
  obtain ⟨clusterID, slotCount, peers⟩ := frame
  obtain ⟨result, applied⟩ : ∃ result,
      metadata.applyRemote incoming.snapshot = .ok result := by
    have checked : validateMetadataSnapshot incoming.snapshot = true := valid
    unfold applyRemote apply
    rw [if_neg (by simp [checked]),
      if_neg (by simp [snapshot, clusterID, slotCount]),
      if_neg (by simp [snapshot, peers]),
      if_neg (by simp only [snapshot]; omega)]
    exact ⟨_, rfl⟩
  refine ⟨result, applied, ?_⟩
  have views := views_applyRemote applied
  obtain ⟨-, -, -, same⟩ := apply_ok applied
  refine ⟨?_, ?_⟩
  · rw [same]
    simp [Metadata.frame, clusterID, slotCount, peers]
  · rw [topology, views, same]
    rfl

theorem SameTable.valid {first second : Metadata} (same : first.SameTable second)
    (valid : first.Valid) : second.Valid := by
  have frame := same.frame
  have topology := same.topology
  simp only [Metadata.frame, Metadata.topology, Prod.mk.injEq, Topology.mk.injEq] at frame topology
  rw [valid_iff] at valid ⊢
  rwa [frame.1, frame.2.1, frame.2.2, topology.2]

end Metadata

/-- What goes on around the executor and changes no topology: no plan is made, and
no node starts with a table of its own. -/
def ClusterEvent.quiet : ClusterEvent → Bool
  | evaluate | work _ _ | restart _ _ => false
  | _ => true

/-! ### Calls -/

namespace ManagedCluster

/-- Every node that runs has the table. -/
structure Agreed (state : ManagedCluster) (shared : Metadata) : Prop where
  valid : shared.Valid
  nodes : ∀ nodeID ∈ state.peers, ∀ node, state.nodes nodeID = some node →
    shared.SameTable node.metadata

variable {state : ManagedCluster} {shared : Metadata}

theorem Agreed.of_nodes {after : ManagedCluster} (agreed : state.Agreed shared)
    (peers : after.peers = state.peers) (nodes : after.nodes = state.nodes) :
    after.Agreed shared :=
  ⟨agreed.valid, by rw [peers, nodes]; exact agreed.nodes⟩

theorem Agreed.setNode (agreed : state.Agreed shared) {nodeID : String}
    {changed : Option Node}
    (same : ∀ node, changed = some node → nodeID ∈ state.peers →
      shared.SameTable node.metadata) : (state.setNode nodeID changed).Agreed shared := by
  refine ⟨agreed.valid, fun other listed node present => ?_⟩
  rw [nodes_setNode] at present
  split_ifs at present with here
  · exact same node present (here ▸ listed)
  · exact agreed.nodes other listed node present

/-- A table that is handed on to all nodes is the one they share. -/
theorem Agreed.install (agreed : state.Agreed shared) (nodeID : String) (node : Node)
    {changed : Metadata} (frame : changed.frame = shared.frame)
    (newer : shared.version < changed.version) (valid : changed.Valid) :
    (state.install state.peers nodeID node (.ok changed)).Agreed changed := by
  refine ⟨valid, fun other listed after present => ?_⟩
  have listed : other ∈ state.peers := listed
  simp only [ManagedCluster.install, broadcast, nodes_setNode] at present
  by_cases same : other = nodeID
  · rw [if_neg fun others => others.2.2 same, if_pos same] at present
    obtain rfl := Option.some.inj present
    exact .refl _
  · rw [if_pos ⟨listed, listed, same⟩, if_neg same] at present
    obtain ⟨before, found, rfl⟩ := Option.map_eq_some_iff.mp present
    have shares := agreed.nodes other listed before found
    have version : before.metadata.version = shared.version :=
      congrArg Topology.version shares.topology
    obtain ⟨result, applied, taken⟩ := Metadata.applyRemote_newer valid
      (shares.frame.trans frame.symm) (version ▸ newer)
    rw [Node.receive, applied]
    exact taken

/-- A call fails, or takes the step for all nodes. -/
def Moved (shared : Metadata) (step : PlanStep) (after : ManagedCluster) : Prop :=
  ∃ later, after.Agreed later ∧
    (later.topology = shared.topology ∨ later.topology = step.take shared.topology)

theorem Agreed.stays {after : ManagedCluster} (agreed : after.Agreed shared)
    (step : PlanStep) : Moved shared step after :=
  ⟨shared, agreed, .inl rfl⟩

theorem Agreed.moved (agreed : state.Agreed shared) {nodeID : String} {node : Node}
    (same : shared.SameTable node.metadata) {step : PlanStep}
    {result : Except ClusterError Metadata}
    (steps : ∀ changed, result = .ok changed →
      Metadata.Steps step node.metadata changed) :
    Moved shared step (state.install state.peers nodeID node result) := by
  cases result with
  | error => exact agreed.stays step
  | ok changed =>
      have taken := steps changed rfl
      have version : node.metadata.version = shared.version :=
        congrArg Topology.version same.topology
      refine ⟨changed, agreed.install nodeID node (taken.frame.trans same.frame)
        (version ▸ taken.newer) taken.valid, .inr ?_⟩
      rw [taken.topology, same.topology]

theorem sameTable_applyShardSnapshot {node : Node}
    (same : shared.SameTable node.metadata) (transfer : ShardSnapshot) (now : Int) :
    shared.SameTable (node.applyShardSnapshot transfer now now).2.metadata := by
  rcases (node.metadata_applyShardSnapshot transfer now now).1 with
    kept | ⟨number, row, changed, present, unchanged, rewritten⟩
  · rw [kept]
    exact same
  · rw [rewritten]
    refine ⟨same.frame, Eq.trans ?_ same.topology⟩
    rw [Metadata.topology, Metadata.views_setSlot_same present unchanged]
    rfl

theorem Agreed.syncReplica (agreed : state.Agreed shared) {nodeID : String} {node : Node}
    (same : shared.SameTable node.metadata) (slot : Nat) (target : String) :
    Moved shared ⟨.sync, slot, target⟩
      (state.syncReplica state.peers nodeID node slot target) := by
  unfold ManagedCluster.syncReplica
  split
  · exact agreed.stays _
  · rename_i row _
    split
    · rename_i entries replica _ found
      dsimp only
      split_ifs
      · exact agreed.stays _
      · have running : state.nodes row.replicaID = some replica := by
          unfold reach at found
          split_ifs at found
          exact found
        set transfer : ShardSnapshot := _
        set installed := (replica.applyShardSnapshot transfer.overJSON state.clock
          state.clock).2
        have transferred : (state.setNode row.replicaID (some installed)).Agreed
            shared := by
          refine agreed.setNode fun after copied listed => ?_
          obtain rfl := Option.some.inj copied
          exact sameTable_applyShardSnapshot
            (agreed.nodes _ listed replica running) _ _
        split
        · exact transferred.stays _
        · exact transferred.moved same fun changed marked =>
            Metadata.steps_markReplicaReady (same.valid agreed.valid) marked target
    · exact agreed.stays _

theorem Agreed.call (agreed : state.Agreed shared) {call : AdminCall}
    (listed : call.node ∈ state.peers) :
    Moved shared call.planStep (state.call state.peers call) := by
  cases call with
  | promote nodeID slot =>
      simp only [ManagedCluster.call]
      split
      · exact agreed.stays _
      · rename_i node present
        have same := agreed.nodes nodeID listed node present
        exact agreed.moved same fun changed promoted =>
          Metadata.steps_promote (same.valid agreed.valid) promoted nodeID
  | assignReplica nodeID slot target =>
      simp only [ManagedCluster.call]
      split
      · exact agreed.stays _
      · rename_i node present
        have same := agreed.nodes nodeID listed node present
        exact agreed.moved same fun changed assigned =>
          Metadata.steps_assignReplica (same.valid agreed.valid) assigned
  | syncReplica nodeID slot target =>
      simp only [ManagedCluster.call]
      split
      · exact agreed.stays _
      · rename_i node present
        exact agreed.syncReplica (agreed.nodes nodeID listed node present) slot target

theorem fsm_call (reached : List String) (call : AdminCall) :
    (state.call reached call).fsm = state.fsm := by
  rw [nodes_call]

/-! ### Everything else -/

theorem Agreed.commit (agreed : state.Agreed shared) (command : ControlCommand) :
    (state.commit command).Agreed shared := by
  unfold ManagedCluster.commit
  split
  · exact agreed
  · exact agreed.of_nodes rfl rfl

theorem activePlan_commit {command : ControlCommand}
    (keeps : command.keepsPlan = true) :
    (state.commit command).activePlan = state.activePlan := by
  unfold ManagedCluster.commit
  split
  · rfl
  · rename_i applied
    exact FSM.apply_keepsPlan keeps applied

theorem Agreed.prepared (agreed : state.Agreed shared) {nodeID : String} {node : Node}
    (listed : nodeID ∈ state.peers) (running : state.nodes nodeID = some node)
    (clusterID : String) (metadataVersion : Nat) (reached : List String) :
    shared.SameTable (node.prepareReturning clusterID metadataVersion state.clock
      (state.peerTables reached nodeID)).2.metadata := by
  have same := agreed.nodes nodeID listed node running
  have version : ∀ other : Metadata, shared.SameTable other →
      other.version = shared.version :=
    fun _ shares => congrArg Topology.version shares.topology
  have older : ∀ incoming, some incoming ∈ state.peerTables reached nodeID →
      incoming.version ≤ node.metadata.version := by
    intro incoming answered
    obtain ⟨peer, known, given⟩ := List.mem_map.mp answered
    obtain ⟨other, found, rfl⟩ := Option.map_eq_some_iff.mp given
    unfold reach at found
    split_ifs at found
    have shares := agreed.nodes peer (List.mem_filter.mp known).1 other found
    exact ((version _ shares).trans (version _ same).symm).le
  rcases (prepareReturning_node clusterID metadataVersion state.clock
    (state.peerTables reached nodeID) node).2 with kept | synced
  · rw [kept]
    exact same
  · rw [synced, Metadata.syncMetadata_of_not_newer older]
    exact same

/-- The tables and the plan stay as they are. -/
structure Undisturbed (state : ManagedCluster) (shared : Metadata)
    (next : ManagedCluster) : Prop where
  agreed : next.Agreed shared
  plan : next.activePlan = state.activePlan

theorem Agreed.judge (agreed : state.Agreed shared) (pass : ReturningPass)
    (result : Except ReturningNodeError ReturningNodeResponse) :
    state.Undisturbed shared (state.judge pass result) := by
  unfold ManagedCluster.judge
  split
  · exact ⟨agreed.of_nodes rfl rfl, rfl⟩
  · split_ifs
    · exact ⟨agreed.of_nodes rfl rfl, rfl⟩
    · exact ⟨agreed.of_nodes rfl rfl, rfl⟩

theorem Agreed.issueAdmission (agreed : state.Agreed shared) (fate : CallFate) :
    state.Undisturbed shared (state.issueAdmission fate) := by
  unfold ManagedCluster.issueAdmission
  split
  · exact ⟨agreed, rfl⟩
  · rename_i pass _
    have admitted : ∀ node, state.nodes pass.nodeID = some node →
        ∀ clusterID version, (state.setNode pass.nodeID (some
          (node.admitReturning clusterID version state.clock).2)).Agreed shared := by
      intro node running clusterID version
      refine agreed.setNode fun changed same listed => ?_
      obtain rfl := Option.some.inj same
      rw [(admitReturning_node clusterID version state.clock node).1]
      exact agreed.nodes _ listed node running
    split_ifs
    · exact ⟨agreed, rfl⟩
    · split
      · exact ⟨agreed.of_nodes rfl rfl, rfl⟩
      · exact ⟨agreed.of_nodes rfl rfl, rfl⟩
      · exact ⟨agreed.of_nodes rfl rfl, rfl⟩
      · exact ⟨(admitted _ ‹_› _ _).of_nodes rfl rfl, rfl⟩
      · exact ⟨(admitted _ ‹_› _ _).of_nodes rfl rfl, rfl⟩

theorem Agreed.prepare (agreed : state.Agreed shared) (fate : CallFate)
    (reached : List String) : state.Undisturbed shared (state.prepare fate reached) := by
  unfold ManagedCluster.prepare
  split
  · exact ⟨agreed, rfl⟩
  · rename_i pass _
    split_ifs
    · exact ⟨agreed, rfl⟩
    · split
      · exact ⟨agreed.of_nodes rfl rfl, rfl⟩
      · rename_i node running
        have prepared : (state.setNode pass.nodeID (some (node.prepareReturning
            pass.clusterID pass.metadataVersion state.clock
            (state.peerTables reached pass.nodeID)).2)).Agreed shared := by
          refine agreed.setNode fun changed same listed => ?_
          obtain rfl := Option.some.inj same
          exact agreed.prepared listed running _ _ _
        cases fate with
        | lost => exact ⟨agreed.of_nodes rfl rfl, rfl⟩
        | replayed => exact agreed.judge pass _
        | unanswered => exact ⟨prepared.of_nodes rfl rfl, rfl⟩
        | answered => exact ⟨(prepared.judge pass _).agreed, (prepared.judge pass _).plan⟩

theorem Agreed.quiet [PlanDigest] {config : ClusterConfig} {engineConfig : EngineConfig}
    (agreed : state.Agreed shared) {event : ClusterEvent} (quiet : event.quiet = true) :
    state.Undisturbed shared (state.step config engineConfig event) := by
  cases event with
  | wait elapsed => exact ⟨agreed.of_nodes rfl rfl, rfl⟩
  | abandon => exact ⟨agreed.of_nodes rfl rfl, rfl⟩
  | stop nodeID => exact ⟨agreed.setNode nofun, rfl⟩
  | traffic nodeID engine sequences =>
      simp only [ManagedCluster.step]
      split
      · exact ⟨agreed, rfl⟩
      · rename_i node running
        refine ⟨agreed.setNode fun changed same listed => ?_, rfl⟩
        obtain rfl := Option.some.inj same
        have shares := agreed.nodes nodeID listed node running
        refine ⟨shares.frame, Eq.trans ?_ shares.topology⟩
        rw [Metadata.topology, Metadata.views_resequence]
        rfl
  | observe reached =>
      simp only [ManagedCluster.step, ManagedCluster.observe]
      split
      · exact ⟨agreed.of_nodes rfl rfl, rfl⟩
      · split_ifs
        · exact ⟨agreed.of_nodes rfl rfl, rfl⟩
        · refine ⟨Agreed.commit ?_ _, activePlan_commit rfl⟩
          exact agreed.of_nodes rfl rfl
  | takeUp =>
      simp only [ManagedCluster.step, ManagedCluster.takeUp]
      split
      · exact ⟨agreed, rfl⟩
      · split
        · exact ⟨agreed, rfl⟩
        · exact ⟨agreed, rfl⟩
        · exact ⟨agreed.commit _, activePlan_commit rfl⟩
        · exact ⟨agreed.of_nodes rfl rfl, rfl⟩
  | commitAdmission =>
      simp only [ManagedCluster.step, ManagedCluster.commitAdmission]
      split
      · exact ⟨agreed, rfl⟩
      · rename_i pass _
        split_ifs
        · exact ⟨agreed, rfl⟩
        · have committed := agreed.commit (.admitReturningNode pass.nodeID true)
          exact ⟨committed.of_nodes rfl rfl, activePlan_commit rfl⟩
  | issueAdmission fate => exact agreed.issueAdmission fate
  | prepare fate reached => exact agreed.prepare fate reached
  | evaluate => cases quiet
  | work => cases quiet
  | restart => cases quiet

end ManagedCluster

end MnemoKV
