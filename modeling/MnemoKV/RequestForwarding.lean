import MnemoKV.ClusterNode
import MnemoKV.ForwardingPaths
import MnemoKV.MetadataAgreement

/-!
# Forwarding requests

A node that does not lead the slot of a request forwards it to the node that its own
table names, and that node consults its own table in turn.  Tables may be several
versions behind.  If changes are made on a node with the newest table, and a promoted
node learns of it, then a request meets newer and newer tables until it finds a node
that leads.
-/

namespace MnemoKV

open ForwardingPaths LabelledRuns LinearHistories

/-- The calls of a `Manager` that change a table. -/
inductive TopologyOp
  | promote (slot : Nat)
  | assignReplica (slot : Nat) (nodeID : String)
  | markReplicaReady (slot term sequence : Nat)
  deriving DecidableEq

/-- The change on the node's own table. -/
def TopologyOp.perform (metadata : Metadata) : TopologyOp → Except ClusterError Metadata
  | promote slot => metadata.promote slot
  | assignReplica slot nodeID => metadata.assignReplica slot nodeID
  | markReplicaReady slot term sequence => metadata.markReplicaReady slot term sequence

/-- A change on a node, and the peers that its broadcast reaches. -/
structure TopologyChange where
  node : String
  op : TopologyOp
  reached : List String

/-- `CLUSTERAPPLY`. -/
def Metadata.receive (metadata : Metadata) (incoming : MetadataSnapshot) : Metadata :=
  match metadata.applyRemote incoming with
  | .ok result => result
  | .error _ => metadata

/-- The tables of all nodes. -/
abbrev NodeTables := String → Metadata

namespace NodeTables

/-- The tables after a change and its broadcast. -/
def change (tables : NodeTables) (change : TopologyChange) : NodeTables :=
  match change.op.perform (tables change.node) with
  | .error _ => tables
  | .ok changed => fun nodeID =>
      if nodeID = change.node then changed
      else if nodeID ∈ changed.peerIDs ∧ nodeID ∈ change.reached then
        (tables nodeID).receive changed.snapshot
      else tables nodeID

/-- A change that succeeds is made on a node with the newest table, and a node that
it promotes then finds itself leading. -/
structure Informed (tables : NodeTables) (change : TopologyChange) : Prop where
  newest : (change.op.perform (tables change.node)).isOk →
    ∀ nodeID, (tables nodeID).version ≤ (tables change.node).version
  learnt : ∀ slot row, change.op = .promote slot →
    (tables change.node).slot slot = some row → row.replicaID ≠ "" →
      ((tables.change change row.replicaID).slot slot).map SlotState.leaderID =
        some row.replicaID

end NodeTables

/-- Where `Coordinator.Execute` forwards a command. -/
def Node.nextHop (node : Node) (cmd : Command) : Option String :=
  match node.route cmd with
  | .forward nodeID => some nodeID
  | _ => none

/-- The nodes that a command visits. -/
def visits (nodes : String → Node) (cmd : Command) : Nat → String → List String :=
  path fun nodeID => (nodes nodeID).nextHop cmd

/-! ### What a change does to leaders -/

namespace Metadata

/-- The leaders of all slots. -/
def leaders (metadata : Metadata) : List String := metadata.slots.map SlotState.leaderID

variable {metadata changed : Metadata}

theorem getElem?_leaders (metadata : Metadata) (slot : Nat) :
    metadata.leaders[slot]? = (metadata.slot slot).map SlotState.leaderID := by
  simp [leaders, Metadata.slot]

theorem leaders_eq_of_owners {first second : Metadata} (same : first.owners = second.owners) :
    first.leaders = second.leaders := by
  have mapped := congrArg (List.map SlotOwners.leaderID) same
  rwa [owners, owners, List.map_map, List.map_map] at mapped

/-- What no operation on a table changes. -/
def place (metadata : Metadata) : String × Nat := (metadata.localID, metadata.slotCount)

/-- A new version, in which only a promoted replica leads anew. -/
structure Led (op : TopologyOp) (metadata changed : Metadata) : Prop where
  version : changed.version = metadata.version + 1
  place : changed.place = metadata.place
  leaders : ∀ (slot : Nat) (leader : String), changed.leaders[slot]? = some leader →
    metadata.leaders[slot]? = some leader ∨
      ∃ row, op = .promote slot ∧ metadata.slot slot = some row ∧ row.replicaID ≠ "" ∧
        leader = row.replicaID

theorem getElem?_leaders_setSlot {number slot : Nat} {row : SlotState} {leader : String}
    (leads : (metadata.setSlot number row).bumpVersion.leaders[slot]? = some leader) :
    slot = number ∧ leader = row.leaderID ∨ metadata.leaders[slot]? = some leader := by
  simp only [Metadata.leaders, Metadata.setSlot, bumpVersion, List.map_set,
    List.getElem?_set] at leads
  split_ifs at leads with here inRange
  · exact .inl ⟨here.symm, (Option.some.inj leads).symm⟩
  · exact .inr leads

theorem led_perform {op : TopologyOp} (performed : op.perform metadata = .ok changed) :
    metadata.Led op changed := by
  -- A row that keeps its leader changes no leader at all.
  have kept : ∀ {op : TopologyOp} {number : Nat} {row new : SlotState},
      metadata.slot number = some row → new.leaderID = row.leaderID →
      metadata.Led op (metadata.setSlot number new).bumpVersion := by
    intro op number row new present same
    refine ⟨rfl, rfl, fun slot leader leads => .inl ?_⟩
    rcases getElem?_leaders_setSlot leads with ⟨rfl, rfl⟩ | before
    · rw [getElem?_leaders, present, same]
      rfl
    · exact before
  cases op with
  | promote number =>
      obtain ⟨row, present, assigned, rfl⟩ := promote_ok performed
      refine ⟨rfl, rfl, fun slot leader leads => ?_⟩
      rcases getElem?_leaders_setSlot leads with ⟨rfl, rfl⟩ | before
      · exact .inr ⟨row, rfl, present, assigned, rfl⟩
      · exact .inl before
  | assignReplica number nodeID =>
      obtain ⟨row, present, -, -, rfl⟩ := assignReplica_ok performed
      exact kept present rfl
  | markReplicaReady number term sequence =>
      obtain ⟨row, present, -, -, -, rfl⟩ := markReplicaReady_ok performed
      exact kept present rfl

/-- A received table replaces all leaders or is refused. -/
theorem receive_cases (metadata : Metadata) (sender : Metadata) :
    metadata.receive sender.snapshot = metadata ∨
      (metadata.receive sender.snapshot).version = sender.version ∧
      (metadata.receive sender.snapshot).leaders = sender.leaders ∧
      (metadata.receive sender.snapshot).place = metadata.place := by
  unfold receive
  split
  · rename_i result applied
    obtain ⟨-, version, owners⟩ := owners_applyRemote applied
    obtain ⟨-, -, -, rfl⟩ := apply_ok applied
    exact .inr ⟨version, leaders_eq_of_owners owners, rfl⟩
  · exact .inl rfl

end Metadata

/-! ### The reigns of a history -/

namespace NodeTables

/-- All tables are taken from one history, and a node that some table names as leader
has that table or a newer one, or finds itself leading. -/
structure Reigns (slotCount : Nat) (history : List (List String)) (tables : NodeTables) :
    Prop where
  recorded : ∀ nodeID, Recorded history (tables nodeID).version (tables nodeID).leaders
  newest : ∃ nodeID, (tables nodeID).version = history.length
  place : ∀ nodeID, (tables nodeID).place = (nodeID, slotCount)
  reigns : ∀ version leaders, Recorded history version leaders →
    ∀ (slot : Nat) (leader : String), leaders[slot]? = some leader →
      (tables leader).version < version → (tables leader).leaders[slot]? = some leader

variable {tables : NodeTables} {slotCount : Nat} {history : List (List String)}

/-- What a change leaves on a node: its old table, or the new one. -/
theorem change_cases (change : TopologyChange) :
    tables.change change = tables ∨
      ∃ changed, change.op.perform (tables change.node) = .ok changed ∧
        tables.change change change.node = changed ∧
        ∀ nodeID, nodeID ≠ change.node →
          tables.change change nodeID = tables nodeID ∨
            (tables.change change nodeID).version = changed.version ∧
            (tables.change change nodeID).leaders = changed.leaders ∧
            (tables.change change nodeID).place = (tables nodeID).place := by
  cases performed : change.op.perform (tables change.node) with
  | error failure =>
      left
      unfold NodeTables.change
      rw [performed]
  | ok changed =>
      unfold NodeTables.change
      rw [performed]
      refine .inr ⟨changed, rfl, if_pos rfl, fun nodeID other => ?_⟩
      dsimp only
      rw [if_neg other]
      split_ifs
      · exact Metadata.receive_cases _ _
      · exact .inl rfl

theorem Reigns.change (reigns : tables.Reigns slotCount history) {change : TopologyChange}
    (informed : tables.Informed change) :
    ∃ history, (tables.change change).Reigns slotCount history := by
  rcases tables.change_cases change with same | ⟨changed, performed, here, others⟩
  · rw [same]
    exact ⟨history, reigns⟩
  have led := Metadata.led_perform performed
  -- The node with the newest table has the last one of the history.
  have last : (tables change.node).version = history.length := by
    obtain ⟨nodeID, newest⟩ := reigns.newest
    have highest := informed.newest (by rw [performed]; rfl) nodeID
    have bounded := (reigns.recorded change.node).le_length
    omega
  have version : changed.version = history.length + 1 := by rw [led.version, last]
  have either : ∀ nodeID, tables.change change nodeID = tables nodeID ∨
      (tables.change change nodeID).version = history.length + 1 ∧
      (tables.change change nodeID).leaders = changed.leaders ∧
      (tables.change change nodeID).place = (tables nodeID).place := by
    intro nodeID
    by_cases same : nodeID = change.node
    · subst same
      rw [here]
      exact .inr ⟨version, rfl, led.place⟩
    · rw [← version]
      exact others nodeID same
  refine ⟨history ++ [changed.leaders], ?_, ⟨change.node, ?_⟩, ?_, ?_⟩
  · intro nodeID
    rcases either nodeID with same | ⟨newer, leaders, -⟩
    · rw [same]
      exact (reigns.recorded nodeID).append _
    · rw [newer, leaders]
      exact recorded_last _ _
  · rw [here, version, List.length_append]
    rfl
  · intro nodeID
    rcases either nodeID with same | ⟨-, -, place⟩
    · rw [same]
      exact reigns.place nodeID
    · rw [place]
      exact reigns.place nodeID
  · intro known leaders recorded slot leader leads behind
    rcases either leader with same | ⟨newer, -, -⟩
    · rw [same] at behind ⊢
      rcases recorded_append recorded with old | ⟨rfl, rfl⟩
      · exact reigns.reigns known leaders old slot leader leads behind
      rcases led.leaders slot leader leads with led | ⟨row, promotes, present, assigned, rfl⟩
      · -- The leader stays, and all newest tables agree on it.
        have newest := reigns.recorded change.node
        rw [last] at newest
        rcases Nat.lt_or_eq_of_le (Nat.le_of_lt_succ behind) with older | equal
        · exact reigns.reigns _ _ newest slot leader led older
        · have own := reigns.recorded leader
          rw [equal] at own
          rw [own.unique newest]
          exact led
      · have learnt := informed.learnt slot row promotes present assigned
        rw [same] at learnt
        rw [Metadata.getElem?_leaders]
        exact learnt
    · -- The leader has the new table, which no other one is ahead of.
      have bounded := recorded.le_length
      rw [List.length_append, List.length_singleton] at bounded
      omega

theorem reigns_newMetadata (config : ClusterConfig) :
    ∃ history, NodeTables.Reigns config.slotCount history (newMetadata config) := by
  have fields : ∀ nodeID, (newMetadata config nodeID).version = 1 ∧
      (newMetadata config nodeID).leaders = (newMetadata config "").leaders ∧
      (newMetadata config nodeID).place = (nodeID, config.slotCount) := by
    intro nodeID
    unfold newMetadata
    dsimp only
    split_ifs <;> exact ⟨rfl, rfl, rfl⟩
  refine ⟨[(newMetadata config "").leaders], ?_, ⟨"", (fields "").1⟩,
    fun nodeID => (fields nodeID).2.2, ?_⟩
  · intro nodeID
    rw [(fields nodeID).1, (fields nodeID).2.1]
    exact ⟨Nat.one_pos, rfl⟩
  · intro version leaders recorded slot leader _ behind
    have bounded := recorded.le_length
    rw [(fields leader).1] at behind
    rw [List.length_singleton] at bounded
    omega

theorem reigns_run {config : ClusterConfig} {changes : List TopologyChange}
    (informed : ∀ index (inRange : index < changes.length),
      (stateAt NodeTables.change (newMetadata config) changes index).Informed changes[index]) :
    ∃ history, (run NodeTables.change (newMetadata config) changes).Reigns config.slotCount
      history := by
  have reached := stateAt_induction NodeTables.change (newMetadata config) changes
    (fun tables => ∃ history, tables.Reigns config.slotCount history)
    (reigns_newMetadata config)
    (fun index inRange ⟨_, reigns⟩ => reigns.change (informed index inRange))
    (Nat.le_refl changes.length)
  rwa [stateAt_length] at reached

end NodeTables

/-! ### Following a request -/

theorem Node.nextHop_some {node : Node} {cmd : Command} {nodeID : String}
    (forwards : node.nextHop cmd = some nodeID) :
    nodeID ≠ node.id ∧ node.metadata.leaders[node.metadata.slotForKey
      cmd.extractPrimaryKey]? = some nodeID := by
  unfold nextHop route at forwards
  split at forwards
  · rename_i routed
    obtain rfl := Option.some.inj forwards
    split at routed <;> try cases routed
    split_ifs at routed
    split at routed
    · cases routed
    · rename_i key rest keys
      dsimp only at routed
      split_ifs at routed
      split at routed
      · cases routed
      · rename_i row present
        split_ifs at routed with leaderless foreign
        obtain rfl := Route.forward.inj routed
        refine ⟨foreign, ?_⟩
        rw [Command.extractPrimaryKey, keys, Metadata.getElem?_leaders]
        exact congrArg (Option.map SlotState.leaderID) present
  · cases forwards

namespace NodeTables

variable {tables : NodeTables} {slotCount : Nat} {history : List (List String)}

theorem Reigns.climbs (reigns : tables.Reigns slotCount history) {nodes : String → Node}
    (own : ∀ nodeID, (nodes nodeID).metadata = tables nodeID) (cmd : Command) :
    Climbs (fun nodeID => (nodes nodeID).nextHop cmd) fun nodeID =>
      (tables nodeID).version := by
  intro nodeID leader forwards
  have slotOf : ∀ nodeID, (tables nodeID).slotForKey cmd.extractPrimaryKey =
      if slotCount = 0 then 0 else fnv32a cmd.extractPrimaryKey % slotCount := by
    intro nodeID
    have count : (tables nodeID).slotCount = slotCount :=
      congrArg Prod.snd (reigns.place nodeID)
    rw [Metadata.slotForKey, count]
  obtain ⟨-, leads⟩ := Node.nextHop_some forwards
  rw [own, slotOf] at leads
  -- A node that finds itself leading forwards nothing.
  have stops : (tables leader).leaders[if slotCount = 0 then 0
      else fnv32a cmd.extractPrimaryKey % slotCount]? = some leader →
      (nodes leader).nextHop cmd = none := by
    intro itself
    cases hop : (nodes leader).nextHop cmd with
    | none => rfl
    | some other =>
        obtain ⟨another, led⟩ := Node.nextHop_some hop
        rw [own, slotOf, itself] at led
        have named : (nodes leader).id = leader := by
          rw [Node.id, own]
          exact congrArg Prod.fst (reigns.place leader)
        exact absurd (Option.some.inj led).symm (named ▸ another)
  rcases Nat.lt_trichotomy (tables leader).version (tables nodeID).version with
    older | equal | newer
  · exact .inl (stops (reigns.reigns _ _ (reigns.recorded nodeID) _ leader leads older))
  · have itself := reigns.recorded leader
    rw [equal] at itself
    rw [← itself.unique (reigns.recorded nodeID)] at leads
    exact .inl (stops leads)
  · exact .inr newer

/-- If every change is made on a node with the newest table and a promoted node learns
of it, then no request visits a node twice, and each comes to a node that answers. -/
theorem requests_never_cycle (config : ClusterConfig) (changes : List TopologyChange)
    (informed : ∀ index (inRange : index < changes.length),
      (stateAt NodeTables.change (newMetadata config) changes index).Informed changes[index])
    (nodes : String → Node)
    (own : ∀ nodeID, (nodes nodeID).metadata =
      run NodeTables.change (newMetadata config) changes nodeID)
    (cmd : Command) (start : String) :
    (∀ hops, (visits nodes cmd hops start).Nodup) ∧
      ∃ hops last, (visits nodes cmd hops start).getLast? = some last ∧
        (nodes last).nextHop cmd = none := by
  obtain ⟨history, reigns⟩ := reigns_run informed
  have climbs := reigns.climbs own cmd
  exact ⟨fun hops => nodup_path climbs hops start, exists_path_end climbs
    (fun nodeID => (reigns.recorded nodeID).le_length) start⟩

theorem version_change_le {limit : Nat}
    (bounded : ∀ nodeID, (tables nodeID).version ≤ limit) (change : TopologyChange)
    (nodeID : String) : (tables.change change nodeID).version ≤ limit + 1 := by
  have before := bounded nodeID
  rcases tables.change_cases change with same | ⟨changed, performed, here, others⟩
  · rw [same]
    omega
  · have version := (Metadata.led_perform performed).version
    have sender := bounded change.node
    by_cases itself : nodeID = change.node
    · rw [itself, here]
      omega
    · rcases others nodeID itself with same | ⟨newer, -⟩
      · rw [same]
        omega
      · omega

theorem version_stateAt_le (config : ClusterConfig) (changes : List TopologyChange)
    {index : Nat} (bounded : index ≤ changes.length) (nodeID : String) :
    (stateAt NodeTables.change (newMetadata config) changes index nodeID).version ≤
      index + 1 := by
  induction index generalizing nodeID with
  | zero =>
      rw [stateAt_zero, MetadataCluster.version_newMetadata]
  | succ index induction =>
      rw [stateAt_succ _ _ _ bounded]
      exact version_change_le (induction (Nat.le_of_succ_le bounded)) _ nodeID

theorem Informed.of_promote {node : String} {slot : Nat} {reached : List String}
    (target : String) (newest : ∀ nodeID, (tables nodeID).version ≤ (tables node).version)
    (replica : ((tables node).slot slot).map SlotState.replicaID = some target)
    (learnt : ((tables.change ⟨node, .promote slot, reached⟩ target).slot slot).map
      SlotState.leaderID = some target) :
    tables.Informed ⟨node, .promote slot, reached⟩ := by
  refine ⟨fun _ => newest, fun number row promotes present _ => ?_⟩
  obtain rfl := TopologyOp.promote.inj promotes
  have present : (tables node).slot slot = some row := present
  rw [present] at replica
  rw [Option.some.inj replica]
  exact learnt

section Examples

open MetadataCluster (threePeerConfig)

/-- Nodes that serve clients from the tables. -/
def serving (tables : NodeTables) (nodeID : String) : Node :=
  { metadata := tables nodeID, admitted := true
    engine := { store := .new 1, limitBytes := 0, policy := .noEviction } }

def visitsAfter (changes : List TopologyChange) (key : String) (hops : Nat)
    (start : String) : List String :=
  visits (serving (run NodeTables.change (newMetadata threePeerConfig) changes))
    (.make .get [.ascii key]) hops start

/-- `node-2` takes over from `node-1`, and `node-3` from `node-2`, which `node-1` does
not hear of. -/
def twoPromotions : List TopologyChange :=
  [⟨"node-2", .promote 0, ["node-1", "node-3"]⟩,
    ⟨"node-2", .assignReplica 0 "node-3", ["node-3"]⟩,
    ⟨"node-3", .promote 0, ["node-2"]⟩]

theorem request_finds_second_leader :
    visitsAfter twoPromotions "k" 4 "node-1" = ["node-1", "node-2", "node-3"] ∧
      (visitsAfter twoPromotions "k" 4 "node-1").Nodup := by
  refine ⟨by decide +kernel, ?_⟩
  refine (requests_never_cycle threePeerConfig twoPromotions (fun index inRange => ?_) _
    (fun _ => rfl) _ _).1 4
  have highest := version_stateAt_le threePeerConfig twoPromotions (Nat.le_of_lt inRange)
  match index, inRange with
  | 0, _ => exact .of_promote "node-2" highest (by decide +kernel) (by decide +kernel)
  | 1, _ => exact ⟨fun _ => highest, nofun⟩
  | 2, _ => exact .of_promote "node-3" highest (by decide +kernel) (by decide +kernel)

/-- The leader `node-1` promotes its replica `node-2`, which the broadcast does not
reach: each of the two takes the other one for the leader. -/
theorem unnoticed_promotion_cycles :
    visitsAfter [⟨"node-1", .promote 0, ["node-3"]⟩] "k" 5 "node-3" =
      ["node-3", "node-2", "node-1", "node-2", "node-1"] := by
  decide +kernel

/-- A promotion that everybody learns of, and changes with an old table on `node-3`
that overtake it on `node-2`. -/
example : visitsAfter [⟨"node-2", .promote 0, ["node-1"]⟩,
      ⟨"node-3", .assignReplica 0 "node-3", []⟩,
      ⟨"node-3", .assignReplica 0 "node-3", ["node-2"]⟩] "k" 3 "node-1" =
    ["node-1", "node-2", "node-1"] := by
  decide +kernel

end Examples

end NodeTables

end MnemoKV
