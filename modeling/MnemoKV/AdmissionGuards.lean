import MnemoKV.ClusterTables
import MnemoKV.CommittedCommands
import MnemoKV.MetadataAgreement
import MnemoKV.ObservedViews

/-!
# What keeps a cleared node away from data

Nodes that wait for their admission are named by no slot table and are the target
of no planned assignment, and slots without a copy belong to nodes that have
stopped for good.  Each part of a run keeps this, if nodes start again only after
everything has been taken from them and the controller is not misled about them.
-/

namespace MnemoKV

namespace ManagedCluster

abbrev view (state : ManagedCluster) : ClusterView := state.fsm.state.latestView

abbrev activePlan (state : ManagedCluster) : Option RecoveryPlan :=
  state.fsm.state.activePlan

/-- The node waits for its admission, or a pass has found it cleared. -/
def Barred (state : ManagedCluster) (nodeID : String) : Prop :=
  nodeID ∈ state.peers ∧ (state.admission nodeID = some false ∨
    ∃ pass ∈ state.pass, pass.nodeID = nodeID ∧ pass.stage ≠ .preparing)

/-- Nothing belongs to the node, and nothing is about to. -/
structure KeptOut (state : ManagedCluster) (nodeID : String) : Prop where
  tables : ∀ table ∈ state.tables, SlotTable.Unnamed nodeID table
  slots : ∀ slot ∈ state.view.slots, slot.leaderID ≠ nodeID ∧
    (slot.replicaReady = true → slot.replicaID ≠ nodeID)
  eligible : nodeID ∉ state.view.eligibleNodeIDs
  plan : ∀ plan ∈ state.activePlan, ∀ step ∈ plan.steps,
    step.kind = .assignReplica → step.target ≠ nodeID

theorem keptOut_iff {state : ManagedCluster} {nodeID : String} :
    state.KeptOut nodeID ↔
      (∀ table ∈ state.tables, SlotTable.Unnamed nodeID table) ∧
      (∀ slot ∈ state.view.slots, slot.leaderID ≠ nodeID ∧
        (slot.replicaReady = true → slot.replicaID ≠ nodeID)) ∧
      nodeID ∉ state.view.eligibleNodeIDs ∧
      ∀ plan ∈ state.activePlan, ∀ step ∈ plan.steps,
        step.kind = .assignReplica → step.target ≠ nodeID :=
  ⟨fun ⟨tables, slots, eligible, plan⟩ => ⟨tables, slots, eligible, plan⟩,
    fun ⟨tables, slots, eligible, plan⟩ => ⟨tables, slots, eligible, plan⟩⟩

instance (state : ManagedCluster) (nodeID : String) : Decidable (state.KeptOut nodeID) :=
  decidable_of_iff' _ keptOut_iff

/-- The node has stopped, and the observer has noticed. -/
def Gone (state : ManagedCluster) (nodeID : String) : Prop :=
  nodeID ∈ state.peers → state.nodes nodeID = none ∧
    state.observer.Confirmed state.clock (state.observer.failures nodeID)

/-- Nobody is left who could have the slot. -/
def Orphaned (state : ManagedCluster) (number : Nat) (table : SlotTable) : Prop :=
  ∃ slot, table[number]? = some slot ∧ state.Gone slot.leaderID ∧
    (slot.replicaReady = true → state.Gone slot.replicaID)

/-- The steps of a plan about a slot that it marks, or about one that is recorded. -/
def OnlyMarked (plan : RecoveryPlan) (number : Nat) : Prop :=
  ∀ step ∈ plan.steps, step.slot = number → step.kind = .markUnavailable

/-- The invariant that keeps a node out until its admission. -/
structure Guarded (state : ManagedCluster) : Prop where
  named : "" ∉ state.peers
  tidy : ∀ table ∈ state.tables, SlotTable.Tidy table
  numbered : ∀ (number : Nat) (slot : SlotView),
    state.view.slots[number]? = some slot → slot.number = number
  keptOut : ∀ nodeID, state.Barred nodeID → state.KeptOut nodeID
  pass : ∀ pass ∈ state.pass, pass.nodeID ∈ state.peers ∧
    (pass.stage ≠ .preparing → state.admission pass.nodeID ≠ some true)
  lost : ∀ number, state.view.Lost number → ∀ table ∈ state.tables,
    state.Orphaned number table
  marks : ∀ plan ∈ state.activePlan, ∀ step ∈ plan.steps,
    step.kind = .markUnavailable → state.view.Lost step.slot ∧ OnlyMarked plan step.slot
  unavailable : ∀ number ∈ state.fsm.state.unavailable, state.view.Lost number ∧
    ∀ plan ∈ state.activePlan, OnlyMarked plan number

variable {state : ManagedCluster}

theorem Guarded.named_of_mem (guarded : state.Guarded) {nodeID : String}
    (listed : nodeID ∈ state.peers) : nodeID ≠ "" :=
  fun unnamed => guarded.named (unnamed ▸ listed)

theorem KeptOut.carry {after : ManagedCluster} {nodeID : String}
    (kept : state.KeptOut nodeID)
    (tables : ∀ table ∈ after.tables, table ∈ state.tables)
    (fsm : after.fsm = state.fsm) : after.KeptOut nodeID := by
  refine ⟨fun table member => kept.tables table (tables table member), ?_, ?_, ?_⟩
  · rw [view, fsm]
    exact kept.slots
  · rw [view, fsm]
    exact kept.eligible
  · rw [activePlan, fsm]
    exact kept.plan

theorem Guarded.not_barred (guarded : state.Guarded) {nodeID : String}
    {table : SlotTable} (member : table ∈ state.tables) {slot : SlotView}
    (listed : slot ∈ table) (owns : slot.leaderID = nodeID ∨ slot.replicaID = nodeID) :
    ¬ state.Barred nodeID := by
  intro barred
  obtain ⟨leader, replica⟩ := (guarded.keptOut nodeID barred).tables table member slot listed
  exact owns.elim leader replica

/-! ### Parts of a run that concern one component -/

section View

variable {before after : ClusterView} (slots : after.slots = before.slots)
  (nodes : after.nodes = before.nodes)

include slots nodes

theorem lost_congr (number : Nat) : after.Lost number ↔ before.Lost number := by
  simp only [ClusterView.Lost, ClusterView.classifySlots, slots, nodes]

end View

theorem eligibleNodeIDs_congr {before after : ClusterView}
    (nodes : after.nodes = before.nodes) :
    after.eligibleNodeIDs = before.eligibleNodeIDs := by
  simp only [ClusterView.eligibleNodeIDs, ClusterView.nodeIDs, nodes]

theorem Guarded.wait (guarded : state.Guarded) (elapsed : Nat) :
    { state with clock := state.clock + elapsed }.Guarded := by
  have gone : ∀ nodeID, state.Gone nodeID →
      { state with clock := state.clock + elapsed }.Gone nodeID := by
    intro nodeID gone listed
    obtain ⟨stopped, confirmed⟩ := gone listed
    exact ⟨stopped, confirmed.later (by simp)⟩
  refine ⟨guarded.named, guarded.tidy, guarded.numbered, ?_, guarded.pass,
    ?_, guarded.marks, guarded.unavailable⟩
  · intro nodeID barred
    exact (guarded.keptOut nodeID barred).carry (fun _ member => member) rfl
  · intro number lost table member
    obtain ⟨slot, found, leader, replica⟩ := guarded.lost number lost table member
    exact ⟨slot, found, gone _ leader, fun ready => gone _ (replica ready)⟩

theorem Guarded.setPass (guarded : state.Guarded) {pass : Option ReturningPass}
    (known : ∀ taken ∈ pass, taken.nodeID ∈ state.peers ∧
      (taken.stage ≠ .preparing → state.admission taken.nodeID ≠ some true ∧
        state.KeptOut taken.nodeID)) :
    (state.setPass pass).Guarded := by
  refine ⟨guarded.named, guarded.tidy, guarded.numbered, ?_, ?_, guarded.lost,
    guarded.marks, guarded.unavailable⟩
  · intro nodeID barred
    suffices kept : state.KeptOut nodeID from kept.carry (fun _ member => member) rfl
    obtain ⟨listed, waiting | ⟨taken, present, rfl, cleared⟩⟩ := barred
    · exact guarded.keptOut nodeID ⟨listed, .inl waiting⟩
    · exact ((known taken present).2 cleared).2
  · intro taken present
    exact ⟨(known taken present).1, fun cleared => ((known taken present).2 cleared).1⟩

theorem Guarded.endPass (guarded : state.Guarded) : (state.setPass none).Guarded :=
  guarded.setPass nofun

theorem Guarded.setNode (guarded : state.Guarded) {nodeID : String}
    {changed : Option Node}
    (installs : ∀ node ∈ changed, nodeID ∈ state.peers →
      node.metadata.views ∈ state.tables)
    (waits : nodeID ∈ state.peers → changed.map Node.admitted = some false →
      state.KeptOut nodeID)
    (starts : nodeID ∈ state.peers → state.nodes nodeID = none → changed ≠ none →
      state.KeptOut nodeID)
    (cleared : ∀ pass ∈ state.pass, pass.stage ≠ .preparing → pass.nodeID = nodeID →
      changed.map Node.admitted ≠ some true) :
    (state.setNode nodeID changed).Guarded := by
  have origin : TablesFrom state (state.setNode nodeID changed) fun _ => False :=
    tablesFrom_setNode fun node same listed => .inl (installs node same listed)
  have tables : ∀ table ∈ (state.setNode nodeID changed).tables,
      table ∈ state.tables := fun table member =>
    (origin.2 table member).resolve_right id
  refine ⟨guarded.named, fun table member => guarded.tidy table (tables table member),
    guarded.numbered, ?_, ?_, ?_, guarded.marks, guarded.unavailable⟩
  · intro other barred
    suffices kept : state.KeptOut other from kept.carry tables rfl
    obtain ⟨listed, waiting | taken⟩ := barred
    · rw [admission_setNode] at waiting
      split_ifs at waiting with same
      · subst same
        exact waits listed waiting
      · exact guarded.keptOut other ⟨listed, .inl waiting⟩
    · exact guarded.keptOut other ⟨listed, .inr taken⟩
  · intro pass present
    obtain ⟨listed, unadmitted⟩ := guarded.pass pass present
    refine ⟨listed, fun past => ?_⟩
    rw [admission_setNode]
    split_ifs with same
    · exact cleared pass present past same
    · exact unadmitted past
  · intro number lost table member
    have old := tables table member
    obtain ⟨slot, found, leader, replica⟩ := guarded.lost number lost table old
    -- a node that starts is named by no table, so it is not one of the owners
    have gone : ∀ owner, slot.leaderID = owner ∨ slot.replicaID = owner →
        state.Gone owner → (state.setNode nodeID changed).Gone owner := by
      intro owner owns gone listed
      obtain ⟨stopped, confirmed⟩ := gone listed
      refine ⟨?_, confirmed⟩
      rw [nodes_setNode]
      split_ifs with same
      · subst same
        by_contra running
        have unnamed := (starts listed stopped running).tables table old slot
          (List.mem_of_getElem? found)
        exact owns.elim unnamed.1 unnamed.2
      · exact stopped
    exact ⟨slot, found, gone _ (.inl rfl) leader,
      fun ready => gone _ (.inr rfl) (replica ready)⟩

/-! ### Committed commands -/

theorem commit_cases (state : ManagedCluster) (command : ControlCommand) :
    state.commit command = state ∨ ∃ fsm,
      state.commit command = { state with fsm } ∧
        FSM.Effect command state.fsm.state fsm.state := by
  unfold commit
  split
  · exact .inl rfl
  · rename_i fsm applied
    exact .inr ⟨fsm, rfl, FSM.apply_effect applied⟩

/-- A command other than an observation, with the conditions on what it brings. -/
theorem Guarded.commit (guarded : state.Guarded) {command : ControlCommand}
    (silent : command.observes = false)
    (fits : ∀ plan ∈ command.newPlan, ∀ step ∈ plan.steps, step.Fits state.view)
    (marked : ∀ number ∈ command.marked, state.view.Lost number ∧
      (∀ plan ∈ state.activePlan, OnlyMarked plan number) ∧ command.newPlan = none) :
    (state.commit command).Guarded := by
  rcases state.commit_cases command with same | ⟨fsm, same, effect⟩
  · rw [same]
    exact guarded
  rw [same]
  obtain ⟨slots, nodes⟩ := effect.view silent
  have lost := fun number => lost_congr slots nodes number
  have eligible := eligibleNodeIDs_congr nodes
  have plans : ∀ plan ∈ fsm.state.activePlan,
      (∀ step ∈ plan.steps, step.Fits state.view) ∨
        ∃ old ∈ state.activePlan, plan.steps = old.steps := by
    intro plan active
    rcases effect.plan plan active with new | old
    · exact .inl (fits plan new)
    · exact .inr old
  refine ⟨guarded.named, guarded.tidy, fun number slot found =>
    guarded.numbered number slot (slots ▸ found), ?_, guarded.pass, ?_, ?_, ?_⟩
  · intro nodeID barred
    have kept := guarded.keptOut nodeID barred
    refine ⟨kept.tables, fun slot member => kept.slots slot (slots ▸ member),
      fun member => kept.eligible (eligible ▸ member), ?_⟩
    intro plan active step listed assigns
    rcases plans plan active with new | ⟨old, before, steps⟩
    · rintro rfl
      exact kept.eligible ((new step listed).target assigns)
    · exact kept.plan old before step (steps ▸ listed) assigns
  · exact fun number gone => guarded.lost number ((lost number).mp gone)
  · intro plan active step listed marks
    rw [lost]
    rcases plans plan active with new | ⟨old, before, steps⟩
    · have gone := (new step listed).lost.mp marks
      refine ⟨gone, fun other present same => ?_⟩
      exact (new other present).lost.mpr (same ▸ gone)
    · obtain ⟨gone, only⟩ := guarded.marks old before step (steps ▸ listed) marks
      exact ⟨gone, fun other present => only other (steps ▸ present)⟩
  · intro number recorded
    rw [lost]
    rcases effect.unavailable number recorded with known | new
    · obtain ⟨gone, only⟩ := guarded.unavailable number known
      refine ⟨gone, fun plan active step listed same => ?_⟩
      rcases plans plan active with new | ⟨old, before, steps⟩
      · exact (new step listed).lost.mpr (same ▸ gone)
      · exact only old before step (steps ▸ listed) same
    · obtain ⟨gone, only, unplanned⟩ := marked number new
      refine ⟨gone, fun plan active step listed same => ?_⟩
      rcases effect.plan plan active with other | ⟨old, before, steps⟩
      · rw [unplanned] at other
        cases other
      · exact only old before step (steps ▸ listed) same

/-- A command that brings neither a plan nor a record. -/
theorem Guarded.commit_quiet (guarded : state.Guarded) {command : ControlCommand}
    (silent : command.observes = false) (planless : command.newPlan = none)
    (unmarked : command.marked = []) : (state.commit command).Guarded := by
  refine guarded.commit silent ?_ ?_
  · rw [planless]
    exact nofun
  · rw [unmarked]
    exact nofun

/-! ### The planner and the executor -/

theorem lost_iff {view : ClusterView}
    (numbered : ∀ (number : Nat) (slot : SlotView), view.slots[number]? = some slot →
      slot.number = number) {number : Nat} :
    view.Lost number ↔ ∃ slot, view.slots[number]? = some slot ∧
      slot.classify view.nodes = .noSurvivingCopy := by
  constructor
  · intro lost
    obtain ⟨slot, member, rfl, classified⟩ := ClusterView.exists_of_classified lost
    obtain ⟨index, found⟩ := List.mem_iff_getElem?.mp member
    rw [numbered index slot found]
    exact ⟨slot, found, classified⟩
  · rintro ⟨slot, found, classified⟩
    have known := classifySlots_of_mem (nodup_numbers numbered)
      (List.mem_of_getElem? found)
    rw [numbered number slot found, classified] at known
    exact known

theorem newPlan_silent {command : ControlCommand} {plan : RecoveryPlan}
    (new : command.newPlan = some plan) :
    command.observes = false ∧ command.marked = [] := by
  cases command <;> first | exact ⟨rfl, rfl⟩ | cases new

theorem Guarded.evaluate [PlanDigest] (guarded : state.Guarded) :
    state.evaluate.Guarded := by
  unfold ManagedCluster.evaluate
  rw [FSM.cloneState_eq]
  dsimp only
  have planned : { state with
      planner := (state.planner.evaluate state.clock state.fsm.state).1 }.Guarded := by
    refine ⟨guarded.named, guarded.tidy, guarded.numbered, ?_, guarded.pass,
      guarded.lost, guarded.marks, guarded.unavailable⟩
    exact fun nodeID barred =>
      (guarded.keptOut nodeID barred).carry (fun _ member => member) rfl
  split
  · exact planned
  · rename_i command proposed
    obtain ⟨plan, new, fits⟩ :=
      Planner.evaluate_fits (nodup_numbers guarded.numbered) proposed
    obtain ⟨silent, unmarked⟩ := newPlan_silent new
    refine planned.commit silent ?_ ?_
    · intro other same
      obtain rfl : plan = other := Option.some.inj (new.symm.trans same)
      exact fits
    · rw [unmarked]
      exact nofun

theorem nodes_call (state : ManagedCluster) (reached : List String) (call : AdminCall) :
    state.call reached call =
      { state with nodes := (state.call reached call).nodes } := by
  have installs : ∀ (other : ManagedCluster) nodeID node
      (result : Except ClusterError Metadata),
      other.install reached nodeID node result =
        { other with nodes := (other.install reached nodeID node result).nodes } := by
    intro other nodeID node result
    cases result <;> rfl
  cases call with
  | promote nodeID slot =>
      simp only [ManagedCluster.call]
      split
      · rfl
      · exact installs ..
  | assignReplica nodeID slot target =>
      simp only [ManagedCluster.call]
      split
      · rfl
      · exact installs ..
  | syncReplica nodeID slot target =>
      simp only [ManagedCluster.call]
      split
      · rfl
      · unfold syncReplica
        split
        · rfl
        · split
          · dsimp only
            split_ifs
            · rfl
            · split
              · rfl
              · exact installs ..
          · rfl

theorem Guarded.call (guarded : state.Guarded) (reached : List String)
    {call : AdminCall} (listed : call.node ∈ state.peers) {plan : RecoveryPlan}
    (active : plan ∈ state.activePlan) (planned : call.planStep ∈ plan.steps)
    (copied : ¬ state.view.Lost call.planStep.slot) :
    (state.call reached call).Guarded := by
  obtain ⟨⟨-, tables⟩, admission⟩ := call_effect guarded.tidy listed
  rw [nodes_call] at tables admission ⊢
  generalize (state.call reached call).nodes = nodes at tables admission ⊢
  refine ⟨guarded.named, ?_, guarded.numbered, ?_, ?_, ?_, guarded.marks,
    guarded.unavailable⟩
  · intro table member
    rcases tables table member with old | ⟨before, old, altered⟩
    · exact guarded.tidy table old
    · exact altered.tidy (guarded.tidy before old)
  · rintro nodeID ⟨polled, barred⟩
    rw [admission] at barred
    have kept := guarded.keptOut nodeID ⟨polled, barred⟩
    refine ⟨fun table member => ?_, kept.slots, kept.eligible, kept.plan⟩
    rcases tables table member with old | ⟨before, old, altered⟩
    · exact kept.tables table old
    · exact altered.unnamed (guarded.named_of_mem polled)
        (kept.plan plan active _ planned) (kept.tables before old)
  · intro pass present
    rw [admission]
    exact guarded.pass pass present
  · intro number lost table member
    have gone : ∀ nodeID, state.Gone nodeID → { state with nodes }.Gone nodeID := by
      intro nodeID gone polled
      obtain ⟨stopped, confirmed⟩ := gone polled
      refine ⟨?_, confirmed⟩
      rw [← admission_eq_none, admission, admission_eq_none]
      exact stopped
    obtain ⟨before, old, same⟩ : ∃ before ∈ state.tables,
        table[number]? = before[number]? := by
      rcases tables table member with old | ⟨before, old, altered⟩
      · exact ⟨table, old, rfl⟩
      · refine ⟨before, old, altered.elsewhere (guarded.tidy before old) ?_⟩
        rintro rfl
        exact copied lost
    obtain ⟨slot, found, leader, replica⟩ := guarded.lost number lost before old
    exact ⟨slot, same.trans found, gone _ leader, fun ready => gone _ (replica ready)⟩

theorem slot_unavailableRecord (plan : RecoveryPlan) (number : Nat)
    (view : ClusterView) : (unavailableRecord plan number view).slot = number := by
  unfold unavailableRecord
  split <;> rfl

theorem RecoveryPlan.mem_of_openStep {plan : RecoveryPlan} {step : PlanStep}
    {index : Nat} (next : plan.openStep = some (step, index)) : step ∈ plan.steps :=
  List.mem_of_getElem? (List.mem_zipIdx_iff_getElem?.mp (List.mem_of_find?_eq_some next))

theorem Guarded.work (guarded : state.Guarded) (delivered : Bool)
    (reached : List String)
    (copied : ∀ plan ∈ state.activePlan, ∀ item ∈ plan.openStep,
      item.1.kind ≠ .markUnavailable → ¬ state.view.Lost item.1.slot) :
    (state.work delivered reached).Guarded := by
  unfold ManagedCluster.work
  rw [FSM.cloneState_eq]
  split
  · exact guarded
  · rename_i plan active
    split
    · exact guarded.commit_quiet rfl rfl rfl
    · rename_i step index next
      have planned := RecoveryPlan.mem_of_openStep next
      split
      · rename_i marks
        split
        · exact guarded.commit_quiet rfl rfl rfl
        · refine guarded.commit rfl nofun fun number marked => ?_
          obtain rfl : number = step.slot := by
            simpa [ControlCommand.marked, slot_unavailableRecord] using marked
          obtain ⟨lost, only⟩ := guarded.marks plan active step planned marks
          refine ⟨lost, fun other same => ?_, rfl⟩
          obtain rfl : plan = other := Option.some.inj (active.symm.trans same)
          exact only
      · rename_i moves
        split
        · rename_i call _ executed
          split
          · obtain ⟨carries, listed⟩ :=
              executeTopologyStep_call (congrArg Prod.fst executed)
            refine guarded.call reached listed active (carries ▸ planned) ?_
            rw [carries]
            exact copied plan active _ next moves
          · exact guarded
        · exact guarded.commit_quiet rfl rfl rfl
        · exact guarded

/-! ### Passes of the returning node controller -/

theorem reconcileStart_prepare {clients : List String} {committed : FSMSnapshot}
    {nodeID : String} (started : reconcileStart clients committed = .prepare nodeID) :
    nodeID ∈ clients := by
  unfold reconcileStart at started
  split_ifs at started
  split at started
  · cases started
  · split_ifs at started with known
    split at started
    · cases started
      exact known
    · cases started

theorem Guarded.takeUp (guarded : state.Guarded) : state.takeUp.Guarded := by
  unfold ManagedCluster.takeUp
  split
  · exact guarded
  · dsimp only
    split
    · exact guarded
    · exact guarded
    · exact guarded.commit_quiet rfl rfl rfl
    · rename_i started
      refine guarded.setPass fun taken same => ?_
      obtain rfl := Option.some.inj same
      exact ⟨reconcileStart_prepare started, fun past => absurd rfl past⟩

theorem Guarded.judge (guarded : state.Guarded) {pass : ReturningPass}
    {result : Except ReturningNodeError ReturningNodeResponse}
    (listed : pass.nodeID ∈ state.peers)
    (waiting : state.admission pass.nodeID = some false) :
    (state.judge pass result).Guarded := by
  unfold ManagedCluster.judge
  split
  · exact guarded.endPass
  · split_ifs
    · refine guarded.setPass fun taken same => ?_
      obtain rfl := Option.some.inj same
      refine ⟨listed, fun _ => ⟨by simp [waiting], ?_⟩⟩
      exact guarded.keptOut _ ⟨listed, .inl waiting⟩
    · exact guarded.endPass

/-- A prepared node was fenced before or is so now, with a table that was there. -/
theorem prepareReturning_node (clusterID : String) (metadataVersion : Nat) (now : Int)
    (answers : List (Option MetadataSnapshot)) (node : Node) :
    let prepared := (node.prepareReturning clusterID metadataVersion now answers).2
    (node.admitted = false → prepared.admitted = false) ∧
      (prepared.metadata = node.metadata ∨
        prepared.metadata = node.metadata.syncMetadata answers) := by
  dsimp only
  unfold Node.prepareReturning
  split_ifs
  · exact ⟨id, .inl rfl⟩
  · dsimp only
    split
    · exact ⟨fun _ => rfl, .inl rfl⟩
    · split_ifs
      · exact ⟨fun _ => rfl, .inr rfl⟩
      · exact ⟨fun _ => rfl, .inr rfl⟩

/-- An admission leaves the table alone and fences no node. -/
theorem admitReturning_node (clusterID : String) (metadataVersion : Nat) (now : Int)
    (node : Node) :
    let admitted := (node.admitReturning clusterID metadataVersion now).2
    admitted.metadata = node.metadata ∧
      (admitted.admitted = false → node.admitted = false) := by
  dsimp only
  unfold Node.admitReturning
  split_ifs
  · exact ⟨rfl, id⟩
  · split
    · exact ⟨rfl, id⟩
    · split_ifs
      · exact ⟨rfl, id⟩
      · exact ⟨rfl, nofun⟩

theorem Guarded.prepare (guarded : state.Guarded) (fate : CallFate)
    (reached : List String)
    (recovering : ∀ pass ∈ state.pass, state.admission pass.nodeID ≠ some true) :
    (state.prepare fate reached).Guarded := by
  unfold ManagedCluster.prepare
  split
  · exact guarded
  · rename_i pass taken
    obtain ⟨listed, -⟩ := guarded.pass pass taken
    split_ifs
    · exact guarded
    · split
      · exact guarded.endPass
      · rename_i node running
        have fenced : node.admitted = false := by
          have unadmitted := recovering pass taken
          rw [admission, running] at unadmitted
          simpa using unadmitted
        have waiting : state.admission pass.nodeID = some false := by
          rw [admission, running]
          exact congrArg some fenced
        have kept := guarded.keptOut pass.nodeID ⟨listed, .inl waiting⟩
        obtain ⟨stillFenced, metadata⟩ := prepareReturning_node pass.clusterID
          pass.metadataVersion state.clock (state.peerTables reached pass.nodeID) node
        have stillFenced := stillFenced fenced
        dsimp only
        generalize node.prepareReturning pass.clusterID pass.metadataVersion state.clock
          (state.peerTables reached pass.nodeID) = called at stillFenced metadata ⊢
        have cleared : (state.setNode pass.nodeID (some called.2)).Guarded := by
          refine guarded.setNode ?_ (fun _ _ => kept) (fun _ _ _ => kept) ?_
          · intro other same _
            obtain rfl := Option.some.inj same
            have own := table_of_node listed running
            rcases metadata with same | synced
            · rw [same]
              exact own
            · rw [synced]
              rcases views_syncMetadata_peerTables node.metadata reached pass.nodeID with
                same | taken
              · rw [same]
                exact own
              · exact taken
          · intro _ _ _ _
            simp [stillFenced]
        split
        · exact guarded.endPass
        · exact guarded.judge listed waiting
        · exact cleared.endPass
        · refine cleared.judge listed ?_
          rw [admission_setNode, if_pos rfl]
          exact congrArg some stillFenced

theorem Guarded.commitAdmission (guarded : state.Guarded) :
    state.commitAdmission.Guarded := by
  unfold ManagedCluster.commitAdmission
  split
  · exact guarded
  · rename_i pass taken
    split_ifs with other
    · exact guarded
    · have validated : pass.stage = .validated := not_not.mp other
      have past : pass.stage ≠ .preparing := by simp [validated]
      have committed : (state.commit (.admitReturningNode pass.nodeID true)).Guarded :=
        guarded.commit_quiet rfl rfl rfl
      have same : (state.commit (.admitReturningNode pass.nodeID true)).pass =
          state.pass := by
        unfold ManagedCluster.commit
        split <;> rfl
      have still : pass ∈ (state.commit (.admitReturningNode pass.nodeID true)).pass :=
        same ▸ taken
      obtain ⟨listed, unadmitted⟩ := committed.pass pass still
      refine committed.setPass fun next equal => ?_
      obtain rfl := Option.some.inj equal
      exact ⟨listed, fun _ => ⟨unadmitted past,
        committed.keptOut _ ⟨listed, .inr ⟨pass, still, rfl, past⟩⟩⟩⟩

theorem Guarded.issueAdmission (guarded : state.Guarded) (fate : CallFate) :
    (state.issueAdmission fate).Guarded := by
  unfold ManagedCluster.issueAdmission
  split
  · exact guarded
  · rename_i pass taken
    have handled : ∀ node, state.nodes pass.nodeID = some node →
        ((state.setNode pass.nodeID (some (node.admitReturning
          state.fsm.cloneState.latestView.clusterID
          state.fsm.cloneState.latestView.metadataVersion state.clock).2)).setPass
            none).Guarded := by
      intro node running
      have changed := fun clusterID version =>
        admitReturning_node clusterID version state.clock node
      -- the pass is over before the node counts as admitted
      refine guarded.endPass.setNode ?_ ?_ ?_ nofun
      · intro other same listed
        obtain rfl := Option.some.inj same
        rw [(changed _ _).1]
        exact table_of_node listed running
      · intro listed waiting
        have fenced := (changed _ _).2 (Option.some.inj waiting)
        refine (guarded.keptOut _ ⟨listed, .inl ?_⟩).carry (fun _ member => member) rfl
        rw [admission, running]
        exact congrArg some fenced
      · intro _ stopped
        have running : (state.setPass none).nodes pass.nodeID = some node := running
        rw [running] at stopped
        cases stopped
    split_ifs
    · exact guarded
    · split
      · exact guarded.endPass
      · exact guarded.endPass
      · exact guarded.endPass
      · exact handled _ ‹_›
      · exact handled _ ‹_›

/-! ### The nodes by themselves -/

theorem Guarded.stop (guarded : state.Guarded) (nodeID : String) :
    (state.setNode nodeID none).Guarded :=
  guarded.setNode nofun nofun (fun _ _ running => absurd rfl running) (by simp)

theorem Guarded.traffic (guarded : state.Guarded) {nodeID : String} {node : Node}
    (running : state.nodes nodeID = some node) (engine : Engine)
    (sequences : Nat → Nat × Nat) :
    (state.setNode nodeID (some
      { node with engine, metadata := node.metadata.resequence sequences })).Guarded := by
  have same : state.admission nodeID = some node.admitted := by
    rw [admission, running]
    rfl
  refine guarded.setNode ?_ ?_ ?_ ?_
  · intro other equal listed
    obtain rfl := Option.some.inj equal
    rw [Metadata.views_resequence]
    exact table_of_node listed running
  · intro listed waiting
    exact guarded.keptOut nodeID ⟨listed, .inl (same.trans waiting)⟩
  · intro _ stopped
    rw [running] at stopped
    cases stopped
  · rintro pass present past rfl admitted
    exact (guarded.pass pass present).2 past (same.trans admitted)

theorem Guarded.restart (guarded : state.Guarded) {nodeID : String} {node : Node}
    (kept : state.KeptOut nodeID) (table : node.metadata.views ∈ state.tables)
    (fenced : node.admitted = false) :
    (state.setNode nodeID (some node)).Guarded := by
  refine guarded.setNode ?_ (fun _ _ => kept) (fun _ _ _ => kept) ?_
  · intro other same _
    obtain rfl := Option.some.inj same
    exact table
  · intro _ _ _ _
    simp [fenced]

end ManagedCluster

end MnemoKV
