import MnemoKV.ClusterNode
import MnemoKV.ControllerState
import MnemoKV.PlanPromotions

/-!
# Executing a plan

The executor waits until the eligible nodes report the same slot table, tests the
postcondition of the next step against it and otherwise calls the node in charge.
A promotion is sent to the node that the plan names, but that node promotes
whatever replica its table has by then.
-/

namespace MnemoKV

def SlotState.status (row : SlotState) : SlotStatus :=
  { number := row.number, leaderID := row.leaderID, replicaID := row.replicaID
    term := row.term, replicaReady := row.replicaReady }

/-- `handleClusterState` on a node of an enabled cluster. -/
def Node.clusterState (node : Node) : ClusterStateResponse :=
  { enabled := true, nodeID := node.id, clusterID := node.metadata.clusterID
    slotCount := node.metadata.slotCount
    metadataVersion := node.metadata.version
    slots := node.metadata.slots.map SlotState.status
    dataState := if node.admitted then .active else .recovering }

/-- All responses have one version and one table. -/
def clusterStatesConverged : List ClusterStateResponse → Bool
  | [] => false
  | first :: rest => rest.all fun state => state.agrees first

def findSlot (state : ClusterStateResponse) (number : Nat) : Option SlotStatus :=
  match state.slots[number]? with
  | some slot =>
      if slot.number = number then some slot
      else state.slots.find? fun slot => slot.number = number
  | none => state.slots.find? fun slot => slot.number = number

/-- Whether a step has taken effect in a table. -/
def stepPostcondition (state : ClusterStateResponse) (step : PlanStep) : Bool :=
  match findSlot state step.slot with
  | none => false
  | some slot =>
      match step.kind with
      | .promote => slot.leaderID == step.target && slot.replicaID == "" &&
          !slot.replicaReady
      | .assignReplica => slot.replicaID == step.target && !slot.replicaReady &&
          slot.leaderID != step.target
      | .sync => slot.replicaID == step.target && slot.replicaReady &&
          slot.leaderID != step.target
      | .markUnavailable | .other _ _ => false

/-- A call of the executor to a node. -/
inductive AdminCall
  | promote (node : String) (slot : Nat)
  | assignReplica (node : String) (slot : Nat) (target : String)
  | syncReplica (node : String) (slot : Nat) (target : String)
  deriving DecidableEq

def AdminCall.node : AdminCall → String
  | promote node _ | assignReplica node _ _ | syncReplica node _ _ => node

/-- The step that a call carries out. -/
def AdminCall.planStep : AdminCall → PlanStep
  | promote node slot => ⟨.promote, slot, node⟩
  | assignReplica _ slot target => ⟨.assignReplica, slot, target⟩
  | syncReplica _ slot target => ⟨.sync, slot, target⟩

/-- The errors of `ExecuteOnce`. -/
inductive ExecutorError
  | notLeader
  | planSuperseded
  | notConverged
  | noClient (node : String)
  | noLeader (slot : Nat)
  | unsupportedStep
  | callFailed (kind : StepKind) (slot : Nat)
  | postconditionMissed (kind : StepKind) (slot : Nat)
  deriving DecidableEq

/-- What the executor finds when it looks around: whether it still leads, the
committed state, and the tables of the nodes it can reach. -/
structure Round where
  leads : Bool
  state : FSMSnapshot
  fetch : String → Option ClusterStateResponse

namespace Round

def activePlan (round : Round) (planID : String) : Except ExecutorError RecoveryPlan :=
  if round.leads = false then .error .notLeader
  else
    match round.state.activePlan with
    | none => .error .planSuperseded
    | some plan => if plan.id = planID then .ok plan else .error .planSuperseded

/-- Every eligible node answers, none is behind the epoch, and all agree. -/
def convergedState (clients : List String) (round : Round) (epoch : Nat) :
    Option ClusterStateResponse :=
  let reach nodeID :=
    if nodeID ∈ clients then
      (round.fetch nodeID).filter fun response =>
        decide (epoch ≤ response.metadataVersion)
    else none
  match round.state.latestView.eligibleNodeIDs.mapM reach with
  | none => none
  | some responses =>
      if clusterStatesConverged responses then responses.head? else none

end Round

/-- The rounds go on until the deadline. -/
def waitForConvergence (clients : List String) (plan : RecoveryPlan) :
    List Round → Except ExecutorError ClusterStateResponse
  | [] => .error .notConverged
  | round :: later =>
      match round.activePlan plan.id with
      | .error error => .error error
      | .ok _ =>
          match round.convergedState clients plan.epoch with
          | some state => .ok state
          | none => waitForConvergence clients plan later

/-- The call that a step needs in a converged state. -/
def stepCall (clients : List String) (converged : ClusterStateResponse)
    (step : PlanStep) : Except ExecutorError AdminCall :=
  let leaderCall (call : String → AdminCall) : Except ExecutorError AdminCall :=
    match findSlot converged step.slot with
    | none => .error (.noLeader step.slot)
    | some slot =>
        if slot.leaderID = "" then .error (.noLeader step.slot)
        else if slot.leaderID ∉ clients then .error (.noClient slot.leaderID)
        else .ok (call slot.leaderID)
  match step.kind with
  | .promote =>
      if step.target ∉ clients then .error (.noClient step.target)
      else .ok (.promote step.target step.slot)
  | .assignReplica => leaderCall fun leader =>
      .assignReplica leader step.slot step.target
  | .sync => leaderCall fun leader => .syncReplica leader step.slot step.target
  | .markUnavailable | .other _ _ => .error .unsupportedStep

/-- What the executor makes of a call and of the state it finds afterwards. -/
def verifyStep (step : PlanStep) (callFailed : Bool)
    (verified : Except ExecutorError ClusterStateResponse) :
    Except ExecutorError Unit :=
  match verified with
  | .ok state =>
      if stepPostcondition state step then .ok ()
      else if callFailed then .error (.callFailed step.kind step.slot)
      else .error (.postconditionMissed step.kind step.slot)
  | .error error =>
      if callFailed then .error (.callFailed step.kind step.slot) else .error error

/-- The call that is made, if any, and the result.  `perform` answers whether the
call failed and what the executor finds afterwards. -/
def executeTopologyStep (clients : List String) (plan : RecoveryPlan)
    (step : PlanStep) (before : List Round) (current : Round)
    (perform : AdminCall → Bool × List Round) :
    Option AdminCall × Except ExecutorError Unit :=
  match waitForConvergence clients plan before with
  | .error error => (none, .error error)
  | .ok converged =>
      if stepPostcondition converged step then (none, .ok ())
      else
        match current.activePlan plan.id with
        | .error error => (none, .error error)
        | .ok _ =>
            match stepCall clients converged step with
            | .error error => (none, .error error)
            | .ok call =>
                let (callFailed, after) := perform call
                (some call, verifyStep step callFailed
                  (waitForConvergence clients plan after))

/-- A plan that one of the planners made from the view. -/
def PlannedFrom [PlanDigest] (view : ClusterView) (plan : RecoveryPlan) : Prop :=
  planFailover view = some plan ∨
    ∃ skewThreshold maxMoves, planRebalance view skewThreshold maxMoves = some plan

theorem PlannedFrom.foreseen [PlanDigest] {view : ClusterView} {plan : RecoveryPlan}
    (planned : PlannedFrom view plan)
    (distinct : (view.slots.map SlotView.number).Nodup) :
    Foreseen view [] plan.steps := by
  rcases planned with failover | ⟨skewThreshold, maxMoves, rebalance⟩
  · exact planFailover_foreseen distinct failover
  · exact planRebalance_foreseen rebalance

theorem stepCall_spec {clients : List String} {converged : ClusterStateResponse}
    {step : PlanStep} {call : AdminCall}
    (called : stepCall clients converged step = .ok call) :
    call.planStep = step ∧ call.node ∈ clients := by
  obtain ⟨kind, number, target⟩ := step
  cases kind with
  | promote =>
      simp only [stepCall] at called
      split_ifs at called with known
      cases called
      exact ⟨rfl, known⟩
  | assignReplica =>
      simp only [stepCall] at called
      split at called
      · cases called
      · split_ifs at called with leaderless known
        cases called
        exact ⟨rfl, known⟩
  | sync =>
      simp only [stepCall] at called
      split at called
      · cases called
      · split_ifs at called with leaderless known
        cases called
        exact ⟨rfl, known⟩
  | markUnavailable => cases called
  | other => cases called

/-- Only a promotion step leads to a promotion, on the node and the slot that it
names. -/
theorem stepCall_promote {clients : List String} {converged : ClusterStateResponse}
    {step : PlanStep} {node : String} {slot : Nat}
    (called : stepCall clients converged step = .ok (.promote node slot)) :
    step.kind = .promote ∧ node = step.target ∧ slot = step.slot := by
  obtain rfl := (stepCall_spec called).1
  exact ⟨rfl, rfl, rfl⟩

theorem executeTopologyStep_promote {clients : List String} {plan : RecoveryPlan}
    {step : PlanStep} {before : List Round} {current : Round}
    {perform : AdminCall → Bool × List Round} {node : String} {slot : Nat}
    (called : (executeTopologyStep clients plan step before current perform).1 =
      some (.promote node slot)) :
    step.kind = .promote ∧ node = step.target ∧ slot = step.slot := by
  unfold executeTopologyStep at called
  split at called
  · cases called
  · split_ifs at called
    split at called
    · cases called
    · split at called
      · cases called
      · rename_i call needed
        obtain rfl := Option.some.inj called
        exact stepCall_promote needed

/-- A node promotes the replica of its own table. -/
theorem Metadata.promote_slot {metadata after : Metadata} {number : Nat}
    (promoted : metadata.promote number = .ok after) :
    ∃ row row', metadata.slot number = some row ∧ after.slot number = some row' ∧
      row'.leaderID = row.replicaID := by
  obtain ⟨row, present, -, rfl⟩ := promote_ok promoted
  exact ⟨row, _, present, slot_setSlot_self present _, rfl⟩

/-! ### What has been done since the view -/

/-- The replica of a slot and whether it is ready. -/
def Metadata.replicaOf (metadata : Metadata) (slot : Nat) : Option (String × Bool) :=
  (metadata.slot slot).map fun row => (row.replicaID, row.replicaReady)

/-- The topology operations that were carried out on the slot table, by whatever plan
or administrator, since it was as in the view.  In between the table may change in
other respects and spread to other nodes. -/
inductive TableHistory (view : ClusterView) : List PlanStep → Metadata → Prop
  | observed {metadata : Metadata}
      (shows : ∀ slot, metadata.replicaOf slot = view.replicaAfter [] slot) :
      TableHistory view [] metadata
  | promote {done : List PlanStep} {metadata after : Metadata} {slot : Nat}
      (history : TableHistory view done metadata) (target : String)
      (promoted : metadata.promote slot = .ok after) :
      TableHistory view (done ++ [⟨.promote, slot, target⟩]) after
  | assignReplica {done : List PlanStep} {metadata after : Metadata} {slot : Nat}
      {target : String} (history : TableHistory view done metadata)
      (assigned : metadata.assignReplica slot target = .ok after) :
      TableHistory view (done ++ [⟨.assignReplica, slot, target⟩]) after
  | sync {done : List PlanStep} {metadata after : Metadata} {slot term sequence : Nat}
      {row : SlotState} (history : TableHistory view done metadata)
      (present : metadata.slot slot = some row)
      (marked : metadata.markReplicaReady slot term sequence = .ok after) :
      TableHistory view (done ++ [⟨.sync, slot, row.replicaID⟩]) after
  | other {done : List PlanStep} {metadata after : Metadata}
      (history : TableHistory view done metadata)
      (same : ∀ slot, after.replicaOf slot = metadata.replicaOf slot) :
      TableHistory view done after

/-- The last of the steps that leaves a replica, or none, in the slot. -/
def lastAbout (steps : List PlanStep) (slot : Nat) : Option PlanStep :=
  steps.reverse.find? fun step => (step.leaves slot).isSome

theorem ClusterView.replicaAfter_eq (view : ClusterView) (steps : List PlanStep)
    (slot : Nat) :
    view.replicaAfter steps slot =
      match lastAbout steps slot with
      | some step => step.leaves slot
      | none => view.replicaAfter [] slot := by
  unfold replicaAfter lastAbout
  rw [List.getLast?_filterMap]
  induction steps.reverse with
  | nil => rfl
  | cons step rest induction =>
      cases left : step.leaves slot with
      | none => simpa [left] using induction
      | some replica => simp [left]

theorem ClusterView.replicaAfter_append (view : ClusterView) (done : List PlanStep)
    (step : PlanStep) (slot : Nat) :
    view.replicaAfter (done ++ [step]) slot =
      (step.leaves slot).or (view.replicaAfter done slot) := by
  unfold replicaAfter
  rw [List.filterMap_append, List.getLast?_append]
  cases left : step.leaves slot <;> simp [left]

theorem Metadata.replicaOf_step {metadata : Metadata} {number slot : Nat}
    {row row' : SlotState} {step : PlanStep} (present : metadata.slot number = some row)
    (left : step.leaves slot =
      if number = slot then some (row'.replicaID, row'.replicaReady) else none) :
    (metadata.setSlot number row').bumpVersion.replicaOf slot =
      (step.leaves slot).or (metadata.replicaOf slot) := by
  rw [left, replicaOf]
  change Option.map _ ((metadata.setSlot number row').slot slot) = _
  split_ifs with same
  · rw [← same, slot_setSlot_self present]
    rfl
  · rw [slot_setSlot_of_ne same]
    rfl

/-- The table has the replica that the operations since the view have left. -/
theorem TableHistory.replicaOf_eq {view : ClusterView} {done : List PlanStep}
    {metadata : Metadata} (history : TableHistory view done metadata) (slot : Nat) :
    metadata.replicaOf slot = view.replicaAfter done slot := by
  induction history with
  | observed shows => exact shows slot
  | promote _ target promoted induction =>
      obtain ⟨row, present, -, rfl⟩ := Metadata.promote_ok promoted
      rw [view.replicaAfter_append, ← induction]
      exact Metadata.replicaOf_step present (by simp [PlanStep.leaves])
  | assignReplica _ assigned induction =>
      obtain ⟨row, present, -, -, rfl⟩ := Metadata.assignReplica_ok assigned
      rw [view.replicaAfter_append, ← induction]
      exact Metadata.replicaOf_step present (by simp [PlanStep.leaves])
  | sync _ found marked induction =>
      obtain ⟨row, present, -, -, -, rfl⟩ := Metadata.markReplicaReady_ok marked
      obtain rfl := Option.some.inj (found.symm.trans present)
      rw [view.replicaAfter_append, ← induction]
      exact Metadata.replicaOf_step present (by simp [PlanStep.leaves])
  | other _ same induction => exact (same slot).trans induction

theorem PlanStep.leaves_ready_iff {step : PlanStep} {slot : Nat} {target : String} :
    step.leaves slot = some (target, true) ↔ step = ⟨.sync, slot, target⟩ := by
  obtain ⟨kind, number, name⟩ := step
  unfold leaves
  cases kind <;> simp

/-- A promotion that the executor calls makes a synchronised replica the leader, the
one that the plan names, exactly if the last operation on the slot since the view was
the synchronisation of that node, or there was none and the view has it as the ready
replica.  So it does if the last operation on the slot was the plan's own. -/
theorem promotion_reaches_ready_target_iff [PlanDigest] (view : ClusterView)
    (distinct : (view.slots.map SlotView.number).Nodup) (plan : RecoveryPlan)
    (planned : PlannedFrom view plan) (earlier later : List PlanStep)
    (step : PlanStep) (steps : plan.steps = earlier ++ step :: later)
    (clients : List String) (before : List Round) (current : Round)
    (perform : AdminCall → Bool × List Round) (node : Node) (slot : Nat)
    (called : (executeTopologyStep clients plan step before current perform).1 =
      some (.promote node.id slot))
    (done : List PlanStep) (history : TableHistory view done node.metadata)
    (after : Metadata) (promoted : node.metadata.promote slot = .ok after) :
    ∃ row row', node.metadata.slot slot = some row ∧ after.slot slot = some row' ∧
      ((row.replicaID = step.target ∧ row.replicaReady = true ∧
          row'.leaderID = step.target) ↔
        lastAbout done slot = some ⟨.sync, slot, step.target⟩ ∨
        lastAbout done slot = none ∧
          (view.slots.find? fun seen => seen.number = slot).map (fun seen =>
            (seen.replicaID, seen.replicaReady)) = some (step.target, true)) ∧
      (lastAbout done slot = lastAbout earlier slot →
        row.replicaID = step.target ∧ row.replicaReady = true ∧
          row'.leaderID = step.target) := by
  obtain ⟨promotes, -, rfl⟩ := executeTopologyStep_promote called
  obtain ⟨row, row', present, moved, leads⟩ := Metadata.promote_slot promoted
  have foreseen := planned.foreseen distinct
  rw [steps] at foreseen
  have expected := foreseen.replicaAfter promotes
  have left := history.replicaOf_eq step.slot
  rw [Metadata.replicaOf, present, Option.map_some] at left
  -- all three facts are about the replica that the operations have left
  have reached : (row.replicaID = step.target ∧ row.replicaReady = true ∧
      row'.leaderID = step.target) ↔
      view.replicaAfter done step.slot = some (step.target, true) := by
    rw [← left, leads, Option.some.injEq, Prod.mk.injEq]
    tauto
  refine ⟨row, row', present, moved, ?_, fun same => reached.mpr ?_⟩
  · rw [reached, view.replicaAfter_eq]
    cases last : lastAbout done step.slot with
    | none => simp [ClusterView.replicaAfter]
    | some operation =>
        simp only [PlanStep.leaves_ready_iff, Option.some.injEq, reduceCtorEq, false_and,
          or_false]
  · rw [view.replicaAfter_eq, same, ← view.replicaAfter_eq]
    exact expected

section Examples

/-- A digest for plans of which only one is considered. -/
@[reducible]
def PlanDigest.constant : PlanDigest := ⟨fun _ => "0"⟩

attribute [local instance] PlanDigest.constant

/-- The node `b` of a cluster with one slot, which `a` leads and `b` replicates. -/
def nodeB (metadata : Metadata) : Node :=
  { metadata, engine := { store := .new 1, limitBytes := 0, policy := .noEviction }
    admitted := true }

def threePeerTable : Metadata :=
  newMetadata
    { id := "main", enabled := true, replicationEnabled := true, slotCount := 1
      peers := [⟨"a", "", ""⟩, ⟨"b", "", ""⟩, ⟨"c", "", ""⟩] } "b"

def availableNode (nodeID : String) (available : Bool) : NodeView :=
  { NodeView.zero with id := nodeID, reachable := available, eligible := available }

/-- The observation that `a` has failed. -/
def failedLeaderView : ClusterView :=
  { clusterID := "main", metadataVersion := 1
    slots := threePeerTable.slots.map fun row => row.status.view
    nodes := (((∅ : NodeViews).insert "a" (availableNode "a" false)).insert "b"
      (availableNode "b" true)).insert "c" (availableNode "c" true)
    observedAt := 0, status := .zero }

/-- The executor finds the plan active and the same table on every node. -/
def convergedRound (plan : RecoveryPlan) (metadata : Metadata) : Round :=
  { leads := true
    state := { FSM.initial.state with
      latestView := failedLeaderView, activePlan := some plan }
    fetch := fun _ => some (nodeB metadata).clusterState }

def promotionCall (plan : RecoveryPlan) (metadata : Metadata) : Option AdminCall :=
  (executeTopologyStep ["a", "b", "c"] plan ⟨.promote, 0, "b"⟩
    [convergedRound plan metadata] (convergedRound plan metadata)
    fun _ => (false, [])).1

/-- A plan from before the promotion of `b` meets the table that this promotion
and the assignment of `c` left, and hands the slot to the empty replica `c`. -/
theorem stale_plan_promotes_unsynchronised_replica :
    ∃ plan promoted assigned after,
      planFailover failedLeaderView = some plan ∧
      plan.steps.head? = some ⟨.promote, 0, "b"⟩ ∧
      threePeerTable.promote 0 = .ok promoted ∧
      promoted.assignReplica 0 "c" = .ok assigned ∧
      promotionCall plan assigned = some (.promote "b" 0) ∧
      (assigned.slot 0).map (fun row => (row.replicaID, row.replicaReady)) =
        some ("c", false) ∧
      assigned.promote 0 = .ok after ∧
      (after.slot 0).map SlotState.leaderID = some "c" := by
  refine ⟨_, _, _, _, rfl, rfl, rfl, rfl, rfl, rfl, rfl, rfl⟩

/-- The same plan on the table it was made from. -/
theorem fresh_plan_promotes_ready_replica :
    ∃ plan after row row',
      planFailover failedLeaderView = some plan ∧
      promotionCall plan threePeerTable = some (.promote "b" 0) ∧
      threePeerTable.promote 0 = .ok after ∧
      threePeerTable.slot 0 = some row ∧ after.slot 0 = some row' ∧
      row.replicaID = "b" ∧ row.replicaReady = true ∧ row'.leaderID = "b" := by
  obtain ⟨plan, planned⟩ : ∃ plan, planFailover failedLeaderView = some plan :=
    ⟨_, rfl⟩
  obtain ⟨after, promoted⟩ : ∃ after, threePeerTable.promote 0 = .ok after :=
    ⟨_, rfl⟩
  have steps : plan.steps = [] ++ ⟨.promote, 0, "b"⟩ ::
      [⟨.assignReplica, 0, "c"⟩, ⟨.sync, 0, "c"⟩] := by
    obtain rfl := Option.some.inj planned
    rfl
  have called : promotionCall plan threePeerTable = some (.promote "b" 0) := by
    obtain rfl := Option.some.inj planned
    rfl
  obtain ⟨row, row', present, moved, holds⟩ :=
    promotion_reaches_ready_target_iff failedLeaderView (by decide) plan
      (.inl planned) [] _ ⟨.promote, 0, "b"⟩ steps ["a", "b", "c"]
      [convergedRound plan threePeerTable] (convergedRound plan threePeerTable)
      (fun _ => (false, [])) (nodeB threePeerTable) 0 called []
      (.observed fun slot => match slot with | 0 | _ + 1 => rfl) after promoted
  obtain rfl := Option.some.inj present
  exact ⟨plan, after, _, row', planned, called, promoted, rfl, moved, holds.2 rfl⟩

end Examples

end MnemoKV
