import MnemoKV.ReturningOwners
import MnemoKV.SharedTables

/-!
# Interrupted executions of a plan

`ExecuteOnce` works off the steps of the active plan.  It may be interrupted before
a call, after a call that took effect and before `step_done` is committed, and after
that; the next attempt starts from the committed state and repeats whatever is not
counted as done.  What it finds of an earlier attempt is the postcondition of the
step, and this is enough: once the plan is complete, every step has taken effect
exactly once.
-/

namespace MnemoKV

open GuardedSteps LabelledRuns

/-! ### `ExecuteOnce` -/

/-- Where `ExecuteOnce` stands with its step. -/
inductive AttemptStage
  | visiting
  /-- A node has been called, and the tables are to be looked at once more. -/
  | verifying (callFailed : Bool)
  /-- The step is to be recorded as done. -/
  | closing

/-- A call of `ExecuteOnce`: the plan and the number of steps that it read at first,
and how far its loop has come. -/
structure Attempt where
  planID : String
  steps : Nat
  index : Nat
  stage : AttemptStage

def Attempt.next (attempt : Attempt) : Attempt :=
  { attempt with index := attempt.index + 1, stage := .visiting }

/-- A cluster and the attempt that is under way, if any. -/
structure Execution where
  cluster : ManagedCluster
  attempt : Option Attempt

/-- The executor moves, or something else happens around it. -/
inductive ExecutionEvent
  /-- `ExecuteOnce` is called. -/
  | begin
  /-- It goes on; a call to a node, if it makes one, ends in some way. -/
  | advance (fate : CallFate)
  /-- The controller stops or loses its leadership. -/
  | interrupt
  | around (event : ClusterEvent)

/-- No topology changes but by the plan. -/
def ExecutionEvent.quiet : ExecutionEvent → Bool
  | around event => event.quiet
  | _ => true

/-- A call and whether it returns an error.  Broadcasts reach every node. -/
def ManagedCluster.deliver (state : ManagedCluster) (call : AdminCall) :
    CallFate → ManagedCluster × Bool
  | .lost => (state, true)
  | .replayed => (state, false)
  | .unanswered => (state.call state.peers call, true)
  | .answered => (state.call state.peers call, false)

namespace Execution

def leave (state : Execution) : Execution := { state with attempt := none }

def goOn (state : Execution) (attempt : Attempt) : Execution :=
  { state with attempt := some attempt }

/-- `Propose`; an error ends the attempt. -/
def propose (state : Execution) (command : ControlCommand) (next : Option Attempt) :
    Execution :=
  match state.cluster.fsm.apply (state.cluster.fsm.state.controlIndex + 1) command with
  | .error _ => state.leave
  | .ok fsm => { cluster := { state.cluster with fsm }, attempt := next }

def begin (state : Execution) : Execution :=
  match state.attempt, state.cluster.fsm.cloneState.activePlan with
  | none, some plan =>
      state.goOn { planID := plan.id, steps := plan.steps.length, index := 0
                   stage := .visiting }
  | _, _ => state

/-- The body of the loop up to `step_done`, or up to the call of a node. -/
def visit (state : Execution) (attempt : Attempt) (plan : RecoveryPlan)
    (step : PlanStep) (fate : CallFate) : Execution :=
  let cluster := state.cluster
  if plan.done.getD (attempt.index : Int) false then state.goOn attempt.next
  else if step.kind = .markUnavailable then
    if step.slot ∈ cluster.fsm.cloneState.unavailable then
      state.goOn { attempt with stage := .closing }
    else
      state.propose (.markUnavailable
          [unavailableRecord plan step.slot cluster.fsm.cloneState.latestView])
        (some { attempt with stage := .closing })
  else
    match executeTopologyStep cluster.peers plan step [cluster.round] cluster.round
      fun _ => (true, []) with
    | (some call, _) =>
        let (called, callFailed) := cluster.deliver call fate
        { cluster := called
          attempt := some { attempt with stage := .verifying callFailed } }
    | (none, .ok ()) => state.goOn { attempt with stage := .closing }
    | (none, .error _) => state.leave

def verify (state : Execution) (attempt : Attempt) (plan : RecoveryPlan)
    (step : PlanStep) (callFailed : Bool) : Execution :=
  match verifyStep step callFailed
    (waitForConvergence state.cluster.peers plan [state.cluster.round]) with
  | .ok () => state.goOn { attempt with stage := .closing }
  | .error _ => state.leave

/-- The attempt goes on until it has called a node or committed a command, or to
the next step. -/
def advance (state : Execution) (fate : CallFate) : Execution :=
  match state.attempt with
  | none => state
  | some attempt =>
      match state.cluster.round.activePlan attempt.planID with
      | .error _ => state.leave
      | .ok plan =>
          if attempt.index < attempt.steps then
            match plan.steps[attempt.index]? with
            | none => state.leave
            | some step =>
                match attempt.stage with
                | .visiting => state.visit attempt plan step fate
                | .verifying callFailed => state.verify attempt plan step callFailed
                | .closing =>
                    state.propose (.stepDone plan.id attempt.index) (some attempt.next)
          else state.propose (.planComplete plan.id) none

/-- One event around the executor. -/
def step [PlanDigest] (config : ClusterConfig) (engineConfig : EngineConfig)
    (state : Execution) : ExecutionEvent → Execution
  | .begin => state.begin
  | .advance fate => state.advance fate
  | .interrupt => state.leave
  | .around event => { state with cluster := state.cluster.step config engineConfig event }

end Execution

/-! ### What the executor sees -/

theorem ManagedCluster.converged_node {state : ManagedCluster} {plan : RecoveryPlan}
    {converged : ClusterStateResponse}
    (waited : waitForConvergence state.peers plan [state.round] = .ok converged) :
    ∃ nodeID ∈ state.peers, ∃ node, state.nodes nodeID = some node ∧
      converged = node.clusterState := by
  simp only [waitForConvergence] at waited
  split at waited
  · cases waited
  · split at waited
    · rename_i found
      obtain rfl := Except.ok.inj waited
      unfold Round.convergedState at found
      dsimp only at found
      split at found
      · cases found
      · rename_i responses reached
        split_ifs at found
        cases eligible : state.round.state.latestView.eligibleNodeIDs with
        | nil =>
            rw [eligible] at reached
            obtain rfl := Option.some.inj reached
            cases found
        | cons nodeID rest =>
            rw [eligible, List.mapM_cons] at reached
            obtain ⟨first, fetched, later⟩ := Option.bind_eq_some_iff.mp reached
            obtain ⟨others, -, listed⟩ := Option.bind_eq_some_iff.mp later
            obtain rfl := Option.some.inj listed
            obtain rfl := Option.some.inj found
            split_ifs at fetched with known
            obtain ⟨answered, -⟩ := Option.filter_eq_some_iff.mp fetched
            obtain ⟨node, running, same⟩ := Option.map_eq_some_iff.mp answered
            exact ⟨nodeID, known, node, running, same.symm⟩
    · cases waited

theorem findSlot_clusterState {node : Node} (numbered : node.metadata.Numbered)
    (number : Nat) :
    findSlot node.clusterState number =
      node.metadata.slots[number]?.map SlotState.status := by
  unfold findSlot Node.clusterState
  dsimp only
  rw [List.getElem?_map]
  cases found : node.metadata.slots[number]? with
  | some row =>
      have own : row.status.number = number := numbered number row found
      simp [own]
  | none =>
      simp only [Option.map_none, List.find?_eq_none, List.mem_map]
      rintro _ ⟨row, member, rfl⟩ same
      obtain ⟨index, here⟩ := List.mem_iff_getElem?.mp member
      have own : row.number = index := numbered index row here
      have place : index = number := own.symm.trans (of_decide_eq_true same)
      rw [place, found] at here
      cases here

theorem stepPostcondition_clusterState {node : Node} {shared : Metadata}
    (same : shared.SameTable node.metadata) (valid : shared.Valid) {step : PlanStep}
    (moves : step.kind ≠ .markUnavailable) :
    stepPostcondition node.clusterState step = step.met shared.topology := by
  have views : node.metadata.views = shared.views :=
    congrArg Topology.table same.topology
  rw [PlanStep.met_eq moves, Metadata.topology, ← views, Metadata.views,
    List.getElem?_map, stepPostcondition,
    findSlot_clusterState (same.valid valid).slots]
  cases node.metadata.slots[step.slot]? with
  | none => rfl
  | some row =>
      obtain ⟨kind, slot, target⟩ := step
      cases kind <;> rfl

/-- What `executeTopologyStep` does with the state that it finds. -/
theorem executeTopologyStep_cases {clients : List String} {plan : RecoveryPlan}
    {step : PlanStep} {before : List Round} {current : Round}
    {perform : AdminCall → Bool × List Round} {call : Option AdminCall}
    {result : Except ExecutorError Unit}
    (executed : executeTopologyStep clients plan step before current perform =
      (call, result)) (useful : call ≠ none ∨ result = .ok ()) :
    ∃ converged, waitForConvergence clients plan before = .ok converged ∧
      stepPostcondition converged step = call.isNone := by
  unfold executeTopologyStep at executed
  split at executed
  · cases executed
    exact useful.elim (absurd rfl) nofun
  · rename_i converged waited
    refine ⟨converged, waited, ?_⟩
    split_ifs at executed with holds
    · cases executed
      exact holds
    · have unmet : stepPostcondition converged step = false :=
        Bool.not_eq_true _ ▸ holds
      split at executed
      · cases executed
        exact useful.elim (absurd rfl) nofun
      · split at executed
        · cases executed
          exact useful.elim (absurd rfl) nofun
        · cases executed
          exact unmet

/-! ### Where an execution stands -/

/-- The committed plan counts the first `done` steps as done, until it is complete. -/
inductive Counted (plan : RecoveryPlan) (done : Nat) : Option RecoveryPlan → Prop
  | complete (all : done = plan.steps.length) : Counted plan done none
  | active {current : RecoveryPlan} (id : current.id = plan.id)
      (steps : current.steps = plan.steps) (bounded : done ≤ plan.steps.length)
      (marks : ∀ index : Nat, current.done.getD (index : Int) false = decide (index < done)) :
      Counted plan done (some current)

/-- An attempt has passed only steps that are done. -/
structure Attempt.Fits (plan : RecoveryPlan) (progress : Progress Topology)
    (attempt : Attempt) : Prop where
  planID : attempt.planID = plan.id
  steps : attempt.steps = plan.steps.length
  passed : attempt.index ≤ progress.done
  stage : match attempt.stage with
    | .visiting => True
    | .verifying _ => attempt.index = progress.done
    | .closing => attempt.index = progress.done ∧
        ∀ step, plan.steps[attempt.index]? = some step → step.met progress.state = true

/-- The nodes have the table that the steps so far lead to. -/
structure Stands (plan : RecoveryPlan) (origin : Topology) (state : Execution)
    (progress : Progress Topology) : Prop where
  moves : Relation.ReflTransGen (Move PlanStep.take PlanStep.met plan.steps) ⟨0, origin⟩
    progress
  shared : ∃ shared, state.cluster.Agreed shared ∧ shared.topology = progress.state
  counted : Counted plan progress.done state.cluster.activePlan
  attempt : ∀ attempt, state.attempt = some attempt → attempt.Fits plan progress

section Resumption

variable {plan : RecoveryPlan} {origin : Topology} {state : Execution}
  {progress : Progress Topology}

section

variable (stands : Stands plan origin state progress)

include stands

theorem Stands.active {current : RecoveryPlan}
    (active : state.cluster.activePlan = some current) :
    current.id = plan.id ∧ current.steps = plan.steps ∧
      ∀ index : Nat, current.done.getD (index : Int) false = decide (index < progress.done) := by
  have counted : Counted plan progress.done (some current) := active ▸ stands.counted
  cases counted with
  | active id steps bounded marks => exact ⟨id, steps, marks⟩

theorem Stands.leave :
    Stands plan origin state.leave progress :=
  { stands with attempt := nofun }

theorem Stands.goOn {attempt : Attempt}
    (fits : attempt.Fits plan progress) :
    Stands plan origin (state.goOn attempt) progress :=
  { stands with attempt := fun _ same => Option.some.inj same ▸ fits }

theorem Stands.propose
    {command : ControlCommand} {next : Option Attempt} {done : Nat}
    (moves : Relation.ReflTransGen (Move PlanStep.take PlanStep.met plan.steps) ⟨0, origin⟩
      ⟨done, progress.state⟩)
    (counted : ∀ fsm, state.cluster.fsm.apply
      (state.cluster.fsm.state.controlIndex + 1) command = .ok fsm →
      Counted plan done fsm.state.activePlan)
    (fits : ∀ attempt, next = some attempt → attempt.Fits plan ⟨done, progress.state⟩) :
    ∃ later, Stands plan origin (state.propose command next) later := by
  unfold Execution.propose
  split
  · exact ⟨progress, stands.leave⟩
  · rename_i fsm applied
    obtain ⟨shared, agreed, topology⟩ := stands.shared
    exact ⟨_, moves, ⟨shared, agreed.of_nodes rfl rfl, topology⟩, counted fsm applied, fits⟩

/-- The table that the executor waits for shows the postconditions. -/
theorem Stands.met {current : RecoveryPlan}
    {step : PlanStep} {converged : ClusterStateResponse}
    (waited : waitForConvergence state.cluster.peers current [state.cluster.round] =
      .ok converged) (moves : step.kind ≠ .markUnavailable) :
    stepPostcondition converged step = step.met progress.state := by
  obtain ⟨shared, agreed, topology⟩ := stands.shared
  obtain ⟨nodeID, listed, node, running, rfl⟩ := state.cluster.converged_node waited
  have same := agreed.nodes nodeID listed node running
  rw [stepPostcondition_clusterState same agreed.valid moves, topology]

theorem Stands.begin :
    Stands plan origin state.begin progress := by
  unfold Execution.begin
  rw [FSM.cloneState_eq]
  split
  · rename_i current idle active
    obtain ⟨id, steps, -⟩ := stands.active active
    exact stands.goOn ⟨id, congrArg List.length steps, Nat.zero_le _, trivial⟩
  · exact stands

theorem Stands.deliver {step : PlanStep}
    (next : plan.steps[progress.done]? = some step)
    (unmet : step.met progress.state = false) {call : AdminCall}
    (carries : call.planStep = step) (listed : call.node ∈ state.cluster.peers)
    (fate : CallFate) {attempt : Attempt}
    (fits : ∀ later : Progress Topology, later.done = progress.done →
      attempt.Fits plan later) :
    ∃ later, Stands plan origin ⟨(state.cluster.deliver call fate).1, some attempt⟩
      later := by
  obtain ⟨shared, agreed, topology⟩ := stands.shared
  have unchanged : Stands plan origin ⟨state.cluster, some attempt⟩ progress :=
    stands.goOn (fits progress rfl)
  have sent : ∃ later, Stands plan origin
      ⟨state.cluster.call state.cluster.peers call, some attempt⟩ later := by
    have counted : Counted plan progress.done
        (state.cluster.call state.cluster.peers call).activePlan := by
      rw [ManagedCluster.activePlan, ManagedCluster.fsm_call]
      exact stands.counted
    obtain ⟨moved, agrees, same | taken⟩ := agreed.call listed
    · exact ⟨progress, stands.moves, ⟨moved, agrees, same.trans topology⟩, counted,
        unchanged.attempt⟩
    · refine ⟨⟨progress.done, step.take progress.state⟩, stands.moves.tail
        (.take next unmet), ⟨moved, agrees, ?_⟩, counted, fun _ same => ?_⟩
      · rw [taken, carries, topology]
      · exact Option.some.inj same ▸ fits _ rfl
  cases fate with
  | lost => exact ⟨progress, unchanged⟩
  | replayed => exact ⟨progress, unchanged⟩
  | unanswered => exact sent
  | answered => exact sent

theorem Stands.visit {attempt : Attempt}
    {current : RecoveryPlan} {step : PlanStep}
    (running : state.attempt = some attempt)
    (active : state.cluster.activePlan = some current)
    (next : current.steps[attempt.index]? = some step) (fate : CallFate) :
    ∃ later, Stands plan origin (state.visit attempt current step fate) later := by
  have fits := stands.attempt attempt running
  obtain ⟨-, steps, marks⟩ := stands.active active
  rw [steps] at next
  unfold Execution.visit
  dsimp only
  by_cases done : attempt.index < progress.done
  · rw [if_pos ((marks _).trans (decide_eq_true done))]
    exact ⟨progress, stands.goOn ⟨fits.planID, fits.steps, done, trivial⟩⟩
  have here : attempt.index = progress.done := Nat.le_antisymm fits.passed (by omega)
  rw [if_neg (by rw [marks, decide_eq_false done]; decide)]
  -- The attempt closes the step that is next, and nothing else.
  have closes : ∀ {later : Progress Topology}, later.done = progress.done →
      step.met later.state = true →
      ({ attempt with stage := .closing } : Attempt).Fits plan later := by
    intro later same met
    refine ⟨fits.planID, fits.steps, (here.trans same.symm).le, here.trans same.symm, ?_⟩
    intro other found
    obtain rfl := Option.some.inj (next.symm.trans found)
    exact met
  by_cases marking : step.kind = .markUnavailable
  · rw [if_pos marking]
    have met := PlanStep.met_of_mark marking progress.state
    split_ifs
    · exact ⟨progress, stands.goOn (closes rfl met)⟩
    · refine stands.propose stands.moves (fun fsm applied => ?_)
        fun _ same => Option.some.inj same ▸ closes rfl met
      have kept : fsm.state.activePlan = state.cluster.activePlan :=
        FSM.apply_keepsPlan rfl applied
      rw [kept]
      exact stands.counted
  · rw [if_neg marking]
    split
    · rename_i call result executed
      obtain ⟨carries, listed⟩ := executeTopologyStep_call (congrArg Prod.fst executed)
      obtain ⟨converged, waited, unmet⟩ :=
        executeTopologyStep_cases executed (.inl nofun)
      rw [stands.met waited marking] at unmet
      rw [here] at next
      exact stands.deliver next unmet carries listed fate fun later same =>
        ⟨fits.planID, fits.steps, (here.trans same.symm).le, here.trans same.symm⟩
    · rename_i executed
      obtain ⟨converged, waited, met⟩ := executeTopologyStep_cases executed (.inr rfl)
      rw [stands.met waited marking] at met
      exact ⟨progress, stands.goOn (closes rfl met)⟩
    · exact ⟨progress, stands.leave⟩

theorem Stands.verify {attempt : Attempt}
    {current : RecoveryPlan} {step : PlanStep} {callFailed : Bool}
    (running : state.attempt = some attempt) (stage : attempt.stage = .verifying callFailed)
    (next : plan.steps[attempt.index]? = some step) :
    Stands plan origin (state.verify attempt current step callFailed) progress := by
  have fits := stands.attempt attempt running
  have here : attempt.index = progress.done := by
    have staged := fits.stage
    rw [stage] at staged
    exact staged
  unfold Execution.verify
  split
  · rename_i verified
    refine stands.goOn ⟨fits.planID, fits.steps, fits.passed, here, fun other found => ?_⟩
    obtain rfl := Option.some.inj (next.symm.trans found)
    unfold verifyStep at verified
    split at verified
    · rename_i waited
      split_ifs at verified with reached
      by_cases marking : step.kind = .markUnavailable
      · exact PlanStep.met_of_mark marking _
      · rw [← stands.met waited marking]
        exact reached
    · split_ifs at verified
  · exact stands.leave

theorem Stands.close {attempt : Attempt}
    {current : RecoveryPlan} {step : PlanStep} (running : state.attempt = some attempt)
    (stage : attempt.stage = .closing) (active : state.cluster.activePlan = some current)
    (next : current.steps[attempt.index]? = some step) :
    ∃ later, Stands plan origin
      (state.propose (.stepDone current.id attempt.index) (some attempt.next)) later := by
  have fits := stands.attempt attempt running
  obtain ⟨here, met⟩ : attempt.index = progress.done ∧
      ∀ step, plan.steps[attempt.index]? = some step → step.met progress.state = true := by
    have staged := fits.stage
    rw [stage] at staged
    exact staged
  obtain ⟨id, steps, marks⟩ := stands.active active
  obtain ⟨inRange, -⟩ := List.getElem?_eq_some_iff.mp next
  rw [steps] at next
  refine stands.propose (stands.moves.tail (.count (here ▸ next) (met step next)))
    (fun fsm applied => ?_) fun _ same => ?_
  · rw [FSM.apply_stepDone active inRange applied]
    rw [steps] at inRange
    refine .active id steps (by omega) fun index => ?_
    dsimp only
    rw [Std.ExtTreeMap.getD_insert]
    split_ifs with same
    · have same : (attempt.index : Int) = index := Std.LawfulEqCmp.eq_of_compare same
      exact (decide_eq_true (by omega)).symm
    · have other : (attempt.index : Int) ≠ index := by
        rintro equal
        exact same (by rw [equal]; exact Std.ReflCmp.compare_self)
      rw [marks, decide_eq_decide]
      omega
  · obtain rfl := Option.some.inj same
    exact ⟨fits.planID, fits.steps, Nat.succ_le_succ here.le, trivial⟩

theorem Stands.finish {attempt : Attempt}
    {current : RecoveryPlan} (running : state.attempt = some attempt)
    (active : state.cluster.activePlan = some current)
    (through : attempt.steps ≤ attempt.index) :
    ∃ later, Stands plan origin (state.propose (.planComplete current.id) none) later := by
  have fits := stands.attempt attempt running
  have counted : Counted plan progress.done (some current) := active ▸ stands.counted
  refine stands.propose stands.moves (fun fsm applied => ?_) nofun
  rw [FSM.apply_planComplete applied]
  have total := fits.steps
  have passed := fits.passed
  cases counted with
  | active id steps bounded marks => exact .complete (by omega)

theorem Stands.advance (fate : CallFate) :
    ∃ later, Stands plan origin (state.advance fate) later := by
  unfold Execution.advance
  split
  · exact ⟨progress, stands⟩
  · rename_i attempt running
    split
    · exact ⟨progress, stands.leave⟩
    · rename_i current found
      have active : state.cluster.activePlan = some current := by
        unfold Round.activePlan at found
        split_ifs at found
        split at found
        · cases found
        · rename_i known
          split_ifs at found
          obtain rfl := Except.ok.inj found
          have known : state.cluster.fsm.cloneState.activePlan = some _ := known
          rwa [FSM.cloneState_eq] at known
      split_ifs with inside
      · split
        · exact ⟨progress, stands.leave⟩
        · rename_i step next
          split
          · exact stands.visit running active next fate
          · rename_i callFailed stage
            rw [(stands.active active).2.1] at next
            exact ⟨progress, stands.verify running stage next⟩
          · rename_i stage
            exact stands.close running stage active next
      · exact stands.finish running active (Nat.not_lt.mp inside)

theorem Stands.step [PlanDigest] {config : ClusterConfig} {engineConfig : EngineConfig}
    (event : ExecutionEvent)
    (quiet : event.quiet = true) :
    ∃ later, Stands plan origin (state.step config engineConfig event) later := by
  cases event with
  | begin => exact ⟨progress, stands.begin⟩
  | advance fate => exact stands.advance fate
  | interrupt => exact ⟨progress, stands.leave⟩
  | around event =>
      obtain ⟨shared, agreed, topology⟩ := stands.shared
      have kept : state.cluster.Undisturbed shared
          (state.cluster.step config engineConfig event) := agreed.quiet quiet
      obtain ⟨agrees, active⟩ := kept
      refine ⟨progress, stands.moves, ⟨shared, agrees, topology⟩, ?_, stands.attempt⟩
      have counted := stands.counted
      rw [← active] at counted
      exact counted

end

end Resumption

/-! ### Plans of the planners -/

theorem PlannedFrom.done [PlanDigest] {view : ClusterView} {plan : RecoveryPlan}
    (planned : PlannedFrom view plan) : plan.done = ∅ := by
  rcases planned with failover | ⟨skewThreshold, maxMoves, rebalance⟩
  · unfold planFailover at failover
    dsimp only at failover
    split_ifs at failover
    obtain rfl := Option.some.inj failover
    rfl
  · unfold planRebalance at rebalance
    dsimp only at rebalance
    split_ifs at rebalance
    all_goals
      obtain rfl := Option.some.inj rebalance
      rfl

/-- The view that a planner works from: the table of the nodes, and nodes that are
peers of the cluster. -/
structure ClusterView.Shows (view : ClusterView) (shared : Metadata) : Prop where
  slots : view.slots = shared.views
  version : view.metadataVersion = shared.version
  nodes : ∀ nodeID ∈ view.eligibleNodeIDs, nodeID ∈ shared.peers.map MetadataPeer.id

theorem ClusterView.Shows.named {view : ClusterView} {shared : Metadata}
    (shows : view.Shows shared) (valid : shared.Valid) : "" ∉ view.eligibleNodeIDs := by
  intro eligible
  obtain ⟨peer, listed, unnamed⟩ := List.mem_map.mp (shows.nodes _ eligible)
  exact valid.named listed unnamed

/-- The table that a completed plan leaves, however often it was interrupted. -/
theorem PlannedFrom.completed [PlanDigest] {view : ClusterView} {plan : RecoveryPlan}
    (planned : PlannedFrom view plan) {shared : Metadata} (shows : view.Shows shared)
    {cluster : ManagedCluster} (active : cluster.activePlan = some plan)
    (agreed : cluster.Agreed shared) {config : ClusterConfig} {engineConfig : EngineConfig}
    {events : List ExecutionEvent} (quiet : ∀ event ∈ events, event.quiet = true)
    {final : ManagedCluster}
    (ends : (run (Execution.step config engineConfig) ⟨cluster, none⟩ events).cluster = final)
    (complete : final.activePlan = none) :
    ∃ later, final.Agreed later ∧
      later.topology = after PlanStep.take plan.steps shared.topology := by
  have starts : ∃ progress, Stands plan shared.topology ⟨cluster, none⟩ progress := by
    refine ⟨⟨0, shared.topology⟩, .refl, ⟨shared, agreed, rfl⟩, ?_, nofun⟩
    rw [active]
    refine .active rfl rfl (Nat.zero_le _) fun index => ?_
    rw [planned.done]
    simp
  have keeps : ∀ state, ∀ event ∈ events,
      (∃ progress, Stands plan shared.topology state progress) →
        ∃ progress, Stands plan shared.topology (state.step config engineConfig event)
          progress :=
    fun state event listed ⟨progress, stands⟩ => stands.step event (quiet event listed)
  obtain ⟨progress, moves, ⟨later, agrees, reached⟩, counted, -⟩ :=
    run_induction (Execution.step config engineConfig) keeps starts
  rw [ends] at agrees counted
  rw [complete] at counted
  cases counted with
  | complete all =>
      have numbered : SlotTable.Numbered view.slots := shows.slots ▸ agreed.valid.numbered
      have tells := planned.tells (shows.named agreed.valid) numbered shared.version
      rw [shows.slots] at tells
      exact ⟨later, agrees, reached.trans (state_of_all_done tells moves all)⟩

/-- A plan that has been completed has changed the tables as if every step had been
taken once and in order, and as any execution does that is not interrupted. -/
theorem completed_plan_takes_each_step_once [PlanDigest] (view : ClusterView)
    (plan : RecoveryPlan) (planned : PlannedFrom view plan) (shared : Metadata)
    (shows : view.Shows shared) (cluster : ManagedCluster)
    (active : cluster.activePlan = some plan) (agreed : cluster.Agreed shared)
    (config : ClusterConfig) (engineConfig : EngineConfig) (events : List ExecutionEvent)
    (quiet : ∀ event ∈ events, event.quiet = true) (final : ManagedCluster)
    (ends : (run (Execution.step config engineConfig) ⟨cluster, none⟩ events).cluster = final)
    (complete : final.activePlan = none) :
    (∀ nodeID ∈ final.peers, ∀ node, final.nodes nodeID = some node →
      node.metadata.views = (view.perform plan.steps).slots ∧
        node.metadata.version = view.metadataVersion +
          plan.steps.countP fun step => step.kind.isTopology) ∧
      ∀ direct : List ExecutionEvent, .interrupt ∉ direct →
        (∀ event ∈ direct, event.quiet = true) → ∀ undisturbed : ManagedCluster,
        (run (Execution.step config engineConfig) ⟨cluster, none⟩ direct).cluster =
          undisturbed → undisturbed.activePlan = none →
        ∀ nodeID ∈ final.peers, ∀ node, final.nodes nodeID = some node →
          ∀ otherID ∈ undisturbed.peers, ∀ other,
            undisturbed.nodes otherID = some other →
              node.metadata.views = other.metadata.views := by
  have tables : ∀ {ended : ManagedCluster} {course : List ExecutionEvent},
      (∀ event ∈ course, event.quiet = true) →
      (run (Execution.step config engineConfig) ⟨cluster, none⟩ course).cluster = ended →
      ended.activePlan = none → ∀ nodeID ∈ ended.peers, ∀ node,
        ended.nodes nodeID = some node →
          node.metadata.topology = after PlanStep.take plan.steps shared.topology := by
    intro ended course quiet ends complete nodeID listed node running
    obtain ⟨later, agrees, topology⟩ :=
      planned.completed shows active agreed quiet ends complete
    exact (agrees.nodes nodeID listed node running).topology.trans topology
  refine ⟨fun nodeID listed node running => ?_, ?_⟩
  · have topology := tables quiet ends complete nodeID listed node running
    have views := congrArg Topology.table topology
    have version := congrArg Topology.version topology
    rw [table_after] at views
    rw [version_after] at version
    refine ⟨views.trans ?_, version.trans ?_⟩
    · rw [ClusterView.perform, shows.slots]
      rfl
    · rw [shows.version]
      rfl
  · intro direct _ calm undisturbed reached done nodeID listed node running otherID
      known other runs
    have first := tables quiet ends complete nodeID listed node running
    have second := tables calm reached done otherID known other runs
    exact congrArg Topology.table (first.trans second.symm)

/-- Once a failover plan has been completed, in however many attempts, every node that
runs has a table in which all slots are whole again, except those without any copy. -/
theorem completed_failover_restores_slots [PlanDigest] (view : ClusterView)
    (plan : RecoveryPlan) (planned : planFailover view = some plan)
    (two : 2 ≤ view.eligibleNodeIDs.length) (shared : Metadata) (shows : view.Shows shared)
    (cluster : ManagedCluster) (active : cluster.activePlan = some plan)
    (agreed : cluster.Agreed shared) (config : ClusterConfig) (engineConfig : EngineConfig)
    (events : List ExecutionEvent) (quiet : ∀ event ∈ events, event.quiet = true)
    (final : ManagedCluster)
    (ends : (run (Execution.step config engineConfig) ⟨cluster, none⟩ events).cluster = final)
    (complete : final.activePlan = none) :
    ∀ nodeID ∈ final.peers, ∀ node, final.nodes nodeID = some node →
      ∀ slot ∈ node.metadata.views, slot.classify view.nodes = .unaffected ∨
        slot.classify view.nodes = .noSurvivingCopy ∧ slot ∈ view.slots := by
  intro nodeID listed node running slot present
  obtain ⟨later, agrees, topology⟩ :=
    PlannedFrom.completed (.inl planned) shows active agreed quiet ends complete
  have views := congrArg Topology.table
    ((agrees.nodes nodeID listed node running).topology.trans topology)
  rw [table_after, (planFailover_some planned).1] at views
  have numbered : SlotTable.Numbered view.slots := shows.slots ▸ agreed.valid.numbered
  refine Failover.settled_perform (nodup_numbers numbered) two (shows.named agreed.valid)
    slot ?_
  rw [ClusterView.perform, shows.slots]
  exact views ▸ present

section Examples

open ManagedCluster

attribute [local instance] digestOfLength

/-- A cluster of three nodes, of which `a` has failed, with the plan for that. -/
def failedLeader : ManagedCluster :=
  reachedAfter ["a", "b", "c"]
    [.observe ["a", "b", "c"], .stop "a", .observe ["b", "c"], .evaluate]

/-- The controller stops before the first call, after `b` has been promoted, and
after `c` has been recorded as the replica. -/
def interruptedCourse : List ExecutionEvent :=
  [.begin, .interrupt, .begin, .advance .unanswered, .interrupt, .begin] ++
    List.replicate 5 (.advance .answered) ++ [.interrupt, .begin] ++
    List.replicate 6 (.advance .answered)

def directCourse : List ExecutionEvent :=
  .begin :: List.replicate 10 (.advance .answered)

def afterCourse (course : List ExecutionEvent) : ManagedCluster :=
  (run (Execution.step (oneSlotCluster ["a", "b", "c"]) smallEngine)
    ⟨failedLeader, none⟩ course).cluster

def firstTable : Metadata := newMetadata (oneSlotCluster ["a", "b", "c"]) "a"

theorem agreed_failedLeader : failedLeader.Agreed firstTable := by
  have same : ∀ nodeID ∈ failedLeader.peers, (failedLeader.nodes nodeID).all (fun node =>
      node.metadata.frame = firstTable.frame ∧
        node.metadata.topology = firstTable.topology) = true := by
    decide +kernel
  refine ⟨by unfold Metadata.Valid; decide +kernel, fun nodeID listed node running => ?_⟩
  have here := same nodeID listed
  rw [running] at here
  obtain ⟨frame, topology⟩ := of_decide_eq_true here
  exact ⟨frame, topology⟩

/-- Three attempts are interrupted, and the tables are those of a single one. -/
theorem interruptedCourse_takes_each_step_once :
    ∃ plan node other, planFailover failedLeader.view = some plan ∧
      plan.steps = [⟨.promote, 0, "b"⟩, ⟨.assignReplica, 0, "c"⟩, ⟨.sync, 0, "c"⟩] ∧
      (afterCourse interruptedCourse).nodes "c" = some node ∧
      node.metadata.views = (failedLeader.view.perform plan.steps).slots ∧
      node.metadata.version = 4 ∧
      (afterCourse directCourse).nodes "b" = some other ∧
      node.metadata.views = other.metadata.views := by
  obtain ⟨plan, made, active⟩ : ∃ plan, planFailover failedLeader.view = some plan ∧
      failedLeader.activePlan = some plan :=
    ⟨_, rfl, rfl⟩
  have steps : (planFailover failedLeader.view).map RecoveryPlan.steps =
      some [⟨.promote, 0, "b"⟩, ⟨.assignReplica, 0, "c"⟩, ⟨.sync, 0, "c"⟩] := by
    decide +kernel
  rw [made] at steps
  have steps := Option.some.inj steps
  have shows : failedLeader.view.Shows firstTable :=
    ⟨by decide +kernel, by decide +kernel, by decide +kernel⟩
  obtain ⟨tables, same⟩ := completed_plan_takes_each_step_once failedLeader.view plan
    (.inl made) firstTable shows failedLeader active agreed_failedLeader
    (oneSlotCluster ["a", "b", "c"]) smallEngine interruptedCourse (by decide) _ rfl
    (by decide +kernel)
  obtain ⟨node, running⟩ : ∃ node, (afterCourse interruptedCourse).nodes "c" = some node :=
    Option.isSome_iff_exists.mp (by decide +kernel)
  obtain ⟨other, runs⟩ : ∃ other, (afterCourse directCourse).nodes "b" = some other :=
    Option.isSome_iff_exists.mp (by decide +kernel)
  obtain ⟨views, version⟩ := tables "c" (by decide +kernel) node running
  refine ⟨plan, node, other, made, steps, running, views, ?_, runs, ?_⟩
  · rw [version, steps]
    decide +kernel
  · exact same directCourse (by simp [directCourse]) (by decide) _ rfl (by decide +kernel) "c"
      (by decide +kernel) node running "b" (by decide +kernel) other runs

theorem interruptedCourse_restores_slots :
    ∃ node, (afterCourse interruptedCourse).nodes "c" = some node ∧
      ∀ slot ∈ node.metadata.views,
        slot.classify failedLeader.view.nodes = .unaffected ∨
          slot.classify failedLeader.view.nodes = .noSurvivingCopy ∧
            slot ∈ failedLeader.view.slots := by
  obtain ⟨plan, made, active⟩ : ∃ plan, planFailover failedLeader.view = some plan ∧
      failedLeader.activePlan = some plan :=
    ⟨_, rfl, rfl⟩
  obtain ⟨node, running⟩ : ∃ node, (afterCourse interruptedCourse).nodes "c" = some node :=
    Option.isSome_iff_exists.mp (by decide +kernel)
  exact ⟨node, running, completed_failover_restores_slots failedLeader.view plan made
    (by decide +kernel) firstTable ⟨by decide +kernel, by decide +kernel, by decide +kernel⟩
    failedLeader active agreed_failedLeader (oneSlotCluster ["a", "b", "c"]) smallEngine
    interruptedCourse (by decide) _ rfl (by decide +kernel) "c" (by decide +kernel) node running⟩

end Examples

end MnemoKV
