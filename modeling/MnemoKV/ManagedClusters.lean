import MnemoKV.MetadataSequenceRuns
import MnemoKV.PlannerRounds
import MnemoKV.ShardTransfers
import MnemoKV.ReturningNodes

/-!
# The controller and the nodes it manages

The rounds of the observer, the planner and the executor and the parts of
`ReconcileOnce` interleave with each other and with what happens to the data nodes.
A call may get lost, be recognised as a repetition, or be carried out without an
answer; the environment decides.  There is one controller, and it keeps leading.
-/

namespace MnemoKV

/-- What becomes of a call to a node. -/
inductive CallFate
  | lost
  | replayed
  | unanswered
  | answered
  deriving DecidableEq

/-- The controller, and the nodes that run. -/
structure ManagedCluster where
  fsm : FSM
  observer : Observer
  planner : Planner
  pass : Option ReturningPass
  nodes : String → Option Node
  clock : Int

/-- What happens in a cluster with a controller. -/
inductive ClusterEvent
  | wait (elapsed : Nat)
  /-- A round of the observer, which reaches some of the nodes. -/
  | observe (reached : List String)
  | evaluate
  /-- The executor turns to the first open step; `reached` are the nodes that the
  called one can reach. -/
  | work (delivered : Bool) (reached : List String)
  | takeUp
  | prepare (fate : CallFate) (reached : List String)
  | commitAdmission
  | issueAdmission (fate : CallFate)
  /-- A pass of `ReconcileOnce` ends early. -/
  | abandon
  | stop (nodeID : String)
  | restart (nodeID : String) (reached : List String)
  /-- Whatever client commands and replication leave in the engine and in the
  counters of a node. -/
  | traffic (nodeID : String) (engine : Engine) (sequences : Nat → Nat × Nat)

/-- `unavailableRecord`. -/
def unavailableRecord (plan : RecoveryPlan) (slotNumber : Nat) (view : ClusterView) :
    UnavailableSlot :=
  match view.slots.find? fun slot => slot.number = slotNumber with
  | none =>
      { slot := slotNumber, leaderID := "", replicaID := "", failures := plan.deadNodes }
  | some slot =>
      { slot := slotNumber, leaderID := slot.leaderID, replicaID := slot.replicaID
        failures := plan.deadNodes }

/-- The first step that is not done, with its index. -/
def RecoveryPlan.openStep (plan : RecoveryPlan) : Option (PlanStep × Nat) :=
  plan.steps.zipIdx.find? fun item => !plan.done.getD (item.2 : Int) false

def Metadata.resequence (sequences : Nat → Nat × Nat) (metadata : Metadata) : Metadata :=
  { metadata with
    slots := metadata.slots.mapIdx fun number row =>
      { row with
        lastSequence := (sequences number).1
        lastAppliedSequence := (sequences number).2 } }

/-- What a node makes of a table that another one broadcasts. -/
def Node.receive (table : MetadataSnapshot) (node : Node) : Node :=
  match node.metadata.applyRemote table with
  | .error _ => node
  | .ok metadata => { node with metadata }

namespace ManagedCluster

/-! ### The nodes -/

def peers (state : ManagedCluster) : List String := state.observer.peers

def setNode (state : ManagedCluster) (nodeID : String) (node : Option Node) :
    ManagedCluster :=
  { state with nodes := Function.update state.nodes nodeID node }

/-- The node, if it runs and is reached. -/
def reach (state : ManagedCluster) (reached : List String) (nodeID : String) :
    Option Node :=
  if nodeID ∈ reached then state.nodes nodeID else none

/-- What the peers of a node answer to `CLUSTERMETA`. -/
def peerTables (state : ManagedCluster) (reached : List String) (nodeID : String) :
    List (Option MetadataSnapshot) :=
  (state.peers.filter (· ≠ nodeID)).map fun peer =>
    (state.reach reached peer).map fun node => node.metadata.snapshot

/-- `BroadcastMetadata`. -/
def broadcast (state : ManagedCluster) (reached : List String) (sender : String)
    (table : MetadataSnapshot) : ManagedCluster :=
  { state with
    nodes := fun nodeID =>
      if nodeID ∈ state.peers ∧ nodeID ∈ reached ∧ nodeID ≠ sender then
        (state.nodes nodeID).map (Node.receive table)
      else state.nodes nodeID }

/-- A node that changed its table hands it on. -/
def install (state : ManagedCluster) (reached : List String) (nodeID : String)
    (node : Node) (result : Except ClusterError Metadata) : ManagedCluster :=
  match result with
  | .error _ => state
  | .ok metadata =>
      (state.setNode nodeID (some { node with metadata })).broadcast reached nodeID
        metadata.snapshot

/-- `SyncReplica` on the leader `node`. -/
def syncReplica (state : ManagedCluster) (reached : List String) (nodeID : String)
    (node : Node) (slot : Nat) (target : String) : ManagedCluster :=
  match readForSync node.metadata slot target with
  | .error _ => state
  | .ok row =>
      match node.engine.snapshotEntries state.clock, state.reach reached row.replicaID with
      | .ok entries, some replica =>
          let transfer : ShardSnapshot :=
            { sourceNodeID := node.id, slot, term := row.term
              sequence := row.lastSequence
              entries := entries.filter fun item =>
                node.metadata.slotForKey item.key = slot }
          if transfer.fitsBulk = false then state
          else
            let (result, installed) :=
              replica.applyShardSnapshot transfer.overJSON state.clock state.clock
            let transferred := state.setNode row.replicaID (some installed)
            match result with
            | .error _ => transferred
            | .ok () => transferred.install reached nodeID node
                (node.metadata.markReplicaReady slot row.term row.lastSequence)
      | _, _ => state

/-- A topology call that arrives.  What it answers is left aside, because the
executor looks for the postcondition itself. -/
def call (state : ManagedCluster) (reached : List String) : AdminCall → ManagedCluster
  | .promote nodeID slot =>
      match state.nodes nodeID with
      | none => state
      | some node => state.install reached nodeID node (node.metadata.promote slot)
  | .assignReplica nodeID slot target =>
      match state.nodes nodeID with
      | none => state
      | some node =>
          state.install reached nodeID node (node.metadata.assignReplica slot target)
  | .syncReplica nodeID slot target =>
      match state.nodes nodeID with
      | none => state
      | some node => state.syncReplica reached nodeID node slot target

/-! ### The controller -/

/-- A committed command; a refused one changes nothing. -/
def commit (state : ManagedCluster) (command : ControlCommand) : ManagedCluster :=
  match state.fsm.apply (state.fsm.state.controlIndex + 1) command with
  | .error _ => state
  | .ok fsm => { state with fsm }

/-- What a peer answers to a poll. -/
def answer (state : ManagedCluster) (reached : List String) (peer : String) :
    PeerAnswer :=
  match state.reach reached peer with
  | none => { health := none, state := none }
  | some node =>
      { health := some { status := "ok", nodeID := node.id }
        state := some node.clusterState }

/-- `ObserveAndCommit`. -/
def observe (state : ManagedCluster) (reached : List String) : ManagedCluster :=
  let (observer, observed) := state.observer.pollOnce state.clock (state.answer reached)
  let polled := { state with observer }
  match observed with
  | none => polled
  | some view =>
      if materiallyEqualViews state.fsm.cloneState.latestView view then polled
      else polled.commit (.observeView view.encode)

/-- The planner looks at the committed view. -/
def evaluate [PlanDigest] (state : ManagedCluster) : ManagedCluster :=
  let (planner, proposed) := state.planner.evaluate state.clock state.fsm.cloneState
  let planned := { state with planner }
  match proposed with
  | none => planned
  | some command => planned.commit command

def round (state : ManagedCluster) : Round :=
  { leads := true, state := state.fsm.cloneState
    fetch := fun nodeID => (state.nodes nodeID).map Node.clusterState }

/-- A part of `ExecuteOnce` that changes something once: a command is committed or
a node is called.  Whether a call reached its postcondition shows the next time. -/
def work (state : ManagedCluster) (delivered : Bool) (reached : List String) :
    ManagedCluster :=
  match state.fsm.cloneState.activePlan with
  | none => state
  | some plan =>
      match plan.openStep with
      | none => state.commit (.planComplete plan.id)
      | some (step, index) =>
          if step.kind = .markUnavailable then
            if step.slot ∈ state.fsm.cloneState.unavailable then
              state.commit (.stepDone plan.id index)
            else
              state.commit (.markUnavailable
                [unavailableRecord plan step.slot state.fsm.cloneState.latestView])
          else
            match executeTopologyStep state.peers plan step [state.round] state.round
              fun _ => (true, []) with
            | (some call, _) => if delivered then state.call reached call else state
            | (none, .ok ()) => state.commit (.stepDone plan.id index)
            | (none, .error _) => state

/-! ### The returning node controller -/

def setPass (state : ManagedCluster) (pass : Option ReturningPass) : ManagedCluster :=
  { state with pass }

def takeUp (state : ManagedCluster) : ManagedCluster :=
  match state.pass with
  | some _ => state
  | none =>
      let committed := state.fsm.cloneState
      match reconcileStart state.peers committed with
      | .idle | .noClient _ => state
      | .track nodeID => state.commit (.admitReturningNode nodeID false)
      | .prepare nodeID =>
          state.setPass (some
            { nodeID, clusterID := committed.latestView.clusterID
              metadataVersion := committed.latestView.metadataVersion
              stage := .preparing })

/-- The pass goes on after a response that it accepts. -/
def judge (state : ManagedCluster) (pass : ReturningPass)
    (result : Except ReturningNodeError ReturningNodeResponse) : ManagedCluster :=
  match result with
  | .error _ => state.setPass none
  | .ok prepared =>
      if pass.accepts prepared then
        state.setPass (some { pass with stage := .validated })
      else state.setPass none

/-- The call of `PrepareReturning`. -/
def prepare (state : ManagedCluster) (fate : CallFate) (reached : List String) :
    ManagedCluster :=
  match state.pass with
  | none => state
  | some pass =>
      if pass.stage ≠ .preparing then state
      else
        match state.nodes pass.nodeID with
        | none => state.setPass none
        | some node =>
            let (result, prepared) := node.prepareReturning pass.clusterID
              pass.metadataVersion state.clock (state.peerTables reached pass.nodeID)
            let cleared := state.setNode pass.nodeID (some prepared)
            match fate with
            | .lost => state.setPass none
            | .replayed => state.judge pass (node.returningNodeState state.clock)
            | .unanswered => cleared.setPass none
            | .answered => cleared.judge pass result

/-- A validated node is admitted through the log. -/
def commitAdmission (state : ManagedCluster) : ManagedCluster :=
  match state.pass with
  | none => state
  | some pass =>
      if pass.stage ≠ .validated then state
      else
        (state.commit (.admitReturningNode pass.nodeID true)).setPass
          (some { pass with stage := .committed })

/-- The call of `AdmitReturning`, which ends the pass. -/
def issueAdmission (state : ManagedCluster) (fate : CallFate) : ManagedCluster :=
  match state.pass with
  | none => state
  | some pass =>
      if pass.stage ≠ .committed then state
      else
        match state.nodes pass.nodeID, fate with
        | none, _ | _, .lost | _, .replayed => state.setPass none
        | some node, .unanswered | some node, .answered =>
            let committed := state.fsm.cloneState.latestView
            let (_, admitted) := node.admitReturning committed.clusterID
              committed.metadataVersion state.clock
            (state.setNode pass.nodeID (some admitted)).setPass none

/-- The node for which the controller is about to call `AdmitReturning`. -/
def admitting (state : ManagedCluster) : Option String :=
  match state.pass with
  | some pass => if pass.stage = .committed then some pass.nodeID else none
  | none => none

/-! ### Runs -/

/-- One event in the cluster. -/
def step [PlanDigest] (config : ClusterConfig) (engineConfig : EngineConfig)
    (state : ManagedCluster) : ClusterEvent → ManagedCluster
  | .wait elapsed => { state with clock := state.clock + elapsed }
  | .observe reached => state.observe reached
  | .evaluate => state.evaluate
  | .work delivered reached => state.work delivered reached
  | .takeUp => state.takeUp
  | .prepare fate reached => state.prepare fate reached
  | .commitAdmission => state.commitAdmission
  | .issueAdmission fate => state.issueAdmission fate
  | .abandon => state.setPass none
  | .stop nodeID => state.setNode nodeID none
  | .restart nodeID reached =>
      match state.nodes nodeID with
      | some _ => state
      | none =>
          if nodeID ∈ state.peers then
            state.setNode nodeID (some (Node.startReturning config engineConfig nodeID
              (state.peerTables reached nodeID)))
          else state
  | .traffic nodeID engine sequences =>
      match state.nodes nodeID with
      | none => state
      | some node =>
          state.setNode nodeID (some
            { node with engine, metadata := node.metadata.resequence sequences })

/-- A cluster in which all nodes have been started for the first time. -/
def start (config : ClusterConfig) (engineConfig : EngineConfig) (observer : Observer)
    (planner : Planner) : ManagedCluster :=
  let peers := config.peers.map MetadataPeer.id
  { fsm := .initial
    observer := { observer with peers, failures := fun _ => .clear }
    planner, pass := none
    nodes := fun nodeID =>
      if nodeID ∈ peers then
        some { metadata := newMetadata config nodeID, engine := Engine.new engineConfig
               admitted := true }
      else none
    clock := 0 }

end ManagedCluster

end MnemoKV
