import MnemoKV.RecoveryPlanning
import MnemoKV.ViewDocuments

/-!
# The replicated state of the controller

Committed commands change the latest view, the active plan and the records of
unavailable slots and returning nodes.  An observation is decoded straight into
the view that is already there.
-/

namespace MnemoKV

/-- The record of a slot without a surviving copy. -/
structure UnavailableSlot where
  slot : Nat
  leaderID : String
  replicaID : String
  failures : List String
  deriving DecidableEq

/-- What is kept of a finished rebalance. -/
structure CompletedPlan where
  id : String
  kind : PlanKind
  epoch : Nat
  controlIndex : Nat
  deriving DecidableEq

/-- The replicated state of the controllers. -/
structure FSMSnapshot where
  latestView : ClusterView
  activePlan : Option RecoveryPlan
  controlIndex : Nat
  unavailable : Std.ExtTreeMap Nat UnavailableSlot compare
  returningNodes : Std.ExtTreeMap String Bool compare
  lastCompletedPlanID : String
  lastRebalance : Option CompletedPlan

/-- The state and what the slices of its view still hold in memory. -/
structure FSM where
  state : FSMSnapshot
  spareSlots : List SlotView
  spareFailed : List String
  spareSuspected : List String

def FSM.initial : FSM :=
  { state :=
      { latestView := StoredView.zero.view, activePlan := none, controlIndex := 0
        unavailable := ∅, returningNodes := ∅, lastCompletedPlanID := ""
        lastRebalance := none }
    spareSlots := [], spareFailed := [], spareSuspected := [] }

/-- `Command` of the controller, with its payload; only that of an observation is kept as JSON,
because it is not decoded into a fresh value. -/
inductive ControlCommand
  | observeView (payload : MergingDecoders.Json)
  | proposePlan (plan : RecoveryPlan)
  | stepDone (planID : String) (stepIndex : Int)
  | planComplete (planID : String)
  | supersedePlan (oldPlanID : String) (newPlan : RecoveryPlan)
  | proposeRebalance (plan : RecoveryPlan)
  | markUnavailable (slots : List UnavailableSlot)
  | admitReturningNode (nodeID : String) (admitted : Bool)

def ControlCommand.type : ControlCommand → CommandType
  | observeView _ => .observeView
  | proposePlan _ => .proposePlan
  | stepDone _ _ => .stepDone
  | planComplete _ => .planComplete
  | supersedePlan _ _ => .supersedePlan
  | proposeRebalance _ => .proposeRebalance
  | markUnavailable _ => .markUnavailable
  | admitReturningNode _ _ => .admitReturningNode

/-- The errors of applying a log entry. -/
inductive FSMError
  | invalidCommand
  | unknownCommandType (text : String)
  | invalidPayload
  | planNotFound (planID : String)
  | stepOutOfRange (stepIndex : Int)
  | replacementPlanEmpty
  | returningNodeEmpty
  deriving DecidableEq

def StepKind.status : StepKind → Option ClusterStatus
  | promote => some .promoting
  | assignReplica => some .repairing
  | sync => some .repairing
  | markUnavailable => some .potentialDataLoss
  | other _ _ => none

/-- The status that a plan gives the cluster: that of its first open step. -/
def RecoveryPlan.status (plan : RecoveryPlan) : Option ClusterStatus :=
  match plan.kind with
  | .rebalance => some .rebalancing
  | .recovery | .other _ _ =>
      (plan.steps.zipIdx.find? fun item => !plan.done.getD (item.2 : Int) false).bind
        fun item => item.1.kind.status

namespace FSMSnapshot

def setStatus (state : FSMSnapshot) (change : StatusSummary → StatusSummary) :
    FSMSnapshot :=
  { state with
    latestView := { state.latestView with status := change state.latestView.status } }

/-- The status follows the active plan. -/
def updatePlanStatus (state : FSMSnapshot) : FSMSnapshot :=
  match state.activePlan.bind RecoveryPlan.status with
  | none => state
  | some status => state.setStatus fun summary => { summary with state := status }

def setOperation (state : FSMSnapshot) (operation : Option CommandType) :
    FSMSnapshot :=
  state.setStatus fun summary =>
    { summary with latestCommittedOperation := operation }

/-- The active plan, if it has the identifier. -/
def findPlan (state : FSMSnapshot) (planID : String) : Except FSMError RecoveryPlan :=
  match state.activePlan with
  | none => .error (.planNotFound planID)
  | some plan => if plan.id = planID then .ok plan else .error (.planNotFound planID)

def completePlan (state : FSMSnapshot) (plan : RecoveryPlan) : FSMSnapshot :=
  { state with
    activePlan := none, lastCompletedPlanID := plan.id
    lastRebalance :=
      if plan.kind = .rebalance then
        some { id := plan.id, kind := plan.kind, epoch := plan.epoch
               controlIndex := 0 }
      else state.lastRebalance }

end FSMSnapshot

namespace FSM

def stored (fsm : FSM) : StoredView :=
  { view := fsm.state.latestView, spareSlots := fsm.spareSlots
    spareFailed := fsm.spareFailed, spareSuspected := fsm.spareSuspected }

def withStored (fsm : FSM) (stored : StoredView) : FSM :=
  { state := { fsm.state with latestView := stored.view }
    spareSlots := stored.spareSlots, spareFailed := stored.spareFailed
    spareSuspected := stored.spareSuspected }

def withState (fsm : FSM) (state : FSMSnapshot) : FSM := { fsm with state }

/-- `Apply` on a decoded command. -/
def applyCommand (fsm : FSM) (command : ControlCommand) : Except FSMError FSM :=
  let state := fsm.state
  match command with
  | .observeView payload =>
      let decoded := StoredView.decode payload fsm.stored
      if decoded.fit = .whole then .ok (fsm.withStored decoded.value)
      else .error .invalidPayload
  | .proposePlan plan | .proposeRebalance plan =>
      .ok (fsm.withState { state with activePlan := some plan }.updatePlanStatus)
  | .stepDone planID stepIndex =>
      match state.findPlan planID with
      | .error error => .error error
      | .ok plan =>
          if stepIndex < 0 ∨ plan.steps.length ≤ stepIndex then
            .error (.stepOutOfRange stepIndex)
          else
            let done := plan.done.insert stepIndex true
            .ok (fsm.withState
              { state with activePlan := some { plan with done } }.updatePlanStatus)
  | .planComplete planID =>
      match state.findPlan planID with
      | .error error => .error error
      | .ok plan => .ok (fsm.withState (state.completePlan plan))
  | .supersedePlan oldPlanID newPlan =>
      match state.findPlan oldPlanID with
      | .error error => .error error
      | .ok _ =>
          if newPlan.id = "" then .error .replacementPlanEmpty
          else
            .ok (fsm.withState
              { state with activePlan := some newPlan }.updatePlanStatus)
  | .markUnavailable slots =>
      let unavailable := slots.foldl
        (fun known slot => known.insert slot.slot slot) state.unavailable
      .ok (fsm.withState { state with unavailable })
  | .admitReturningNode nodeID admitted =>
      if nodeID = "" then .error .returningNodeEmpty
      else
        let returningNodes := state.returningNodes.insert nodeID admitted
        .ok (fsm.withState { state with returningNodes })

/-- A rebalance that has just been completed learns the index of its entry. -/
def recordRebalance (state : FSMSnapshot) (index : Nat) : FSMSnapshot :=
  { state with
    lastRebalance := state.lastRebalance.map fun plan =>
      if plan.controlIndex = 0 then { plan with controlIndex := index } else plan }

/-- `Apply` on the entry of a command: the new state, or the error. -/
def apply (fsm : FSM) (index : Nat) (command : ControlCommand) : Except FSMError FSM :=
  let latestOperation := fsm.state.latestView.status.latestCommittedOperation
  match fsm.applyCommand command with
  | .error error => .error error
  | .ok after =>
      let indexed := { after.state with controlIndex := index }
      .ok <| after.withState <|
        match command with
        | .observeView _ => (indexed.setOperation latestOperation).updatePlanStatus
        | .planComplete _ =>
            (recordRebalance indexed index).setOperation (some .planComplete)
        | other => indexed.setOperation (some other.type)

/-- What a command leaves that fails: a view which does not fit may have been
decoded in part. -/
def leftBy (fsm : FSM) : ControlCommand → FSM
  | .observeView payload =>
      fsm.withStored (StoredView.decode payload fsm.stored).value
  | _ => fsm

end FSM

/-- A copy that went through JSON. -/
def FSMSnapshot.clone (state : FSMSnapshot) : FSMSnapshot :=
  { state with
    latestView := (StoredView.decode state.latestView.encode .zero).value.view }

/-- `State`. -/
def FSM.cloneState (fsm : FSM) : FSMSnapshot := fsm.state.clone

end MnemoKV
