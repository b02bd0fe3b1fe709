import MnemoKV.ClusterViews

/-!
# Recovery and rebalance plans

`PlanFailover` turns a view into the steps that restore two copies of every
slot, and `PlanRebalance` into a bounded number of complete slot moves.  Both are
pure; the digest in a plan's identifier is left abstract.
-/

namespace MnemoKV

/-- The kind of a step; a decoded plan may have any text. -/
inductive StepKind
  | promote
  | assignReplica
  | sync
  | markUnavailable
  | other (text : String)
      (undeclared : text ∉ ["promote", "assign_replica", "sync", "mark_unavailable"])
  deriving DecidableEq

/-- The kind of a plan; a decoded plan may have any text. -/
inductive PlanKind
  | recovery
  | rebalance
  | other (text : String) (undeclared : text ∉ ["recovery", "rebalance"])
  deriving DecidableEq

def PlanKind.text : PlanKind → String
  | recovery => "recovery"
  | rebalance => "rebalance"
  | other text _ => text

/-- One step of a plan. -/
structure PlanStep where
  kind : StepKind
  slot : Nat
  target : String
  deriving DecidableEq

/-- A plan and which of its steps are done. -/
structure RecoveryPlan where
  id : String
  kind : PlanKind
  reason : String
  epoch : Nat
  deadNodes : List String
  steps : List PlanStep
  done : Std.ExtTreeMap Int Bool compare
  unrecoverable : List Nat
  writeBlockedSlots : List Nat

/-- The hexadecimal prefix of the SHA-256 of a plan's JSON. -/
class PlanDigest where
  digest : RecoveryPlan → String

def deterministicPlanID [PlanDigest] (plan : RecoveryPlan) : String :=
  plan.kind.text ++ "-" ++ PlanDigest.digest { plan with id := "", done := ∅ }

def recoveryReason (deadNodes : List String) : String :=
  if deadNodes = [] then "repair-degraded-replication"
  else "node-down:" ++ String.intercalate "," deadNodes

/-- The node before all others by count, then by identifier. -/
def leastBy (counts : String → Int) (nodes : List String) : List String :=
  nodes.insertionSort fun first second =>
    counts first < counts second ∨ (counts first = counts second ∧ first ≤ second)

/-- An eligible node with the lowest load, the first one by name. -/
def leastLoadedEligible (view : ClusterView) (loads : String → Int)
    (excluded : String) : Option String :=
  (leastBy loads (view.eligibleNodeIDs.filter (· ≠ excluded))).head?

/-! ### Failover -/

/-- The loop of `PlanFailover` between two slots. -/
structure Failover where
  loads : String → Int
  steps : List PlanStep
  unrecoverable : List Nat
  writeBlockedSlots : List Nat

namespace Failover

/-- A new replica for a slot, if there is a node for it. -/
def replace (view : ClusterView) (number : Nat) (leader : String)
    (state : Failover) : Failover :=
  match leastLoadedEligible view state.loads leader with
  | none => state
  | some target =>
      { state with
        loads := Function.update state.loads target (state.loads target + 1)
        steps := state.steps ++
          [⟨.assignReplica, number, target⟩, ⟨.sync, number, target⟩] }

def visit (view : ClusterView) (state : Failover) (slot : SlotView) : Failover :=
  match view.classifySlots[slot.number]? with
  | some .leaderless =>
      replace view slot.number slot.replicaID
        { state with
          steps := state.steps ++ [⟨.promote, slot.number, slot.replicaID⟩]
          writeBlockedSlots := state.writeBlockedSlots ++ [slot.number] }
  | some .replicaLost =>
      if slot.replicaID ≠ "" ∧ ownerAvailable view.nodes slot.replicaID = true then
        { state with
          steps := state.steps ++ [⟨.sync, slot.number, slot.replicaID⟩] }
      else replace view slot.number slot.leaderID state
  | some .noSurvivingCopy =>
      { state with
        steps := state.steps ++ [⟨.markUnavailable, slot.number, ""⟩]
        unrecoverable := state.unrecoverable ++ [slot.number] }
  | _ => state

end Failover

def nodeLoad (view : ClusterView) (nodeID : String) : Int :=
  match view.nodes[nodeID]? with
  | some node => node.leaderSlots + node.replicaSlots
  | none => 0

/-- Slots in the order of their numbers. -/
def ClusterView.sortedSlots (view : ClusterView) : List SlotView :=
  view.slots.insertionSort fun first second => first.number ≤ second.number

/-- The plan for the nodes that have failed. -/
def planFailover [PlanDigest] (view : ClusterView) : Option RecoveryPlan :=
  let planned := view.sortedSlots.foldl (Failover.visit view)
    { loads := nodeLoad view, steps := [], unrecoverable := []
      writeBlockedSlots := [] }
  if planned.steps = [] ∧ planned.unrecoverable = [] then none
  else
    let plan : RecoveryPlan :=
      { id := "", kind := .recovery
        reason := recoveryReason view.confirmedFailedNodes
        epoch := view.metadataVersion, deadNodes := view.confirmedFailedNodes
        steps := planned.steps, done := ∅
        unrecoverable := planned.unrecoverable
        writeBlockedSlots := planned.writeBlockedSlots }
    some { plan with id := deterministicPlanID plan }

/-! ### Rebalancing -/

/-- Where the planner has a slot. -/
structure SlotPlacement where
  number : Nat
  leader : String
  replica : String
  ready : Bool
  deriving DecidableEq

/-- The loops of `PlanRebalance` between two moves; `moved` is the set of the
running loop. -/
structure Rebalance where
  slots : List SlotPlacement
  leaderCounts : String → Int
  replicaCounts : String → Int
  moved : List Nat
  steps : List PlanStep
  writeBlockedSlots : List Nat

/-- The nodes with the highest and the lowest count, and the difference. -/
def countExtremes (nodes : List String) (counts : String → Int) :
    String × String × Int :=
  let sorted := leastBy counts nodes
  let target := sorted.headD ""
  let source := sorted.getLastD ""
  (source, target, counts source - counts target)

namespace Rebalance

/-- The first slot that satisfies a condition, with its index. -/
def findSlot (slots : List SlotPlacement) (condition : SlotPlacement → Bool) :
    Option (SlotPlacement × Nat) :=
  slots.zipIdx.find? fun item => condition item.1

/-- A ready slot of the source that has not been moved yet. -/
def findLeaderMove (state : Rebalance) (source target : String) :
    Option (SlotPlacement × Nat) :=
  findSlot state.slots fun slot =>
    decide (slot.number ∉ state.moved) && slot.ready && slot.leader == source &&
      target != source

def findReplicaMove (state : Rebalance) (source target : String) :
    Option (SlotPlacement × Nat) :=
  findSlot state.slots fun slot =>
    decide (slot.number ∉ state.moved) && slot.ready && slot.replica == source &&
      slot.leader != target

def adjust (counts : String → Int) (node : String) (change : Int) : String → Int :=
  Function.update counts node (counts node + change)

/-- The leader of a slot moves to the target and stays as its replica. -/
def moveLeader (state : Rebalance) (slot : SlotPlacement) (index : Nat)
    (target : String) : Rebalance :=
  { slots := state.slots.set index
      { slot with leader := target, replica := slot.leader }
    leaderCounts := adjust (adjust state.leaderCounts slot.leader (-1)) target 1
    replicaCounts :=
      adjust (adjust state.replicaCounts slot.replica (-1)) slot.leader 1
    moved := slot.number :: state.moved
    steps := state.steps ++
      [⟨.assignReplica, slot.number, target⟩, ⟨.sync, slot.number, target⟩,
        ⟨.promote, slot.number, target⟩,
        ⟨.assignReplica, slot.number, slot.leader⟩,
        ⟨.sync, slot.number, slot.leader⟩]
    writeBlockedSlots := state.writeBlockedSlots ++ [slot.number] }

def moveReplica (state : Rebalance) (slot : SlotPlacement) (index : Nat)
    (source target : String) : Rebalance :=
  { state with
    slots := state.slots.set index { slot with replica := target }
    replicaCounts := adjust (adjust state.replicaCounts source (-1)) target 1
    moved := slot.number :: state.moved
    steps := state.steps ++
      [⟨.assignReplica, slot.number, target⟩, ⟨.sync, slot.number, target⟩]
    writeBlockedSlots := state.writeBlockedSlots ++ [slot.number] }

/-- The first loop, with the number of moves that are left. -/
def moveLeaders (eligible : List String) (skewThreshold : Int) :
    Nat → Rebalance → Rebalance × Nat
  | 0, state => (state, 0)
  | moves + 1, state =>
      let (source, target, skew) := countExtremes eligible state.leaderCounts
      if skew ≤ skewThreshold then (state, moves + 1)
      else
        match state.findLeaderMove source target with
        | none => (state, moves + 1)
        | some (slot, index) => moveLeaders eligible skewThreshold moves
            (state.moveLeader slot index target)

def moveReplicas (eligible : List String) (skewThreshold : Int) :
    Nat → Rebalance → Rebalance
  | 0, state => state
  | moves + 1, state =>
      let (source, target, skew) := countExtremes eligible state.replicaCounts
      if skew ≤ skewThreshold then state
      else
        match state.findReplicaMove source target with
        | none => state
        | some (slot, index) => moveReplicas eligible skewThreshold moves
            (state.moveReplica slot index source target)

end Rebalance

/-- A slot with two ready copies on different eligible nodes. -/
def SlotView.movable (eligible : List String) (slot : SlotView) : Bool :=
  slot.replicaReady && slot.leaderID != slot.replicaID &&
    eligible.contains slot.leaderID && eligible.contains slot.replicaID

def countOf (nodes : List String) (node : String) : Int := nodes.count node

/-- The plan that evens out leaders and replicas. -/
def planRebalance [PlanDigest] (view : ClusterView) (skewThreshold maxMoves : Int) :
    Option RecoveryPlan :=
  let threshold := if skewThreshold < 0 then 0 else skewThreshold
  let eligible := view.eligibleNodeIDs
  if maxMoves ≤ 0 ∨ eligible.length < 2 ∨
      view.slots.all (SlotView.movable eligible) = false then none
  else
    let start : Rebalance :=
      { slots := view.sortedSlots.map fun slot =>
          { number := slot.number, leader := slot.leaderID
            replica := slot.replicaID, ready := true }
        leaderCounts := countOf (view.slots.map SlotView.leaderID)
        replicaCounts := countOf (view.slots.map SlotView.replicaID)
        moved := [], steps := [], writeBlockedSlots := [] }
    let (leaders, moves) := start.moveLeaders eligible threshold maxMoves.toNat
    let planned := { leaders with moved := [] }.moveReplicas eligible threshold
      moves
    if planned.steps = [] then none
    else
      let plan : RecoveryPlan :=
        { id := "", kind := .rebalance, reason := "rebalance-eligible-placement"
          epoch := view.metadataVersion, deadNodes := view.confirmedFailedNodes
          steps := planned.steps, done := ∅, unrecoverable := []
          writeBlockedSlots := planned.writeBlockedSlots }
      some { plan with id := deterministicPlanID plan }

/-! ### What a plan counts on -/

/-- The replica of the slot and whether it is ready, once a step has reached its
postcondition. -/
def PlanStep.leaves (step : PlanStep) (slot : Nat) : Option (String × Bool) :=
  if step.slot ≠ slot then none
  else
    match step.kind with
    | .promote => some ("", false)
    | .assignReplica => some (step.target, false)
    | .sync => some (step.target, true)
    | .markUnavailable | .other _ _ => none

/-- The replica that the last of the earlier steps leaves in a slot, or else the
one of the view. -/
def ClusterView.replicaAfter (view : ClusterView) (earlier : List PlanStep)
    (slot : Nat) : Option (String × Bool) :=
  match (earlier.filterMap fun step => step.leaves slot).getLast? with
  | some replica => some replica
  | none => (view.slots.find? fun row => row.number = slot).map fun row =>
      (row.replicaID, row.replicaReady)

/-- Every promotion targets the replica that is ready by then. -/
def Foreseen (view : ClusterView) : List PlanStep → List PlanStep → Prop
  | _, [] => True
  | earlier, step :: rest =>
      (step.kind = .promote →
        view.replicaAfter earlier step.slot = some (step.target, true)) ∧
      Foreseen view (earlier ++ [step]) rest

end MnemoKV
