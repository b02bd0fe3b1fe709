import Mathlib.Data.List.Sort

/-!
# What the controller sees of the cluster

A view lists the slots and the nodes as the observer found them.  Slots are
classified by the copies that are still available, and the summary of a view
counts the classes.
-/

namespace MnemoKV

def declaredStatuses : List String :=
  ["", "healthy", "failure_suspected", "degraded", "promoting", "repairing",
    "rebalancing", "unavailable", "potential_data_loss"]

/-- The state that a controller reports. -/
inductive ClusterStatus
  | unset
  | healthy
  | failureSuspected
  | degraded
  | promoting
  | repairing
  | rebalancing
  | unavailable
  | potentialDataLoss
  | other (text : String) (undeclared : text ∉ declaredStatuses)
  deriving DecidableEq

def declaredCommands : List String :=
  ["observe_view", "propose_plan", "step_done", "plan_complete", "supersede_plan",
    "propose_rebalance", "mark_unavailable", "admit_returning_node"]

/-- The commands of the replicated log. -/
inductive CommandType
  | observeView
  | proposePlan
  | stepDone
  | planComplete
  | supersedePlan
  | proposeRebalance
  | markUnavailable
  | admitReturningNode
  | other (text : String) (undeclared : text ∉ "" :: declaredCommands)
  deriving DecidableEq

/-- A node as the controller sees it. -/
structure NodeView where
  id : String
  reachable : Bool
  suspected : Bool
  consecFails : Int
  leaderSlots : Int
  replicaSlots : Int
  eligible : Bool
  returning : Bool
  deriving DecidableEq

/-- A slot as the controller sees it. -/
structure SlotView where
  number : Nat
  leaderID : String
  replicaID : String
  term : Nat
  replicaReady : Bool
  deriving DecidableEq

/-- The summary in a view. -/
structure StatusSummary where
  state : ClusterStatus
  failedNodes : List String
  suspectedNodes : List String
  degradedSlots : Int
  unavailableSlots : Int
  latestCommittedOperation : Option CommandType
  deriving DecidableEq

abbrev NodeViews := Std.ExtTreeMap String NodeView compare

/-- The committed view of the cluster. -/
structure ClusterView where
  clusterID : String
  metadataVersion : Nat
  slots : List SlotView
  nodes : NodeViews
  observedAt : Int
  status : StatusSummary

/-- What failed nodes leave of a slot. -/
inductive SlotClass
  | unaffected
  | leaderless
  | replicaLost
  | noSurvivingCopy
  deriving DecidableEq

/-- The node is reachable and eligible. -/
def ownerAvailable (nodes : NodeViews) (nodeID : String) : Bool :=
  if nodeID = "" then false
  else
    match nodes[nodeID]? with
    | none => false
    | some node => node.reachable && node.eligible

/-- What is left of a slot when some nodes have failed. -/
def SlotView.classify (nodes : NodeViews) (slot : SlotView) : SlotClass :=
  let leaderAvailable := ownerAvailable nodes slot.leaderID
  let replicaAvailable := slot.replicaReady && ownerAvailable nodes slot.replicaID
  if leaderAvailable && replicaAvailable then .unaffected
  else if !leaderAvailable && replicaAvailable then .leaderless
  else if leaderAvailable then .replicaLost
  else .noSurvivingCopy

namespace ClusterView

abbrev SlotClasses := Std.ExtTreeMap Nat SlotClass compare

def classifySlots (view : ClusterView) : SlotClasses :=
  view.slots.foldl
    (fun classes slot => classes.insert slot.number (slot.classify view.nodes)) ∅

/-- The identifiers of nodes with a property, in ascending order. -/
def nodeIDs (view : ClusterView) (select : NodeView → Bool) : List String :=
  (view.nodes.toList.filter fun entry => select entry.2).map Prod.fst

/-- The nodes that may be given a slot. -/
def eligibleNodeIDs (view : ClusterView) : List String :=
  view.nodeIDs fun node => node.eligible && node.reachable && !node.suspected

def confirmedFailedNodes (view : ClusterView) : List String :=
  view.nodeIDs fun node => !node.suspected && (!node.reachable || !node.eligible)

def hasSuspectedNode (view : ClusterView) : Bool :=
  view.nodes.toList.any fun entry => entry.2.suspected

end ClusterView

def countSkew : List Int → Int
  | [] => 0
  | first :: rest => rest.foldl max first - rest.foldl min first

namespace ClusterView

/-- The spread of leaders or of replicas, whichever is larger. -/
def placementSkew (view : ClusterView) : Int :=
  let counted := (view.nodes.toList.map Prod.snd).filter fun node =>
    node.eligible && node.reachable && !node.suspected
  max (countSkew (counted.map NodeView.leaderSlots))
    (countSkew (counted.map NodeView.replicaSlots))

def countClass (view : ClusterView) (slotClass : SlotClass) : Nat :=
  (view.classifySlots.toList.filter fun entry => entry.2 = slotClass).length

/-- `summarizeStatusWithThreshold`. -/
def summarizeStatus (view : ClusterView) (skewThreshold : Nat) : StatusSummary :=
  let suspected := view.nodeIDs NodeView.suspected
  let leaderless := view.countClass .leaderless
  let degraded := leaderless + view.countClass .replicaLost
  let unavailable := view.countClass .noSurvivingCopy
  { state :=
      if unavailable > 0 then .potentialDataLoss
      else if leaderless > 0 then .unavailable
      else if degraded > 0 then .degraded
      else if suspected ≠ [] then .failureSuspected
      else if view.placementSkew > skewThreshold then .rebalancing
      else .healthy
    failedNodes := view.confirmedFailedNodes
    suspectedNodes := suspected
    degradedSlots := degraded
    unavailableSlots := unavailable
    latestCommittedOperation := none }

end ClusterView
end MnemoKV
