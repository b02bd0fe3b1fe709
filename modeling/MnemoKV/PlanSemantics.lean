import MnemoKV.AddressedUpdates
import MnemoKV.PlanExecution

/-!
# What the steps of a plan do to the slots

A step changes the slot it names as the nodes' metadata does: a promotion makes
the replica the leader and leaves the slot without one, an assignment replaces
the replica by one that is not ready, and a synchronisation makes it ready.
-/

namespace MnemoKV

open AddressedUpdates

/-- The steps that the nodes carry out. -/
def StepKind.isTopology : StepKind → Bool
  | promote | assignReplica | sync => true
  | markUnavailable | other _ _ => false

/-- What a step does to the slot it names. -/
def PlanStep.act (step : PlanStep) (slot : SlotView) : SlotView :=
  match step.kind with
  | .promote =>
      { slot with
        leaderID := slot.replicaID, replicaID := "", replicaReady := false
        term := slot.term + 1 }
  | .assignReplica =>
      { slot with
        replicaID := step.target, replicaReady := false, term := slot.term + 1 }
  | .sync => { slot with replicaReady := true }
  | .markUnavailable | .other _ _ => slot

abbrev stepsFor (steps : List PlanStep) (number : Nat) : List PlanStep :=
  addressing PlanStep.slot steps number

abbrev actAll (steps : List PlanStep) (slot : SlotView) : SlotView :=
  steps.foldl (fun slot step => step.act slot) slot

/-- A slot after the steps of a list that name it. -/
abbrev SlotView.after (steps : List PlanStep) (slot : SlotView) : SlotView :=
  rowAfter SlotView.number PlanStep.slot PlanStep.act steps slot

/-- The view after some steps, with the same nodes. -/
def ClusterView.perform (view : ClusterView) (steps : List PlanStep) : ClusterView :=
  { view with
    slots := steps.foldl (update SlotView.number PlanStep.slot PlanStep.act)
      view.slots }

@[simp]
theorem PlanStep.number_act (step : PlanStep) (slot : SlotView) :
    (step.act slot).number = slot.number := by
  unfold act
  split <;> rfl

@[simp]
theorem SlotView.number_after (steps : List PlanStep) (slot : SlotView) :
    (slot.after steps).number = slot.number :=
  key_rowAfter PlanStep.number_act steps slot

theorem SlotView.after_eq (steps : List PlanStep) (slot : SlotView) :
    slot.after steps = actAll (stepsFor steps slot.number) slot :=
  rfl

theorem SlotView.after_append (first second : List PlanStep) (slot : SlotView) :
    slot.after (first ++ second) = (slot.after first).after second :=
  rowAfter_append PlanStep.number_act first second slot

theorem ClusterView.slots_perform (view : ClusterView) (steps : List PlanStep) :
    (view.perform steps).slots = view.slots.map (SlotView.after steps) :=
  foldl_update PlanStep.number_act steps view.slots

theorem ClusterView.numbers_perform (view : ClusterView) (steps : List PlanStep) :
    (view.perform steps).slots.map SlotView.number =
      view.slots.map SlotView.number := by
  rw [slots_perform, List.map_map]
  exact List.map_congr_left fun slot _ => slot.number_after steps

theorem nodup_numbers {view : ClusterView}
    (numbered : ∀ (number : Nat) (slot : SlotView), view.slots[number]? = some slot →
      slot.number = number) : (view.slots.map SlotView.number).Nodup := by
  have places : view.slots.map SlotView.number = List.range view.slots.length := by
    apply List.ext_getElem?
    intro index
    rw [List.getElem?_map]
    cases found : view.slots[index]? with
    | none =>
        rw [List.getElem?_eq_none_iff] at found
        simp [found]
    | some slot =>
        have inRange := (List.getElem?_eq_some_iff.mp found).1
        simp [numbered index slot found, inRange]
  rw [places]
  exact List.nodup_range

/-! ### The metadata of a node -/

namespace Metadata

def views (metadata : Metadata) : List SlotView :=
  metadata.slots.map fun row => row.status.view

/-- Every row has the number of its place. -/
def Numbered (metadata : Metadata) : Prop :=
  ∀ number row, metadata.slot number = some row → row.number = number

theorem views_setSlot {metadata : Metadata} (numbered : metadata.Numbered)
    (step : PlanStep) {row changed : SlotState}
    (present : metadata.slot step.slot = some row)
    (acted : changed.status.view = step.act row.status.view) :
    (metadata.setSlot step.slot changed).views =
      update SlotView.number PlanStep.slot PlanStep.act metadata.views step := by
  apply List.ext_getElem?
  intro index
  simp only [views, setSlot, update, List.getElem?_map, List.getElem?_set]
  by_cases same : step.slot = index
  · subst same
    have inRange : step.slot < metadata.slots.length :=
      (List.getElem?_eq_some_iff.mp present).1
    have found : metadata.slots[step.slot]? = some row := present
    have own : row.status.view.number = step.slot := numbered _ row present
    rw [if_pos rfl, if_pos inRange, found]
    simp [own, acted]
  · rw [if_neg same]
    cases found : metadata.slots[index]? with
    | none => rfl
    | some other =>
        have elsewhere : ¬ other.status.view.number = step.slot := fun equal =>
          same (equal.symm.trans (numbered index other found))
        simp [elsewhere]

section Steps

variable {metadata after : Metadata} (numbered : metadata.Numbered) {number : Nat}

include numbered

theorem views_promote (promoted : metadata.promote number = .ok after)
    (target : String) :
    after.views = update SlotView.number PlanStep.slot PlanStep.act metadata.views
      ⟨.promote, number, target⟩ := by
  obtain ⟨row, present, -, rfl⟩ := promote_ok promoted
  exact views_setSlot numbered ⟨.promote, number, target⟩ present rfl

theorem views_assignReplica {nodeID : String}
    (assigned : metadata.assignReplica number nodeID = .ok after) :
    after.views = update SlotView.number PlanStep.slot PlanStep.act metadata.views
      ⟨.assignReplica, number, nodeID⟩ := by
  obtain ⟨row, present, -, -, rfl⟩ := assignReplica_ok assigned
  exact views_setSlot numbered ⟨.assignReplica, number, nodeID⟩ present rfl

theorem views_markReplicaReady {term sequence : Nat}
    (marked : metadata.markReplicaReady number term sequence = .ok after)
    (target : String) :
    after.views = update SlotView.number PlanStep.slot PlanStep.act metadata.views
      ⟨.sync, number, target⟩ := by
  obtain ⟨row, present, -, -, -, rfl⟩ := markReplicaReady_ok marked
  exact views_setSlot numbered ⟨.sync, number, target⟩ present rfl

end Steps

end Metadata

/-! ### Nodes that may be chosen -/

theorem ClusterView.mem_eligibleNodeIDs {view : ClusterView} {nodeID : String} :
    nodeID ∈ view.eligibleNodeIDs ↔
      ∃ node, view.nodes[nodeID]? = some node ∧ node.eligible = true ∧
        node.reachable = true ∧ node.suspected = false := by
  simp only [eligibleNodeIDs, nodeIDs, List.mem_map, List.mem_filter, Prod.exists,
    Std.ExtTreeMap.mem_toList_iff_getElem?_eq_some, Bool.and_eq_true,
    Bool.not_eq_true']
  constructor
  · rintro ⟨_, node, ⟨present, ⟨eligible, reachable⟩, clear⟩, rfl⟩
    exact ⟨node, present, eligible, reachable, clear⟩
  · rintro ⟨node, present, eligible, reachable, clear⟩
    exact ⟨nodeID, node, ⟨present, ⟨eligible, reachable⟩, clear⟩, rfl⟩

theorem ownerAvailable_of_eligible {view : ClusterView} {nodeID : String}
    (eligible : nodeID ∈ view.eligibleNodeIDs) (named : nodeID ≠ "") :
    ownerAvailable view.nodes nodeID = true := by
  obtain ⟨node, present, eligible, reachable, -⟩ :=
    ClusterView.mem_eligibleNodeIDs.mp eligible
  simp [ownerAvailable, named, present, eligible, reachable]

theorem ClusterView.nodup_eligibleNodeIDs (view : ClusterView) :
    view.eligibleNodeIDs.Nodup := by
  have apart : (view.nodes.toList.map Prod.fst).Pairwise
      fun first second => ¬ compare first second = .eq :=
    List.pairwise_map.mpr view.nodes.distinct_keys_toList
  refine List.Nodup.sublist (List.filter_sublist.map _) (apart.imp ?_)
  intro first second apart same
  exact apart (same ▸ Std.ReflCmp.compare_self)

theorem leastLoadedEligible_spec {view : ClusterView} {loads : String → Int}
    {excluded target : String}
    (chosen : leastLoadedEligible view loads excluded = some target) :
    target ∈ view.eligibleNodeIDs ∧ target ≠ excluded := by
  have listed := mem_leastBy.mp (List.mem_of_mem_head? chosen)
  simpa using listed

/-- With two nodes to choose from there is one for every exclusion. -/
theorem leastLoadedEligible_isSome {view : ClusterView}
    (two : 2 ≤ view.eligibleNodeIDs.length) (loads : String → Int)
    (excluded : String) :
    ∃ target, leastLoadedEligible view loads excluded = some target := by
  obtain ⟨target, eligible, other⟩ :
      ∃ target ∈ view.eligibleNodeIDs, target ≠ excluded := by
    by_contra none
    push Not at none
    have nodup := view.nodup_eligibleNodeIDs
    rw [List.eq_replicate_of_mem none, List.nodup_replicate] at nodup
    omega
  have listed : target ∈ leastBy loads
      (view.eligibleNodeIDs.filter (· ≠ excluded)) :=
    mem_leastBy.mpr (by simp [eligible, other])
  cases head : leastLoadedEligible view loads excluded with
  | some chosen => exact ⟨chosen, rfl⟩
  | none =>
      rw [leastLoadedEligible, List.head?_eq_none_iff] at head
      rw [head] at listed
      cases listed

end MnemoKV
