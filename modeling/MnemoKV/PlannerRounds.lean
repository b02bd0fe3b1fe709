import MnemoKV.RebalanceSafety

/-!
# The rounds of the planner

`Evaluate` proposes a recovery plan if the latest view needs one, replaces an
active plan only after a new failure, and thinks of rebalancing when nothing is to
be repaired.  It looks at the view alone: slots that were recorded as unavailable
and nodes that were emptied make no difference to it.
-/

namespace MnemoKV

/-- The times are nanoseconds; `stableSince` is read only after it was set. -/
structure Planner where
  cooldown : Int
  skewThreshold : Int
  maxMoves : Int
  eligibleKey : String
  stableSince : Int

/-- A node has failed that the plan does not count among the dead. -/
def hasNewConfirmedFailure (active current : List String) : Bool :=
  current.any fun nodeID => decide (nodeID ∉ active)

namespace Planner

def resetStability (planner : Planner) : Planner :=
  { planner with eligibleKey := "", stableSince := 0 }

def evaluateRebalance [PlanDigest] (planner : Planner) (now : Int)
    (state : FSMSnapshot) : Planner × Option ControlCommand :=
  if state.activePlan.isSome || state.latestView.hasSuspectedNode then
    (planner.resetStability, none)
  else
    let key := String.intercalate "," state.latestView.eligibleNodeIDs
    if key = "" then (planner.resetStability, none)
    else if key ≠ planner.eligibleKey then
      ({ planner with eligibleKey := key, stableSince := now }, none)
    else if now - planner.stableSince < planner.cooldown then (planner, none)
    else
      match planRebalance state.latestView planner.skewThreshold planner.maxMoves with
      | none => (planner, none)
      | some plan =>
          if state.lastCompletedPlanID = plan.id then (planner, none)
          else (planner, some (.proposeRebalance plan))

/-- One evaluation: a plan to propose, if any. -/
def evaluate [PlanDigest] (planner : Planner) (now : Int) (state : FSMSnapshot) :
    Planner × Option ControlCommand :=
  match planFailover state.latestView with
  | none => planner.evaluateRebalance now state
  | some plan =>
      match state.activePlan with
      | none =>
          if state.lastCompletedPlanID = plan.id then (planner, none)
          else (planner, some (.proposePlan plan))
      | some active =>
          if active.id = plan.id ∨
              hasNewConfirmedFailure active.deadNodes plan.deadNodes = false then
            (planner, none)
          else (planner, some (.supersedePlan active.id plan))

end Planner

/-! ### What a round may propose -/

/-- The plan that a command makes the active one. -/
def ControlCommand.newPlan : ControlCommand → Option RecoveryPlan
  | proposePlan plan | proposeRebalance plan | supersedePlan _ plan => some plan
  | _ => none

/-- The view finds no copy of the slot. -/
def ClusterView.Lost (view : ClusterView) (slot : Nat) : Prop :=
  view.classifySlots[slot]? = some .noSurvivingCopy

instance (view : ClusterView) (slot : Nat) : Decidable (view.Lost slot) :=
  inferInstanceAs (Decidable (_ = _))

theorem ClusterView.exists_of_classified {view : ClusterView} {number : Nat}
    {slotClass : SlotClass} (classified : view.classifySlots[number]? = some slotClass) :
    ∃ slot ∈ view.slots, slot.number = number ∧
      slot.classify view.nodes = slotClass := by
  suffices folded : ∀ (rows : List SlotView) (classes : ClusterView.SlotClasses),
      (rows.foldl (fun classes row =>
        classes.insert row.number (row.classify view.nodes)) classes)[number]? =
          some slotClass →
      classes[number]? = some slotClass ∨ ∃ slot ∈ rows, slot.number = number ∧
        slot.classify view.nodes = slotClass by
    rcases folded view.slots ∅ classified with none | found
    · simp at none
    · exact found
  intro rows
  induction rows with
  | nil => exact fun classes known => .inl known
  | cons first rest induction =>
      intro classes known
      rcases induction _ known with here | ⟨slot, later, fits⟩
      · rw [Std.ExtTreeMap.getElem?_insert] at here
        split_ifs at here with same
        · exact .inr ⟨first, List.mem_cons_self, Std.LawfulEqCmp.eq_of_compare same,
            Option.some.inj here⟩
        · exact .inl here
      · exact .inr ⟨slot, List.mem_cons_of_mem _ later, fits⟩

/-- Slots without a copy are marked and left alone, and replicas are assigned to
nodes that the view allows. -/
structure PlanStep.Fits (view : ClusterView) (step : PlanStep) : Prop where
  lost : step.kind = .markUnavailable ↔ view.Lost step.slot
  target : step.kind = .assignReplica → step.target ∈ view.eligibleNodeIDs

namespace Failover

variable {view : ClusterView}

theorem fits_replace {number : Nat} {leader : String} {state : Failover}
    (copied : ¬ view.Lost number) (fits : ∀ step ∈ state.steps, step.Fits view) :
    ∀ step ∈ (state.replace view number leader).steps, step.Fits view := by
  unfold replace
  split
  · exact fits
  · rename_i target chosen
    have allowed := (leastLoadedEligible_spec chosen).1
    intro step listed
    rcases List.mem_append.mp listed with old | new
    · exact fits step old
    · simp only [List.mem_cons, List.not_mem_nil, or_false] at new
      rcases new with rfl | rfl
      · exact ⟨by simpa using copied, fun _ => allowed⟩
      · exact ⟨by simpa using copied, fun other => (nomatch other)⟩

theorem fits_append {state : Failover} {added : PlanStep}
    (fits : ∀ step ∈ state.steps, step.Fits view) (own : added.Fits view) :
    ∀ step ∈ state.steps ++ [added], step.Fits view := by
  intro step listed
  rcases List.mem_append.mp listed with old | new
  · exact fits step old
  · rw [List.mem_singleton.mp new]
    exact own

theorem fits_visit {slot : SlotView} {state : Failover}
    (fits : ∀ step ∈ state.steps, step.Fits view) :
    ∀ step ∈ (state.visit view slot).steps, step.Fits view := by
  unfold visit
  split
  · rename_i leaderless
    have copied : ¬ view.Lost slot.number := by simp [ClusterView.Lost, leaderless]
    refine fits_replace copied (fits_append fits ⟨?_, fun other => (nomatch other)⟩)
    simpa using copied
  · rename_i replicaLost
    have copied : ¬ view.Lost slot.number := by simp [ClusterView.Lost, replicaLost]
    split_ifs
    · refine fits_append fits ⟨?_, fun other => (nomatch other)⟩
      simpa using copied
    · exact fits_replace copied fits
  · rename_i lost
    exact fits_append fits ⟨⟨fun _ => lost, fun _ => rfl⟩, fun other => (nomatch other)⟩
  · exact fits

theorem fits_all : ∀ step ∈ (all view).steps, step.Fits view := by
  suffices folded : ∀ (slots : List SlotView) (state : Failover),
      (∀ step ∈ state.steps, step.Fits view) →
      ∀ step ∈ (slots.foldl (visit view) state).steps, step.Fits view from
    folded view.sortedSlots _ fun step listed => nomatch listed
  intro slots
  induction slots with
  | nil => exact fun _ fits => fits
  | cons slot rest induction => exact fun state fits => induction _ (fits_visit fits)

end Failover

section Plans

variable [PlanDigest] {view : ClusterView} {plan : RecoveryPlan}

theorem planFailover_fits (planned : planFailover view = some plan) :
    ∀ step ∈ plan.steps, step.Fits view := by
  rw [(planFailover_some planned).1]
  exact Failover.fits_all

/-- Every slot without a copy gives a plan something to do. -/
theorem not_lost_of_planFailover_none
    (distinct : (view.slots.map SlotView.number).Nodup)
    (idle : planFailover view = none) (number : Nat) : ¬ view.Lost number := by
  intro lost
  obtain ⟨slot, member, rfl, classified⟩ := ClusterView.exists_of_classified lost
  have listed : slot.number ∈ (Failover.all view).unrecoverable := by
    rw [Failover.unrecoverable_all distinct, Failover.mem_lostNumbers]
    exact ⟨slot, view.perm_sortedSlots.mem_iff.mpr member, rfl, classified⟩
  rw [(planFailover_eq_none_iff.mp idle).2] at listed
  cases listed

end Plans

namespace Rebalance

variable {eligible : List String} {skewThreshold : Int}

/-- Leaders and targets are nodes that the view allows, and nothing is marked. -/
structure Allowed (eligible : List String) (state : Rebalance) : Prop where
  leaders : ∀ placement ∈ state.slots, placement.leader ∈ eligible
  moves : ∀ step ∈ state.steps, step.kind ≠ .markUnavailable
  targets : ∀ step ∈ state.steps, step.kind = .assignReplica → step.target ∈ eligible

theorem Allowed.move {state after : Rebalance} (allowed : state.Allowed eligible)
    {index : Nat} {placed : SlotPlacement} {block : List PlanStep}
    (slots : after.slots = state.slots.set index placed)
    (steps : after.steps = state.steps ++ block)
    (leader : placed.leader ∈ eligible)
    (own : ∀ step ∈ block, step.kind ≠ .markUnavailable ∧
      (step.kind = .assignReplica → step.target ∈ eligible)) :
    after.Allowed eligible := by
  refine ⟨?_, ?_, ?_⟩
  · intro placement listed
    rw [slots] at listed
    rcases List.mem_or_eq_of_mem_set listed with other | rfl
    · exact allowed.leaders placement other
    · exact leader
  · intro step listed
    rw [steps] at listed
    rcases List.mem_append.mp listed with old | new
    · exact allowed.moves step old
    · exact (own step new).1
  · intro step listed
    rw [steps] at listed
    rcases List.mem_append.mp listed with old | new
    · exact allowed.targets step old
    · exact (own step new).2

theorem allowed_start {view : ClusterView}
    (movable : view.slots.all (SlotView.movable view.eligibleNodeIDs) = true) :
    (start view).Allowed view.eligibleNodeIDs := by
  refine ⟨?_, fun step listed => (nomatch listed), fun step listed => (nomatch listed)⟩
  intro placement listed
  obtain ⟨slot, present, rfl⟩ := List.mem_map.mp listed
  have member := view.perm_sortedSlots.mem_iff.mp present
  have held := List.all_eq_true.mp movable slot member
  simp only [SlotView.movable, Bool.and_eq_true, List.contains_iff_mem] at held
  exact held.1.2

theorem Course.allowed {view : ClusterView} {moves : Nat} {state : Rebalance}
    (movable : view.slots.all (SlotView.movable view.eligibleNodeIDs) = true)
    (inhabited : view.eligibleNodeIDs ≠ [])
    (course : Course view skewThreshold moves state) :
    state.Allowed view.eligibleNodeIDs := by
  induction course with
  | start => exact allowed_start movable
  | leader earlier moved allowed =>
      obtain ⟨slot, index, target, moved⟩ := leaderStep_spec inhabited moved
      have target := moved.extremes.targetListed
      have source := moved.extremes.sourceListed
      rw [moved.next]
      exact allowed.move rfl rfl target (by simp [target, source])
  | turn earlier allowed => exact ⟨allowed.leaders, allowed.moves, allowed.targets⟩
  | replica earlier moved allowed =>
      obtain ⟨slot, index, target, moved⟩ := replicaStep_spec inhabited moved
      have target := moved.extremes.targetListed
      have leader := allowed.leaders slot (List.mem_of_getElem? moved.place)
      rw [moved.next]
      exact allowed.move rfl rfl leader (by simp [target])

end Rebalance

theorem planRebalance_allowed [PlanDigest] {view : ClusterView}
    {skewThreshold maxMoves : Int} {plan : RecoveryPlan}
    (planned : planRebalance view skewThreshold maxMoves = some plan) :
    ∀ step ∈ plan.steps, step.kind ≠ .markUnavailable ∧
      (step.kind = .assignReplica → step.target ∈ view.eligibleNodeIDs) := by
  obtain ⟨-, inhabited, movable, steps, -⟩ := planRebalance_some planned
  obtain ⟨moves, -, course⟩ := Rebalance.course_final view skewThreshold maxMoves
  have allowed := course.allowed movable inhabited
  rw [steps]
  exact fun step listed => ⟨allowed.moves step listed, allowed.targets step listed⟩

namespace Planner

variable [PlanDigest] {planner : Planner} {now : Int} {state : FSMSnapshot}
  {command : ControlCommand}

theorem evaluateRebalance_command
    (evaluated : (planner.evaluateRebalance now state).2 = some command) :
    ∃ plan, command = .proposeRebalance plan ∧
      planRebalance state.latestView planner.skewThreshold planner.maxMoves =
        some plan := by
  simp only [evaluateRebalance] at evaluated
  split at evaluated
  · cases evaluated
  · split at evaluated
    · cases evaluated
    · split at evaluated
      · cases evaluated
      · split at evaluated
        · cases evaluated
        · split at evaluated
          · cases evaluated
          · rename_i plan planned
            split at evaluated
            · cases evaluated
            · cases evaluated
              exact ⟨plan, rfl, planned⟩

/-- Where the plan of a round comes from. -/
theorem evaluate_command (evaluated : (planner.evaluate now state).2 = some command) :
    ∃ plan, command.newPlan = some plan ∧
      (planFailover state.latestView = some plan ∨
        planFailover state.latestView = none ∧
          planRebalance state.latestView planner.skewThreshold planner.maxMoves =
            some plan) := by
  unfold evaluate at evaluated
  split at evaluated
  · rename_i idle
    obtain ⟨plan, rfl, planned⟩ := evaluateRebalance_command evaluated
    exact ⟨plan, rfl, .inr ⟨idle, planned⟩⟩
  · rename_i plan planned
    split at evaluated
    · split at evaluated
      · cases evaluated
      · cases evaluated
        exact ⟨plan, rfl, .inl planned⟩
    · split at evaluated
      · cases evaluated
      · cases evaluated
        exact ⟨plan, rfl, .inl planned⟩

/-- Everything that a round proposes to do fits the view it has looked at. -/
theorem evaluate_fits
    (distinct : (state.latestView.slots.map SlotView.number).Nodup)
    (evaluated : (planner.evaluate now state).2 = some command) :
    ∃ plan, command.newPlan = some plan ∧
      ∀ step ∈ plan.steps, step.Fits state.latestView := by
  obtain ⟨plan, new, planned | ⟨idle, planned⟩⟩ := evaluate_command evaluated
  · exact ⟨plan, new, planFailover_fits planned⟩
  · refine ⟨plan, new, fun step listed => ?_⟩
    obtain ⟨moves, target⟩ := planRebalance_allowed planned step listed
    exact ⟨⟨fun marks => absurd marks moves, fun lost =>
      absurd lost (not_lost_of_planFailover_none distinct idle step.slot)⟩, target⟩

end Planner

end MnemoKV
