import MnemoKV.PlannerRounds
import MnemoKV.ViewReplacement

/-!
# What committed commands change

Only an observation replaces slots and nodes of the view, only the planner's
commands bring new steps, and only `mark_unavailable` records a slot.
-/

namespace MnemoKV

open MergingDecoders

def ControlCommand.marked : ControlCommand → List Nat
  | markUnavailable slots => slots.map UnavailableSlot.slot
  | _ => []

def ControlCommand.observes : ControlCommand → Bool
  | observeView _ => true
  | _ => false

namespace FSMSnapshot

/-- The parts of the state that decide about slots and nodes. -/
structure Same (before after : FSMSnapshot) : Prop where
  slots : after.latestView.slots = before.latestView.slots
  nodes : after.latestView.nodes = before.latestView.nodes
  activePlan : after.activePlan = before.activePlan
  unavailable : after.unavailable = before.unavailable

theorem Same.trans {first second third : FSMSnapshot} (before : first.Same second)
    (after : second.Same third) : first.Same third :=
  ⟨after.slots.trans before.slots, after.nodes.trans before.nodes,
    after.activePlan.trans before.activePlan,
    after.unavailable.trans before.unavailable⟩

theorem same_setStatus (state : FSMSnapshot) (change : StatusSummary → StatusSummary) :
    state.Same (state.setStatus change) :=
  ⟨rfl, rfl, rfl, rfl⟩

theorem same_updatePlanStatus (state : FSMSnapshot) : state.Same state.updatePlanStatus := by
  unfold updatePlanStatus
  split
  · exact ⟨rfl, rfl, rfl, rfl⟩
  · exact same_setStatus state _

end FSMSnapshot

namespace FSM

open FSMSnapshot

variable {fsm after : FSM} {index : Nat} {command : ControlCommand}

/-- Around the command itself only indices and summaries change. -/
theorem apply_ok (applied : fsm.apply index command = .ok after) :
    ∃ changed, fsm.applyCommand command = .ok changed ∧
      changed.state.Same after.state := by
  unfold apply at applied
  dsimp only at applied
  split at applied
  · cases applied
  · rename_i changed done
    refine ⟨changed, done, ?_⟩
    obtain rfl := Except.ok.inj applied
    have indexed : changed.state.Same { changed.state with controlIndex := index } :=
      ⟨rfl, rfl, rfl, rfl⟩
    simp only [withState]
    split
    · exact (indexed.trans (same_setStatus _ _)).trans (same_updatePlanStatus _)
    · exact ⟨rfl, rfl, rfl, rfl⟩
    · exact indexed.trans (same_setStatus _ _)

theorem findPlan_ok {state : FSMSnapshot} {planID : String} {plan : RecoveryPlan}
    (found : state.findPlan planID = .ok plan) : state.activePlan = some plan := by
  unfold findPlan at found
  split at found
  · cases found
  · rename_i active known
    split_ifs at found
    cases found
    exact known

/-- What a committed command leaves of the state before. -/
structure Effect (command : ControlCommand) (before after : FSMSnapshot) : Prop where
  view : command.observes = false → after.latestView.slots = before.latestView.slots ∧
    after.latestView.nodes = before.latestView.nodes
  plan : ∀ plan, after.activePlan = some plan → command.newPlan = some plan ∨
    ∃ old, before.activePlan = some old ∧ plan.steps = old.steps
  unavailable : ∀ slot ∈ after.unavailable,
    slot ∈ before.unavailable ∨ slot ∈ command.marked

theorem Effect.same {before changed after : FSMSnapshot}
    (effect : Effect command before changed) (same : changed.Same after) :
    Effect command before after := by
  refine ⟨fun silent => ?_, fun plan active => ?_, fun slot recorded => ?_⟩
  · obtain ⟨slots, nodes⟩ := effect.view silent
    exact ⟨same.slots.trans slots, same.nodes.trans nodes⟩
  · exact effect.plan plan (same.activePlan ▸ active)
  · exact effect.unavailable slot (same.unavailable ▸ recorded)

/-- A state with another plan and the same rest. -/
theorem effect_setPlan {state : FSMSnapshot} {active : Option RecoveryPlan}
    (plan : ∀ plan, active = some plan → command.newPlan = some plan ∨
      ∃ old, state.activePlan = some old ∧ plan.steps = old.steps) :
    Effect command state { state with activePlan := active } :=
  ⟨fun _ => ⟨rfl, rfl⟩, plan, fun _ recorded => .inl recorded⟩

theorem mem_record {slots : List UnavailableSlot}
    {known : Std.ExtTreeMap Nat UnavailableSlot compare} {number : Nat}
    (recorded : number ∈
      slots.foldl (fun known slot => known.insert slot.slot slot) known) :
    number ∈ known ∨ number ∈ slots.map UnavailableSlot.slot := by
  induction slots generalizing known with
  | nil => exact .inl recorded
  | cons slot rest induction =>
      rcases induction recorded with earlier | later
      · rcases Std.ExtTreeMap.mem_insert.mp earlier with same | old
        · obtain rfl := Std.LawfulEqCmp.eq_of_compare same
          exact .inr List.mem_cons_self
        · exact .inl old
      · exact .inr (List.mem_cons_of_mem _ later)

theorem applyCommand_effect (applied : fsm.applyCommand command = .ok after) :
    Effect command fsm.state after.state := by
  have unchanged : ∀ command, Effect command fsm.state fsm.state := fun _ =>
    ⟨fun _ => ⟨rfl, rfl⟩, fun plan active => .inr ⟨plan, active, rfl⟩,
      fun _ recorded => .inl recorded⟩
  cases command with
  | observeView payload =>
      simp only [applyCommand] at applied
      split_ifs at applied
      obtain rfl := Except.ok.inj applied
      refine ⟨fun silent => ?_, (unchanged _).plan, (unchanged _).unavailable⟩
      cases silent
  | proposePlan plan =>
      obtain rfl := Except.ok.inj applied
      refine (effect_setPlan fun new active => ?_).same (same_updatePlanStatus _)
      exact .inl active
  | proposeRebalance plan =>
      obtain rfl := Except.ok.inj applied
      refine (effect_setPlan fun new active => ?_).same (same_updatePlanStatus _)
      exact .inl active
  | stepDone planID stepIndex =>
      simp only [applyCommand] at applied
      split at applied
      · cases applied
      · rename_i plan found
        split_ifs at applied
        obtain rfl := Except.ok.inj applied
        refine (effect_setPlan fun new active => ?_).same (same_updatePlanStatus _)
        obtain rfl := Option.some.inj active
        exact .inr ⟨plan, findPlan_ok found, rfl⟩
  | planComplete planID =>
      simp only [applyCommand] at applied
      split at applied
      · cases applied
      · obtain rfl := Except.ok.inj applied
        refine ⟨fun _ => ⟨rfl, rfl⟩, fun plan (active : none = some plan) => ?_,
          fun _ recorded => .inl recorded⟩
        cases active
  | supersedePlan oldPlanID newPlan =>
      simp only [applyCommand] at applied
      split at applied
      · cases applied
      · split_ifs at applied
        obtain rfl := Except.ok.inj applied
        refine (effect_setPlan fun new active => ?_).same (same_updatePlanStatus _)
        exact .inl active
  | markUnavailable slots =>
      obtain rfl := Except.ok.inj applied
      exact ⟨fun _ => ⟨rfl, rfl⟩, (unchanged _).plan, fun _ => mem_record⟩
  | admitReturningNode nodeID admitted =>
      simp only [applyCommand] at applied
      split_ifs at applied
      obtain rfl := Except.ok.inj applied
      exact ⟨fun _ => ⟨rfl, rfl⟩, (unchanged _).plan, (unchanged _).unavailable⟩

theorem apply_effect (applied : fsm.apply index command = .ok after) :
    Effect command fsm.state after.state := by
  obtain ⟨changed, done, same⟩ := apply_ok applied
  exact (applyCommand_effect done).same same

end FSM

/-! ### The active plan -/

def ControlCommand.keepsPlan : ControlCommand → Bool
  | observeView _ | markUnavailable _ | admitReturningNode _ _ => true
  | _ => false

namespace FSM

variable {fsm after : FSM} {index : Nat} {command : ControlCommand}

theorem apply_keepsPlan (keeps : command.keepsPlan = true)
    (applied : fsm.apply index command = .ok after) :
    after.state.activePlan = fsm.state.activePlan := by
  obtain ⟨changed, done, same⟩ := apply_ok applied
  refine same.activePlan.trans ?_
  cases command with
  | observeView payload =>
      simp only [applyCommand] at done
      split_ifs at done
      obtain rfl := Except.ok.inj done
      rfl
  | markUnavailable slots =>
      obtain rfl := Except.ok.inj done
      rfl
  | admitReturningNode nodeID admitted =>
      simp only [applyCommand] at done
      split_ifs at done
      obtain rfl := Except.ok.inj done
      rfl
  | _ => cases keeps

theorem apply_stepDone {plan : RecoveryPlan} (active : fsm.state.activePlan = some plan)
    {step : Nat} (inRange : step < plan.steps.length)
    (applied : fsm.apply index (.stepDone plan.id step) = .ok after) :
    after.state.activePlan = some { plan with done := plan.done.insert step true } := by
  obtain ⟨changed, done, same⟩ := apply_ok applied
  refine same.activePlan.trans ?_
  have found : fsm.state.findPlan plan.id = .ok plan := by
    simp [FSMSnapshot.findPlan, active]
  have bounded : ¬ ((step : Int) < 0 ∨ (plan.steps.length : Int) ≤ step) := by omega
  simp only [applyCommand, found, if_neg bounded] at done
  obtain rfl := Except.ok.inj done
  exact (FSMSnapshot.same_updatePlanStatus _).activePlan

theorem apply_planComplete {planID : String}
    (applied : fsm.apply index (.planComplete planID) = .ok after) :
    after.state.activePlan = none := by
  obtain ⟨changed, done, same⟩ := apply_ok applied
  refine same.activePlan.trans ?_
  simp only [applyCommand] at done
  split at done
  · cases done
  · obtain rfl := Except.ok.inj done
    rfl

end FSM

/-! ### The view after an observation -/

/-- An observation is always committed.  Its nodes are then in the view, and its
slots stand at their places with everything but perhaps an empty replica. -/
theorem FSM.observed_view (fsm : FSM) (index : Nat) (view : ClusterView) :
    ∃ after, fsm.apply index (.observeView view.encode) = .ok after ∧
      (∀ (nodeID : String) (node : NodeView), view.nodes[nodeID]? = some node →
        after.state.latestView.nodes[nodeID]? = some node) ∧
      ∃ old : Nat → SlotView, ∀ number : Nat,
        after.state.latestView.slots[number]? =
          view.slots[number]?.map fun slot => slot.merge (old number) := by
  obtain ⟨after, applied, latestView⟩ := fsm.apply_observeView index view
  refine ⟨after, applied, ?_, fun number =>
    (fsm.stored.view.slots ++ fsm.stored.spareSlots).getD number .zero, ?_⟩
  · intro nodeID node found
    rw [latestView]
    exact getElem?_mergeTables found
  · intro number
    rw [latestView]
    exact getElem?_mergeItems view.slots _ number

end MnemoKV
