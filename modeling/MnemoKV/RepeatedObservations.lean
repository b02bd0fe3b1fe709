import MnemoKV.ControllerSnapshots

/-!
# Observing the same view again

`ObserveAndCommit` proposes a view only if it differs from the committed one in
more than the time of the observation.  What it compares with is not the view it
has proposed, though: the committed copy has been decoded over the view before
and carries the status of the active plan.
-/

namespace MnemoKV

/-- One round of the observer on a node that is the leader or not, with the view
that `State` returns; the second component is what it proposes. -/
def Observer.observeAndCommit (observer : Observer) (now : Int)
    (answers : String → PeerAnswer) (leader : Bool) (committed : ClusterView) :
    Observer × Option ControlCommand :=
  let polled := observer.pollOnce now answers
  (polled.1,
    match polled.2 with
    | none => none
    | some view =>
        if leader = false then none
        else if materiallyEqualViews committed view then none
        else some (.observeView view.encode))

theorem Observer.observeAndCommit_polled {observer : Observer} {now : Int}
    {answers : String → PeerAnswer} {view : ClusterView}
    (polled : (observer.pollOnce now answers).2 = some view) (committed : ClusterView) :
    (observer.observeAndCommit now answers true committed).2 =
      if materiallyEqualViews committed view then none
      else some (.observeView view.encode) := by
  simp only [observeAndCommit, polled]
  rfl

/-- The committed copy is materially the observed view exactly if nothing shows
through from the view before and the active plan asks for the observed status. -/
theorem FSM.material_committedOver_iff (fsm : FSM) (view : ClusterView) :
    ((view.merge fsm.stored).committedOver fsm.state).material = view.material ↔
      fsm.Covered view ∧
        (fsm.state.activePlan.bind RecoveryPlan.status).getD view.status.state =
          view.status.state := by
  rw [← fsm.merge_committedOver_iff]
  simp only [ClusterView.material, ClusterView.committedOver, ClusterView.merge,
    StatusSummary.merge, ClusterView.mk.injEq, StatusSummary.mk.injEq, true_and, and_true]
  tauto

/-- A view that has just been committed is not proposed again exactly if the FSM held
nothing that shows through it and the active plan does not ask for another status. -/
theorem unchanged_view_is_not_proposed_iff (observer : Observer) (fsm : FSM) (now : Int)
    (answers : String → PeerAnswer) (view : ClusterView)
    (polled : (observer.pollOnce now answers).2 = some view)
    (changed : materiallyEqualViews fsm.cloneState.latestView view = false) (index : Nat) :
    (observer.observeAndCommit now answers true fsm.cloneState.latestView).2 =
      some (.observeView view.encode) ∧
    ∃ after, fsm.applyEntry ⟨index, .command (.observeView view.encode)⟩ = (after, none) ∧
      ∀ (observer' : Observer) (now' : Int) (answers' : String → PeerAnswer) (moment : Int),
        (observer'.pollOnce now' answers').2 = some { view with observedAt := moment } →
        ((observer'.observeAndCommit now' answers' true after.cloneState.latestView).2 =
            none ↔
          fsm.Covered view ∧
            (fsm.state.activePlan.bind RecoveryPlan.status).getD view.status.state =
              view.status.state) := by
  refine ⟨by rw [Observer.observeAndCommit_polled polled, changed]; rfl, ?_⟩
  obtain ⟨after, applied, latestView⟩ := fsm.apply_observeView index view
  refine ⟨after, by simp only [FSM.applyEntry, applied], ?_⟩
  intro observer' now' answers' moment again
  have same : ({ view with observedAt := moment } : ClusterView).material = view.material :=
    rfl
  rw [Observer.observeAndCommit_polled again, FSM.cloneState_eq, latestView,
    ← fsm.material_committedOver_iff view, materiallyEqualViews, same]
  by_cases equal : ((view.merge fsm.stored).committedOver fsm.state).material = view.material
  · simp [equal]
  · simp [equal]

section ActivePlan

/-- Without a plan, the view of an unchanged cluster is proposed once. -/
theorem first_view_is_proposed_once :
    ∃ view after,
      (observedPeers.pollOnce 1 (reported 1 replicatedSlot)).2 = some view ∧
      FSM.initial.applyEntry ⟨1, .command (.observeView view.encode)⟩ = (after, none) ∧
      (observedPeers.observeAndCommit 2 (reported 1 replicatedSlot) true
        after.cloneState.latestView).2 = none := by
  obtain ⟨view, polled⟩ : ∃ view,
      (observedPeers.pollOnce 1 (reported 1 replicatedSlot)).2 = some view := ⟨_, rfl⟩
  have again : (observedPeers.pollOnce 2 (reported 1 replicatedSlot)).2 =
      some { view with observedAt := 2 } := by
    obtain rfl := Option.some.inj polled
    rfl
  have changed : materiallyEqualViews FSM.initial.cloneState.latestView view = false := by
    obtain rfl := Option.some.inj polled
    decide +kernel
  obtain ⟨-, after, applied, unchanged⟩ := unchanged_view_is_not_proposed_iff observedPeers
    FSM.initial 1 (reported 1 replicatedSlot) view polled changed 1
  refine ⟨view, after, polled, applied, (unchanged observedPeers 2
    (reported 1 replicatedSlot) 2 again).mpr ⟨⟨?_, ?_, ?_, ?_⟩, rfl⟩⟩
  · intro index slot _ _
    rfl
  · exact fun _ => rfl
  · exact fun _ => rfl
  · intro nodeID known
    exact absurd known Std.ExtTreeMap.not_mem_empty

def promotionPlan : RecoveryPlan :=
  { id := "plan", kind := .recovery, reason := "node lost", epoch := 1, deadNodes := []
    steps := [⟨.promote, 0, "b"⟩], done := ∅, unrecoverable := [], writeBlockedSlots := [] }

/-- The first entry of the log proposes a plan. -/
def planningFSM : FSM :=
  (FSM.initial.applyEntry ⟨1, .command (.proposePlan promotionPlan)⟩).1

/-- While the plan is active, the view of an unchanged cluster is proposed in every
round. -/
theorem planned_view_is_proposed_again :
    ∃ view after,
      (observedPeers.pollOnce 1 (reported 1 replicatedSlot)).2 = some view ∧
      planningFSM.applyEntry ⟨2, .command (.observeView view.encode)⟩ = (after, none) ∧
      (observedPeers.pollOnce 2 (reported 1 replicatedSlot)).2 =
        some { view with observedAt := 2 } ∧
      view.status.state = .healthy ∧
      after.cloneState.latestView.status.state = .promoting ∧
      (observedPeers.observeAndCommit 2 (reported 1 replicatedSlot) true
        after.cloneState.latestView).2.isSome :=
  ⟨_, _, rfl, rfl, rfl, rfl, rfl, by decide +kernel⟩

end ActivePlan

end MnemoKV
