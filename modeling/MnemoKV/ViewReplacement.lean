import MnemoKV.ControllerState

/-!
# Which observations replace the committed view

After an observation the controller should hold the observed view.  Whatever the
document leaves out shows through from the view before, so this depends on both.
-/

namespace MnemoKV

open MergingDecoders

/-! ### Reading the state -/

theorem SlotView.merge_eq_self_iff (slot old : SlotView) :
    slot.merge old = slot ↔ (slot.replicaID = "" → old.replicaID = "") := by
  obtain ⟨number, leaderID, replicaID, term, replicaReady⟩ := slot
  by_cases cleared : replicaID = ""
  · simp [merge, cleared]
  · simp [merge, cleared]

theorem mergeTexts_nil (texts : List String) : mergeTexts texts [] = texts := by
  unfold mergeTexts
  split_ifs with empty
  · exact empty.symm
  · rfl

theorem ClusterView.merge_zero (view : ClusterView) : view.merge .zero = view := by
  have slots : mergeItems .zero SlotView.merge view.slots [] = view.slots := by
    rw [mergeItems_eq_self_iff]
    intro index slot _
    rw [SlotView.merge_eq_self_iff]
    exact fun _ => rfl
  have nodes : mergeTables ∅ view.nodes = view.nodes := by
    rw [mergeTables_eq_right_iff]
    exact fun key absent => absurd absent Std.ExtTreeMap.not_mem_empty
  simp [merge, StoredView.zero, StatusSummary.merge, StatusSummary.zero,
    mergeTexts_nil, slots, nodes]

@[simp]
theorem FSMSnapshot.clone_eq (state : FSMSnapshot) : state.clone = state := by
  have decoded := (StoredView.decode_encode state.latestView .zero).2
  simp [clone, decoded, ClusterView.merge_zero]

/-- The copy that `State` hands out is the state itself. -/
@[simp]
theorem FSM.cloneState_eq (fsm : FSM) : fsm.cloneState = fsm.state :=
  fsm.state.clone_eq

/-! ### Committing an observation -/

/-- The observed view with the operation that was committed before and, under an
active plan, with the status of that plan. -/
def ClusterView.committedOver (view : ClusterView) (state : FSMSnapshot) :
    ClusterView :=
  { view with
    status :=
      { view.status with
        state := (state.activePlan.bind RecoveryPlan.status).getD view.status.state
        latestCommittedOperation :=
          state.latestView.status.latestCommittedOperation } }

/-- What the observation leaves out is empty in the committed view as well, and
every committed node is observed again. -/
structure FSM.Covered (fsm : FSM) (view : ClusterView) : Prop where
  replicas : ∀ index slot, view.slots[index]? = some slot → slot.replicaID = "" →
    ((fsm.state.latestView.slots ++ fsm.spareSlots).getD index .zero).replicaID = ""
  failedNodes : view.status.failedNodes = [] →
    fsm.state.latestView.status.failedNodes = []
  suspectedNodes : view.status.suspectedNodes = [] →
    fsm.state.latestView.status.suspectedNodes = []
  nodes : ∀ nodeID ∈ fsm.state.latestView.nodes, nodeID ∈ view.nodes

theorem FSM.apply_observeView (fsm : FSM) (index : Nat) (view : ClusterView) :
    ∃ after, fsm.apply index (.observeView view.encode) = .ok after ∧
      after.state.latestView = (view.merge fsm.stored).committedOver fsm.state := by
  obtain ⟨whole, merged⟩ := StoredView.decode_encode view fsm.stored
  refine ⟨_, by simp only [apply, applyCommand, if_pos whole]; rfl, ?_⟩
  simp only [withState, withStored, merged, FSMSnapshot.updatePlanStatus]
  split
  · rename_i noStatus
    have noStatus : fsm.state.activePlan.bind RecoveryPlan.status = none := noStatus
    simp [ClusterView.committedOver, noStatus, FSMSnapshot.setOperation,
      FSMSnapshot.setStatus]
  · rename_i status planStatus
    have planStatus : fsm.state.activePlan.bind RecoveryPlan.status = some status :=
      planStatus
    simp [ClusterView.committedOver, planStatus, FSMSnapshot.setOperation,
      FSMSnapshot.setStatus]

theorem mergeTexts_eq_left_iff (texts old : List String) :
    mergeTexts texts old = texts ↔ (texts = [] → old = []) := by
  unfold mergeTexts
  split_ifs with empty
  · simp [empty]
  · simp [empty]

theorem FSM.merge_committedOver_iff (fsm : FSM) (view : ClusterView) :
    (view.merge fsm.stored).committedOver fsm.state = view.committedOver fsm.state ↔
      fsm.Covered view := by
  have slots := mergeItems_eq_self_iff SlotView.zero SlotView.merge view.slots
    (fsm.state.latestView.slots ++ fsm.spareSlots)
  simp only [SlotView.merge_eq_self_iff] at slots
  have nodes := mergeTables_eq_right_iff fsm.state.latestView.nodes view.nodes
  have failed := mergeTexts_eq_left_iff view.status.failedNodes
    fsm.state.latestView.status.failedNodes
  have suspected := mergeTexts_eq_left_iff view.status.suspectedNodes
    fsm.state.latestView.status.suspectedNodes
  simp only [ClusterView.committedOver, ClusterView.merge, StatusSummary.merge,
    ClusterView.mk.injEq, StatusSummary.mk.injEq, stored, slots, nodes, failed,
    suspected, true_and, and_true]
  constructor
  · rintro ⟨replicas, nodes, failedNodes, suspectedNodes⟩
    exact ⟨replicas, failedNodes, suspectedNodes, nodes⟩
  · intro covered
    exact ⟨covered.replicas, covered.nodes, covered.failedNodes,
      covered.suspectedNodes⟩

/-- An observation replaces the committed view exactly if it covers it. -/
theorem observation_replaces_view_iff (fsm : FSM) (index : Nat) (view : ClusterView) :
    ∃ after, fsm.apply index (.observeView view.encode) = .ok after ∧
      (after.cloneState.latestView = view.committedOver fsm.state ↔
        fsm.Covered view) := by
  obtain ⟨after, applied, latestView⟩ := fsm.apply_observeView index view
  refine ⟨after, applied, ?_⟩
  rw [FSM.cloneState_eq, latestView]
  exact fsm.merge_committedOver_iff view

section Promotion

def observedPeers : Observer :=
  { peers := ["a", "b", "c"], failureAfter := 1000, failureCount := 3
    skewThreshold := 1, failures := fun _ => .clear }

/-- A table that all peers report. -/
def reported (version : Nat) (slot : SlotStatus) (peer : String) : PeerAnswer :=
  { health := some { status := "ok", nodeID := peer }
    state := some
      { enabled := true, nodeID := peer, clusterID := "main", slotCount := 1
        metadataVersion := version, slots := [slot], dataState := .active } }

/-- A slot before its replica is promoted. -/
def replicatedSlot : SlotStatus :=
  { number := 0, leaderID := "a", replicaID := "b", term := 1, replicaReady := true }

def promotedSlot : SlotStatus :=
  { number := 0, leaderID := "b", replicaID := "", term := 2, replicaReady := false }

/-- The replica that a promotion cleared stays in the committed view. -/
theorem cleared_replica_survives_observation :
    let (observer, observed) := observedPeers.pollOnce 1 (reported 1 replicatedSlot)
    (observed.bind fun first =>
      (observer.pollOnce 2 (reported 2 promotedSlot)).2.bind fun second =>
        match FSM.initial.apply 1 (.observeView first.encode) with
        | .error _ => none
        | .ok before =>
            match before.apply 2 (.observeView second.encode) with
            | .error _ => none
            | .ok after => some (second.slots.map SlotView.replicaID,
                after.cloneState.latestView.slots.map SlotView.replicaID)) =
      some ([""], ["b"]) := by
  rfl

end Promotion

end MnemoKV
