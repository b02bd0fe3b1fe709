import MnemoKV.FailoverRecovery

/-!
# A node failure in the middle of a rebalance

A rebalance moves one slot after another, and each move passes through states
with a single ready copy.  A failure at any point of the plan loses a slot exactly
if it hits the leader of a slot whose new replica is not yet synchronised.
-/

namespace MnemoKV

open AddressedUpdates

/-- The leader may hold the slot, and a ready replica is another such node. -/
def SlotView.Guarded (view : ClusterView) (slot : SlotView) : Prop :=
  slot.leaderID ∈ view.eligibleNodeIDs ∧
    (slot.replicaReady = true →
      slot.replicaID ∈ view.eligibleNodeIDs ∧ slot.leaderID ≠ slot.replicaID)

theorem SlotView.guarded_of_unready {view : ClusterView} {slot : SlotView}
    (leads : slot.leaderID ∈ view.eligibleNodeIDs) (unready : slot.replicaReady = false) :
    slot.Guarded view :=
  ⟨leads, fun ready => absurd (unready.symm.trans ready) Bool.false_ne_true⟩

/-- The slot is guarded before, between and after the steps. -/
def GuardedRun (view : ClusterView) : SlotView → List PlanStep → Prop
  | slot, [] => slot.Guarded view
  | slot, step :: rest => slot.Guarded view ∧ GuardedRun view (step.act slot) rest

section Runs

variable {view : ClusterView} {slot : SlotView}

theorem GuardedRun.append {first second : List PlanStep}
    (before : GuardedRun view slot first)
    (after : GuardedRun view (actAll first slot) second) :
    GuardedRun view slot (first ++ second) := by
  induction first generalizing slot with
  | nil => exact after
  | cons step rest induction => exact ⟨before.1, induction before.2 after⟩

theorem GuardedRun.at_cut {done : List PlanStep} (rest : List PlanStep)
    (guarded : GuardedRun view slot (done ++ rest)) :
    (actAll done slot).Guarded view := by
  induction done generalizing slot with
  | nil =>
      cases rest with
      | nil => exact guarded
      | cons step rest => exact guarded.1
  | cons step done induction => exact induction guarded.2

end Runs

/-! ### The moves of a plan -/

namespace Rebalance

variable {view : ClusterView}

/-- What holds of the loop between two moves: every slot has been guarded all
along, and the placements are those that the steps so far lead to. -/
structure Sound (view : ClusterView) (state : Rebalance) : Prop where
  guarded : ∀ slot ∈ view.slots,
    GuardedRun view slot (stepsFor state.steps slot.number)
  placed : ∀ placement ∈ state.slots, ∃ slot ∈ view.slots,
    slot.number = placement.number ∧
      (slot.after state.steps).leaderID = placement.leader ∧
      (slot.after state.steps).replicaID = placement.replica ∧
      (slot.after state.steps).replicaReady = true
  distinct : (state.slots.map SlotPlacement.number).Nodup
  pending : ∀ slot ∈ view.slots,
    PendingRun view slot (stepsFor state.steps slot.number)
  moves : ∀ step ∈ state.steps, step.kind.isTopology

/-- A block of steps that takes one slot to a new placement. -/
structure Moves (view : ClusterView) (slot : SlotView) (block : List PlanStep)
    (leader replica : String) : Prop where
  own : ∀ step ∈ block, step.slot = slot.number
  guarded : GuardedRun view slot block
  leads : (actAll block slot).leaderID = leader
  replicates : (actAll block slot).replicaID = replica
  ready : (actAll block slot).replicaReady = true
  pending : PendingRun view slot block
  moves : ∀ step ∈ block, step.kind.isTopology

theorem after_elsewhere {steps block : List PlanStep} {slot : SlotView}
    (elsewhere : ∀ step ∈ block, step.slot ≠ slot.number) :
    slot.after (steps ++ block) = slot.after steps := by
  rw [SlotView.after_append, SlotView.after_eq block, SlotView.number_after,
    stepsFor, addressing_eq_nil elsewhere]
  rfl

theorem place_of_number (state : Rebalance)
    (distinct : (state.slots.map SlotPlacement.number).Nodup) {first second : Nat}
    {one other : SlotPlacement} (here : state.slots[first]? = some one)
    (there : state.slots[second]? = some other) (same : one.number = other.number) :
    first = second := by
  have inRange : first < (state.slots.map SlotPlacement.number).length := by
    simpa using (List.getElem?_eq_some_iff.mp here).1
  refine (List.getElem?_inj inRange distinct).mp ?_
  simp [here, there, same]

theorem Sound.move (numbers : (view.slots.map SlotView.number).Nodup)
    {state next : Rebalance} (sound : state.Sound view) {placement : SlotPlacement}
    {index : Nat} (found : state.slots[index]? = some placement)
    {block : List PlanStep} {leader replica : String}
    (moved : ∀ slot : SlotView, slot.number = placement.number →
      slot.leaderID = placement.leader → slot.replicaID = placement.replica →
      slot.replicaReady = true → slot.Guarded view →
      Moves view slot block leader replica)
    (steps : next.steps = state.steps ++ block)
    (slots : next.slots = state.slots.set index
      { placement with leader := leader, replica := replica }) :
    next.Sound view := by
  obtain ⟨slot, member, number, leads, replicates, ready⟩ :=
    sound.placed placement (List.mem_of_getElem? found)
  have whole := sound.guarded slot member
  have reached : (slot.after state.steps).Guarded view :=
    GuardedRun.at_cut [] (by rwa [List.append_nil])
  have moving := moved (slot.after state.steps)
    ((slot.number_after state.steps).trans number) leads replicates ready reached
  have own : ∀ step ∈ block, step.slot = slot.number := fun step listed =>
    (moving.own step listed).trans (slot.number_after state.steps)
  have extended : ∀ Run : SlotView → List PlanStep → Prop,
      Run slot (stepsFor state.steps slot.number ++ block) →
      (∀ other ∈ view.slots, Run other (stepsFor state.steps other.number)) →
      ∀ other ∈ view.slots, Run other (stepsFor next.steps other.number) := by
    intro Run longer runs other known
    rw [steps, stepsFor, addressing_append]
    by_cases same : other.number = slot.number
    · obtain rfl := List.inj_on_of_nodup_map numbers known member same
      rw [addressing_eq_self own]
      exact longer
    · rw [addressing_eq_nil fun step listed named =>
        same (named.symm.trans (own step listed)), List.append_nil]
      exact runs other known
  refine ⟨extended _ (whole.append moving.guarded) sound.guarded, ?_, ?_,
    extended _ ((sound.pending slot member).append moving.pending) sound.pending, ?_⟩
  · intro other listed
    rw [slots] at listed
    obtain ⟨place, present⟩ := List.mem_iff_getElem?.mp listed
    rw [List.getElem?_set] at present
    split_ifs at present with here inRange
    · obtain rfl := Option.some.inj present
      refine ⟨slot, member, number, ?_⟩
      rw [steps, SlotView.after_append, SlotView.after_eq block,
        SlotView.number_after, stepsFor, addressing_eq_self own]
      exact ⟨moving.leads, moving.replicates, moving.ready⟩
    · obtain ⟨known, inside, named, facts⟩ :=
        sound.placed other (List.mem_of_getElem? present)
      refine ⟨known, inside, named, ?_⟩
      have apart : known.number ≠ slot.number := fun same =>
        here (state.place_of_number sound.distinct found present
          (number.symm.trans (same.symm.trans named)))
      rw [steps, after_elsewhere fun step listed equal =>
        apart (equal.symm.trans (own step listed))]
      exact facts
  · have numbered : next.slots.map SlotPlacement.number =
        state.slots.map SlotPlacement.number := by
      rw [slots]
      apply List.ext_getElem?
      intro place
      simp only [List.getElem?_map, List.getElem?_set]
      split_ifs with here inRange
      · subst here
        rw [found]
        rfl
      · subst here
        rw [List.getElem?_eq_none (by omega)]
      · rfl
    rw [numbered]
    exact sound.distinct
  · intro step listed
    rw [steps] at listed
    rcases List.mem_append.mp listed with old | new
    · exact sound.moves step old
    · exact moving.moves step new

variable {state : Rebalance}

theorem Sound.moveLeader (numbers : (view.slots.map SlotView.number).Nodup)
    (sound : state.Sound view) {source target : String} {placement : SlotPlacement}
    {index : Nat}
    (found : state.findLeaderMove source target = some (placement, index))
    (eligible : target ∈ view.eligibleNodeIDs) :
    (state.moveLeader placement index target).Sound view := by
  obtain ⟨present, condition⟩ := findSlot_spec found
  simp only [Bool.and_eq_true, beq_iff_eq, bne_iff_ne] at condition
  obtain ⟨⟨-, leads⟩, other⟩ := condition
  refine sound.move numbers present ?_ rfl rfl
  intro slot number leader replica ready guarded
  have apart : target ≠ placement.leader := leads ▸ other
  have oldLeader : placement.leader ∈ view.eligibleNodeIDs := leader ▸ guarded.1
  refine ⟨by simp [number], ?_, rfl, rfl, rfl, ?_, by simp [StepKind.isTopology]⟩
  · refine ⟨guarded, SlotView.guarded_of_unready guarded.1 rfl, ⟨guarded.1, ?_⟩,
      SlotView.guarded_of_unready eligible rfl, SlotView.guarded_of_unready eligible rfl,
      eligible, fun _ => ⟨oldLeader, apart⟩⟩
    exact fun _ => ⟨eligible, fun same => apart (same.symm.trans leader)⟩
  · exact ⟨⟨⟨eligible, leader ▸ apart⟩, .inl ready⟩, ⟨rfl, rfl⟩, ⟨⟨rfl, rfl⟩, trivial⟩,
      ⟨⟨oldLeader, apart.symm⟩, .inr (.inr rfl)⟩, ⟨rfl, rfl⟩, trivial⟩

theorem Sound.moveReplica (numbers : (view.slots.map SlotView.number).Nodup)
    (sound : state.Sound view) {source target : String} {placement : SlotPlacement}
    {index : Nat}
    (found : state.findReplicaMove source target = some (placement, index))
    (eligible : target ∈ view.eligibleNodeIDs) :
    (state.moveReplica placement index source target).Sound view := by
  obtain ⟨present, condition⟩ := findSlot_spec found
  simp only [Bool.and_eq_true, beq_iff_eq, bne_iff_ne] at condition
  have apart : placement.leader ≠ target := condition.2
  refine sound.move numbers present ?_ rfl rfl
  intro slot number leader replica ready guarded
  refine ⟨by simp [number], ?_, leader, rfl, rfl, ?_, by simp [StepKind.isTopology]⟩
  · refine ⟨guarded, SlotView.guarded_of_unready guarded.1 rfl, guarded.1, ?_⟩
    exact fun _ => ⟨eligible, fun same => apart (leader.symm.trans same)⟩
  · exact ⟨⟨⟨eligible, fun same => apart (same.trans leader).symm⟩, .inl ready⟩,
      ⟨rfl, rfl⟩, trivial⟩

theorem sound_start (numbers : (view.slots.map SlotView.number).Nodup)
    (movable : view.slots.all (SlotView.movable view.eligibleNodeIDs) = true) :
    (start view).Sound view := by
  have sorted := view.perm_sortedSlots
  have owned : ∀ slot ∈ view.slots, slot.replicaReady = true ∧
      slot.leaderID ≠ slot.replicaID ∧ slot.leaderID ∈ view.eligibleNodeIDs ∧
      slot.replicaID ∈ view.eligibleNodeIDs := by
    intro slot member
    have held := List.all_eq_true.mp movable slot member
    simpa [SlotView.movable, and_assoc] using held
  refine ⟨?_, ?_, ?_, fun _ _ => trivial, ?_⟩
  · intro slot member
    obtain ⟨-, apart, leader, replica⟩ := owned slot member
    exact ⟨leader, fun _ => ⟨replica, apart⟩⟩
  · intro placement listed
    obtain ⟨slot, present, rfl⟩ := List.mem_map.mp listed
    have member := sorted.mem_iff.mp present
    exact ⟨slot, member, rfl, rfl, rfl, (owned slot member).1⟩
  · rw [start, List.map_map]
    exact (sorted.map SlotView.number).nodup_iff.mpr numbers
  · exact fun step listed => nomatch listed

/-- What every move of the loops keeps. -/
theorem Course.sound (numbers : (view.slots.map SlotView.number).Nodup)
    (movable : view.slots.all (SlotView.movable view.eligibleNodeIDs) = true)
    (inhabited : view.eligibleNodeIDs ≠ []) {skewThreshold : Int} {moves : Nat}
    (course : Course view skewThreshold moves state) : state.Sound view := by
  induction course with
  | start => exact sound_start numbers movable
  | leader earlier moved sound =>
      obtain ⟨slot, index, target, moved⟩ := leaderStep_spec inhabited moved
      exact moved.next ▸ sound.moveLeader numbers moved.found moved.extremes.targetListed
  | turn earlier sound =>
      exact ⟨sound.guarded, sound.placed, sound.distinct, sound.pending, sound.moves⟩
  | replica earlier moved sound =>
      obtain ⟨slot, index, target, moved⟩ := replicaStep_spec inhabited moved
      exact moved.next ▸ sound.moveReplica numbers moved.found moved.extremes.targetListed

end Rebalance

/-- A rebalance plan comes from sound loops over slots that were all ready. -/
theorem planRebalance_sound [PlanDigest] {view : ClusterView}
    (numbers : (view.slots.map SlotView.number).Nodup)
    {skewThreshold maxMoves : Int} {plan : RecoveryPlan}
    (planned : planRebalance view skewThreshold maxMoves = some plan) :
    (∀ slot ∈ view.slots, slot.replicaReady = true) ∧
      ∃ state : Rebalance, state.Sound view ∧ plan.steps = state.steps := by
  obtain ⟨-, inhabited, movable, steps, -⟩ := planRebalance_some planned
  obtain ⟨moves, -, course⟩ := Rebalance.course_final view skewThreshold maxMoves
  refine ⟨fun slot member => ?_, _, course.sound numbers movable inhabited, steps⟩
  have held := List.all_eq_true.mp movable slot member
  simp only [SlotView.movable, Bool.and_eq_true] at held
  exact held.1.1.1

/-! ### A failure at any point of the plan -/

/-- The last step about the slot has left it without a synchronised replica. -/
def OpenMove (done : List PlanStep) (number : Nat) : Prop :=
  ∃ step, (stepsFor done number).getLast? = some step ∧ step.kind ≠ .sync

theorem replicaReady_actAll {steps : List PlanStep} {slot : SlotView}
    (ready : slot.replicaReady = true)
    (moves : ∀ step ∈ steps, step.kind.isTopology) :
    (actAll steps slot).replicaReady = false ↔
      ∃ step, steps.getLast? = some step ∧ step.kind ≠ .sync := by
  rcases List.eq_nil_or_concat steps with rfl | ⟨earlier, last, rfl⟩
  · simp [actAll, ready]
  · have kind := moves last (by simp)
    rw [List.concat_eq_append, actAll, List.foldl_concat]
    cases lastKind : last.kind with
    | markUnavailable | other => simp [lastKind, StepKind.isTopology] at kind
    | promote => simp [PlanStep.act, lastKind]
    | assignReplica => simp [PlanStep.act, lastKind]
    | sync => simp [PlanStep.act, lastKind]

/-- A guarded slot is lost by the failure of one node exactly if this is its
leader and the replica is not ready. -/
theorem lost_iff_of_guarded {view : ClusterView} (named : "" ∉ view.eligibleNodeIDs)
    {slot : SlotView} (guarded : slot.Guarded view) {failed : String}
    {nodes : NodeViews} (down : ownerAvailable nodes failed = false)
    (others : ∀ nodeID, nodeID ≠ failed →
      ownerAvailable nodes nodeID = ownerAvailable view.nodes nodeID) :
    slot.classify nodes = .noSurvivingCopy ↔
      slot.leaderID = failed ∧ slot.replicaReady = false := by
  have up : ∀ nodeID ∈ view.eligibleNodeIDs, nodeID ≠ failed →
      ownerAvailable nodes nodeID = true := by
    intro nodeID eligible other
    rw [others nodeID other]
    exact ownerAvailable_of_eligible eligible fun empty => named (empty ▸ eligible)
  rw [classify_noSurvivingCopy_iff]
  constructor
  · rintro ⟨leaderDown, missing⟩
    have failedLeader : slot.leaderID = failed := by
      by_contra other
      rw [up _ guarded.1 other] at leaderDown
      cases leaderDown
    refine ⟨failedLeader, ?_⟩
    cases ready : slot.replicaReady with
    | false => rfl
    | true =>
        obtain ⟨eligible, apart⟩ := guarded.2 ready
        have replicaUp := up _ eligible fun same => apart (failedLeader.trans same.symm)
        rw [ready, replicaUp] at missing
        simp at missing
  · rintro ⟨rfl, unready⟩
    exact ⟨down, .inl unready⟩

/-- No plan finds a lost slot exactly if there is none. -/
theorem planFailover_finds_no_loss_iff [PlanDigest] {view : ClusterView}
    (numbers : (view.slots.map SlotView.number).Nodup) :
    (∀ plan, planFailover view = some plan → plan.unrecoverable = []) ↔
      ∀ slot ∈ view.slots, slot.classify view.nodes ≠ .noSurvivingCopy := by
  have unrecoverable := Failover.unrecoverable_all numbers
  have mem : ∀ number, number ∈ Failover.lostNumbers view view.sortedSlots ↔
      ∃ slot ∈ view.slots, slot.number = number ∧
        slot.classify view.nodes = .noSurvivingCopy := by
    intro number
    rw [Failover.mem_lostNumbers]
    simp only [view.perm_sortedSlots.mem_iff]
  constructor
  · intro noLoss slot member lost
    have listed := (mem slot.number).mpr ⟨slot, member, rfl, lost⟩
    rw [← unrecoverable] at listed
    cases planned : planFailover view with
    | none =>
        rw [(planFailover_eq_none_iff.mp planned).2] at listed
        cases listed
    | some plan =>
        rw [← (planFailover_some planned).2, noLoss plan planned] at listed
        cases listed
  · intro noLoss plan planned
    rw [(planFailover_some planned).2, unrecoverable]
    apply List.eq_nil_iff_forall_not_mem.mpr
    intro number listed
    obtain ⟨slot, member, -, lost⟩ := (mem number).mp listed
    exact noLoss slot member lost

/-- A node failure after any number of steps of a rebalance leaves every slot a
copy exactly if the node does not lead a slot with an open move. -/
theorem rebalance_survives_failure_iff [PlanDigest] (view : ClusterView)
    (numbers : (view.slots.map SlotView.number).Nodup)
    (named : "" ∉ view.eligibleNodeIDs) (skewThreshold maxMoves : Int)
    (plan : RecoveryPlan)
    (planned : planRebalance view skewThreshold maxMoves = some plan)
    (done rest : List PlanStep) (steps : plan.steps = done ++ rest)
    (failed : String) (nodes : NodeViews)
    (down : ownerAvailable nodes failed = false)
    (others : ∀ nodeID, nodeID ≠ failed →
      ownerAvailable nodes nodeID = ownerAvailable view.nodes nodeID) :
    let result := { view.perform done with nodes }
    ((∀ slot ∈ result.slots, slot.classify nodes ≠ .noSurvivingCopy) ↔
      ∀ slot ∈ view.slots, OpenMove done slot.number →
        (slot.after done).leaderID ≠ failed) ∧
    ((∀ slot ∈ result.slots, slot.classify nodes ≠ .noSurvivingCopy) ↔
      ∀ next, planFailover result = some next → next.unrecoverable = []) := by
  intro result
  obtain ⟨allReady, state, sound, made⟩ := planRebalance_sound numbers planned
  have resultNumbers : (result.slots.map SlotView.number).Nodup :=
    (view.numbers_perform done).symm ▸ numbers
  refine ⟨?_, (planFailover_finds_no_loss_iff resultNumbers).symm⟩
  have lost_iff : ∀ slot ∈ view.slots,
      ((slot.after done).classify nodes = .noSurvivingCopy ↔
        (slot.after done).leaderID = failed ∧ OpenMove done slot.number) := by
    intro slot member
    have run := sound.guarded slot member
    rw [← made, steps, stepsFor, addressing_append] at run
    have cut : (slot.after done).Guarded view := run.at_cut _
    have moves : ∀ step ∈ stepsFor done slot.number,
        step.kind.isTopology := by
      intro step listed
      refine sound.moves step ?_
      rw [← made, steps]
      exact List.mem_append_left _ (List.mem_of_mem_filter listed)
    rw [lost_iff_of_guarded named cut down others, OpenMove,
      ← replicaReady_actAll (allReady slot member) moves]
    rfl
  have slots : result.slots = view.slots.map (SlotView.after done) :=
    view.slots_perform done
  rw [slots]
  constructor
  · intro noLoss slot member opened leads
    exact noLoss _ (List.mem_map_of_mem member)
      ((lost_iff slot member).mpr ⟨leads, opened⟩)
  · intro safe slot listed lost
    obtain ⟨before, member, rfl⟩ := List.mem_map.mp listed
    obtain ⟨leads, opened⟩ := (lost_iff before member).mp lost
    exact safe before member opened leads

section Examples

attribute [local instance] PlanDigest.constant

/-- Two slots on the same two of three nodes. -/
def skewedView : ClusterView :=
  { clusterID := "main", metadataVersion := 1
    slots := [⟨0, "a", "b", 1, true⟩, ⟨1, "a", "b", 1, true⟩]
    nodes := (((∅ : NodeViews).insert "a" (availableNode "a" true)).insert "b"
      (availableNode "b" true)).insert "c" (availableNode "c" true)
    observedAt := 0, status := .zero }

/-- The same nodes without `a`. -/
def nodesWithoutA : NodeViews := skewedView.nodes.insert "a" (availableNode "a" false)

/-- The first step of the plan drops the ready copy of slot 0; then its leader
fails. -/
theorem leader_failure_during_move_loses_slot :
    (∀ slot ∈ skewedView.slots, slot.classify skewedView.nodes = .unaffected ∧
      slot.leaderID ≠ slot.replicaID) ∧
    ∃ plan step rest, planRebalance skewedView 1 1 = some plan ∧
      plan.steps = step :: rest ∧
      ((skewedView.perform [step]).slots.map fun slot =>
          slot.classify nodesWithoutA) = [.noSurvivingCopy, .leaderless] ∧
      ∃ next, planFailover { skewedView.perform [step] with nodes := nodesWithoutA } =
          some next ∧ next.unrecoverable = [0] := by
  refine ⟨by decide, _, _, _, rfl, rfl, rfl, _, rfl, rfl⟩

theorem ownerAvailable_insert_of_ne {nodes : NodeViews} {failed nodeID : String}
    (other : nodeID ≠ failed) (node : NodeView) :
    ownerAvailable (nodes.insert failed node) nodeID =
      ownerAvailable nodes nodeID := by
  have apart : ¬ compare failed nodeID = .eq := fun same =>
    other (Std.LawfulEqCmp.eq_of_compare same).symm
  unfold ownerAvailable
  rw [Std.ExtTreeMap.getElem?_insert, if_neg apart]

/-- The move of slot 0 up to the synchronisation of its copy. -/
def stepsDone : List PlanStep := [⟨.assignReplica, 0, "b"⟩, ⟨.sync, 0, "b"⟩]

/-- The steps of the plan that are still open. -/
def stepsLeft : List PlanStep :=
  [⟨.promote, 0, "b"⟩, ⟨.assignReplica, 0, "a"⟩, ⟨.sync, 0, "a"⟩]

/-- After the synchronisation the failure of the leader loses nothing. -/
theorem leader_failure_after_sync_keeps_slots :
    ∃ plan, planRebalance skewedView 1 1 = some plan ∧
      plan.steps = stepsDone ++ stepsLeft ∧
      ∀ slot ∈ (skewedView.perform stepsDone).slots,
        slot.classify nodesWithoutA ≠ .noSurvivingCopy := by
  obtain ⟨plan, planned, steps⟩ : ∃ plan, planRebalance skewedView 1 1 = some plan ∧
    plan.steps = stepsDone ++ stepsLeft := ⟨_, rfl, rfl⟩
  refine ⟨plan, planned, steps, ?_⟩
  refine (rebalance_survives_failure_iff skewedView (by decide) (by decide) 1 1 plan
    planned stepsDone stepsLeft steps "a" nodesWithoutA (by decide)
    (fun nodeID other => ownerAvailable_insert_of_ne other _)).1.mpr ?_
  intro slot listed ⟨step, last, unsynced⟩
  rcases List.mem_pair.mp listed with rfl | rfl
  · cases last
    exact absurd rfl unsynced
  · cases last

end Examples

end MnemoKV
