import MnemoKV.LoadBalancing
import MnemoKV.RebalanceSafety

/-!
# The moves of a rebalance

The loops of `PlanRebalance` keep their own placement of the slots and count its leaders
and replicas.  The plan is a bounded sequence of moves; carried out, it leads to that
placement, and the counts are those of the slots it leaves.
-/

namespace MnemoKV

open AddressedUpdates LoadBalancing

/-! ### What every move keeps -/

namespace Rebalance

variable {view : ClusterView} {skewThreshold : Int} {state next : Rebalance}

/-- The placement is where the steps lead, and the counts are its own. -/
structure Kept (view : ClusterView) (state : Rebalance) : Prop where
  sound : state.Sound view
  numbers : (state.slots.map SlotPlacement.number).Perm (view.slots.map SlotView.number)
  leaders : state.leaderCounts = tally (state.slots.map SlotPlacement.leader)
  replicas : state.replicaCounts = tally (state.slots.map SlotPlacement.replica)
  addressed : ∀ step ∈ state.steps, step.slot ∈ view.slots.map SlotView.number

theorem map_set_of_eq {Row Field : Type} {rows : List Row} {index : Nat} {row row' : Row}
    (place : rows[index]? = some row) (field : Row → Field) (same : field row' = field row) :
    rows.map field = (rows.set index row').map field := by
  obtain ⟨inside, rfl⟩ := List.getElem?_eq_some_iff.mp place
  have inside' : index < (rows.map field).length := by rwa [List.length_map]
  have there : (rows.map field)[index] = field rows[index] := List.getElem_map field
  rw [List.map_set, same, ← there, List.set_getElem_self]

theorem tally_map_set {Row : Type} {rows : List Row} {index : Nat} {row : Row}
    (place : rows[index]? = some row) (field : Row → String) (row' : Row) :
    tally ((rows.set index row').map field) =
      move (tally (rows.map field)) (field row) (field row') := by
  rw [List.map_set]
  exact tally_set (by rw [List.getElem?_map, place, Option.map_some]) _

theorem kept_start (numbers : (view.slots.map SlotView.number).Nodup)
    (movable : view.slots.all (SlotView.movable view.eligibleNodeIDs) = true) :
    (start view).Kept view := by
  have sorted := view.perm_sortedSlots
  refine ⟨sound_start numbers movable, ?_, ?_, ?_, fun step listed => nomatch listed⟩
  · rw [start, List.map_map]
    exact sorted.map _
  · rw [start, List.map_map]
    exact tally_perm (sorted.map _).symm
  · rw [start, List.map_map]
    exact tally_perm (sorted.map _).symm

section Moves

variable {eligible : List String} {slot : SlotPlacement} {index : Nat} {target : String}

theorem Kept.known (kept : state.Kept view) (place : state.slots[index]? = some slot) :
    slot.number ∈ view.slots.map SlotView.number :=
  kept.numbers.mem_iff.mp (List.mem_map_of_mem (List.mem_of_getElem? place))

theorem Kept.move (kept : state.Kept view) (sound : next.Sound view)
    (place : state.slots[index]? = some slot) {slot' : SlotPlacement} {block : List PlanStep}
    (number : slot'.number = slot.number) (slots : next.slots = state.slots.set index slot')
    (leaders : next.leaderCounts =
      LoadBalancing.move state.leaderCounts slot.leader slot'.leader)
    (replicas : next.replicaCounts =
      LoadBalancing.move state.replicaCounts slot.replica slot'.replica)
    (steps : next.steps = state.steps ++ block)
    (own : ∀ step ∈ block, step.slot = slot.number) : next.Kept view := by
  refine ⟨sound, ?_, ?_, ?_, ?_⟩
  · rw [slots, ← map_set_of_eq place SlotPlacement.number number]
    exact kept.numbers
  · rw [slots, tally_map_set place, ← kept.leaders, leaders]
  · rw [slots, tally_map_set place, ← kept.replicas, replicas]
  · intro step listed
    rw [steps] at listed
    rcases List.mem_append.mp listed with old | new
    · exact kept.addressed step old
    · exact own step new ▸ kept.known place

end Moves

/-- A complete move of a slot. -/
inductive SlotMove : List PlanStep → Prop
  | leader (slot : Nat) (target oldLeader : String) :
      SlotMove [⟨.assignReplica, slot, target⟩, ⟨.sync, slot, target⟩,
        ⟨.promote, slot, target⟩, ⟨.assignReplica, slot, oldLeader⟩,
        ⟨.sync, slot, oldLeader⟩]
  | replica (slot : Nat) (target : String) :
      SlotMove [⟨.assignReplica, slot, target⟩, ⟨.sync, slot, target⟩]

namespace Course

variable {moves : Nat}

theorem kept (numbers : (view.slots.map SlotView.number).Nodup)
    (movable : view.slots.all (SlotView.movable view.eligibleNodeIDs) = true)
    (inhabited : view.eligibleNodeIDs ≠ []) (course : Course view skewThreshold moves state) :
    state.Kept view := by
  have sound := course.sound numbers movable inhabited
  induction course with
  | start => exact kept_start numbers movable
  | leader earlier moved induction =>
      obtain ⟨slot, index, target, moved⟩ := leaderStep_spec inhabited moved
      obtain rfl := moved.next
      exact (induction (earlier.sound numbers movable inhabited)).move sound moved.place
        (by rfl) rfl rfl rfl rfl (by simp)
  | turn earlier induction =>
      have kept := induction (earlier.sound numbers movable inhabited)
      exact ⟨sound, kept.numbers, kept.leaders, kept.replicas, kept.addressed⟩
  | replica earlier moved induction =>
      obtain ⟨slot, index, target, moved⟩ := replicaStep_spec inhabited moved
      obtain rfl := moved.next
      exact (induction (earlier.sound numbers movable inhabited)).move sound moved.place
        (by rfl) rfl (move_self _ _).symm rfl rfl (by simp)

theorem blocks (inhabited : view.eligibleNodeIDs ≠ [])
    (course : Course view skewThreshold moves state) :
    ∃ blocks : List (List PlanStep), state.steps = blocks.flatten ∧ blocks.length = moves ∧
      ∀ block ∈ blocks, SlotMove block := by
  have extend : ∀ {blocks : List (List PlanStep)} {moves : Nat} (block : List PlanStep),
      blocks.length = moves → (∀ block ∈ blocks, SlotMove block) → SlotMove block →
      (blocks ++ [block]).length = moves + 1 ∧ ∀ other ∈ blocks ++ [block], SlotMove other := by
    intro blocks moves block length shaped shape
    refine ⟨by rw [List.length_append, length]; rfl, fun other member => ?_⟩
    rcases List.mem_append.mp member with earlier | own
    · exact shaped other earlier
    · exact List.mem_singleton.mp own ▸ shape
  induction course with
  | start => exact ⟨[], rfl, rfl, by simp⟩
  | leader earlier moved induction =>
      obtain ⟨slot, index, target, moved⟩ := leaderStep_spec inhabited moved
      obtain ⟨blocks, steps, length, shaped⟩ := induction
      obtain rfl := moved.next
      refine ⟨blocks ++ [_], ?_, extend _ length shaped (.leader slot.number target slot.leader)⟩
      rw [List.flatten_concat, ← steps]
      rfl
  | turn earlier induction => exact induction
  | replica earlier moved induction =>
      obtain ⟨slot, index, target, moved⟩ := replicaStep_spec inhabited moved
      obtain ⟨blocks, steps, length, shaped⟩ := induction
      obtain rfl := moved.next
      refine ⟨blocks ++ [_], ?_, extend _ length shaped (.replica slot.number target)⟩
      rw [List.flatten_concat, ← steps]
      rfl

/-- Leaders only move from the most to the least loaded node. -/
theorem gap_le (inhabited : view.eligibleNodeIDs ≠ []) (positive : 0 ≤ skewThreshold)
    (course : Course view skewThreshold moves state) :
    gap view.eligibleNodeIDs state.leaderCounts ≤
      gap view.eligibleNodeIDs (Rebalance.start view).leaderCounts := by
  induction course with
  | start => exact le_refl _
  | leader earlier moved induction =>
      obtain ⟨slot, index, target, moved⟩ := leaderStep_spec inhabited moved
      have skewed := moved.skewed
      obtain rfl := moved.next
      refine le_trans ?_ induction
      exact gap_move_le moved.extremes.sourceListed moved.extremes.targetListed
        moved.extremes.largest moved.extremes.least (by omega)
  | turn earlier induction => exact induction
  | replica earlier moved induction =>
      obtain ⟨slot, index, target, moved⟩ := replicaStep_spec inhabited moved
      obtain rfl := moved.next
      exact induction

end Course

/-! ### The slots that the plan leaves -/

theorem Kept.perm_owners (kept : state.Kept view) :
    (state.slots.map fun placement =>
        (placement.number, placement.leader, placement.replica)).Perm
      ((view.perform state.steps).slots.map fun slot =>
        (slot.number, slot.leaderID, slot.replicaID)) := by
  have distinct : (state.slots.map fun placement =>
      (placement.number, placement.leader, placement.replica)).Nodup := by
    have first := kept.sound.distinct
    refine List.Nodup.of_map Prod.fst ?_
    rw [List.map_map]
    exact first
  refine (distinct.subperm fun owners listed => ?_).perm_of_length_le ?_
  · obtain ⟨placement, member, rfl⟩ := List.mem_map.mp listed
    obtain ⟨slot, known, number, leader, replica, -⟩ := kept.sound.placed placement member
    refine List.mem_map.mpr ⟨slot.after state.steps, ?_, ?_⟩
    · rw [view.slots_perform]
      exact List.mem_map_of_mem known
    · rw [SlotView.number_after, number, leader, replica]
  · have length := kept.numbers.length_eq
    rw [List.length_map, List.length_map] at length
    rw [List.length_map, List.length_map, view.slots_perform, List.length_map, length]

end Rebalance

/-- How many slots each node leads, and how many it replicates. -/
def ClusterView.leaderCounts (view : ClusterView) : String → Int :=
  countOf (view.slots.map SlotView.leaderID)

def ClusterView.replicaCounts (view : ClusterView) : String → Int :=
  countOf (view.slots.map SlotView.replicaID)

namespace Rebalance.Kept

variable {view : ClusterView} {state : Rebalance}

theorem leaderCounts (kept : state.Kept view) :
    (view.perform state.steps).leaderCounts = state.leaderCounts := by
  have owners := kept.perm_owners.map fun row => row.2.1
  rw [List.map_map, List.map_map] at owners
  rw [kept.leaders]
  exact (tally_perm owners).symm

theorem replicaCounts (kept : state.Kept view) :
    (view.perform state.steps).replicaCounts = state.replicaCounts := by
  have owners := kept.perm_owners.map fun row => row.2.2
  rw [List.map_map, List.map_map] at owners
  rw [kept.replicas]
  exact (tally_perm owners).symm

/-- Every slot ends up ready on two eligible nodes. -/
theorem movable (numbers : (view.slots.map SlotView.number).Nodup) (kept : state.Kept view)
    {slot : SlotView} (member : slot ∈ (view.perform state.steps).slots) :
    slot.movable view.eligibleNodeIDs = true := by
  rw [view.slots_perform] at member
  obtain ⟨before, known, rfl⟩ := List.mem_map.mp member
  have listed := kept.numbers.mem_iff.mpr (List.mem_map_of_mem known)
  obtain ⟨placement, placed, same⟩ := List.mem_map.mp listed
  obtain ⟨other, otherKnown, number, -, -, ready⟩ := kept.sound.placed placement placed
  obtain rfl := List.inj_on_of_nodup_map numbers otherKnown known (number.trans same)
  have guarded : (other.after state.steps).Guarded view :=
    GuardedRun.at_cut [] (by rw [List.append_nil]; exact kept.sound.guarded other known)
  obtain ⟨replica, apart⟩ := guarded.2 ready
  simp only [SlotView.movable, ready, Bool.and_eq_true, bne_iff_ne, List.contains_iff_mem]
  exact ⟨⟨⟨trivial, apart⟩, guarded.1⟩, replica⟩

theorem legal (kept : state.Kept view) {earlier later : List PlanStep} {step : PlanStep}
    (split : state.steps = earlier ++ step :: later) :
    ∃ slot ∈ (view.perform earlier).slots,
      slot.number = step.slot ∧ step.Legal view slot := by
  obtain ⟨slot, known, number⟩ := List.mem_map.mp
    (kept.addressed step (by rw [split]; simp))
  have run := kept.sound.pending slot known
  rw [split, stepsFor, addressing_append, number, addressing_cons_self, ← number] at run
  refine ⟨slot.after earlier, ?_, (slot.number_after earlier).trans number, run.step.1⟩
  rw [view.slots_perform]
  exact List.mem_map_of_mem known

end Rebalance.Kept

/-- A rebalance plan is a bounded sequence of complete moves whose steps are legal when
they are reached.  It leaves every slot ready on two eligible nodes, with the counts that
the planner has kept, and no larger difference between the leader counts. -/
theorem planRebalance_is_executable_and_balanced [PlanDigest] (view : ClusterView)
    (numbers : (view.slots.map SlotView.number).Nodup) (skewThreshold maxMoves : Int)
    (plan : RecoveryPlan)
    (planned : planRebalance view skewThreshold maxMoves = some plan) :
    let result := view.perform plan.steps
    let internal := Rebalance.final view skewThreshold maxMoves
    (∃ moves : List (List PlanStep), plan.steps = moves.flatten ∧
      (moves.length : Int) ≤ maxMoves ∧ ∀ move ∈ moves, Rebalance.SlotMove move) ∧
    (∀ earlier step later, plan.steps = earlier ++ step :: later →
      ∃ slot ∈ (view.perform earlier).slots,
        slot.number = step.slot ∧ step.Legal view slot) ∧
    (∀ slot ∈ result.slots, slot.movable view.eligibleNodeIDs = true) ∧
    (result.leaderCounts = internal.leaderCounts ∧
      result.replicaCounts = internal.replicaCounts) ∧
    gap view.eligibleNodeIDs result.leaderCounts ≤
      gap view.eligibleNodeIDs view.leaderCounts := by
  intro result internal
  obtain ⟨positive, inhabited, movable, steps, -⟩ := planRebalance_some planned
  obtain ⟨count, within, course⟩ := Rebalance.course_final view skewThreshold maxMoves
  have kept := course.kept numbers movable inhabited
  obtain ⟨moves, made, length, shaped⟩ := course.blocks inhabited
  have result_eq : result = view.perform internal.steps := by rw [← steps]
  rw [steps, result_eq]
  refine ⟨⟨moves, made, by omega, shaped⟩, fun earlier step later => kept.legal,
    fun slot => kept.movable numbers, ⟨kept.leaderCounts, kept.replicaCounts⟩, ?_⟩
  rw [kept.leaderCounts]
  exact course.gap_le inhabited (by split_ifs <;> omega)

section Examples

attribute [local instance] PlanDigest.constant

/-- A slot moves from the node that leads both to the one that has none. -/
theorem skewedView_is_balanced :
    ∃ plan, planRebalance skewedView 1 1 = some plan ∧
      ∀ slot ∈ (skewedView.perform plan.steps).slots,
        slot.movable skewedView.eligibleNodeIDs = true := by
  obtain ⟨plan, planned⟩ : ∃ plan, planRebalance skewedView 1 1 = some plan := ⟨_, rfl⟩
  exact ⟨plan, planned,
    (planRebalance_is_executable_and_balanced skewedView (by decide) 1 1 plan planned).2.2.1⟩

end Examples
end MnemoKV
