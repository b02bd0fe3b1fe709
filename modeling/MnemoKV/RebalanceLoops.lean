import MnemoKV.RecoveryPlanning

/-!
# The loops of a rebalance

`PlanRebalance` moves leaders and then replicas, one slot in each pass, from the node
with the most to the node with the least of them.  Whatever its passes keep holds of
the plan: the states they lead to are the `Course` of the loops.
-/

namespace MnemoKV

/-! ### The nodes with the highest and the lowest count -/

/-- The order of `countExtremes`. -/
abbrev countsBefore (counts : String → Int) (first second : String) : Prop :=
  counts first < counts second ∨ (counts first = counts second ∧ first ≤ second)

theorem countsBefore_trans {counts : String → Int} {first second third : String}
    (earlier : countsBefore counts first second)
    (later : countsBefore counts second third) : countsBefore counts first third := by
  rcases earlier with less | ⟨same, ordered⟩ <;> rcases later with less' | ⟨same', ordered'⟩
  · exact .inl (by omega)
  · exact .inl (by omega)
  · exact .inl (by omega)
  · exact .inr ⟨same.trans same', String.le_trans ordered ordered'⟩

theorem countsBefore_total (counts : String → Int) (first second : String) :
    countsBefore counts first second ∨ countsBefore counts second first := by
  rcases lt_trichotomy (counts first) (counts second) with less | same | more
  · exact .inl (.inl less)
  · rcases String.le_total first second with ordered | ordered
    · exact .inl (.inr ⟨same, ordered⟩)
    · exact .inr (.inr ⟨same.symm, ordered⟩)
  · exact .inr (.inl more)

theorem mem_leastBy {counts : String → Int} {nodes : List String} {node : String} :
    node ∈ leastBy counts nodes ↔ node ∈ nodes :=
  (List.perm_insertionSort ..).mem_iff

theorem pairwise_leastBy (counts : String → Int) (nodes : List String) :
    (leastBy counts nodes).Pairwise fun first second => counts first ≤ counts second := by
  have total : Std.Total (countsBefore counts) := ⟨countsBefore_total counts⟩
  have trans : IsTrans String (countsBefore counts) := ⟨fun _ _ _ => countsBefore_trans⟩
  have sorted : (leastBy counts nodes).Pairwise (countsBefore counts) :=
    List.pairwise_insertionSort _ nodes
  refine sorted.imp fun before => ?_
  rcases before with less | ⟨same, -⟩
  · exact less.le
  · exact same.le

/-- The nodes that `countExtremes` returns. -/
structure Extremes (nodes : List String) (counts : String → Int) (source target : String) :
    Prop where
  sourceListed : source ∈ nodes
  targetListed : target ∈ nodes
  largest : ∀ node ∈ nodes, counts node ≤ counts source
  least : ∀ node ∈ nodes, counts target ≤ counts node

theorem countExtremes_spec {nodes : List String} (inhabited : nodes ≠ [])
    (counts : String → Int) :
    ∃ source target,
      countExtremes nodes counts = (source, target, counts source - counts target) ∧
        Extremes nodes counts source target := by
  have sorted := pairwise_leastBy counts nodes
  have listed : ∀ node, node ∈ leastBy counts nodes ↔ node ∈ nodes := fun _ => mem_leastBy
  obtain ⟨some, member⟩ := List.exists_mem_of_ne_nil nodes inhabited
  have member := (listed some).mpr member
  unfold countExtremes
  generalize leastBy counts nodes = nodes' at sorted listed member
  rcases List.eq_nil_or_concat nodes' with rfl | ⟨init, source, rfl⟩
  · cases member
  · rw [List.concat_eq_append] at *
    obtain ⟨target, rest, split⟩ : ∃ target rest, init ++ [source] = target :: rest :=
      List.exists_cons_of_ne_nil (by simp)
    have last : (init ++ [source]).getLastD "" = source := by simp
    have first : (init ++ [source]).headD "" = target := by rw [split]; rfl
    dsimp only
    rw [last, first]
    refine ⟨source, target, rfl, (listed source).mp (by simp),
      (listed target).mp (by simp [split]), fun node known => ?_, fun node known => ?_⟩
    · rcases List.mem_append.mp ((listed node).mpr known) with earlier | own
      · exact (List.pairwise_append.mp sorted).2.2 node earlier source (by simp)
      · rw [List.mem_singleton.mp own]
    · have place := (listed node).mpr known
      rw [split] at sorted place
      rcases List.mem_cons.mp place with rfl | later
      · exact le_refl _
      · exact (List.pairwise_cons.mp sorted).1 node later

namespace Rebalance

/-! ### One pass of a loop -/

/-- The loops start with the slots of the view. -/
def start (view : ClusterView) : Rebalance :=
  { slots := view.sortedSlots.map fun slot =>
      { number := slot.number, leader := slot.leaderID, replica := slot.replicaID
        ready := true }
    leaderCounts := countOf (view.slots.map SlotView.leaderID)
    replicaCounts := countOf (view.slots.map SlotView.replicaID)
    moved := [], steps := [], writeBlockedSlots := [] }

theorem findSlot_spec {slots : List SlotPlacement} {condition : SlotPlacement → Bool}
    {placement : SlotPlacement} {index : Nat}
    (found : findSlot slots condition = some (placement, index)) :
    slots[index]? = some placement ∧ condition placement = true := by
  have held := List.find?_some found
  have listed := List.mem_of_find?_eq_some found
  exact ⟨List.mem_zipIdx_iff_getElem?.mp listed, held⟩

/-- A pass of the first loop, unless it stops there. -/
def leaderStep (eligible : List String) (skewThreshold : Int) (state : Rebalance) :
    Option Rebalance :=
  let (source, target, skew) := countExtremes eligible state.leaderCounts
  if skew ≤ skewThreshold then none
  else (state.findLeaderMove source target).map fun found =>
    state.moveLeader found.1 found.2 target

/-- A pass of the second loop, unless it stops there. -/
def replicaStep (eligible : List String) (skewThreshold : Int) (state : Rebalance) :
    Option Rebalance :=
  let (source, target, skew) := countExtremes eligible state.replicaCounts
  if skew ≤ skewThreshold then none
  else (state.findReplicaMove source target).map fun found =>
    state.moveReplica found.1 found.2 source target

variable {eligible : List String} {skewThreshold : Int} {state next : Rebalance}

theorem moveLeaders_succ (moves : Nat) :
    state.moveLeaders eligible skewThreshold (moves + 1) =
      match state.leaderStep eligible skewThreshold with
      | none => (state, moves + 1)
      | some next => next.moveLeaders eligible skewThreshold moves := by
  unfold leaderStep
  rw [moveLeaders]
  dsimp only
  split_ifs
  · rfl
  · cases state.findLeaderMove _ _ <;> rfl

theorem moveReplicas_succ (moves : Nat) :
    state.moveReplicas eligible skewThreshold (moves + 1) =
      match state.replicaStep eligible skewThreshold with
      | none => state
      | some next => next.moveReplicas eligible skewThreshold moves := by
  unfold replicaStep
  rw [moveReplicas]
  dsimp only
  split_ifs
  · rfl
  · cases state.findReplicaMove _ _ <;> rfl

/-- What a pass of the first loop does. -/
structure LeaderMoved (eligible : List String) (skewThreshold : Int) (state : Rebalance)
    (slot : SlotPlacement) (index : Nat) (target : String) (next : Rebalance) : Prop where
  extremes : Extremes eligible state.leaderCounts slot.leader target
  skewed : skewThreshold < state.leaderCounts slot.leader - state.leaderCounts target
  found : state.findLeaderMove slot.leader target = some (slot, index)
  place : state.slots[index]? = some slot
  fresh : slot.number ∉ state.moved
  next : next = state.moveLeader slot index target

theorem leaderStep_spec (inhabited : eligible ≠ [])
    (moved : state.leaderStep eligible skewThreshold = some next) :
    ∃ slot index target, LeaderMoved eligible skewThreshold state slot index target next := by
  obtain ⟨source, target, chosen, extremes⟩ :=
    countExtremes_spec inhabited state.leaderCounts
  unfold leaderStep at moved
  rw [chosen] at moved
  dsimp only at moved
  split_ifs at moved with balanced
  obtain ⟨⟨slot, index⟩, found, rfl⟩ := Option.map_eq_some_iff.mp moved
  obtain ⟨place, condition⟩ := findSlot_spec found
  simp only [Bool.and_eq_true, beq_iff_eq, decide_eq_true_eq] at condition
  obtain ⟨⟨⟨fresh, -⟩, rfl⟩, -⟩ := condition
  exact ⟨slot, index, target, extremes, not_le.mp balanced, found, place, fresh, rfl⟩

/-- What a pass of the second loop does. -/
structure ReplicaMoved (eligible : List String) (skewThreshold : Int) (state : Rebalance)
    (slot : SlotPlacement) (index : Nat) (target : String) (next : Rebalance) : Prop where
  extremes : Extremes eligible state.replicaCounts slot.replica target
  skewed : skewThreshold < state.replicaCounts slot.replica - state.replicaCounts target
  found : state.findReplicaMove slot.replica target = some (slot, index)
  place : state.slots[index]? = some slot
  fresh : slot.number ∉ state.moved
  next : next = state.moveReplica slot index slot.replica target

theorem replicaStep_spec (inhabited : eligible ≠ [])
    (moved : state.replicaStep eligible skewThreshold = some next) :
    ∃ slot index target, ReplicaMoved eligible skewThreshold state slot index target next := by
  obtain ⟨source, target, chosen, extremes⟩ :=
    countExtremes_spec inhabited state.replicaCounts
  unfold replicaStep at moved
  rw [chosen] at moved
  dsimp only at moved
  split_ifs at moved with balanced
  obtain ⟨⟨slot, index⟩, found, rfl⟩ := Option.map_eq_some_iff.mp moved
  obtain ⟨place, condition⟩ := findSlot_spec found
  simp only [Bool.and_eq_true, beq_iff_eq, decide_eq_true_eq] at condition
  obtain ⟨⟨⟨fresh, -⟩, rfl⟩, -⟩ := condition
  exact ⟨slot, index, target, extremes, not_le.mp balanced, found, place, fresh, rfl⟩

/-! ### The course of the loops -/

/-- The states of the loops after a number of moves.  The second loop starts with no
slot marked as moved. -/
inductive Course (view : ClusterView) (skewThreshold : Int) : Nat → Rebalance → Prop
  | start : Course view skewThreshold 0 (start view)
  | leader {moves : Nat} {state next : Rebalance} (earlier : Course view skewThreshold moves state)
      (moved : state.leaderStep view.eligibleNodeIDs skewThreshold = some next) :
      Course view skewThreshold (moves + 1) next
  | turn {moves : Nat} {state : Rebalance} (earlier : Course view skewThreshold moves state) :
      Course view skewThreshold moves { state with moved := [] }
  | replica {moves : Nat} {state next : Rebalance}
      (earlier : Course view skewThreshold moves state)
      (moved : state.replicaStep view.eligibleNodeIDs skewThreshold = some next) :
      Course view skewThreshold (moves + 1) next

namespace Course

variable {view : ClusterView} {moves : Nat}

theorem moveLeaders (course : Course view skewThreshold moves state) (cap : Nat) :
    ∃ used, used + (state.moveLeaders view.eligibleNodeIDs skewThreshold cap).2 = cap ∧
      Course view skewThreshold (moves + used)
        (state.moveLeaders view.eligibleNodeIDs skewThreshold cap).1 := by
  induction cap generalizing state moves with
  | zero => exact ⟨0, rfl, course⟩
  | succ cap induction =>
      rw [moveLeaders_succ]
      cases moved : state.leaderStep view.eligibleNodeIDs skewThreshold with
      | none => exact ⟨0, Nat.zero_add _, course⟩
      | some next =>
          obtain ⟨used, left, later⟩ := induction (course.leader moved)
          refine ⟨used + 1, by dsimp only; omega, ?_⟩
          rwa [Nat.add_assoc, Nat.add_comm 1] at later

theorem moveReplicas (course : Course view skewThreshold moves state) (cap : Nat) :
    ∃ used ≤ cap, Course view skewThreshold (moves + used)
      (state.moveReplicas view.eligibleNodeIDs skewThreshold cap) := by
  induction cap generalizing state moves with
  | zero => exact ⟨0, le_refl 0, course⟩
  | succ cap induction =>
      rw [moveReplicas_succ]
      cases moved : state.replicaStep view.eligibleNodeIDs skewThreshold with
      | none => exact ⟨0, Nat.zero_le _, course⟩
      | some next =>
          obtain ⟨used, within, later⟩ := induction (course.replica moved)
          refine ⟨used + 1, by omega, ?_⟩
          rwa [Nat.add_assoc, Nat.add_comm 1] at later

end Course

/-- The state in which the loops of `PlanRebalance` end. -/
def final (view : ClusterView) (skewThreshold maxMoves : Int) : Rebalance :=
  let threshold := if skewThreshold < 0 then 0 else skewThreshold
  let (leaders, moves) :=
    (start view).moveLeaders view.eligibleNodeIDs threshold maxMoves.toNat
  { leaders with moved := [] }.moveReplicas view.eligibleNodeIDs threshold moves

theorem course_final (view : ClusterView) (skewThreshold maxMoves : Int) :
    ∃ moves ≤ maxMoves.toNat,
      Course view (if skewThreshold < 0 then 0 else skewThreshold) moves
        (final view skewThreshold maxMoves) := by
  unfold final
  dsimp only
  generalize (if skewThreshold < 0 then 0 else skewThreshold) = threshold
  obtain ⟨used, left, leaders⟩ :=
    (show Course view threshold 0 (start view) from .start).moveLeaders maxMoves.toNat
  obtain ⟨used', within, course⟩ := leaders.turn.moveReplicas
    ((start view).moveLeaders view.eligibleNodeIDs threshold maxMoves.toNat).2
  exact ⟨_, by omega, course⟩

end Rebalance

/-- When there is a plan, and what it consists of. -/
theorem planRebalance_some [PlanDigest] {view : ClusterView} {skewThreshold maxMoves : Int}
    {plan : RecoveryPlan} (planned : planRebalance view skewThreshold maxMoves = some plan) :
    0 < maxMoves ∧ view.eligibleNodeIDs ≠ [] ∧
      view.slots.all (SlotView.movable view.eligibleNodeIDs) = true ∧
      plan.steps = (Rebalance.final view skewThreshold maxMoves).steps ∧ plan.steps ≠ [] := by
  unfold planRebalance at planned
  unfold Rebalance.final
  dsimp only at planned ⊢
  generalize (if skewThreshold < 0 then 0 else skewThreshold) = threshold at planned ⊢
  split_ifs at planned with refused empty
  push Not at refused
  obtain ⟨positive, two, movable⟩ := refused
  have inhabited : view.eligibleNodeIDs ≠ [] := by
    intro none
    simp [none] at two
  obtain rfl := Option.some.inj planned
  exact ⟨positive, inhabited, by simpa using movable, rfl, empty⟩

end MnemoKV
