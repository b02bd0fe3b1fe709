import MnemoKV.RebalanceMoves
import Mathlib.Data.Prod.Lex
import Mathlib.Order.WellFounded

/-!
# Rebalancing comes to an end

Within a plan every slot moves at most once in each loop.  From plan to plan the squares
of the leader counts decrease, or they stay and those of the replica counts decrease: a
move of a leader may raise the latter, but it lowers the former.
-/

namespace MnemoKV

open LoadBalancing

namespace Rebalance

variable {eligible : List String} {skewThreshold : Int} {state next : Rebalance}

/-! ### The loops end by themselves -/

/-- The numbers of the slots that a loop may still move. -/
def unmoved (state : Rebalance) : List Nat :=
  (state.slots.map SlotPlacement.number).filter fun number => decide (number ∉ state.moved)

theorem length_unmoved_le (state : Rebalance) : state.unmoved.length ≤ state.slots.length := by
  rw [← List.length_map SlotPlacement.number]
  exact List.length_filter_le _ _

theorem length_unmoved_lt {slot slot' : SlotPlacement} {index : Nat}
    (place : state.slots[index]? = some slot) (fresh : slot.number ∉ state.moved)
    (sameNumber : slot'.number = slot.number)
    (slots : next.slots = state.slots.set index slot')
    (moved : next.moved = slot.number :: state.moved) :
    next.unmoved.length < state.unmoved.length := by
  have numbers : next.slots.map SlotPlacement.number = state.slots.map SlotPlacement.number := by
    rw [slots, ← map_set_of_eq place SlotPlacement.number sameNumber]
  have listed : slot.number ∈ state.unmoved := by
    refine List.mem_filter.mpr ⟨List.mem_map_of_mem (List.mem_of_getElem? place), ?_⟩
    simpa using fresh
  have shorter : next.unmoved = state.unmoved.filter (· ≠ slot.number) := by
    rw [unmoved, unmoved, numbers, moved, List.filter_filter]
    simp
  rw [shorter]
  exact List.length_filter_lt_length_iff_exists.mpr ⟨slot.number, listed, by simp⟩

theorem leaderStep_unmoved (moved : state.leaderStep eligible skewThreshold = some next) :
    next.unmoved.length < state.unmoved.length := by
  unfold leaderStep at moved
  dsimp only at moved
  split_ifs at moved
  obtain ⟨⟨slot, index⟩, found, rfl⟩ := Option.map_eq_some_iff.mp moved
  obtain ⟨place, condition⟩ := findSlot_spec found
  simp only [Bool.and_eq_true, decide_eq_true_eq] at condition
  exact length_unmoved_lt place condition.1.1.1 (by rfl) rfl rfl

theorem replicaStep_unmoved (moved : state.replicaStep eligible skewThreshold = some next) :
    next.unmoved.length < state.unmoved.length := by
  unfold replicaStep at moved
  dsimp only at moved
  split_ifs at moved
  obtain ⟨⟨slot, index⟩, found, rfl⟩ := Option.map_eq_some_iff.mp moved
  obtain ⟨place, condition⟩ := findSlot_spec found
  simp only [Bool.and_eq_true, decide_eq_true_eq] at condition
  exact length_unmoved_lt place condition.1.1.1 (by rfl) rfl rfl

/-- A loop whose passes lower a size stops by itself: however many passes are allowed
beyond that size, it ends in the same state. -/
theorem loop_ends {State : Type} {step : State → Option State} {size : State → Nat}
    (loop : Nat → State → State)
    (stops : ∀ cap state, step state = none → loop cap state = state)
    (passes : ∀ cap state next, step state = some next → loop (cap + 1) state = loop cap next)
    (lower : ∀ state next, step state = some next → size next < size state) (state : State) :
    ∃ last, step last = none ∧ ∀ cap ≥ size state, loop cap state = last := by
  induction count : size state using Nat.strong_induction_on generalizing state with
  | _ count induction =>
      cases stepped : step state with
      | none => exact ⟨state, stepped, fun cap _ => stops cap state stepped⟩
      | some next =>
          have fewer := lower state next stepped
          obtain ⟨last, stopped, same⟩ := induction _ (by omega) next rfl
          refine ⟨last, stopped, fun cap enough => ?_⟩
          obtain ⟨cap, rfl⟩ : ∃ left, cap = left + 1 := ⟨cap - 1, by omega⟩
          rw [passes cap state next stepped]
          exact same cap (by omega)

theorem moveLeaders_ends (eligible : List String) (skewThreshold : Int) (state : Rebalance) :
    ∃ last : Rebalance, last.leaderStep eligible skewThreshold = none ∧
      ∀ cap ≥ state.unmoved.length,
        (state.moveLeaders eligible skewThreshold cap).1 = last := by
  refine loop_ends (fun cap state => (moveLeaders eligible skewThreshold cap state).1)
    (fun cap state stopped => ?_) (fun cap state next moved => ?_)
    (fun _ _ => leaderStep_unmoved) state
  · cases cap with
    | zero => rfl
    | succ cap => rw [moveLeaders_succ, stopped]
  · rw [moveLeaders_succ, moved]

theorem moveReplicas_ends (eligible : List String) (skewThreshold : Int) (state : Rebalance) :
    ∃ last : Rebalance, last.replicaStep eligible skewThreshold = none ∧
      ∀ cap ≥ state.unmoved.length,
        state.moveReplicas eligible skewThreshold cap = last := by
  refine loop_ends (moveReplicas eligible skewThreshold)
    (fun cap state stopped => ?_) (fun cap state next moved => ?_)
    (fun _ _ => replicaStep_unmoved) state
  · cases cap with
    | zero => rfl
    | succ cap => rw [moveReplicas_succ, stopped]
  · rw [moveReplicas_succ, moved]

/-! ### The squares of the counts -/

/-- The squares of the leader counts, then those of the replica counts. -/
def potential (nodes : List String) (leaders replicas : String → Int) : ℕ ×ₗ ℕ :=
  toLex ((squares nodes leaders).toNat, (squares nodes replicas).toNat)

theorem toNat_squares_lt {nodes : List String} {loads loads' : String → Int}
    (less : squares nodes loads' < squares nodes loads) :
    (squares nodes loads').toNat < (squares nodes loads).toNat := by
  have nonneg := squares_nonneg nodes loads'
  omega

section Moves

variable {slot : SlotPlacement} {index : Nat} {target : String} (distinct : eligible.Nodup)
  (positive : 1 ≤ skewThreshold)

include distinct positive

theorem LeaderMoved.lowers
    (moved : LeaderMoved eligible skewThreshold state slot index target next) :
    potential eligible next.leaderCounts next.replicaCounts <
      potential eligible state.leaderCounts state.replicaCounts := by
  have skewed := moved.skewed
  obtain rfl := moved.next
  refine Prod.Lex.toLex_lt_toLex.mpr (.inl (toNat_squares_lt ?_))
  exact squares_move_lt distinct moved.extremes.sourceListed moved.extremes.targetListed
    (by omega)

theorem ReplicaMoved.lowers
    (moved : ReplicaMoved eligible skewThreshold state slot index target next) :
    potential eligible next.leaderCounts next.replicaCounts <
      potential eligible state.leaderCounts state.replicaCounts := by
  have skewed := moved.skewed
  obtain rfl := moved.next
  refine Prod.Lex.toLex_lt_toLex.mpr (.inr ⟨rfl, toNat_squares_lt ?_⟩)
  exact squares_move_lt distinct moved.extremes.sourceListed moved.extremes.targetListed
    (by omega)

end Moves

/-- The loops lower the potential unless they make no move. -/
theorem Course.lowers {view : ClusterView} {moves : Nat} (positive : 1 ≤ skewThreshold)
    (inhabited : view.eligibleNodeIDs ≠ []) (course : Course view skewThreshold moves state) :
    (moves = 0 ∧ state.leaderCounts = view.leaderCounts ∧
        state.replicaCounts = view.replicaCounts) ∨
      potential view.eligibleNodeIDs state.leaderCounts state.replicaCounts <
        potential view.eligibleNodeIDs view.leaderCounts view.replicaCounts := by
  have extend : ∀ {moves : Nat} {state next : Rebalance},
      potential view.eligibleNodeIDs next.leaderCounts next.replicaCounts <
        potential view.eligibleNodeIDs state.leaderCounts state.replicaCounts →
      (moves = 0 ∧ state.leaderCounts = view.leaderCounts ∧
          state.replicaCounts = view.replicaCounts) ∨
        potential view.eligibleNodeIDs state.leaderCounts state.replicaCounts <
          potential view.eligibleNodeIDs view.leaderCounts view.replicaCounts →
      potential view.eligibleNodeIDs next.leaderCounts next.replicaCounts <
        potential view.eligibleNodeIDs view.leaderCounts view.replicaCounts := by
    intro moves state next less before
    rcases before with ⟨-, leaders, replicas⟩ | earlier
    · rwa [leaders, replicas] at less
    · exact less.trans earlier
  have distinct := view.nodup_eligibleNodeIDs
  induction course with
  | start => exact .inl ⟨rfl, rfl, rfl⟩
  | leader earlier moved induction =>
      obtain ⟨slot, index, target, moved⟩ := leaderStep_spec inhabited moved
      exact .inr (extend (moved.lowers distinct positive) induction)
  | turn earlier induction => exact induction
  | replica earlier moved induction =>
      obtain ⟨slot, index, target, moved⟩ := replicaStep_spec inhabited moved
      exact .inr (extend (moved.lowers distinct positive) induction)

end Rebalance

/-! ### Rounds -/

/-- What every round brings down: leaders first, then replicas. -/
def ClusterView.potential (view : ClusterView) : ℕ ×ₗ ℕ :=
  Rebalance.potential view.eligibleNodeIDs view.leaderCounts view.replicaCounts

theorem planRebalance_lowers [PlanDigest] {view : ClusterView}
    (numbers : (view.slots.map SlotView.number).Nodup) {skewThreshold maxMoves : Int}
    (positive : 1 ≤ skewThreshold) {plan : RecoveryPlan}
    (planned : planRebalance view skewThreshold maxMoves = some plan) :
    (view.perform plan.steps).potential < view.potential := by
  obtain ⟨-, inhabited, movable, steps, some⟩ := planRebalance_some planned
  obtain ⟨moves, -, course⟩ := Rebalance.course_final view skewThreshold maxMoves
  rw [if_neg (by omega)] at course
  have kept := course.kept numbers movable inhabited
  have less := course.lowers positive inhabited
  rw [steps] at some ⊢
  rw [← kept.leaderCounts, ← kept.replicaCounts] at less
  rcases less with ⟨rfl, -⟩ | less
  · obtain ⟨blocks, made, none, -⟩ := course.blocks inhabited
    rw [made, List.eq_nil_of_length_eq_zero none] at some
    exact absurd rfl some
  · exact less

/-- Rounds of planning, executing the whole plan and looking at the slots again come to a
view without a plan; and both loops of the planner end however many moves are allowed. -/
theorem rebalancing_terminates [PlanDigest] (views : Nat → ClusterView)
    (numbers : ((views 0).slots.map SlotView.number).Nodup) (skewThreshold maxMoves : Int)
    (positive : 1 ≤ skewThreshold)
    (rounds : ∀ round plan, planRebalance (views round) skewThreshold maxMoves = some plan →
      (views (round + 1)).slots = ((views round).perform plan.steps).slots ∧
        (views (round + 1)).eligibleNodeIDs = (views round).eligibleNodeIDs) :
    (∃ round, planRebalance (views round) skewThreshold maxMoves = none) ∧
    ∀ (eligible : List String) (state : Rebalance),
      (∃ last : Rebalance, last.leaderStep eligible skewThreshold = none ∧
        ∀ cap ≥ state.slots.length,
          (state.moveLeaders eligible skewThreshold cap).1 = last) ∧
      ∃ last : Rebalance, last.replicaStep eligible skewThreshold = none ∧
        ∀ cap ≥ state.slots.length, state.moveReplicas eligible skewThreshold cap = last := by
  constructor
  · by_contra endless
    have planned : ∀ round, ∃ plan,
        planRebalance (views round) skewThreshold maxMoves = some plan := by
      intro round
      exact Option.ne_none_iff_exists'.mp fun none => endless ⟨round, none⟩
    have distinct : ∀ round, ((views round).slots.map SlotView.number).Nodup := by
      intro round
      induction round with
      | zero => exact numbers
      | succ round induction =>
          obtain ⟨plan, made⟩ := planned round
          rw [(rounds round plan made).1, ClusterView.numbers_perform]
          exact induction
    obtain ⟨round, stuck⟩ :=
      WellFounded.not_rel_apply_succ (r := (· < ·)) fun round => (views round).potential
    obtain ⟨plan, made⟩ := planned round
    refine stuck ?_
    have lower := planRebalance_lowers (distinct round) positive made
    obtain ⟨slots, nodes⟩ := rounds round plan made
    have seen : (views (round + 1)).potential =
        ((views round).perform plan.steps).potential := by
      unfold ClusterView.potential ClusterView.leaderCounts ClusterView.replicaCounts
      rw [slots, nodes]
      rfl
    rw [seen]
    exact lower
  · intro eligible state
    have few := state.length_unmoved_le
    obtain ⟨last, stopped, same⟩ := state.moveLeaders_ends eligible skewThreshold
    obtain ⟨last', stopped', same'⟩ := state.moveReplicas_ends eligible skewThreshold
    exact ⟨⟨last, stopped, fun cap enough => same cap (few.trans enough)⟩,
      last', stopped', fun cap enough => same' cap (few.trans enough)⟩

section Examples

attribute [local instance] PlanDigest.constant

/-- One round after the other, with one move each. -/
def skewedRounds : Nat → ClusterView
  | 0 => skewedView
  | round + 1 =>
      match planRebalance (skewedRounds round) 1 1 with
      | some plan => (skewedRounds round).perform plan.steps
      | none => skewedRounds round

theorem skewedRounds_terminate :
    ∃ round, planRebalance (skewedRounds round) 1 1 = none :=
  (rebalancing_terminates skewedRounds (by decide) 1 1 (by decide) fun round plan planned => by
    have next : skewedRounds (round + 1) = (skewedRounds round).perform plan.steps := by
      simp only [skewedRounds, planned]
    rw [next]
    exact ⟨rfl, rfl⟩).1

end Examples
end MnemoKV
