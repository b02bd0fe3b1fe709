import MnemoKV.ClusterTables
import MnemoKV.GuardedSteps

/-!
# The postconditions of a plan's steps

Every step of a planner's plan changes a slot whose row shows that it has not been
carried out, and leaves a row that shows that it has: a hand-off of five steps, and
a slot that is moved twice, come back to no postcondition that held before.
-/

namespace MnemoKV

open AddressedUpdates GuardedSteps

/-- What `stepPostcondition` asks of the slot. -/
def PlanStep.reached (step : PlanStep) (slot : SlotView) : Bool :=
  match step.kind with
  | .promote =>
      slot.leaderID == step.target && slot.replicaID == "" && !slot.replicaReady
  | .assignReplica =>
      slot.replicaID == step.target && !slot.replicaReady &&
        slot.leaderID != step.target
  | .sync =>
      slot.replicaID == step.target && slot.replicaReady &&
        slot.leaderID != step.target
  | .markUnavailable | .other _ _ => false

/-- A slot table with the version that counts its changes. -/
structure Topology where
  version : Nat
  table : SlotTable
  deriving DecidableEq

def PlanStep.take (step : PlanStep) (topology : Topology) : Topology :=
  { version :=
      if step.kind.isTopology then topology.version + 1 else topology.version
    table := update SlotView.number PlanStep.slot PlanStep.act topology.table step }

/-- Whether a step counts as done; what marks a slot changes no table. -/
def PlanStep.met (step : PlanStep) (topology : Topology) : Bool :=
  match step.kind with
  | .markUnavailable => true
  | _ => topology.table[step.slot]?.any step.reached

def SlotTable.Numbered (table : SlotTable) : Prop :=
  ∀ (number : Nat) (slot : SlotView), table[number]? = some slot → slot.number = number

/-! ### One step -/

section Steps

variable {view : ClusterView} {step : PlanStep} {topology : Topology} {row : SlotView}

theorem PlanStep.number_iterate_act (step : PlanStep) (row : SlotView) (times : Nat) :
    (step.act^[times] row).number = row.number := by
  induction times with
  | zero => rfl
  | succ times induction => rw [Function.iterate_succ_apply', number_act, induction]

theorem PlanStep.iterate_take (own : row.number = step.slot) (times : Nat)
    (found : topology.table[step.slot]? = some row) :
    (step.take^[times] topology).table[step.slot]? = some (step.act^[times] row) := by
  induction times with
  | zero => exact found
  | succ times induction =>
      rw [Function.iterate_succ_apply', Function.iterate_succ_apply', take, update,
        List.getElem?_map, induction, Option.map_some, number_iterate_act,
        if_pos own]

theorem PlanStep.met_of_mark (marks : step.kind = .markUnavailable)
    (topology : Topology) : step.met topology = true := by
  unfold met
  rw [marks]

theorem PlanStep.met_eq (moves : step.kind ≠ .markUnavailable)
    (topology : Topology) :
    step.met topology = topology.table[step.slot]?.any step.reached := by
  unfold met
  split
  · contradiction
  · rfl

/-- A slot that the table does not have stays without a postcondition. -/
theorem PlanStep.tells_of_missing (moves : step.kind ≠ .markUnavailable)
    (missing : topology.table[step.slot]? = none) :
    Tells PlanStep.take PlanStep.met step topology := by
  have still : ∀ times, (step.take^[times] topology).table[step.slot]? = none := by
    intro times
    induction times with
    | zero => exact missing
    | succ times induction =>
        rw [Function.iterate_succ_apply', take, update, List.getElem?_map, induction]
        rfl
  refine .inr ⟨?_, .inr fun times => ?_⟩
  · rw [met_eq moves, missing]
    rfl
  · rw [met_eq moves, still]
    rfl

theorem PlanStep.take_of_mark (marks : step.kind = .markUnavailable) :
    step.take topology = topology := by
  obtain ⟨kind, slot, target⟩ := step
  cases marks
  have same : update SlotView.number PlanStep.slot PlanStep.act topology.table
      ⟨.markUnavailable, slot, target⟩ = topology.table := by
    simp [update, act]
  simp [take, same, StepKind.isTopology]

/-- The postcondition of a legal step tells whether the step has been taken. -/
theorem PlanStep.tells_of_pending (named : "" ∉ view.eligibleNodeIDs)
    (own : row.number = step.slot) (found : topology.table[step.slot]? = some row)
    (legal : step.Legal view row) (pending : step.Pending row) :
    Tells PlanStep.take PlanStep.met step topology := by
  have taken := fun times => iterate_take own times found
  obtain ⟨kind, slot, target⟩ := step
  cases kind with
  | markUnavailable => exact .inl ⟨rfl, take_of_mark rfl⟩
  | other => cases legal
  | promote =>
      obtain ⟨replica, ready⟩ := legal
      refine .inr ⟨?_, .inl ?_⟩
      · simp [met, found, reached, ready]
      · have after := taken 1
        rw [Function.iterate_one, Function.iterate_one] at after
        simpa [met, after, reached, act] using replica
  | assignReplica =>
      obtain ⟨eligible, other⟩ := legal
      have unnamed : target ≠ "" := fun empty => named (empty ▸ eligible)
      refine .inr ⟨?_, .inl ?_⟩
      · rcases pending with ready | another | none
        · simp [met, found, reached, ready]
        · have another : row.replicaID ≠ target := another
          simp [met, found, reached, another]
        · simp [met, found, reached, none, unnamed.symm]
      · have after := taken 1
        rw [Function.iterate_one, Function.iterate_one] at after
        simpa [met, after, reached, act] using other.symm
  | sync =>
      have replica : row.replicaID = target := legal
      have unready : row.replicaReady = false := pending
      refine .inr ⟨?_, ?_⟩
      · simp [met, found, reached, unready]
      · by_cases leads : row.leaderID = target
        -- A replica that is the leader itself is never found synchronised.
        · refine .inr fun times => ?_
          have kept : ∀ count,
              ((PlanStep.act ⟨.sync, slot, target⟩)^[count] row).leaderID = target := by
            intro count
            induction count with
            | zero => exact leads
            | succ count induction =>
                rw [Function.iterate_succ_apply']
                exact induction
          simp only [met, taken, Option.any_some, reached, kept, bne_self_eq_false,
            Bool.and_false]
        · have after := taken 1
          rw [Function.iterate_one, Function.iterate_one] at after
          exact .inl (by simp [met, after, reached, act, replica, leads])

end Steps

/-! ### A whole plan -/

theorem table_after (steps : List PlanStep) (topology : Topology) :
    (after PlanStep.take steps topology).table =
      steps.foldl (update SlotView.number PlanStep.slot PlanStep.act)
        topology.table := by
  induction steps generalizing topology with
  | nil => rfl
  | cons step rest induction => exact induction (step.take topology)

theorem version_after (steps : List PlanStep) (topology : Topology) :
    (after PlanStep.take steps topology).version =
      topology.version + steps.countP fun step => step.kind.isTopology := by
  induction steps generalizing topology with
  | nil => rfl
  | cons step rest induction =>
      refine (induction (step.take topology)).trans ?_
      rw [List.countP_cons]
      dsimp only [PlanStep.take]
      split_ifs <;> omega

theorem PlannedFrom.pending [PlanDigest] {view : ClusterView} {plan : RecoveryPlan}
    (planned : PlannedFrom view plan)
    (distinct : (view.slots.map SlotView.number).Nodup) :
    ∀ slot ∈ view.slots, PendingRun view slot (stepsFor plan.steps slot.number) := by
  rcases planned with failover | ⟨skewThreshold, maxMoves, rebalance⟩
  · exact planFailover_pending distinct failover
  · obtain ⟨-, state, sound, steps⟩ := planRebalance_sound distinct rebalance
    rw [steps]
    exact sound.pending

/-- The postconditions of a planner's plan tell its steps apart, all along. -/
theorem PlannedFrom.tells [PlanDigest] {view : ClusterView} {plan : RecoveryPlan}
    (planned : PlannedFrom view plan) (named : "" ∉ view.eligibleNodeIDs)
    (numbered : SlotTable.Numbered view.slots) (version : Nat) (index : Nat)
    (step : PlanStep) (next : plan.steps[index]? = some step) :
    Tells PlanStep.take PlanStep.met step
      (after PlanStep.take (plan.steps.take index) ⟨version, view.slots⟩) := by
  by_cases marks : step.kind = .markUnavailable
  · exact .inl ⟨PlanStep.met_of_mark marks _, PlanStep.take_of_mark marks⟩
  set earlier := plan.steps.take index with taken
  obtain ⟨inRange, here⟩ := List.getElem?_eq_some_iff.mp next
  have split : plan.steps = earlier ++ step :: plan.steps.drop (index + 1) := by
    rw [taken, ← here, List.getElem_cons_drop, List.take_append_drop]
  have rows : (after PlanStep.take earlier ⟨version, view.slots⟩).table =
      view.slots.map (SlotView.after earlier) :=
    (table_after earlier _).trans (view.slots_perform earlier)
  cases present : view.slots[step.slot]? with
  | none =>
      refine PlanStep.tells_of_missing marks ?_
      rw [rows, List.getElem?_map, present]
      rfl
  | some slot =>
      have own := numbered step.slot slot present
      have run := planned.pending (nodup_numbers numbered) slot
        (List.mem_of_getElem? present)
      rw [split, stepsFor, addressing_append, own, addressing_cons_self] at run
      obtain ⟨legal, pending⟩ := run.step
      have found : (after PlanStep.take earlier ⟨version, view.slots⟩).table[step.slot]? =
          some (slot.after earlier) := by
        rw [rows, List.getElem?_map, present]
        rfl
      rw [← own] at legal pending
      exact PlanStep.tells_of_pending named ((slot.number_after earlier).trans own) found
        legal pending

end MnemoKV
