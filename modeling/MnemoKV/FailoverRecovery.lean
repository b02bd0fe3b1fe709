import MnemoKV.PlanSemantics

/-!
# A failover plan restores every slot that can be restored

The plan consists of one block of steps for each slot.  A block is legal step by
step and leaves its slot with two available copies, unless no copy survived; then
it only marks the slot.
-/

namespace MnemoKV

open AddressedUpdates

section Classes

variable {nodes : NodeViews} {slot : SlotView}

theorem classify_unaffected_iff :
    slot.classify nodes = .unaffected ↔
      ownerAvailable nodes slot.leaderID = true ∧ slot.replicaReady = true ∧
        ownerAvailable nodes slot.replicaID = true := by
  unfold SlotView.classify
  cases ownerAvailable nodes slot.leaderID <;> cases slot.replicaReady <;>
    cases ownerAvailable nodes slot.replicaID <;> decide

theorem classify_leaderless_iff :
    slot.classify nodes = .leaderless ↔
      ownerAvailable nodes slot.leaderID = false ∧ slot.replicaReady = true ∧
        ownerAvailable nodes slot.replicaID = true := by
  unfold SlotView.classify
  cases ownerAvailable nodes slot.leaderID <;> cases slot.replicaReady <;>
    cases ownerAvailable nodes slot.replicaID <;> decide

theorem classify_replicaLost_iff :
    slot.classify nodes = .replicaLost ↔
      ownerAvailable nodes slot.leaderID = true ∧
        (slot.replicaReady = false ∨ ownerAvailable nodes slot.replicaID = false) := by
  unfold SlotView.classify
  cases ownerAvailable nodes slot.leaderID <;> cases slot.replicaReady <;>
    cases ownerAvailable nodes slot.replicaID <;> decide

theorem classify_noSurvivingCopy_iff :
    slot.classify nodes = .noSurvivingCopy ↔
      ownerAvailable nodes slot.leaderID = false ∧
        (slot.replicaReady = false ∨ ownerAvailable nodes slot.replicaID = false) := by
  unfold SlotView.classify
  cases ownerAvailable nodes slot.leaderID <;> cases slot.replicaReady <;>
    cases ownerAvailable nodes slot.replicaID <;> decide

end Classes

/-! ### Legal steps -/

/-- What a step needs of the slot when it is reached. -/
def PlanStep.Legal (view : ClusterView) (slot : SlotView) (step : PlanStep) : Prop :=
  match step.kind with
  | .promote => slot.replicaID = step.target ∧ slot.replicaReady = true
  | .assignReplica =>
      step.target ∈ view.eligibleNodeIDs ∧ step.target ≠ slot.leaderID
  | .sync => slot.replicaID = step.target
  | .markUnavailable => True
  | .other _ _ => False

/-- Every step of a block is legal when it is reached. -/
def LegalRun (view : ClusterView) : SlotView → List PlanStep → Prop
  | _, [] => True
  | slot, step :: rest => step.Legal view slot ∧ LegalRun view (step.act slot) rest

theorem LegalRun.step {view : ClusterView} {slot : SlotView}
    {earlier later : List PlanStep} {step : PlanStep}
    (legal : LegalRun view slot (earlier ++ step :: later)) :
    step.Legal view (actAll earlier slot) := by
  induction earlier generalizing slot with
  | nil => exact legal.1
  | cons first rest induction => exact induction legal.2

/-- What shows that the step has not been carried out yet: a new replica is not
there, and one to be synchronised is not ready. -/
def PlanStep.Pending (slot : SlotView) (step : PlanStep) : Prop :=
  match step.kind with
  | .assignReplica => slot.replicaReady = true ∨ slot.replicaID ≠ step.target ∨
      slot.replicaID = ""
  | .sync => slot.replicaReady = false
  | _ => True

/-- Every step of a block is legal and pending when it is reached. -/
def PendingRun (view : ClusterView) : SlotView → List PlanStep → Prop
  | _, [] => True
  | slot, step :: rest =>
      (step.Legal view slot ∧ step.Pending slot) ∧ PendingRun view (step.act slot) rest

theorem PendingRun.append {view : ClusterView} {slot : SlotView}
    {first second : List PlanStep} (before : PendingRun view slot first)
    (after : PendingRun view (actAll first slot) second) :
    PendingRun view slot (first ++ second) := by
  induction first generalizing slot with
  | nil => exact after
  | cons step rest induction => exact ⟨before.1, induction before.2 after⟩

theorem PendingRun.step {view : ClusterView} {slot : SlotView}
    {earlier later : List PlanStep} {step : PlanStep}
    (pending : PendingRun view slot (earlier ++ step :: later)) :
    step.Legal view (actAll earlier slot) ∧ step.Pending (actAll earlier slot) := by
  induction earlier generalizing slot with
  | nil => exact pending.1
  | cons first rest induction => exact induction pending.2

/-- What the steps for one slot achieve. -/
structure Repairs (view : ClusterView) (slot : SlotView) (block : List PlanStep) :
    Prop where
  own : ∀ step ∈ block, step.slot = slot.number
  legal : LegalRun view slot block
  untouched : slot.classify view.nodes = .unaffected → block = []
  lost : slot.classify view.nodes = .noSurvivingCopy →
    block = [⟨.markUnavailable, slot.number, ""⟩]
  repaired : slot.classify view.nodes = .leaderless ∨
      slot.classify view.nodes = .replicaLost →
    block ≠ [] ∧ (actAll block slot).classify view.nodes = .unaffected

theorem PendingRun.legal {view : ClusterView} {slot : SlotView} {block : List PlanStep}
    (pending : PendingRun view slot block) : LegalRun view slot block := by
  induction block generalizing slot with
  | nil => trivial
  | cons step rest induction => exact ⟨pending.1.1, induction pending.2⟩

/-- The steps for one slot, each of them legal and pending when it is reached. -/
structure Failover.Pends (view : ClusterView) (slot : SlotView) (block : List PlanStep) :
    Prop where
  own : ∀ step ∈ block, step.slot = slot.number
  pending : PendingRun view slot block

/-- Where a block leads, by the class of its slot. -/
def Failover.Settles (view : ClusterView) (slot : SlotView) (block : List PlanStep) : Prop :=
  match slot.classify view.nodes with
  | .unaffected => block = []
  | .noSurvivingCopy => block = [⟨.markUnavailable, slot.number, ""⟩]
  | .leaderless | .replicaLost =>
      block ≠ [] ∧ (actAll block slot).classify view.nodes = .unaffected

theorem Failover.Pends.repairs {view : ClusterView} {slot : SlotView}
    {block : List PlanStep} (pends : Pends view slot block)
    (settles : Settles view slot block) : Repairs view slot block := by
  unfold Settles at settles
  refine ⟨pends.own, pends.pending.legal, fun whole => ?_, fun lost => ?_, ?_⟩
  · rw [whole] at settles
    exact settles
  · rw [lost] at settles
    exact settles
  · rintro (damaged | damaged) <;> rw [damaged] at settles <;> exact settles

theorem Repairs.kept {view : ClusterView} {slot : SlotView} {block : List PlanStep}
    (repairs : Repairs view slot block)
    (settled : slot.classify view.nodes = .unaffected ∨
      slot.classify view.nodes = .noSurvivingCopy) : actAll block slot = slot := by
  rcases settled with unaffected | lost
  · rw [repairs.untouched unaffected]
    rfl
  · rw [repairs.lost lost]
    rfl

/-! ### One slot -/

namespace Failover

variable {view : ClusterView} {slot : SlotView}

section Visits

variable (distinct : (view.slots.map SlotView.number).Nodup)
  (member : slot ∈ view.slots) (state : Failover)

include distinct member

theorem visit_unaffected (unaffected : slot.classify view.nodes = .unaffected) :
    state.visit view slot = state := by
  rw [visit, classifySlots_of_mem distinct member, unaffected]

theorem visit_lost (lost : slot.classify view.nodes = .noSurvivingCopy) :
    state.visit view slot =
      { state with
        steps := state.steps ++ [⟨.markUnavailable, slot.number, ""⟩]
        unrecoverable := state.unrecoverable ++ [slot.number] } := by
  rw [visit, classifySlots_of_mem distinct member, lost]

end Visits

/-- A new replica is none of the nodes that the slot has; with two nodes there is one. -/
theorem replace_block (slot : SlotView) (state : Failover)
    (lost : slot.replicaID = "" ∨ ownerAvailable view.nodes slot.replicaID = false) :
    ∃ block, (state.replace view slot.number slot.leaderID).steps =
        state.steps ++ block ∧ Pends view slot block ∧
      (2 ≤ view.eligibleNodeIDs.length → "" ∉ view.eligibleNodeIDs →
        ownerAvailable view.nodes slot.leaderID = true →
        block ≠ [] ∧ (actAll block slot).classify view.nodes = .unaffected) := by
  unfold replace
  split
  · rename_i missing
    refine ⟨[], by simp, ⟨by simp, trivial⟩, fun two => ?_⟩
    obtain ⟨target, chosen⟩ := leastLoadedEligible_isSome two state.loads slot.leaderID
    cases missing.symm.trans chosen
  · rename_i target chosen
    obtain ⟨eligible, other⟩ := leastLoadedEligible_spec chosen
    refine ⟨_, rfl, ⟨by simp, ⟨⟨eligible, other⟩, ?_⟩, ⟨rfl, rfl⟩, trivial⟩, ?_⟩
    · by_cases unnamed : slot.replicaID = ""
      · exact .inr (.inr unnamed)
      · refine .inr (.inl ?_)
        rintro rfl
        rw [ownerAvailable_of_eligible eligible unnamed] at lost
        exact lost.elim unnamed nofun
    · intro _ named leader
      have available := ownerAvailable_of_eligible eligible fun empty =>
        named (empty ▸ eligible)
      exact ⟨List.cons_ne_nil _ _, classify_unaffected_iff.mpr ⟨leader, rfl, available⟩⟩

theorem visit_block (distinct : (view.slots.map SlotView.number).Nodup)
    (member : slot ∈ view.slots) (state : Failover) :
    ∃ block, (state.visit view slot).steps = state.steps ++ block ∧
      Pends view slot block ∧
      (2 ≤ view.eligibleNodeIDs.length → "" ∉ view.eligibleNodeIDs →
        Settles view slot block) := by
  rw [visit, classifySlots_of_mem distinct member]
  unfold Settles
  cases slotClass : slot.classify view.nodes with
  | unaffected => exact ⟨[], by simp, ⟨by simp, trivial⟩, fun _ _ => rfl⟩
  | noSurvivingCopy =>
      exact ⟨_, rfl, ⟨by simp, ⟨trivial, trivial⟩, trivial⟩, fun _ _ => rfl⟩
  | leaderless =>
      obtain ⟨-, ready, available⟩ := classify_leaderless_iff.mp slotClass
      let promotion : PlanStep := ⟨.promote, slot.number, slot.replicaID⟩
      obtain ⟨block, steps, pends, settles⟩ := replace_block (promotion.act slot)
        { state with
          steps := state.steps ++ [promotion]
          writeBlockedSlots := state.writeBlockedSlots ++ [slot.number] } (.inl rfl)
      refine ⟨promotion :: block, steps.trans (List.append_assoc ..),
        ⟨List.forall_mem_cons.mpr ⟨rfl, pends.own⟩, ⟨⟨rfl, ready⟩, trivial⟩, pends.pending⟩,
        fun two named => ⟨List.cons_ne_nil _ _, (settles two named available).2⟩⟩
  | replicaLost =>
      obtain ⟨leader, lost⟩ := classify_replicaLost_iff.mp slotClass
      dsimp only
      split_ifs with kept
      · rw [kept.2] at lost
        exact ⟨_, rfl, ⟨by simp, ⟨rfl, lost.resolve_right nofun⟩, trivial⟩, fun _ _ =>
          ⟨List.cons_ne_nil _ _, classify_unaffected_iff.mpr ⟨leader, rfl, kept.2⟩⟩⟩
      · have missing : slot.replicaID = "" ∨
            ownerAvailable view.nodes slot.replicaID = false := by
          by_contra present
          push Not at present
          exact kept ⟨present.1, Bool.not_eq_false _ ▸ present.2⟩
        obtain ⟨block, steps, pends, settles⟩ := replace_block slot state missing
        exact ⟨block, steps, pends, fun two named => settles two named leader⟩

/-! ### All slots -/

/-- The numbers of the slots without a surviving copy. -/
def lostNumbers (view : ClusterView) (slots : List SlotView) : List Nat :=
  (slots.filter fun slot => slot.classify view.nodes = .noSurvivingCopy).map
    SlotView.number

theorem mem_lostNumbers {slots : List SlotView} {number : Nat} :
    number ∈ lostNumbers view slots ↔ ∃ slot ∈ slots, slot.number = number ∧
      slot.classify view.nodes = .noSurvivingCopy := by
  simp only [lostNumbers, List.mem_map, List.mem_filter, decide_eq_true_eq]
  constructor
  · rintro ⟨slot, ⟨member, lost⟩, named⟩
    exact ⟨slot, member, named, lost⟩
  · rintro ⟨slot, member, named, lost⟩
    exact ⟨slot, ⟨member, lost⟩, named⟩

theorem unrecoverable_replace (number : Nat) (leader : String) (state : Failover) :
    (state.replace view number leader).unrecoverable = state.unrecoverable := by
  unfold replace
  split <;> rfl

theorem unrecoverable_visit (distinct : (view.slots.map SlotView.number).Nodup)
    (member : slot ∈ view.slots) (state : Failover) :
    (state.visit view slot).unrecoverable =
      state.unrecoverable ++ lostNumbers view [slot] := by
  cases slotClass : slot.classify view.nodes with
  | unaffected =>
      rw [visit_unaffected distinct member state slotClass]
      simp [lostNumbers, slotClass]
  | noSurvivingCopy =>
      rw [visit_lost distinct member state slotClass]
      simp [lostNumbers, slotClass]
  | leaderless =>
      rw [visit, classifySlots_of_mem distinct member, slotClass]
      simp [lostNumbers, slotClass, unrecoverable_replace]
  | replicaLost =>
      rw [visit, classifySlots_of_mem distinct member, slotClass]
      dsimp only
      split_ifs
      · simp [lostNumbers, slotClass]
      · simp [lostNumbers, slotClass, unrecoverable_replace]

theorem unrecoverable_foldl (distinct : (view.slots.map SlotView.number).Nodup)
    (slots : List SlotView) (members : ∀ slot ∈ slots, slot ∈ view.slots)
    (state : Failover) :
    (slots.foldl (visit view) state).unrecoverable =
      state.unrecoverable ++ lostNumbers view slots := by
  induction slots generalizing state with
  | nil => simp [lostNumbers]
  | cons slot rest induction =>
      rw [List.foldl_cons,
        induction fun other listed => members other (List.mem_cons_of_mem _ listed),
        unrecoverable_visit distinct (members slot List.mem_cons_self),
        List.append_assoc, lostNumbers, lostNumbers, ← List.map_append,
        ← List.filter_append]
      rfl

theorem blocks_foldl {Block : SlotView → List PlanStep → Prop}
    (own : ∀ slot block, Block slot block → ∀ step ∈ block, step.slot = slot.number)
    (slots : List SlotView)
    (visits : ∀ slot ∈ slots, ∀ state : Failover, ∃ block,
      (state.visit view slot).steps = state.steps ++ block ∧ Block slot block)
    (ordered : (slots.map SlotView.number).Nodup) (state : Failover) :
    ∃ more, (slots.foldl (visit view) state).steps = state.steps ++ more ∧
      (∀ step ∈ more, step.slot ∈ slots.map SlotView.number) ∧
      ∀ slot ∈ slots, Block slot (stepsFor more slot.number) := by
  induction slots generalizing state with
  | nil => exact ⟨[], by simp, by simp, by simp⟩
  | cons slot rest induction =>
      rw [List.map_cons, List.nodup_cons] at ordered
      obtain ⟨block, visited, holds⟩ := visits slot List.mem_cons_self state
      have own := own slot block holds
      obtain ⟨more, folded, within, others⟩ :=
        induction (fun other listed => visits other (List.mem_cons_of_mem _ listed))
          ordered.2 (state.visit view slot)
      refine ⟨block ++ more, ?_, ?_, ?_⟩
      · rw [List.foldl_cons, folded, visited, List.append_assoc]
      · intro step listed
        rw [List.map_cons]
        rcases List.mem_append.mp listed with first | later
        · exact own step first ▸ List.mem_cons_self
        · exact List.mem_cons_of_mem _ (within step later)
      · intro other listed
        rw [stepsFor, addressing_append]
        rcases List.mem_cons.mp listed with rfl | later
        · have elsewhere : ∀ step ∈ more, step.slot ≠ other.number :=
            fun step present same => ordered.1 (same ▸ within step present)
          rw [addressing_eq_self own, addressing_eq_nil elsewhere, List.append_nil]
          exact holds
        · have elsewhere : ∀ step ∈ block, step.slot ≠ other.number := by
            intro step present same
            rw [own step present] at same
            exact ordered.1 (same ▸ List.mem_map_of_mem later)
          rw [addressing_eq_nil elsewhere, List.nil_append]
          exact others other later

/-- A loop over slots that are whole or lost only marks the lost ones. -/
theorem foldl_settled (distinct : (view.slots.map SlotView.number).Nodup)
    (slots : List SlotView) (members : ∀ slot ∈ slots, slot ∈ view.slots)
    (settled : ∀ slot ∈ slots, slot.classify view.nodes = .unaffected ∨
      slot.classify view.nodes = .noSurvivingCopy) (state : Failover) :
    (slots.foldl (visit view) state).steps = state.steps ++
      (lostNumbers view slots).map fun number => ⟨.markUnavailable, number, ""⟩ := by
  induction slots generalizing state with
  | nil => simp [lostNumbers]
  | cons slot rest induction =>
      have later := fun state => induction
        (fun other listed => members other (List.mem_cons_of_mem _ listed))
        (fun other listed => settled other (List.mem_cons_of_mem _ listed)) state
      have member := members slot List.mem_cons_self
      rw [List.foldl_cons]
      rcases settled slot List.mem_cons_self with unaffected | lost
      · rw [visit_unaffected distinct member state unaffected]
        simpa [lostNumbers, unaffected] using later state
      · rw [visit_lost distinct member state lost, later]
        simp [lostNumbers, lost]

/-- The loop of `PlanFailover` over all slots. -/
def all (view : ClusterView) : Failover :=
  view.sortedSlots.foldl (visit view)
    { loads := nodeLoad view, steps := [], unrecoverable := []
      writeBlockedSlots := [] }

theorem unrecoverable_all (distinct : (view.slots.map SlotView.number).Nodup) :
    (all view).unrecoverable = lostNumbers view view.sortedSlots :=
  unrecoverable_foldl distinct view.sortedSlots
    (fun _ => (List.perm_insertionSort ..).mem_iff.mp) _

end Failover

section Plans

variable [PlanDigest] {view : ClusterView}

theorem planFailover_some {plan : RecoveryPlan}
    (planned : planFailover view = some plan) :
    plan.steps = (Failover.all view).steps ∧
      plan.unrecoverable = (Failover.all view).unrecoverable := by
  unfold planFailover at planned
  dsimp only at planned
  split_ifs at planned
  obtain rfl := Option.some.inj planned
  exact ⟨rfl, rfl⟩

theorem planFailover_eq_none_iff :
    planFailover view = none ↔
      (Failover.all view).steps = [] ∧ (Failover.all view).unrecoverable = [] := by
  unfold planFailover
  dsimp only
  split_ifs with empty
  · exact ⟨fun _ => empty, fun _ => rfl⟩
  · exact ⟨fun none => (nomatch none), fun none => absurd none empty⟩

end Plans

theorem ClusterView.perm_sortedSlots (view : ClusterView) :
    view.sortedSlots.Perm view.slots :=
  List.perm_insertionSort ..

theorem ClusterView.increasing_sortedSlots {view : ClusterView}
    (distinct : (view.slots.map SlotView.number).Nodup) :
    (view.sortedSlots.map SlotView.number).Pairwise (· < ·) := by
  have ordered : (view.sortedSlots.map SlotView.number).Pairwise (· ≤ ·) :=
    List.pairwise_map.mpr (List.pairwise_insertionSort _ view.slots)
  have apart : (view.sortedSlots.map SlotView.number).Nodup :=
    (view.perm_sortedSlots.map SlotView.number).nodup_iff.mpr distinct
  exact (ordered.and apart).imp fun both => lt_of_le_of_ne both.1 both.2

/-! ### The whole plan -/

/-- What a list of steps and a list of lost slots have to do for a view. -/
structure ClusterView.RecoveredBy [PlanDigest] (view : ClusterView)
    (steps : List PlanStep) (unrecoverable : List Nat) : Prop where
  legal : ∀ earlier step later, steps = earlier ++ step :: later →
    ∃ slot ∈ view.slots, slot.number = step.slot ∧
      step.Legal view (slot.after earlier)
  kept : ∀ slot ∈ view.slots, slot.classify view.nodes = .unaffected ∨
      slot.classify view.nodes = .noSurvivingCopy → slot.after steps = slot
  ascending : unrecoverable.Pairwise (· < ·)
  unrecoverable_iff : ∀ number, number ∈ unrecoverable ↔ ∃ slot ∈ view.slots,
    slot.number = number ∧ slot.classify view.nodes = .noSurvivingCopy
  repaired : ∀ slot ∈ view.slots, slot.classify view.nodes = .leaderless ∨
      slot.classify view.nodes = .replicaLost →
    (slot.after steps).classify view.nodes = .unaffected
  settled : ∀ next, planFailover (view.perform steps) = some next →
    ∀ step ∈ next.steps, step.kind = .markUnavailable
  finished : unrecoverable = [] → planFailover (view.perform steps) = none

namespace Failover

theorem blocks_all {view : ClusterView}
    (distinct : (view.slots.map SlotView.number).Nodup)
    {Block : SlotView → List PlanStep → Prop}
    (own : ∀ slot block, Block slot block → ∀ step ∈ block, step.slot = slot.number)
    (visits : ∀ slot ∈ view.slots, ∀ state : Failover, ∃ block,
      (state.visit view slot).steps = state.steps ++ block ∧ Block slot block) :
    (∀ step ∈ (all view).steps, step.slot ∈ view.slots.map SlotView.number) ∧
      ∀ slot ∈ view.slots, Block slot (stepsFor (all view).steps slot.number) := by
  have sorted := view.perm_sortedSlots
  obtain ⟨more, steps, within, holds⟩ :=
    blocks_foldl own view.sortedSlots
      (fun slot listed => visits slot (sorted.mem_iff.mp listed))
      ((sorted.map SlotView.number).nodup_iff.mpr distinct)
      { loads := nodeLoad view, steps := [], unrecoverable := []
        writeBlockedSlots := [] }
  rw [List.nil_append] at steps
  refine ⟨?_, ?_⟩
  · intro step listed
    exact (sorted.map SlotView.number).mem_iff.mp (within step (steps ▸ listed))
  · intro slot member
    rw [all, steps]
    exact holds slot (sorted.mem_iff.mpr member)

section Recovery

variable {view : ClusterView} (distinct : (view.slots.map SlotView.number).Nodup)
  (two : 2 ≤ view.eligibleNodeIDs.length) (named : "" ∉ view.eligibleNodeIDs)

include distinct two named

theorem repairs_all :
    (∀ step ∈ (all view).steps, step.slot ∈ view.slots.map SlotView.number) ∧
      ∀ slot ∈ view.slots,
        Repairs view slot (stepsFor (all view).steps slot.number) := by
  refine blocks_all distinct (fun slot block repairs => repairs.own) ?_
  intro slot member state
  obtain ⟨block, steps, pends, settles⟩ := visit_block distinct member state
  exact ⟨block, steps, pends.repairs (settles two named)⟩

/-- After the plan every slot is whole or was lost before. -/
theorem settled_perform :
    ∀ slot ∈ (view.perform (all view).steps).slots,
      slot.classify view.nodes = .unaffected ∨
        slot.classify view.nodes = .noSurvivingCopy ∧ slot ∈ view.slots := by
  obtain ⟨-, repairs⟩ := repairs_all distinct two named
  intro slot listed
  rw [ClusterView.slots_perform] at listed
  obtain ⟨before, member, rfl⟩ := List.mem_map.mp listed
  have own := repairs before member
  rw [SlotView.after_eq]
  cases slotClass : before.classify view.nodes with
  | unaffected =>
      rw [own.kept (.inl slotClass)]
      exact .inl slotClass
  | noSurvivingCopy =>
      rw [own.kept (.inr slotClass)]
      exact .inr ⟨slotClass, member⟩
  | leaderless => exact .inl (own.repaired (.inl slotClass)).2
  | replicaLost => exact .inl (own.repaired (.inr slotClass)).2

/-- A second plan after the first one only marks slots that were lost before. -/
theorem all_perform :
    let result := view.perform (all view).steps
    (all result).steps = (lostNumbers result result.sortedSlots).map
        (fun number => ⟨.markUnavailable, number, ""⟩) ∧
      (all result).unrecoverable = lostNumbers result result.sortedSlots ∧
      ∀ number ∈ lostNumbers result result.sortedSlots,
        number ∈ lostNumbers view view.sortedSlots := by
  intro result
  have settled := settled_perform distinct two named
  have numbers : (result.slots.map SlotView.number).Nodup :=
    (view.numbers_perform (all view).steps).symm ▸ distinct
  have sorted := result.perm_sortedSlots
  have steps := foldl_settled numbers result.sortedSlots
    (fun slot => sorted.mem_iff.mp)
    (fun slot listed => (settled slot (sorted.mem_iff.mp listed)).imp_right And.left)
    { loads := nodeLoad result, steps := [], unrecoverable := []
      writeBlockedSlots := [] }
  refine ⟨steps, unrecoverable_all numbers, ?_⟩
  intro number listed
  obtain ⟨slot, present, numbered, lost⟩ := mem_lostNumbers.mp listed
  rcases settled slot (sorted.mem_iff.mp present) with unaffected | ⟨known, member⟩
  · rw [show slot.classify view.nodes = .noSurvivingCopy from lost] at unaffected
    cases unaffected
  · exact mem_lostNumbers.mpr
      ⟨slot, view.perm_sortedSlots.mem_iff.mpr member, numbered, known⟩

end Recovery

end Failover

theorem planFailover_pending [PlanDigest] {view : ClusterView}
    (distinct : (view.slots.map SlotView.number).Nodup) {plan : RecoveryPlan}
    (planned : planFailover view = some plan) :
    ∀ slot ∈ view.slots, PendingRun view slot (stepsFor plan.steps slot.number) := by
  have visits : ∀ slot ∈ view.slots, ∀ state : Failover, ∃ block,
      (state.visit view slot).steps = state.steps ++ block ∧
        Failover.Pends view slot block := by
    intro slot member state
    obtain ⟨block, steps, pends, -⟩ := Failover.visit_block distinct member state
    exact ⟨block, steps, pends⟩
  obtain ⟨-, pends⟩ := Failover.blocks_all distinct (fun slot block pends => pends.own) visits
  intro slot member
  rw [(planFailover_some planned).1]
  exact (pends slot member).pending

/-- A failover plan is legal step by step, keeps the owners of whole and of lost
slots, lists the lost ones, and restores all others; without a plan every slot is
whole. -/
theorem planFailover_recovers [PlanDigest] (view : ClusterView)
    (distinct : (view.slots.map SlotView.number).Nodup)
    (two : 2 ≤ view.eligibleNodeIDs.length) (named : "" ∉ view.eligibleNodeIDs) :
    (∀ plan, planFailover view = some plan →
      view.RecoveredBy plan.steps plan.unrecoverable) ∧
    (planFailover view = none →
      ∀ slot ∈ view.slots, slot.classify view.nodes = .unaffected) := by
  obtain ⟨within, repairs⟩ := Failover.repairs_all distinct two named
  have unrecoverable := Failover.unrecoverable_all distinct
  constructor
  · intro plan planned
    obtain ⟨steps, lost⟩ := planFailover_some planned
    obtain ⟨nextSteps, nextLost, remaining⟩ :=
      Failover.all_perform distinct two named
    rw [steps, lost]
    refine ⟨?_, ?_, ?_, ?_, ?_, ?_, ?_⟩
    · intro earlier step later split
      have listed : step ∈ (Failover.all view).steps := by simp [split]
      obtain ⟨slot, member, number⟩ := List.mem_map.mp (within step listed)
      refine ⟨slot, member, number, ?_⟩
      have legal := (repairs slot member).legal
      rw [split, stepsFor, addressing_append, number, addressing_cons_self] at legal
      rw [SlotView.after_eq, number]
      exact legal.step
    · intro slot member settled
      exact (repairs slot member).kept settled
    · rw [unrecoverable]
      exact (ClusterView.increasing_sortedSlots distinct).sublist
        (List.filter_sublist.map _)
    · intro number
      rw [unrecoverable, Failover.mem_lostNumbers]
      simp only [view.perm_sortedSlots.mem_iff]
    · intro slot member damaged
      exact ((repairs slot member).repaired damaged).2
    · intro next replanned step listed
      rw [(planFailover_some replanned).1, nextSteps] at listed
      obtain ⟨number, -, rfl⟩ := List.mem_map.mp listed
      rfl
    · intro noneLost
      rw [unrecoverable] at noneLost
      rw [noneLost] at remaining
      have cleared := List.eq_nil_iff_forall_not_mem.mpr fun number listed =>
        List.not_mem_nil (remaining number listed)
      rw [planFailover_eq_none_iff, nextSteps, nextLost, cleared]
      exact ⟨rfl, rfl⟩
  · intro none slot member
    have own := repairs slot member
    rw [(planFailover_eq_none_iff.mp none).1, stepsFor, addressing_nil] at own
    cases slotClass : slot.classify view.nodes with
    | unaffected => rfl
    | noSurvivingCopy => exact absurd (own.lost slotClass) (by simp)
    | leaderless => exact absurd rfl (own.repaired (.inl slotClass)).1
    | replicaLost => exact absurd rfl (own.repaired (.inr slotClass)).1

section Examples

attribute [local instance] PlanDigest.constant

/-- A slot that has lost its replica, and a node without a name that could take
its place. -/
def unnamedNodeView : ClusterView :=
  { failedLeaderView with
    slots := [{ number := 0, leaderID := "b", replicaID := "x", term := 1
                replicaReady := true }]
    nodes := ((∅ : NodeViews).insert "" (availableNode "" true)).insert "b"
      (availableNode "b" true) }

/-- The plan makes the node without a name the replica, which is never available. -/
theorem unnamed_replica_leaves_slot_degraded :
    (unnamedNodeView.slots.map SlotView.number).Nodup ∧
    (∀ slot ∈ unnamedNodeView.slots, slot.leaderID ≠ slot.replicaID) ∧
    2 ≤ unnamedNodeView.eligibleNodeIDs.length ∧
    ∃ plan, planFailover unnamedNodeView = some plan ∧
      ∃ slot ∈ unnamedNodeView.slots,
        slot.classify unnamedNodeView.nodes = .replicaLost ∧
        (slot.after plan.steps).classify unnamedNodeView.nodes = .replicaLost := by
  refine ⟨by decide, by decide, by decide, _, rfl, _, List.mem_cons_self, ?_, ?_⟩
  · rfl
  · rfl

theorem failed_leader_is_recovered :
    ∃ plan, planFailover failedLeaderView = some plan ∧
      2 ≤ failedLeaderView.eligibleNodeIDs.length ∧
      failedLeaderView.RecoveredBy plan.steps plan.unrecoverable := by
  obtain ⟨plan, planned⟩ : ∃ plan, planFailover failedLeaderView = some plan :=
    ⟨_, rfl⟩
  refine ⟨plan, planned, by decide, ?_⟩
  exact (planFailover_recovers failedLeaderView (by decide) (by decide)
    (by decide)).1 plan planned

end Examples

end MnemoKV
