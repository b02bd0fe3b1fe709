import MnemoKV.RebalanceLoops

/-!
# The promotions of a plan

Every promotion that a plan contains is directed at a replica that is ready by
then: a failover promotes the ready replica of the view before it does anything
else to the slot, and a rebalance has just synchronised its target.
-/

namespace MnemoKV

variable {view : ClusterView}

theorem foreseen_append {earlier first second : List PlanStep} :
    Foreseen view earlier (first ++ second) ↔
      Foreseen view earlier first ∧ Foreseen view (earlier ++ first) second := by
  induction first generalizing earlier with
  | nil => simp [Foreseen]
  | cons step rest induction =>
      simp only [List.cons_append, Foreseen, induction, and_assoc,
        List.append_assoc, List.nil_append]

theorem Foreseen.replicaAfter {earlier later : List PlanStep} {step : PlanStep}
    (foreseen : Foreseen view [] (earlier ++ step :: later))
    (promotes : step.kind = .promote) :
    view.replicaAfter earlier step.slot = some (step.target, true) := by
  have rest := (foreseen_append.mp foreseen).2
  exact rest.1 promotes

theorem foreseen_of_no_promotion {earlier steps : List PlanStep}
    (none : ∀ step ∈ steps, step.kind ≠ .promote) : Foreseen view earlier steps := by
  induction steps generalizing earlier with
  | nil => trivial
  | cons step rest induction =>
      refine ⟨fun promotes => absurd promotes (none step List.mem_cons_self), ?_⟩
      exact induction fun other member => none other (List.mem_cons_of_mem _ member)

/-! ### Failover -/

section Failover

variable (distinct : (view.slots.map SlotView.number).Nodup)

include distinct

theorem find_slot_of_mem {slot : SlotView} (member : slot ∈ view.slots) :
    view.slots.find? (fun row => row.number = slot.number) = some slot := by
  revert distinct member
  induction view.slots with
  | nil => exact fun _ member => nomatch member
  | cons first rest induction =>
      intro distinct member
      rw [List.map_cons, List.nodup_cons] at distinct
      by_cases same : first.number = slot.number
      · rcases List.mem_cons.mp member with rfl | later
        · simp
        · exact absurd (same ▸ List.mem_map_of_mem later) distinct.1
      · rcases List.mem_cons.mp member with rfl | later
        · exact absurd rfl same
        · simp [same, induction distinct.2 later]

/-- A slot has the class that its own row gives it. -/
theorem classifySlots_of_mem {slot : SlotView} (member : slot ∈ view.slots) :
    view.classifySlots[slot.number]? = some (slot.classify view.nodes) := by
  suffices folded : ∀ (rows : List SlotView) (classes : ClusterView.SlotClasses),
      (rows.map SlotView.number).Nodup →
      (slot ∈ rows ∨ classes[slot.number]? = some (slot.classify view.nodes) ∧
        slot.number ∉ rows.map SlotView.number) →
      (rows.foldl (fun classes row =>
        classes.insert row.number (row.classify view.nodes)) classes)[slot.number]? =
          some (slot.classify view.nodes) from
    folded view.slots ∅ distinct (.inl member)
  intro rows
  induction rows with
  | nil =>
      rintro classes - (none | ⟨known, -⟩)
      · cases none
      · exact known
  | cons first rest induction =>
      intro classes distinct known
      rw [List.map_cons, List.nodup_cons] at distinct
      refine induction _ distinct.2 ?_
      rw [Std.ExtTreeMap.getElem?_insert]
      rcases known with listed | ⟨known, absent⟩
      · rcases List.mem_cons.mp listed with rfl | later
        · exact .inr ⟨by simp, distinct.1⟩
        · exact .inl later
      · rw [List.map_cons, List.mem_cons, not_or] at absent
        refine .inr ⟨?_, absent.2⟩
        rw [if_neg fun same => absent.1 (Std.LawfulEqCmp.eq_of_compare same).symm]
        exact known

theorem replicaAfter_untouched {slot : SlotView} (member : slot ∈ view.slots)
    {earlier : List PlanStep}
    (untouched : ∀ step ∈ earlier, step.slot ≠ slot.number) :
    view.replicaAfter earlier slot.number =
      some (slot.replicaID, slot.replicaReady) := by
  have nothing : earlier.filterMap (fun step => step.leaves slot.number) = [] := by
    rw [List.filterMap_eq_nil_iff]
    intro step listed
    simp [PlanStep.leaves, untouched step listed]
  rw [ClusterView.replicaAfter, nothing, find_slot_of_mem distinct member]
  rfl

end Failover

theorem ready_of_leaderless {nodes : NodeViews} {slot : SlotView}
    (leaderless : slot.classify nodes = .leaderless) : slot.replicaReady = true := by
  unfold SlotView.classify at leaderless
  dsimp only at leaderless
  split_ifs at leaderless with both lost
  simp only [Bool.and_eq_true] at lost
  exact lost.2.1

/-- The steps of one more slot. -/
structure Failover.Extends (number : Nat) (before after : Failover)
    (view : ClusterView) : Prop where
  steps : ∃ more, after.steps = before.steps ++ more ∧
    (∀ step ∈ more, step.slot = number) ∧ Foreseen view before.steps more

theorem Failover.extends_replace (view : ClusterView) (number : Nat)
    (leader : String) (state : Failover) :
    Extends number state (state.replace view number leader) view := by
  unfold replace
  split
  · exact ⟨[], by simp, by simp, trivial⟩
  · refine ⟨_, rfl, ?_, foreseen_of_no_promotion ?_⟩ <;> simp

theorem Failover.extends_visit (distinct : (view.slots.map SlotView.number).Nodup)
    {slot : SlotView} (member : slot ∈ view.slots) {state : Failover}
    (untouched : ∀ step ∈ state.steps, step.slot ≠ slot.number) :
    Extends slot.number state (state.visit view slot) view := by
  unfold visit
  rw [classifySlots_of_mem distinct member]
  split
  · rename_i leaderless
    obtain ⟨more, appended, own, foreseen⟩ :=
      (extends_replace view slot.number slot.replicaID
        { state with
          steps := state.steps ++ [⟨.promote, slot.number, slot.replicaID⟩]
          writeBlockedSlots := state.writeBlockedSlots ++ [slot.number] }).steps
    refine ⟨⟨.promote, slot.number, slot.replicaID⟩ :: more, ?_, ?_, ?_, foreseen⟩
    · rw [appended]
      simp
    · intro step listed
      rcases List.mem_cons.mp listed with rfl | later
      · rfl
      · exact own step later
    · intro _
      rw [replicaAfter_untouched distinct member untouched,
        ready_of_leaderless (Option.some.inj leaderless)]
  · split_ifs
    · refine ⟨_, rfl, ?_, foreseen_of_no_promotion ?_⟩ <;> simp
    · exact extends_replace view slot.number slot.leaderID state
  · refine ⟨_, rfl, ?_, foreseen_of_no_promotion ?_⟩ <;> simp
  · exact ⟨[], by simp, by simp, trivial⟩

/-- The promotions of the whole loop. -/
theorem Failover.foreseen_foldl (distinct : (view.slots.map SlotView.number).Nodup)
    (slots : List SlotView) (members : ∀ slot ∈ slots, slot ∈ view.slots)
    (ordered : (slots.map SlotView.number).Nodup) (state : Failover)
    (untouched : ∀ step ∈ state.steps, step.slot ∉ slots.map SlotView.number)
    (foreseen : Foreseen view [] state.steps) :
    Foreseen view [] (slots.foldl (visit view) state).steps := by
  induction slots generalizing state with
  | nil => exact foreseen
  | cons slot rest induction =>
      rw [List.map_cons, List.nodup_cons] at ordered
      have apart : ∀ step ∈ state.steps, step.slot ≠ slot.number ∧
          step.slot ∉ rest.map SlotView.number := by
        intro step listed
        have both := untouched step listed
        rwa [List.map_cons, List.mem_cons, not_or] at both
      obtain ⟨more, appended, own, extended⟩ :=
        (extends_visit distinct (members slot List.mem_cons_self)
          (fun step listed => (apart step listed).1)).steps
      refine induction (fun other listed =>
        members other (List.mem_cons_of_mem _ listed)) ordered.2 _ ?_ ?_
      · intro step listed
        rw [appended] at listed
        rcases List.mem_append.mp listed with old | new
        · exact (apart step old).2
        · rw [own step new]
          exact ordered.1
      · rw [appended]
        exact foreseen_append.mpr ⟨foreseen, extended⟩

theorem planFailover_foreseen [PlanDigest]
    (distinct : (view.slots.map SlotView.number).Nodup) {plan : RecoveryPlan}
    (planned : planFailover view = some plan) : Foreseen view [] plan.steps := by
  unfold planFailover at planned
  dsimp only at planned
  split_ifs at planned
  obtain rfl := Option.some.inj planned
  have sorted : view.sortedSlots.Perm view.slots := List.perm_insertionSort ..
  refine Failover.foreseen_foldl distinct _ (fun slot => sorted.mem_iff.mp)
    ((sorted.map SlotView.number).nodup_iff.mpr distinct) _ ?_ trivial
  exact fun step listed => nomatch listed

/-! ### Rebalancing -/

/-- A slot is synchronised to its new leader right before it is promoted. -/
theorem Rebalance.foreseen_moveLeader {state : Rebalance} {slot : SlotPlacement}
    {index : Nat} {target : String} (foreseen : Foreseen view [] state.steps) :
    Foreseen view [] (state.moveLeader slot index target).steps := by
  refine foreseen_append.mpr ⟨foreseen, ?_⟩
  simp [Foreseen, ClusterView.replicaAfter, PlanStep.leaves]

/-- The promotions of both loops. -/
theorem Rebalance.Course.foreseen {skewThreshold : Int} {moves : Nat} {state : Rebalance}
    (inhabited : view.eligibleNodeIDs ≠ [])
    (course : Course view skewThreshold moves state) : Foreseen view [] state.steps := by
  induction course with
  | start => trivial
  | leader earlier moved foreseen =>
      obtain ⟨slot, index, target, moved⟩ := leaderStep_spec inhabited moved
      exact moved.next ▸ foreseen_moveLeader foreseen
  | turn earlier foreseen => exact foreseen
  | replica earlier moved foreseen =>
      obtain ⟨slot, index, target, moved⟩ := replicaStep_spec inhabited moved
      rw [moved.next]
      exact foreseen_append.mpr ⟨foreseen, foreseen_of_no_promotion (by simp)⟩

theorem planRebalance_foreseen [PlanDigest] {skewThreshold maxMoves : Int}
    {plan : RecoveryPlan}
    (planned : planRebalance view skewThreshold maxMoves = some plan) :
    Foreseen view [] plan.steps := by
  obtain ⟨-, inhabited, -, steps, -⟩ := planRebalance_some planned
  obtain ⟨moves, -, course⟩ := Rebalance.course_final view skewThreshold maxMoves
  rw [steps]
  exact course.foreseen inhabited

end MnemoKV
