import MnemoKV.AdmissionBounds
import MnemoKV.StoreAccounting

/-!
# Growth of whole datasets

A command that was planned changes the dataset so that its bytes grow by at most
the planned growth: one key grows by at most that much, or no key grows at all.
-/

namespace MnemoKV

/-- Every item is accounted at its exact size. -/
def ExactDataset (dataset : Dataset) : Prop :=
  ∀ key item, dataset key = some item → item.Exact key

/-- All items stay exact, and together they grow by at most `growth`. -/
structure Grows (growth : Nat) (before after : Dataset) : Prop where
  exact : ExactDataset after
  bounded : (∀ key, AdmissionPlan.sizeOf (after key) ≤
      AdmissionPlan.sizeOf (before key)) ∨
    ∃ key stored, after = Function.update before key stored ∧
      AdmissionPlan.sizeOf stored ≤ AdmissionPlan.sizeOf (before key) + growth

theorem Grows.totalBytes_le {growth : Nat} {store store' : Store}
    (grows : Grows growth store.dataset store'.dataset) :
    store'.totalBytes ≤ store.totalBytes + growth := by
  rcases grows.bounded with smaller | ⟨key, stored, updated, larger⟩
  · exact (Store.totalBytes_mono smaller).trans (Nat.le_add_right _ _)
  · have balance := Store.totalBytes_update updated
    omega

section

variable {dataset : Dataset} {growth : Nat}

/-- No key holds more than before. -/
theorem Grows.of_bounded {after : Dataset}
    (bounded : ∀ key, BoundedBy key (AdmissionPlan.sizeOf (dataset key))
      (after key)) : Grows growth dataset after where
  exact key item found := (bounded key item found).1
  bounded := .inl fun key => (bounded key).sizeOf_le

variable (exact : ExactDataset dataset)
include exact

theorem ExactDataset.bounded (key : Bytes) :
    BoundedBy key (AdmissionPlan.sizeOf (dataset key)) (dataset key) :=
  .self (exact key)

theorem ExactDataset.refl : Grows growth dataset dataset :=
  .of_bounded exact.bounded

theorem ExactDataset.lapsed {moments : Int → Prop} {after : Dataset}
    (lapsed : Lapsed moments dataset after) : Grows growth dataset after := by
  refine .of_bounded fun key => ?_
  rcases lapsed key with same | ⟨moment, -, same⟩
  · rw [same]
    exact exact.bounded key
  · rw [same]
    exact (exact.bounded key).live moment

theorem ExactDataset.update {key : Bytes} {stored : Option Item}
    (bounded : BoundedBy key (AdmissionPlan.sizeOf (dataset key) + growth)
      stored) :
    Grows growth dataset (Function.update dataset key stored) where
  exact other item found := by
    by_cases same : other = key
    · subst same
      rw [Function.update_self] at found
      exact (bounded item found).1
    · rw [Function.update_of_ne same] at found
      exact exact other item found
  bounded := .inr ⟨key, stored, rfl, bounded.sizeOf_le⟩

theorem ExactDataset.onKey {effect : Effect} (key : Bytes) (moment : Int)
    (shrinks : ∀ live, BoundedBy key (AdmissionPlan.sizeOf (dataset key)) live →
      BoundedBy key (AdmissionPlan.sizeOf (dataset key)) (effect live).2) :
    Grows growth dataset
      ((Action.onKey key (effect.lookingAt moment)).perform dataset).2 :=
  exact.update ((shrinks _ ((exact.bounded key).live moment)).mono
    (Nat.le_add_right _ _))

end

namespace Command

/-- The arguments fit into an address space. -/
def Short (cmd : Command) : Prop := (cmd.args.map List.length).sum < 2 ^ 63

variable {dataset : Dataset} {growth : Nat}

/-- The other commands enlarge nothing. -/
theorem perform_steady [FloatText] {cmd : Command}
    (steady : cmd.isGrowing = false) (now : Readings)
    (exact : ExactDataset dataset) :
    Grows growth dataset ((cmd.action now).perform dataset).2 := by
  unfold isGrowing at steady
  have acts := cmd.acts now
  generalize cmd.action now = action at acts ⊢
  cases acts with
  | replies => exact exact.refl
  | clears => exact .of_bounded fun key => .none
  | removes =>
      refine .of_bounded fun key => ?_
      simp only [Action.perform, Action.removeAll_apply]
      split_ifs
      · exact .none
      · exact exact.bounded key
  | counts => exact exact.lapsed (cmd.lapses_counts now dataset)
  | drops => exact exact.update .none
  | reads => exact exact.onKey _ _ fun live bounded => bounded
  | writes keys mutates =>
      cases mutates with
      | expireAt => exact exact.onKey _ _ fun live bounded => expireAt_bounded bounded _
      | pop => exact exact.onKey _ _ fun live bounded => pop_bounded bounded _
      | set named | incr named | zadd named =>
          rw [named] at steady
          cases steady
      | @push left named =>
          rw [named] at steady
          cases left <;> cases steady

end Command

namespace AdmissionPlan

/-- The planned growth leads from what is stored to the planned size. -/
def Balanced (stored : Option Item) (plan : AdmissionPlan) : Prop :=
  max (sizeOf stored) plan.resultingSize = sizeOf stored + plan.requiredGrowth

theorem balanced_write {key : Bytes} {stored : Option Item} {newSize : Nat} :
    (write key (sizeOf stored) newSize).Balanced stored := by
  unfold Balanced write positiveDelta
  dsimp only
  split_ifs <;> omega

variable {key : Bytes} {stored : Option Item} {plan : AdmissionPlan}

theorem Decides.named (decides : plan.Decides key stored) (silent : plan.response = none) :
    plan.key = key ∧ plan.willWrite = true := by
  cases decides with
  | answer => cases silent
  | write => exact ⟨rfl, rfl⟩

theorem Decides.balanced (decides : plan.Decides key stored) (silent : plan.response = none) :
    plan.Balanced stored := by
  cases decides with
  | answer => cases silent
  | write => exact balanced_write

end AdmissionPlan

/-- A planned write to one key, executed at any later moment. -/
theorem ExactDataset.planned {dataset : Dataset} (exact : ExactDataset dataset)
    {key : Bytes} {plan : AdmissionPlan} {effect : Effect}
    (balanced : plan.Balanced (dataset key))
    (bounded : ∀ live, live = dataset key ∨ live = none →
      BoundedBy key (max (AdmissionPlan.sizeOf (dataset key)) plan.resultingSize)
        (effect live).2) (moment : Int) :
    Grows plan.requiredGrowth dataset
      ((Action.onKey key (effect.lookingAt moment)).perform dataset).2 := by
  have within := bounded _ (liveAt_cases moment (dataset key))
  rw [show max _ _ = _ from balanced] at within
  exact exact.update within

/-- How a growing write is planned and carried out: it looks up one key, and
what it does to the key later is within the plan, whatever has expired. -/
structure PlannedWrite [FloatText] (cmd : Command) (planning : Readings)
    (key : Bytes) (moment : Int) (planOf : Option Item → AdmissionPlan) :
    Prop where
  plans : ∀ store : Store,
    store.planAdmission planning cmd = store.planFrom moment key planOf
  writes : ∀ stored, (planOf stored).response = none →
    (planOf stored).key = key ∧ (planOf stored).willWrite = true
  balanced : ∀ stored, (planOf stored).response = none →
    (planOf stored).Balanced stored
  acts : ∀ executing, (∃ frame, cmd.action executing = .reply frame) ∨
    ∃ (effect : Effect) (later : Int),
      cmd.action executing = .onKey key (effect.lookingAt later) ∧
      ∀ stored live, cmd.Short →
        (∀ item, stored = some item → item.Exact key) →
        live = stored ∨ live = none → (planOf stored).response = none →
        (planOf stored).resultingSize < maxUint64 →
        BoundedBy key
          (max (AdmissionPlan.sizeOf stored) (planOf stored).resultingSize)
          (effect live).2

namespace Command

open AdmissionPlan

variable [FloatText] {cmd : Command} (planning : Readings)

theorem Asks.bounded {key : Bytes} {request : Growing} (asks : cmd.Asks planning key request)
    (options : SetOptions) (short : cmd.Short) {stored live : Option Item}
    (exact : ∀ item, stored = some item → item.Exact key)
    (seen : live = stored ∨ live = none)
    (response : (request.plan key stored).response = none)
    (unsaturated : (request.plan key stored).resultingSize < maxUint64) :
    BoundedBy key (max (AdmissionPlan.sizeOf stored) (request.plan key stored).resultingSize)
      ((request.withOptions options).effect key live).2 := by
  unfold Short at short
  cases asks with
  | set named given =>
      simp only [given, List.map_cons, List.sum_cons] at short
      exact set_bounded (by omega) exact seen response options
  | incr named given =>
      simp only [given, List.map_cons, List.sum_cons] at short
      exact incr_bounded (by omega) exact seen response
  | push left named given =>
      simp only [given, List.map_cons, List.sum_cons] at short
      exact push_bounded left (by omega) exact seen response unsaturated
  | zadd named given =>
      simp only [given, List.map_cons, List.sum_cons] at short
      exact zadd_bounded (by omega) exact seen response unsaturated

theorem plannedWrite (growing : cmd.isGrowing = true) {store : Store}
    (writes : (store.planAdmission planning cmd).1.response = none) :
    ∃ key moment planOf, PlannedWrite cmd planning key moment planOf := by
  rcases cmd.planned planning with ⟨steady, -⟩ | ⟨-, plans, -⟩ | @⟨key, request, asks⟩
  · simp [steady] at growing
  · rw [plans] at writes
    cases writes
  · refine ⟨key, _, request.plan key, asks.spec.2.1, fun _ => (request.decides key _).named,
      fun _ => (request.decides key _).balanced, fun executing => ?_⟩
    rcases asks.again executing with
      ⟨options, later⟩ | ⟨data, rest, options, frame, named, given, -, failed⟩
    · exact .inr ⟨_, _, later.spec.2.2.2, fun stored live short =>
        asks.bounded planning options short⟩
    · exact .inl ⟨frame, by simp only [action, named, setAction, given, failed]⟩

end Command
end MnemoKV
