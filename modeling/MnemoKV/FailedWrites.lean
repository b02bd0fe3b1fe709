import MnemoKV.OutOfMemory

/-!
# What failed writes leave behind

A write that is refused by its plan, or that fails when it is carried out, only
lets expired items lapse.  The exception are the evictions of the admission
check: they stay when the write is rejected after all, because too much has
expired, or when it fails later, because its key has expired in the meantime.
-/

namespace MnemoKV

/-- The unexpired items are the same. -/
def SameUnexpired (moment : Int) (before after : Dataset) : Prop :=
  ∀ key, liveAt moment (after key) = liveAt moment (before key)

namespace SameUnexpired

variable {moment : Int} {first second third : Dataset}

theorem trans (earlier : SameUnexpired moment first second)
    (later : SameUnexpired moment second third) :
    SameUnexpired moment first third :=
  fun key => (later key).trans (earlier key)

theorem symm (same : SameUnexpired moment first second) :
    SameUnexpired moment second first :=
  fun key => (same key).symm

end SameUnexpired

namespace Command

variable [FloatText] {cmd : Command} {now later : Readings} {key : Bytes}
  {request : Growing} {options : SetOptions} {dataset : Dataset}

end Command

theorem PlannedWrite.answer_eq [FloatText] {cmd : Command} {planning : Readings}
    {key : Bytes} {moment : Int} {planOf : Option Item → AdmissionPlan}
    (spec : PlannedWrite cmd planning key moment planOf) (now : Readings)
    {first second : Dataset} (same : first key = second key) :
    ((cmd.action now).perform first).1 = ((cmd.action now).perform second).1 := by
  rcases spec.acts now with ⟨frame, answers⟩ | ⟨effect, later, acts, -⟩
  · rw [answers]
    rfl
  · rw [acts]
    simp only [Action.perform, same]

/-- All readings of the clock lie before the moment. -/
structure WriteClock.Before (clock : WriteClock) (moment : Int) : Prop where
  plan : ∀ index, clock.plan index ≤ moment
  exec : ∀ index, clock.exec index ≤ moment

namespace Engine

variable [FloatText] {clock : WriteClock} {choices : Nat → Choices}
  {cmd : Command} {moment : Int}

omit [FloatText]

/-- The write does not fit as it is, and the admission check has what to evict. -/
structure Pressed (engine : Engine) (plan : AdmissionPlan) (now : Int) : Prop where
  silent : plan.response = none
  limited : 0 < engine.limitBytes
  grows : 0 < plan.requiredGrowth
  small : plan.resultingSize ≤ engine.limitBytes
  full : engine.limitBytes < engine.store.usedBytes + plan.requiredGrowth
  evicting : engine.policy ≠ .noEviction
  stocked : engine.store.evictable plan.key now ≠ []

section Loop

variable {engine : Engine} {plan : AdmissionPlan}

variable (choices) in
/-- The first pass evicts an entry, which no later one brings back. -/
theorem Pressed.changes (pressed : engine.Pressed plan moment)
    (steady : engine.store.Steady clock moment)
    (excludes : engine.store.Excludes plan.key) :
    ¬ SameUnexpired moment engine.store.dataset
      (afterPasses clock choices plan 64 63 engine).store.dataset := by
  intro same
  obtain ⟨remaining, perm, sure⟩ := passVictims_spec choices plan pressed.evicting
    steady 63
  have short : ¬ plan.requiredGrowth ≤ engine.available := by
    have limited := pressed.limited
    have full := pressed.full
    have grows := pressed.grows
    unfold available
    split_ifs <;> omega
  have busy : engine.passVictims clock choices plan 63 ≠ [] := by
    intro none
    rw [none] at sure
    rcases sure excludes with enough | all
    · exact short (Nat.sub_eq_zero_iff_le.mp (Nat.le_zero.mp enough))
    · have some := List.length_pos_iff.mpr pressed.stocked
      rw [List.length_nil] at all
      omega
  have first : afterPasses clock choices plan 64 63 engine = _ :=
    if_neg (not_or.mpr ⟨short, busy⟩)
  have spared := afterPasses_spared clock choices plan 63 62
    (engine.evict (engine.passVictims clock choices plan 63))
  obtain ⟨victim, member⟩ := List.exists_mem_of_ne_nil _ busy
  obtain ⟨entry, found, live, -⟩ := Store.mem_picked.mp
    (perm.subset (List.mem_append_left _ member))
  have deleted : (engine.evict (engine.passVictims clock choices plan 63)).store.dataset
      victim.key = none := by
    change (engine.store.deleteAll _).dataset victim.key = none
    rw [Store.dataset_deleteAll, if_pos (List.mem_map_of_mem member)]
  have gone : (afterPasses clock choices plan 64 63 engine).store.dataset victim.key =
      none := by
    rw [first]
    exact (spared victim.key).elim (fun same => same.trans deleted) And.right
  have kept := same victim.key
  have fresh : entry.item.isExpired moment = false :=
    (Bool.not_eq_true' _).mp (Bool.and_eq_true_iff.mp live).2
  rw [gone, Store.dataset, found, Option.map_some, liveAt_some, fresh] at kept
  cases kept

end Loop

variable [FloatText] {engine : Engine} {plan : AdmissionPlan} {planned : Store}
  (writes : cmd.isWriteCommand = true) (past : clock.Before moment)
  (planning : engine.store.planAdmission clock.plan cmd = (plan, planned))
  (steady : planned.Steady clock moment)

include writes past planning steady

end Engine

section Examples

attribute [local instance] FloatText.rejecting

end Examples
end MnemoKV
