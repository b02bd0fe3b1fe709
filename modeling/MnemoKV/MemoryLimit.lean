import MnemoKV.DatasetGrowth
import MnemoKV.EvictionEffects
import MnemoKV.RestoredSizes

/-!
# The hard memory limit

Along every run of an engine with a limit, the used bytes stay within it.  The
invariant is that the books are exact and the total is within the limit; a
write keeps it because its real growth is bounded by the growth that was planned
and admitted, and a restore because it checks the total.
-/

namespace MnemoKV

namespace Store

theorem dataset_planFrom (store : Store) (now : Int) (key : Bytes)
    (plan : Option Item → AdmissionPlan) :
    (store.planFrom now key plan).2.dataset key =
      liveAt now (store.dataset key) := by
  change (store.get now key false).2.dataset key = _
  rw [(store.dataset_get now key false).1, Function.update_self]

end Store

theorem Lapsed.totalBytes_le {moments : Int → Prop} {store store' : Store}
    (lapsed : Lapsed moments store.dataset store'.dataset) :
    store'.totalBytes ≤ store.totalBytes := by
  refine Store.totalBytes_mono fun key => ?_
  rcases lapsed key with same | ⟨moment, -, same⟩
  · rw [same]
  · rw [same]
    rcases liveAt_cases moment (store.dataset key) with live | gone
    · rw [live]
    · rw [gone]
      exact Nat.zero_le _

namespace Spared

theorem exact {planKey : Bytes} {before after : Dataset}
    (spared : Spared planKey before after) (exact : ExactDataset before) :
    ExactDataset after := by
  intro key item found
  rcases spared key with same | ⟨-, gone⟩
  · exact exact key item (same ▸ found)
  · rw [gone] at found
    cases found

theorem totalBytes_le {planKey : Bytes} {store store' : Store}
    (spared : Spared planKey store.dataset store'.dataset) :
    store'.totalBytes ≤ store.totalBytes := by
  refine Store.totalBytes_mono fun key => ?_
  rcases spared key with same | ⟨-, gone⟩
  · rw [same]
  · rw [gone]
    exact Nat.zero_le _

end Spared

/-- Until the write is carried out, its plan stays the plan of its key. -/
theorem PlannedWrite.plan_eq [FloatText] {cmd : Command} {planning : Readings}
    {key : Bytes} {moment : Int} {planOf : Option Item → AdmissionPlan}
    (spec : PlannedWrite cmd planning key moment planOf) {store : Store}
    {after : Dataset}
    (spared : Spared (store.planAdmission planning cmd).1.key
      (store.planAdmission planning cmd).2.dataset after)
    (writes : (store.planAdmission planning cmd).1.response = none) :
    (store.planAdmission planning cmd).1 = planOf (after key) := by
  rw [spec.plans] at spared writes ⊢
  have plan : (store.planFrom moment key planOf).1 =
      planOf (liveAt moment (store.dataset key)) :=
    congrArg planOf (store.dataset_get moment key false).2
  rw [plan] at spared writes ⊢
  rw [(spec.writes _ writes).1] at spared
  rw [spared.planned, store.dataset_planFrom]

namespace Store

/-- The books are exact and the total is within a limit. -/
structure Within (limit : Nat) (store : Store) : Prop where
  accounted : store.Accounted
  exact : ExactDataset store.dataset
  total : store.totalBytes ≤ limit

namespace Within

variable {limit : Nat} {store after : Store}

theorem used (within : store.Within limit) (small : limit < 2 ^ 64) :
    store.usedBytes = store.totalBytes :=
  within.accounted.exact (within.total.trans_lt small)

theorem lapsed (within : store.Within limit) (changes : Changes store after)
    {moments : Int → Prop} (lapsed : Lapsed moments store.dataset after.dataset) :
    after.Within limit := by
  have grows : Grows 0 store.dataset after.dataset := within.exact.lapsed lapsed
  exact ⟨changes.accounted within.accounted, grows.exact,
    grows.totalBytes_le.trans within.total⟩

theorem spared (within : store.Within limit) (changes : Changes store after)
    {planKey : Bytes} (spared : Spared planKey store.dataset after.dataset) :
    after.Within limit :=
  ⟨changes.accounted within.accounted, spared.exact within.exact,
    spared.totalBytes_le.trans within.total⟩

theorem grows (within : store.Within limit) (changes : Changes store after)
    {growth : Nat} (grows : Grows growth store.dataset after.dataset)
    (room : store.totalBytes + growth ≤ limit) : after.Within limit :=
  ⟨changes.accounted within.accounted, grows.exact,
    grows.totalBytes_le.trans room⟩

end Within
end Store

namespace Engine

theorem room_of_available {engine : Engine} {growth : Nat}
    (limited : 0 < engine.limitBytes) (small : engine.limitBytes < 2 ^ 64)
    (within : engine.store.Within engine.limitBytes) (grows : 0 < growth)
    (room : growth ≤ engine.available) :
    engine.store.totalBytes + growth ≤ engine.limitBytes := by
  have used := within.used small
  unfold available at room
  split_ifs at room <;> omega

theorem restoreSnapshotEntries_within {engine : Engine}
    (limited : 0 < engine.limitBytes)
    (within : engine.store.Within engine.limitBytes)
    {entries : List SnapshotEntry} (short : ∀ item ∈ entries, item.Short)
    (now : Int) :
    (engine.restoreSnapshotEntries entries now).2.limitBytes =
        engine.limitBytes ∧
      (engine.restoreSnapshotEntries entries now).2.store.Within
        engine.limitBytes := by
  have changes := restoreSnapshotEntries_changes entries now engine
  unfold restoreSnapshotEntries at changes ⊢
  split at changes
  · exact ⟨rfl, within⟩
  · rename_i decoded total accepted
    split_ifs at changes ⊢ with exceeds
    · exact ⟨rfl, within⟩
    · obtain ⟨sum, -⟩ := decodeEntries_total accepted (by decide)
      rw [Nat.zero_add] at sum
      refine ⟨rfl, changes.accounted within.accounted, ?_, ?_⟩
      · intro key item found
        obtain ⟨entry, stored, rfl⟩ := Option.map_eq_some_iff.mp found
        obtain rfl := Store.key_of_find stored
        have listed : entry ∈ decoded :=
          (Store.find_foldl_assign stored).resolve_right (by simp)
        obtain ⟨item, given, parsed⟩ := mem_decodeEntries accepted listed
        exact decodeSnapshotEntry_exact (short item given) parsed
      · change (engine.store.replaceAll decoded total).totalBytes ≤ _
        rw [Store.totalBytes_replaceAll _ (decodeEntries_keys accepted).1, ← sum]
        exact Nat.le_of_not_gt fun above => exceeds ⟨limited, above⟩

variable {σ : Type} [FloatText] {hook : Option (WriteHook σ)}
  {clock : WriteClock} {choices : Nat → Choices} {cmd : Command}

/-- A planned write that was let through stays within the limit. -/
theorem execute_growing {engine : Engine} {key : Bytes} {moment : Int}
    {planOf : Option Item → AdmissionPlan} {planning : Readings}
    (spec : PlannedWrite cmd planning key moment planOf) (short : cmd.Short)
    (limited : 0 < engine.limitBytes) (small : engine.limitBytes < maxUint64)
    (within : engine.store.Within engine.limitBytes)
    (writes : (planOf (engine.store.dataset key)).response = none)
    (admitted : 0 < (planOf (engine.store.dataset key)).requiredGrowth →
      (planOf (engine.store.dataset key)).resultingSize ≤ engine.limitBytes ∧
        (planOf (engine.store.dataset key)).requiredGrowth ≤ engine.available)
    (now : Readings) :
    (Executor.execute now cmd engine.store).2.Within engine.limitBytes := by
  have changes := Executor.execute_changes now cmd engine.store
  have balanced := spec.balanced _ writes
  have own := engine.store.sizeOf_le_totalBytes key
  have total := within.total
  have representable : engine.limitBytes < 2 ^ 64 := by
    simp only [maxUint64] at small
    omega
  have unsaturated :
      (planOf (engine.store.dataset key)).resultingSize < maxUint64 := by
    rcases Nat.eq_zero_or_pos
      (planOf (engine.store.dataset key)).requiredGrowth with steady | growing
    · unfold AdmissionPlan.Balanced at balanced
      omega
    · exact (admitted growing).1.trans_lt small
  have grows : Grows (planOf (engine.store.dataset key)).requiredGrowth
      engine.store.dataset (Executor.execute now cmd engine.store).2.dataset := by
    rw [Executor.dataset_execute]
    rcases spec.acts now with ⟨frame, answers⟩ | ⟨effect, later, acts, bounded⟩
    · rw [answers]
      exact within.exact.refl
    · rw [acts]
      exact within.exact.planned balanced
        (fun live seen => bounded _ live short (within.exact key) seen writes
          unsaturated) later
  refine within.grows changes grows ?_
  rcases Nat.eq_zero_or_pos
    (planOf (engine.store.dataset key)).requiredGrowth with steady | growing
  · rw [steady]
    exact total
  · exact room_of_available limited representable within growing
      (admitted growing).2

theorem execute_steady {engine : Engine} (steady : cmd.isGrowing = false)
    (within : engine.store.Within engine.limitBytes) (now : Readings) :
    (Executor.execute now cmd engine.store).2.Within engine.limitBytes := by
  have changes := Executor.execute_changes now cmd engine.store
  have grows : Grows 0 engine.store.dataset
      (Executor.execute now cmd engine.store).2.dataset := by
    rw [Executor.dataset_execute]
    exact Command.perform_steady steady now within.exact
  exact within.grows changes grows within.total

/-- The last part of a write: the hook, and the mutation if it agrees. -/
theorem commit_within {engine : Engine} {state : σ} {now : Readings}
    (within : engine.store.Within engine.limitBytes)
    (executed : (Executor.execute now cmd engine.store).2.Within
      engine.limitBytes) :
    (commit hook now cmd engine state).2.1.limitBytes = engine.limitBytes ∧
      (commit hook now cmd engine state).2.1.store.Within
        engine.limitBytes := by
  unfold commit
  split
  · exact ⟨rfl, within⟩
  · exact ⟨rfl, executed⟩

theorem executeWithAdmission_within {engine : Engine} {state : σ}
    (limited : 0 < engine.limitBytes) (small : engine.limitBytes < maxUint64)
    (within : engine.store.Within engine.limitBytes) (short : cmd.Short) :
    (executeWithAdmission hook clock choices cmd engine
        state).2.1.limitBytes = engine.limitBytes ∧
      (executeWithAdmission hook clock choices cmd engine
        state).2.1.store.Within engine.limitBytes := by
  have planned := within.lapsed
    (engine.store.planAdmission_changes clock.plan cmd)
    (engine.store.planAdmission_spec clock.plan cmd).2
  unfold executeWithAdmission
  dsimp only
  cases response : (engine.store.planAdmission clock.plan cmd).1.response with
  | some frame => exact ⟨rfl, planned⟩
  | none =>
      dsimp only
      obtain ⟨sameEngine, evicts, -, room⟩ := ensureRoom_evicts hook clock choices
        (engine.store.planAdmission clock.plan cmd).1
        (engine.withStore (engine.store.planAdmission clock.plan cmd).2) state rfl
      generalize ensureRoom hook clock choices
        (engine.store.planAdmission clock.plan cmd).1
        (engine.withStore (engine.store.planAdmission clock.plan cmd).2) state =
          checked at sameEngine evicts room ⊢
      obtain ⟨rejected, admitted, next⟩ := checked
      have sameLimit := congrArg Engine.limitBytes sameEngine
      change admitted.limitBytes = engine.limitBytes at sameLimit
      have kept : admitted.store.Within engine.limitBytes :=
        planned.spared evicts.changes evicts.spared
      cases rejected with
      | some frame => exact ⟨sameLimit, kept⟩
      | none =>
          rw [← sameLimit] at kept limited small ⊢
          refine commit_within kept ?_
          by_cases growing : cmd.isGrowing = true
          · obtain ⟨key, moment, planOf, spec⟩ :=
              Command.plannedWrite clock.plan growing response
            have plan := spec.plan_eq evicts.spared response
            rw [plan] at response room
            obtain ⟨-, willWrite⟩ := spec.writes _ response
            refine execute_growing spec short limited small kept response ?_ _
            intro grows
            rw [sameLimit] at limited ⊢
            exact room rfl willWrite limited grows
          · exact execute_steady (Bool.eq_false_iff.mpr growing) kept _

theorem execute_within {engine : Engine} {state : σ}
    (limited : 0 < engine.limitBytes) (small : engine.limitBytes < maxUint64)
    (within : engine.store.Within engine.limitBytes) (short : cmd.Short) :
    (execute hook clock choices cmd engine state).2.1.limitBytes =
        engine.limitBytes ∧
      (execute hook clock choices cmd engine state).2.1.store.Within
        engine.limitBytes := by
  unfold execute
  split_ifs with writes
  · exact executeWithAdmission_within limited small within short
  · have lapsed := Command.action_lapses clock.exec cmd
      (Bool.eq_false_iff.mpr writes) engine.store.dataset
    have performed := Executor.dataset_execute clock.exec cmd engine.store
    exact ⟨rfl, within.lapsed
      (Executor.execute_changes clock.exec cmd engine.store)
      (performed.symm ▸ lapsed)⟩

end Engine

namespace EngineCall

variable {σ : Type}

/-- The calls that respect the limit, with data that fits into an address
space: all but `ApplyReplicated`, which bypasses admission. -/
def Admissible : EngineCall σ → Prop
  | execute _ _ _ cmd => cmd.Short
  | applyReplicated _ _ => False
  | restoreSnapshotEntries entries _ => ∀ item ∈ entries, item.Short
  | setPolicy _ => True

/-- The engine has the limit and is within it. -/
def Respects (limit : Nat) (state : Engine × σ) : Prop :=
  state.1.limitBytes = limit ∧ state.1.store.Within limit

theorem step_respects [FloatText] {limit : Nat} (limited : 0 < limit)
    (small : limit < maxUint64) {state : Engine × σ} {call : EngineCall σ}
    (admissible : call.Admissible) (respects : Respects limit state) :
    Respects limit (step state call) := by
  obtain ⟨rfl, within⟩ := respects
  cases call with
  | execute hook clock choices cmd =>
      exact Engine.execute_within limited small within admissible
  | applyReplicated now cmd => exact absurd admissible id
  | restoreSnapshotEntries entries now =>
      exact Engine.restoreSnapshotEntries_within limited within admissible now
  | setPolicy policy => exact ⟨rfl, within⟩

end EngineCall

theorem Store.within_new (stripeCount : Int) (limit : Nat) :
    (Store.new stripeCount).Within limit where
  accounted := accounted_new stripeCount
  exact key item found := by
    rw [dataset_new] at found
    cases found
  total := by
    rw [totalBytes_of_empty (dataset_new stripeCount)]
    exact Nat.zero_le _

/-- The used bytes of an engine with a limit never exceed it. -/
theorem Engine.used_stays_within_limit [FloatText] {σ : Type}
    (config : EngineConfig) (limited : 0 < config.memoryLimitBytes.toNat)
    (state : σ) (calls : List (EngineCall σ))
    (admissible : ∀ call ∈ calls, call.Admissible) :
    (LabelledRuns.run EngineCall.step (Engine.new config, state)
      calls).1.store.usedBytes ≤ config.memoryLimitBytes.toNat := by
  have representable := config.memoryLimitBytes.toNat_lt
  rcases Nat.lt_or_ge config.memoryLimitBytes.toNat maxUint64 with small | whole
  · have starts : EngineCall.Respects config.memoryLimitBytes.toNat
        (Engine.new config, state) :=
      ⟨rfl, Store.within_new config.stripeCount _⟩
    have keeps : ∀ next, ∀ call ∈ calls,
        EngineCall.Respects config.memoryLimitBytes.toNat next →
        EngineCall.Respects config.memoryLimitBytes.toNat
          (EngineCall.step next call) :=
      fun next call member =>
        EngineCall.step_respects limited small (admissible call member)
    have reached := LabelledRuns.run_induction EngineCall.step keeps starts
    rw [reached.2.used representable]
    exact reached.2.total
  · -- The largest limit is the largest value of the counter.
    have accounted := (EngineCall.run_changes (Engine.new config, state)
      calls).accounted (Store.accounted_new config.stripeCount)
    rw [accounted]
    refine le_trans ?_ whole
    exact Nat.le_pred_of_lt (Nat.mod_lt _ (by decide))

section Examples

attribute [local instance] FloatText.rejecting

/-- Room for one of the two keys that `rotation` writes. -/
def narrowConfig : EngineConfig :=
  { stripeCount := 1, memoryLimitBytes := 100, evictionPolicy := "fifo" }

def rotation : List (EngineCall Unit) :=
  [.execute none (.still 0) (fun _ => .canonical) (.make .set [[97], [1, 2, 3]]),
    .execute none (.still 1) (fun _ => .canonical) (.make .set [[98], [1]])]

theorem rotation_stays_within_limit :
    (LabelledRuns.run EngineCall.step (Engine.new narrowConfig, ())
      rotation).1.store.usedBytes ≤ 100 :=
  Engine.used_stays_within_limit narrowConfig (by decide) () rotation
    (by simp [rotation, EngineCall.Admissible, Command.Short, Command.make])

end Examples
end MnemoKV
