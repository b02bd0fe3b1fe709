import MnemoKV.LabelledRuns
import MnemoKV.SnapshotRestores
import MnemoKV.StoreChanges

/-!
# Runs of an engine and their books

An engine runs through calls of `Execute`, `ApplyReplicated`,
`RestoreSnapshotEntries` and `SetPolicy`.  Whatever the clock shows, the hooks
answer and the sampling picks, each call changes the store by elementary
changes, so the books are right in every state that a run reaches.
-/

namespace MnemoKV

/-- The configuration that an engine is made from. -/
structure EngineConfig where
  stripeCount : Int
  memoryLimitBytes : UInt64
  evictionPolicy : String

/-- An empty engine. -/
def Engine.new (config : EngineConfig) : Engine :=
  { store := .new config.stripeCount
    limitBytes := config.memoryLimitBytes.toNat
    policy := policyByName config.evictionPolicy }

/-- A call with what its environment does: the hook in place, the readings of
the clock and the order in which maps are iterated. -/
inductive EngineCall (σ : Type)
  | execute (hook : Option (WriteHook σ)) (clock : WriteClock)
      (choices : Nat → Choices) (cmd : Command)
  | applyReplicated (now : Readings) (cmd : Command)
  | restoreSnapshotEntries (entries : List SnapshotEntry) (now : Int)
  | setPolicy (policy : Policy)

/-- One call of the engine. -/
def EngineCall.step [FloatText] {σ : Type} (state : Engine × σ) :
    EngineCall σ → Engine × σ
  | execute hook clock choices cmd =>
      (Engine.execute hook clock choices cmd state.1 state.2).2
  | applyReplicated now cmd => ((state.1.applyReplicated now cmd).2, state.2)
  | restoreSnapshotEntries entries now =>
      ((state.1.restoreSnapshotEntries entries now).2, state.2)
  | setPolicy policy => ({ state.1 with policy := policy }, state.2)

namespace Engine

open Store

variable {σ : Type} (hook : Option (WriteHook σ)) (clock : WriteClock)
  (choices : Nat → Choices)

theorem Evicts.changes {planKey : Bytes} {before after : Store}
    (evicts : Evicts planKey before after) : Changes before after :=
  evicts.related Changes Changes.refl Changes.trans fun store key _ =>
    store.deleteWithSize_changes key

/-- A write looks at its key, removes other keys to make room and is executed; every
stage may end the call. -/
theorem execute_stages [FloatText] (cmd : Command) (engine : Engine) (state : σ) :
    ∃ planned room,
      (planned = engine.store ∨ planned = (engine.store.planAdmission clock.plan cmd).2) ∧
      Evicts cmd.extractPrimaryKey planned room ∧
      ((execute hook clock choices cmd engine state).2.1.store = room ∨
        (execute hook clock choices cmd engine state).2.1.store =
          (Executor.execute clock.exec cmd room).2) := by
  unfold execute
  split_ifs
  · unfold executeWithAdmission
    dsimp only
    split
    · exact ⟨_, _, .inr rfl, .refl, .inl rfl⟩
    · have checked := ensureRoom_evicts hook clock choices
        (engine.store.planAdmission clock.plan cmd).1
        (engine.withStore (engine.store.planAdmission clock.plan cmd).2) state rfl
      have own := Command.plan_growsOnly clock.plan cmd engine.store.dataset
      rw [← (engine.store.planAdmission_spec clock.plan cmd).1] at own
      obtain ⟨-, evicts, steady, -⟩ := checked
      have freed : Evicts cmd.extractPrimaryKey (engine.store.planAdmission clock.plan cmd).2
          (ensureRoom hook clock choices (engine.store.planAdmission clock.plan cmd).1
            (engine.withStore (engine.store.planAdmission clock.plan cmd).2)
            state).2.1.store := by
        rcases Nat.eq_zero_or_pos
          (engine.store.planAdmission clock.plan cmd).1.requiredGrowth with none | grows
        · rw [steady none]
          exact .refl
        · exact own grows ▸ evicts
      refine ⟨_, _, .inr rfl, freed, ?_⟩
      split
      · rename_i result
        rw [result]
        exact .inl rfl
      · rename_i result
        rw [result]
        unfold commit
        split
        · exact .inl rfl
        · exact .inr rfl
  · exact ⟨_, _, .inl rfl, .refl, .inr rfl⟩

theorem execute_changes [FloatText] (cmd : Command) (engine : Engine)
    (state : σ) :
    Changes engine.store
      (execute hook clock choices cmd engine state).2.1.store := by
  obtain ⟨planned, room, start, evicts, finish⟩ :=
    execute_stages hook clock choices cmd engine state
  have looked : Changes engine.store planned := by
    rcases start with rfl | rfl
    · exact .refl _
    · exact engine.store.planAdmission_changes clock.plan cmd
  refine looked.trans (evicts.changes.trans ?_)
  rcases finish with same | same <;> rw [same]
  · exact .refl _
  · exact Executor.execute_changes clock.exec cmd room

/-- An accepted list has every key once, and its sizes add up without overflow. -/
theorem decodeEntries_total {now : Int} {seen : List Bytes} {start finish : Nat}
    {items : List SnapshotEntry} {decoded : List Entry}
    (accepted : decodeEntries now seen start items = .ok (decoded, finish))
    (fits : start < 2 ^ 64) :
    finish = start + (decoded.map Entry.sizeBytes).sum ∧ finish < 2 ^ 64 := by
  induction items generalizing seen start decoded with
  | nil =>
      obtain ⟨rfl, rfl⟩ := Prod.mk.inj (Except.ok.inj accepted)
      exact ⟨rfl, fits⟩
  | cons item rest induction =>
      unfold decodeEntries at accepted
      split_ifs at accepted
      · exact induction accepted fits
      · split at accepted
        · cases accepted
        · rename_i entry _
          split_ifs at accepted with overflow
          split at accepted
          · cases accepted
          · rename_i entries total restAccepted
            obtain ⟨rfl, rfl⟩ := Prod.mk.inj (Except.ok.inj accepted)
            have room : start + entry.sizeBytes < 2 ^ 64 := by
              simp only [maxUint64] at overflow
              omega
            obtain ⟨sum, below⟩ := induction restAccepted room
            refine ⟨?_, below⟩
            rw [sum, List.map_cons, List.sum_cons, Nat.add_assoc]

theorem decodeEntries_keys {now : Int} {seen : List Bytes} {start finish : Nat}
    {items : List SnapshotEntry} {decoded : List Entry}
    (accepted : decodeEntries now seen start items = .ok (decoded, finish)) :
    (decoded.map Entry.key).Nodup ∧ ∀ entry ∈ decoded, entry.key ∉ seen := by
  induction items generalizing seen start decoded with
  | nil =>
      obtain ⟨rfl, rfl⟩ := Prod.mk.inj (Except.ok.inj accepted)
      exact ⟨List.nodup_nil, by simp⟩
  | cons item rest induction =>
      unfold decodeEntries at accepted
      split_ifs at accepted with repeated
      · obtain ⟨distinct, fresh⟩ := induction accepted
        exact ⟨distinct, fun entry member old =>
          fresh entry member (List.mem_cons_of_mem _ old)⟩
      · split at accepted
        · cases accepted
        · rename_i entry itemDecoded
          split_ifs at accepted
          split at accepted
          · cases accepted
          · rename_i entries total restAccepted
            obtain ⟨rfl, rfl⟩ := Prod.mk.inj (Except.ok.inj accepted)
            obtain ⟨distinct, fresh⟩ := induction restAccepted
            have own := key_of_decodeSnapshotEntry itemDecoded
            constructor
            · rw [List.map_cons, List.nodup_cons, own]
              refine ⟨?_, distinct⟩
              intro listed
              obtain ⟨other, member, same⟩ := List.mem_map.mp listed
              exact fresh other member (same ▸ List.mem_cons_self)
            · rw [List.forall_mem_cons, own]
              exact ⟨repeated, fun other member old =>
                fresh other member (List.mem_cons_of_mem _ old)⟩

theorem restoreSnapshotEntries_changes (entries : List SnapshotEntry)
    (now : Int) (engine : Engine) :
    Changes engine.store
      (restoreSnapshotEntries entries now engine).2.store := by
  unfold restoreSnapshotEntries
  split
  · exact .refl _
  · rename_i decoded total accepted
    obtain ⟨sum, fits⟩ := decodeEntries_total accepted (by decide)
    rw [Nat.zero_add] at sum
    subst sum
    split_ifs
    · exact .refl _
    · exact .single (.install (decodeEntries_keys accepted).1 fits)

end Engine

namespace EngineCall

open Store

variable [FloatText] {σ : Type}

theorem step_changes (state : Engine × σ) (call : EngineCall σ) :
    Changes state.1.store (step state call).1.store := by
  cases call with
  | execute hook clock choices cmd =>
      exact Engine.execute_changes hook clock choices cmd state.1 state.2
  | applyReplicated now cmd =>
      exact Executor.execute_changes now cmd state.1.store
  | restoreSnapshotEntries entries now =>
      exact Engine.restoreSnapshotEntries_changes entries now state.1
  | setPolicy policy => exact .refl _

theorem run_changes (state : Engine × σ) (calls : List (EngineCall σ)) :
    Changes state.1.store (LabelledRuns.run step state calls).1.store := by
  have keeps : ∀ next : Engine × σ, ∀ call ∈ calls,
      Changes state.1.store next.1.store →
      Changes state.1.store (step next call).1.store :=
    fun next call _ reached => reached.trans (step_changes next call)
  exact LabelledRuns.run_induction step keeps (.refl state.1.store)

end EngineCall

/-- In every state that a run of an engine reaches, the counter is the sum of
the stored sizes if that sum fits, every entry sits in the stripe of its key
under its key and is accounted at the size of its content; and no call of
`subUsed` in the run subtracted more than the counter showed, while the content
fitted into the counter. -/
theorem Engine.accounting_is_exact [FloatText] {σ : Type} (config : EngineConfig)
    (state : σ) (calls : List (EngineCall σ)) :
    let store :=
      (LabelledRuns.run EngineCall.step (Engine.new config, state) calls).1.store
    (store.totalBytes < 2 ^ 64 → store.usedBytes = store.totalBytes) ∧
      (∀ stripe key entry, (store.stripes stripe)[key]? = some entry →
        entry.key = key ∧ store.stripeFor key = stripe) ∧
      (∀ entry ∈ store.allEntries,
        entry.sizeBytes =
          match entry.value with
          | .string data => stringEntrySize entry.key data
          | .list items => listEntrySize entry.key items
          | .zset members => zsetEntrySize entry.key members) ∧
      store.balance = store.totalBytes ∧
      ∀ taken ∈ store.subtractions, taken.content < 2 ^ 64 →
        taken.amount ≤ taken.counter := by
  intro store
  have changes := EngineCall.run_changes (Engine.new config, state) calls
  have start := Store.accounted_new config.stripeCount
  have metered := changes.metered start (Store.metered_new config.stripeCount)
  refine ⟨(changes.accounted start).exact, ?_, ?_, metered.balance, metered.covered⟩
  · intro stripe key entry present
    obtain ⟨own, index⟩ := store.placed stripe key entry present
    exact ⟨own, Fin.ext index⟩
  · intro entry _
    rw [entry.sized]
    cases entry.value <;> rfl

end MnemoKV
