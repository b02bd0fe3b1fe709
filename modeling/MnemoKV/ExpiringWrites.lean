import MnemoKV.ExpiringPairs

/-!
# A write on a pair whose entries expire

The entries stay concordant through planning, evictions and the write itself
when the written key has expired on both nodes or on neither at the moments at
which they run the command.
-/

namespace MnemoKV
namespace Replication

variable [FloatText] {now : Int} {store : Store} {state : Replication}
  {call : TimedCall}

/-- When the stored items matter, they have expired on both nodes or on neither
when the write runs there; and every lifetime of the command stays within the
range of the clock, or leaves it, on both. -/
structure InTime (call : TimedCall) (leader replica : Option Item) : Prop where
  alike : ¬ call.cmd.Overwrites → ∀ index,
    ExpiredAlike call.execTime (call.recordTime index) leader replica
  ranges : ∀ lifetime ∈ call.cmd.lifetimes, ∀ index,
    call.execTime ≤ maxInt64 - lifetime ↔
      call.recordTime index ≤ maxInt64 - lifetime

omit [FloatText] in
theorem InTime.lifetimesFit {leader replica : Option Item}
    (inTime : InTime call leader replica) (epoch : 0 ≤ now)
    (ordered : call.Ordered now) (index : Nat) :
    call.cmd.LifetimesFit (fun _ => call.execTime)
      (fun _ => call.recordTime index) := by
  intro lifetime member
  have records := ordered.records index
  have plan := ordered.plan
  exact ⟨(epoch.trans plan).trans records.1, records.2,
    inTime.ranges lifetime member index⟩

/-- The invariant of admission at the time of planning. -/
structure Waiting (call : TimedCall) (origin : Store) (start : Replication)
    (store : Store) (state : Replication) : Prop where
  harmony : Harmony call.planTime store state
  owners : start.metadata.SameOwners state.metadata
  stored : ∀ key, store.dataset key ≠ none → origin.dataset key ≠ none
  leaderTarget : store.dataset call.cmd.extractPrimaryKey =
      origin.dataset call.cmd.extractPrimaryKey ∨
    store.dataset call.cmd.extractPrimaryKey = none
  replicaTarget : state.replica.dataset call.cmd.extractPrimaryKey =
    start.replica.dataset call.cmd.extractPrimaryKey

/-- The end of a call at the time of its execution. -/
structure Concluded (call : TimedCall) (origin : Store) (start : Replication)
    (store : Store) (state : Replication) : Prop where
  harmony : Harmony call.execTime store state
  owners : start.metadata.SameOwners state.metadata
  absent : ∀ key ∉ call.cmd.extractKeys, origin.dataset key = none →
    store.dataset key = none

section Admission

variable {origin : Store} {start : Replication} {moment : Int}

omit [FloatText] in
theorem Waiting.absent (waiting : Waiting call origin start store state)
    {key : Bytes} (missing : origin.dataset key = none) :
    store.dataset key = none := by
  by_contra found
  exact waiting.stored key found missing

omit [FloatText] in
theorem Waiting.concluded (waiting : Waiting call origin start store state)
    (ordered : call.Ordered moment) :
    Concluded call origin start store state :=
  ⟨waiting.harmony.mono ordered.exec, waiting.owners,
    fun _ _ missing => waiting.absent missing⟩

omit [FloatText] in
theorem Waiting.seen (waiting : Waiting call origin start store state)
    (ordered : call.Ordered moment)
    (leads : state.metadata.Leads
      (state.metadata.slotForKey call.cmd.extractPrimaryKey))
    (unspent : state.Unspent
      (state.metadata.slotForKey call.cmd.extractPrimaryKey))
    (inTime : InTime call (origin.dataset call.cmd.extractPrimaryKey)
      (start.replica.dataset call.cmd.extractPrimaryKey))
    (looks : ¬ call.cmd.Overwrites) (index : Nat) :
    Mirrored
      (liveAt call.execTime (store.dataset call.cmd.extractPrimaryKey))
      (liveAt (call.recordTime index)
        (state.replica.dataset call.cmd.extractPrimaryKey)) := by
  have concordant := waiting.harmony.entries _ leads unspent
  refine concordant.seen ordered.exec (ordered.records index).1 ?_
  rw [waiting.replicaTarget]
  rcases waiting.leaderTarget with same | gone
  · rw [same]
    exact inTime.alike looks index
  · rw [gone]
    trivial

/-- The obligations of the eviction loop. -/
theorem Waiting.rule (ordered : call.Ordered moment)
    (clear : origin.dataset [] ≠ none →
      ¬ start.metadata.Leads (start.metadata.slotForKey [])) :
    Engine.EvictionRule (hook call.link) call.cmd.extractPrimaryKey
      (Waiting call origin start) (Concluded call origin start)
      (fun key => key = [] →
        ¬ start.metadata.Leads (start.metadata.slotForKey [])) where
  stored := by
    rintro store state key entry waiting found rfl
    refine clear (waiting.stored [] ?_)
    simp [Store.dataset, found]
  evicted := by
    intro store state next key waiting evictable distinct answered
    have keyClear : state.metadata.Leads (state.metadata.slotForKey key) →
        key ≠ [] := by
      rintro leads rfl
      rw [waiting.owners.slotForKey, waiting.owners.leads_iff] at leads
      exact evictable rfl leads
    obtain ⟨after, result, replicated, owners, outcome⟩ :=
      waiting.harmony.evict call keyClear
    obtain ⟨rfl, rfl⟩ : result = .ok () ∧ after = next :=
      Prod.mk.inj (replicated.symm.trans answered)
    have removed := (store.dataset_deleteWithSize key).1
    refine ⟨outcome.1, waiting.owners.trans owners, ?_, ?_, ?_⟩
    · intro other found
      rw [removed] at found
      refine waiting.stored other fun missing => found ?_
      simp [Function.update_apply, missing]
    · rw [removed, Function.update_of_ne distinct.symm]
      exact waiting.leaderTarget
    · rw [outcome.2 _ distinct.symm]
      exact waiting.replicaTarget
  refused := by
    intro store state next key text waiting evictable distinct answered
    have keyClear : state.metadata.Leads (state.metadata.slotForKey key) →
        key ≠ [] := by
      rintro leads rfl
      rw [waiting.owners.slotForKey, waiting.owners.leads_iff] at leads
      exact evictable rfl leads
    obtain ⟨after, result, replicated, owners, outcome⟩ :=
      waiting.harmony.evict call keyClear
    obtain ⟨rfl, rfl⟩ : result = .error text ∧ after = next :=
      Prod.mk.inj (replicated.symm.trans answered)
    exact ⟨outcome.mono ordered.exec, waiting.owners.trans owners,
      fun _ _ missing => waiting.absent missing⟩

variable (ordered : call.Ordered moment) (epoch : 0 ≤ moment)
  (localCommand : start.LocalCommand call.cmd)
  (inTime : InTime call (origin.dataset call.cmd.extractPrimaryKey)
    (start.replica.dataset call.cmd.extractPrimaryKey))

include ordered epoch localCommand inTime

/-- What the replica has executed, if anything, and what the leader would do. -/
theorem Waiting.replicate (waiting : Waiting call origin start store state)
    (keys : call.cmd.extractKeys ≠ []) :
    ∃ after result,
      state.replicate call.link call.cmd = (result, after) ∧
      Passed (state.metadata.slotForKey call.cmd.extractPrimaryKey) state after ∧
      (after.replica.dataset = state.replica.dataset ∧
          (after.Unspent (state.metadata.slotForKey call.cmd.extractPrimaryKey) →
            result.isOk = false) ∨
        ∃ index, after.replica.dataset =
            ((call.cmd.action fun _ => call.recordTime index).perform
              state.replica.dataset).2 ∧
          (result.isOk = !((call.cmd.action fun _ => call.execTime).perform
            store.dataset).1.isError) ∧
          Command.ResultsMirror
            (store.dataset, (call.cmd.action fun _ => call.execTime).perform
              store.dataset)
            (state.replica.dataset, (call.cmd.action fun _ =>
              call.recordTime index).perform state.replica.dataset)) := by
  obtain ⟨nonempty, leads, -⟩ := localCommand.keyed keys
  have leadsNow : state.metadata.Leads
      (state.metadata.slotForKey call.cmd.extractPrimaryKey) := by
    rw [waiting.owners.slotForKey]
    exact (waiting.owners.leads_iff _).mpr leads
  obtain ⟨after, result, replicated, sent, outcome⟩ :=
    waiting.harmony.replicate call call.cmd leadsNow nonempty rfl
  refine ⟨after, result, replicated, sent, ?_⟩
  rcases outcome with still | ⟨unspent, index, dataset, answer⟩
  · exact .inl still
  · have results := Command.perform_mirrors localCommand.write localCommand.kept
      (inTime.lifetimesFit epoch ordered index)
      (fun looks _ => waiting.seen ordered leadsNow unspent inTime looks index)
    refine .inr ⟨index, dataset, ?_, results⟩
    rw [answer]
    exact congrArg _ results.1.symm

theorem Waiting.vetoed {next : Replication} {text : String}
    (waiting : Waiting call origin start store state)
    (answered : state.replicate call.link call.cmd = (.error text, next)) :
    Concluded call origin start store next := by
  have keys : call.cmd.extractKeys ≠ [] := by
    intro keyless
    simp [Replication.replicate, Command.extractPrimaryKey, keyless] at answered
  obtain ⟨after, result, replicated, sent, outcome⟩ :=
    waiting.replicate ordered epoch localCommand inTime keys
  obtain ⟨rfl, rfl⟩ : result = .error text ∧ after = next :=
    Prod.mk.inj (replicated.symm.trans answered)
  refine ⟨waiting.harmony.of_sent sent fun key leads unspent => ?_,
    waiting.owners.trans sent.leaderOwners,
    fun _ _ missing => waiting.absent missing⟩
  have concordant := waiting.harmony.entries key leads (sent.unspent _ unspent)
  rcases outcome with ⟨dataset, -⟩ | ⟨index, dataset, answer, results⟩
  · rw [dataset]
    exact concordant.mono ordered.exec
  · have failed : ((call.cmd.action fun _ => call.execTime).perform
        store.dataset).1.isError = true := by
      cases outcome : ((call.cmd.action fun _ => call.execTime).perform
          store.dataset).1.isError with
      | true => rfl
      | false =>
          rw [outcome] at answer
          cases answer
    have lapsed := (Command.action_lapsesOnError (fun _ => call.execTime) call.cmd
      store.dataset failed).at_const
    rw [dataset]
    exact results.concordant_of_failed concordant ordered.exec lapsed

theorem Waiting.written {next : Replication}
    (waiting : Waiting call origin start store state)
    (answered : state.replicate call.link call.cmd = (.ok (), next)) :
    Concluded call origin start
      (Executor.execute (fun _ => call.execTime) call.cmd store).2 next := by
  have executed := Executor.dataset_execute (fun _ => call.execTime) call.cmd store
  change (Executor.execute (fun _ => call.execTime) call.cmd store).2.dataset =
    _ at executed
  have untouched : ∀ key ∉ call.cmd.extractKeys,
      (Executor.execute (fun _ => call.execTime) call.cmd store).2.dataset key =
        store.dataset key := fun key foreign => by
    rw [executed, Command.action_perform_of_not_mem _ call.cmd
      localCommand.kept foreign]
  have absent : ∀ key ∉ call.cmd.extractKeys, origin.dataset key = none →
      (Executor.execute (fun _ => call.execTime) call.cmd store).2.dataset key =
        none := fun key foreign missing =>
    (untouched key foreign).trans (waiting.absent missing)
  by_cases keyless : call.cmd.extractKeys = []
  · obtain rfl : state = next := by
      simpa [Replication.replicate, Command.extractPrimaryKey, keyless]
        using answered
    refine ⟨waiting.harmony.of_leader fun key leads unspent => ?_, waiting.owners,
      absent⟩
    rw [untouched key (by simp [keyless])]
    exact (waiting.harmony.entries key leads unspent).mono ordered.exec
  · obtain ⟨after, result, replicated, sent, outcome⟩ :=
      waiting.replicate ordered epoch localCommand inTime keyless
    obtain ⟨rfl, rfl⟩ : result = .ok () ∧ after = next :=
      Prod.mk.inj (replicated.symm.trans answered)
    refine ⟨waiting.harmony.of_sent sent fun key leads unspent => ?_,
      waiting.owners.trans sent.leaderOwners, absent⟩
    have concordant := waiting.harmony.entries key leads (sent.unspent _ unspent)
    rcases outcome with ⟨dataset, stopped⟩ | ⟨index, dataset, -, results⟩
    · -- The command's own slot is spent, and no other key is written.
      have foreign : key ∉ call.cmd.extractKeys := by
        intro member
        have same := (localCommand.keyed keyless).2.2 key member
        rw [← waiting.owners.slotForKey, ← waiting.owners.slotForKey] at same
        rw [same] at unspent
        cases stopped unspent
      rw [untouched key foreign, dataset]
      exact concordant.mono ordered.exec
    · rw [executed, dataset]
      exact results.concordant concordant ordered.exec

/-- A whole write on the leader. -/
theorem Harmony.executeWithAdmission {engine : Engine}
    (origins : engine.store = origin) (harmony : Harmony moment engine.store start)
    (clear : 0 < engine.limitBytes → engine.policy ≠ .noEviction →
      engine.store.dataset [] ≠ none →
      ¬ start.metadata.Leads (start.metadata.slotForKey [])) :
    ∃ frame store next,
      engine.executeWithAdmission (some (hook call.link)) call.call.clock
        call.choices call.cmd start = (frame, engine.withStore store, next) ∧
      Concluded call origin start store next := by
  subst origins
  obtain ⟨planEq, lapsedAt⟩ :=
    engine.store.planAdmission_spec (fun _ => call.planTime) call.cmd
  have lapsed := lapsedAt.at_const
  generalize planning :
    engine.store.planAdmission (fun _ => call.planTime) call.cmd = outcome
    at planEq lapsed
  obtain ⟨plan, planned⟩ := outcome
  obtain rfl : plan = call.cmd.plan (fun _ => call.planTime)
    engine.store.dataset := planEq
  have waiting : Waiting call engine.store start planned start := by
    refine ⟨harmony.lapse ordered.plan lapsed, .refl _,
      fun key found missing => found (lapsed.absent missing), ?_, rfl⟩
    rcases lapsed call.cmd.extractPrimaryKey with same | ⟨_, rfl, same⟩
    · exact .inl same
    · rcases liveAt_cases call.planTime
        (engine.store.dataset call.cmd.extractPrimaryKey) with live | gone
      · exact .inl (same.trans live)
      · exact .inr (same.trans gone)
  have rule : engine.MayEvict
        (call.cmd.plan (fun _ => call.planTime) engine.store.dataset) →
      Engine.EvictionRule (hook call.link)
        (call.cmd.plan (fun _ => call.planTime) engine.store.dataset).key
        (Waiting call engine.store start) (Concluded call engine.store start)
        (fun key => key = [] →
          ¬ start.metadata.Leads (start.metadata.slotForKey [])) := by
    intro may
    rw [Command.plan_growsOnly _ call.cmd engine.store.dataset may.growing]
    exact Waiting.rule ordered (clear may.limited may.evicting)
  exact Engine.executeWithAdmission_rule rfl planning rule (fun _ => waiting)
    (fun _ _ => waiting.concluded ordered)
    (fun _ _ waits => waits.concluded ordered) (fun _ _ _ concluded => concluded)
    (fun _ _ _ _ waits answered =>
      waits.vetoed ordered epoch localCommand inTime answered)
    (fun _ _ _ waits answered =>
      waits.written ordered epoch localCommand inTime answered)

end Admission
end Replication
end MnemoKV
