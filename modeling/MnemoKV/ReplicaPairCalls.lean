import MnemoKV.ReplicaPairEvictions

/-!
# One client command at the leader of a pair

Planning, evictions, replication and the leader's own execution together keep
the pair sound.  A write that is answered without an error has left its slot in
step, and unless it was a conditional `SET` that changed nothing, the replica
has applied this very command.
-/

namespace MnemoKV

/-- A write without keys is refused by planning or by the executor. -/
theorem Command.keyless_fails [FloatText] {cmd : Command}
    (write : cmd.isWriteCommand = true) (kept : cmd.isFlush = false)
    (keyless : cmd.extractKeys = []) (now : Readings) (dataset : Dataset) :
    (∀ frame, (cmd.plan now dataset).response = some frame →
        frame.isError = true) ∧
      ((cmd.action now).perform dataset).1.isError = true := by
  have acts := cmd.acts now
  generalize cmd.action now = action at acts ⊢
  constructor
  · rcases cmd.planned now with ⟨-, -, onDataset⟩ | ⟨plain, -, onDataset⟩ | ⟨asks⟩
    · rw [onDataset]
      exact fun _ answers => nomatch answers
    · rw [onDataset]
      exact fun _ answers => Option.some.inj answers ▸ plain.isError
    · simp [asks.spec.1] at keyless
  · cases acts with
    | replies frame refused => exact (refused write).isError
    | clears flush => simp [flush] at kept
    | removes named some => simp [extractKeys, named, some] at keyless
    | counts named => simp [isWriteCommand, named, Verb.isWrite] at write
    | drops named given => simp [extractKeys, named, given] at keyless
    | reads keys | writes keys => simp [keys] at keyless

namespace Replication

/-- What holds, until the slot's numbers are spent, once a write of the slot was
answered without an error. -/
structure Done (slot : Nat) (cmd : Command) (frame : Frame)
    (before store : Store) (state : Replication) : Prop where
  settled : state.history.unacked slot = none
  inStep : InStep store state slot
  applied : state.Recorded slot cmd ∨ frame = .nullBulk ∧
    state.part slot store.dataset = state.part slot before.dataset

/-- A local write without lifetimes. -/
structure LocalWrite (state : Replication) (cmd : Command) : Prop
    extends LocalCommand state cmd where
  free : cmd.TTLFree

variable [FloatText] {store : Store} {start state : Replication} {cmd : Command}
  {link : Nat → Delivery}

omit [FloatText] in
theorem LocalWrite.slotWrite (localWrite : start.LocalWrite cmd)
    (keys : cmd.extractKeys ≠ []) :
    start.SlotWrite (start.metadata.slotForKey cmd.extractPrimaryKey) cmd :=
  have ⟨nonempty, _, members⟩ := localWrite.keyed keys
  ⟨localWrite.write, localWrite.kept, localWrite.free, nonempty, rfl, members⟩

theorem executed_execute (now : Readings) (cmd : Command) (store : Store) :
    Executed cmd store (Executor.execute now cmd store).2 :=
  ⟨now, Executor.dataset_execute now cmd store⟩

theorem plan_part (now : Readings) (state : Replication) (cmd : Command)
    (dataset : Dataset) :
    cmd.plan now (state.part (state.metadata.slotForKey cmd.extractPrimaryKey)
      dataset) = cmd.plan now dataset :=
  Command.plan_congr now cmd (Dataset.within_of_mem rfl)

/-- The start of admission, after planning has dropped lapsed items. -/
theorem Sound.admitting {planned : Store} {moments : Int → Prop} {now : Readings}
    (sound : Sound store start) (localWrite : start.LocalWrite cmd)
    (lapsed : Lapsed moments store.dataset planned.dataset)
    (silent : (cmd.plan now store.dataset).response = none) :
    Admitting store start cmd planned start := by
  refine ⟨sound.of_leader fun slot leads => sound.part_of_lapsed lapsed leads,
    .refl start, ?_, ⟨now, silent⟩, ?_⟩
  · exact fun key found missing => found (lapsed.absent missing)
  · intro keys
    obtain ⟨-, leads, -⟩ := localWrite.keyed keys
    have same := congrFun (sound.part_of_lapsed lapsed leads)
      cmd.extractPrimaryKey
    simpa only [part, Dataset.within_of_mem] using same

/-- The record of the write itself, on whatever the evictions have left. -/
theorem Admitting.replicate {origin : Store}
    (admitting : Admitting origin start cmd store state)
    (localWrite : start.LocalWrite cmd) (keys : cmd.extractKeys ≠ [])
    (repeats : ∀ pending, start.history.unacked
      (start.metadata.slotForKey cmd.extractPrimaryKey) = some pending →
        cmd = pending) (link : Nat → Delivery) :
    ∃ after result, state.replicate link cmd = (result, after) ∧
      Kept (start.metadata.slotForKey cmd.extractPrimaryKey) state after ∧
      match result with
      | .error _ => Sound store after
      | .ok () => Accepted cmd
          (start.metadata.slotForKey cmd.extractPrimaryKey) store after := by
  obtain ⟨-, leads, -⟩ := localWrite.keyed keys
  have owners := admitting.advanced.owners
  refine admitting.sound.replicate ((owners.leads_iff _).mpr leads)
    ((localWrite.slotWrite keys).congr owners) ?_ ?_ link
  · obtain ⟨now, silent⟩ := admitting.admissible
    refine ⟨now, ?_⟩
    rw [← owners.slotForKey, plan_part,
      Command.plan_congr now cmd (admitting.target keys)]
    exact silent
  · exact fun pending unacked =>
      repeats pending (admitting.advanced.pending unacked)

/-- An answer that planning gives by itself leaves everything as it was. -/
theorem Sound.done_of_planned {planned : Store} {moments : Int → Prop}
    {now : Readings} {frame : Frame} (sound : Sound store start)
    (localWrite : start.LocalWrite cmd)
    (repeats : cmd.extractKeys ≠ [] → ∀ pending, start.history.unacked
      (start.metadata.slotForKey cmd.extractPrimaryKey) = some pending →
        cmd = pending)
    (lapsed : Lapsed moments store.dataset planned.dataset)
    (answered : (cmd.plan now store.dataset).response = some frame)
    (succeeded : frame.isError = false)
    (unspent : start.Unspent
      (start.metadata.slotForKey cmd.extractPrimaryKey)) :
    Done (start.metadata.slotForKey cmd.extractPrimaryKey) cmd frame store
      planned start := by
  have keys : cmd.extractKeys ≠ [] := by
    intro keyless
    have failed := (Command.keyless_fails localWrite.write localWrite.kept
      keyless now store.dataset).1 frame answered
    rw [failed] at succeeded
    cases succeeded
  obtain ⟨-, leads, -⟩ := localWrite.keyed keys
  have here := sound.slots _ leads
  have settled : start.history.unacked
      (start.metadata.slotForKey cmd.extractPrimaryKey) = none := by
    cases pending : start.history.unacked
        (start.metadata.slotForKey cmd.extractPrimaryKey) with
    | none => rfl
    | some earlier =>
        obtain rfl := repeats keys earlier pending
        obtain ⟨earlierTime, silent⟩ := (here.ahead unspent cmd pending).admissible
        rw [here.persistent.plan_eq localWrite.free earlierTime now, plan_part,
          answered] at silent
        cases silent
  have part := sound.part_of_lapsed lapsed leads
  obtain ⟨datasets, counters⟩ := here.settled unspent settled
  refine ⟨settled, ⟨part.trans datasets, counters⟩, .inr ⟨?_, part⟩⟩
  rcases Command.plan_answersPlainly now cmd store.dataset frame answered with
    failed | nil
  · rw [failed] at succeeded
    cases succeeded
  · exact nil

section Commit

variable {origin : Store} (localWrite : start.LocalWrite cmd)
  (repeats : cmd.extractKeys ≠ [] → ∀ pending, start.history.unacked
    (start.metadata.slotForKey cmd.extractPrimaryKey) = some pending →
      cmd = pending)

include localWrite repeats

theorem Admitting.vetoed {next : Replication} {text : String}
    (admitting : Admitting origin start cmd store state)
    (answered : state.replicate link cmd = (.error text, next)) :
    Ended link origin start cmd store next := by
  have keys : cmd.extractKeys ≠ [] := by
    intro keyless
    simp [Replication.replicate, Command.extractPrimaryKey, keyless] at answered
  obtain ⟨after, result, replicated, kept, outcome⟩ :=
    admitting.replicate localWrite keys (repeats keys) link
  obtain ⟨rfl, rfl⟩ : result = .error text ∧ after = next :=
    Prod.mk.inj (replicated.symm.trans answered)
  exact admitting.failed answered outcome kept.leaderOwners

theorem Admitting.written {next : Replication}
    (admitting : Admitting origin start cmd store state)
    (answered : state.replicate link cmd = (.ok (), next)) (now : Readings) :
    Ended link origin start cmd (Executor.execute now cmd store).2 next ∧
      ((Executor.execute now cmd store).1.isError = false →
        next.Unspent (start.metadata.slotForKey cmd.extractPrimaryKey) →
        Done (start.metadata.slotForKey cmd.extractPrimaryKey) cmd
          (Executor.execute now cmd store).1 origin
          (Executor.execute now cmd store).2 next) := by
  have executed := executed_execute now cmd store
  by_cases keyless : cmd.extractKeys = []
  · obtain rfl : state = next := by
      simpa [Replication.replicate, Command.extractPrimaryKey, keyless]
        using answered
    have outcome := Executor.observe_execute now cmd store
    have failed := (Command.keyless_fails localWrite.write localWrite.kept
      keyless now store.dataset).2
    have unchanged : (Executor.execute now cmd store).2.dataset =
        store.dataset := by
      refine (congrArg Prod.snd outcome).trans (funext fun key => ?_)
      exact Command.action_perform_of_not_mem now cmd localWrite.kept
        (by simp [keyless]) _
    refine ⟨⟨admitting.sound.of_leader fun slot _ => by rw [unchanged],
      admitting.advanced.owners, fun key _ missing => ?_,
      fun _ => admitting.advanced⟩, ?_⟩
    · rw [unchanged]
      exact admitting.absent missing
    · intro succeeded
      rw [← congrArg Prod.fst outcome, Store.observe, succeeded] at failed
      cases failed
  · obtain ⟨after, result, replicated, kept, outcome⟩ :=
      admitting.replicate localWrite keyless (repeats keyless) link
    obtain ⟨rfl, rfl⟩ : result = .ok () ∧ after = next :=
      Prod.mk.inj (replicated.symm.trans answered)
    have sound := outcome.sound _ executed
    have advanced := admitting.advanced.trans (kept.advanced outcome.settled)
    have leads := (advanced.owners.leads_iff _).mpr
      (localWrite.keyed keyless).2.1
    refine ⟨⟨sound, advanced.owners, fun key foreign missing => ?_,
      fun _ => advanced⟩, fun _ unspent => ⟨outcome.settled,
        (sound.slots _ leads).settled unspent outcome.settled,
        .inl (outcome.recorded unspent)⟩⟩
    obtain ⟨moment, dataset⟩ := executed
    rw [dataset, Command.action_perform_of_not_mem moment cmd localWrite.kept
      foreign]
    exact admitting.absent missing

end Commit

/-- A whole write on the leader. -/
theorem Sound.executeWithAdmission {engine : Engine}
    (sound : Sound engine.store start) (localWrite : start.LocalWrite cmd)
    (repeats : cmd.extractKeys ≠ [] → ∀ pending, start.history.unacked
      (start.metadata.slotForKey cmd.extractPrimaryKey) = some pending →
        cmd = pending)
    (clear : 0 < engine.limitBytes → engine.policy ≠ .noEviction →
      ∀ key, engine.store.dataset key ≠ none →
        key ≠ cmd.extractPrimaryKey → start.Evictable key)
    (clock : WriteClock) (choices : Nat → Choices) (link : Nat → Delivery) :
    ∃ frame store next,
      engine.executeWithAdmission (some (hook link)) clock choices cmd start =
        (frame, engine.withStore store, next) ∧
      Ended link engine.store start cmd store next ∧
      (frame.isError = false →
        next.Unspent (start.metadata.slotForKey cmd.extractPrimaryKey) →
        Done (start.metadata.slotForKey cmd.extractPrimaryKey) cmd frame
          engine.store store next) := by
  obtain ⟨planEq, lapsed⟩ := engine.store.planAdmission_spec clock.plan cmd
  generalize planning : engine.store.planAdmission clock.plan cmd = outcome
    at planEq lapsed
  obtain ⟨plan, planned⟩ := outcome
  obtain rfl : plan = cmd.plan clock.plan engine.store.dataset := planEq
  have planSound : Sound planned start :=
    sound.of_leader fun slot leads => sound.part_of_lapsed lapsed leads
  have rule : engine.MayEvict (cmd.plan clock.plan engine.store.dataset) →
      Engine.EvictionRule (hook link)
        (cmd.plan clock.plan engine.store.dataset).key
        (Admitting engine.store start cmd) (Ended link engine.store start cmd)
        (fun key => key ≠ cmd.extractPrimaryKey → start.Evictable key) := by
    intro may
    rw [Command.plan_growsOnly clock.plan cmd engine.store.dataset may.growing]
    exact Admitting.rule (clear may.limited may.evicting)
  refine Engine.executeWithAdmission_rule rfl planning rule ?_ ?_ ?_ ?_ ?_ ?_
  · exact sound.admitting localWrite lapsed
  · intro frame answered
    exact ⟨⟨planSound, .refl _, fun key _ => lapsed.absent, fun _ => .refl _⟩,
      sound.done_of_planned localWrite repeats lapsed answered⟩
  · exact fun store state admitting => ⟨admitting.ended, fun failed => nomatch failed⟩
  · exact fun store state text ended => ⟨ended, fun failed => nomatch failed⟩
  · intro store state next text admitting answered
    exact admitting.vetoed localWrite repeats answered
  · intro store state next admitting answered
    exact admitting.written localWrite repeats answered clock.exec

end Replication
end MnemoKV
