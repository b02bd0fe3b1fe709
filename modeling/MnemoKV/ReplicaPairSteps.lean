import MnemoKV.ReplicaPair

/-!
# One replicated write keeps the pair sound

A write that repeats the unacknowledged command of its slot, if there is one,
keeps every slot sound whatever the link does; once the hook accepts it and the
leader has executed it, its slot is in step.  In a slot whose numbers are spent
every record is a duplicate, and nothing is left to be kept.
-/

namespace MnemoKV
namespace Replication

variable [FloatText] {store : Store} {state : Replication}

theorem part_perform_of_ne {slot other : Nat} {cmd : Command}
    (slotWrite : state.SlotWrite slot cmd) (distinct : other ≠ slot)
    (now : Readings) (dataset : Dataset) :
    state.part other ((cmd.action now).perform dataset).2 =
      state.part other dataset :=
  Command.within_perform_of_disjoint slotWrite.kept
    (fun key member same =>
      distinct (same.symm.trans (slotWrite.members key member)))
    now dataset

/-- On its own slot a command acts on the part as on the whole. -/
theorem part_perform {slot : Nat} {cmd : Command}
    (slotWrite : state.SlotWrite slot cmd) (now : Readings)
    (dataset : Dataset) :
    (cmd.action now).perform (state.part slot dataset) =
      (((cmd.action now).perform dataset).1,
        state.part slot ((cmd.action now).perform dataset).2) :=
  Command.perform_within slotWrite.kept slotWrite.members now dataset

/-- The store after the leader has executed a command. -/
def Executed (cmd : Command) (store store' : Store) : Prop :=
  ∃ now, store'.dataset = ((cmd.action now).perform store.dataset).2

/-- Slots other than the command's keep what they depend on. -/
theorem Kept.sameSlot {slot other : Nat} {cmd : Command} {store' : Store}
    {after : Replication} (kept : Kept slot state after)
    (slotWrite : state.SlotWrite slot cmd) (distinct : other ≠ slot)
    (leader : store'.dataset = store.dataset ∨ Executed cmd store store')
    (replica : after.replica.dataset = state.replica.dataset ∨
      ∃ now, after.replica.dataset =
        ((cmd.action now).perform state.replica.dataset).2)
    (records : state.history.applied ⊆ after.history.applied) :
    SameSlot other store store' state after := by
  refine ⟨kept.leaderOwners, kept.sequence other distinct,
    kept.applied other distinct, kept.unacked other distinct, ?_, ?_, records⟩
  · rcases leader with same | ⟨now, executed⟩
    · rw [same]
    · rw [executed]
      exact part_perform_of_ne slotWrite distinct now _
  · rcases replica with same | ⟨now, executed⟩
    · rw [same]
    · rw [executed]
      exact part_perform_of_ne slotWrite distinct now _

/-- A write that is executed on both sides of a slot in step leaves the same
part on both. -/
theorem part_executed_eq {slot : Nat} {cmd : Command} {store' : Store}
    (persistent : Persistent (state.part slot store.dataset))
    (equal : state.part slot store.dataset = state.part slot state.replica.dataset)
    (slotWrite : state.SlotWrite slot cmd) (executed : Executed cmd store store')
    (now : Readings) :
    state.part slot store'.dataset =
      state.part slot ((cmd.action now).perform state.replica.dataset).2 := by
  obtain ⟨own, dataset⟩ := executed
  have here := congrArg Prod.snd (part_perform slotWrite own store.dataset)
  have there := congrArg Prod.snd
    (part_perform slotWrite now state.replica.dataset)
  rw [dataset]
  calc state.part slot ((cmd.action own).perform store.dataset).2
      = ((cmd.action own).perform (state.part slot store.dataset)).2 := here.symm
    _ = ((cmd.action now).perform (state.part slot store.dataset)).2 :=
        (persistent.perform_eq slotWrite.write slotWrite.kept slotWrite.free
          own now).2
    _ = ((cmd.action now).perform (state.part slot state.replica.dataset)).2 := by
        rw [equal]
    _ = state.part slot ((cmd.action now).perform state.replica.dataset).2 := there

theorem part_of_failed {slot : Nat} {cmd : Command} {now : Readings}
    (persistent : Persistent (state.part slot state.replica.dataset))
    (slotWrite : state.SlotWrite slot cmd)
    (failed : ((cmd.action now).perform state.replica.dataset).1.isError = true) :
    state.part slot ((cmd.action now).perform state.replica.dataset).2 =
      state.part slot state.replica.dataset := by
  have acted := part_perform slotWrite now state.replica.dataset
  have failedHere : ((cmd.action now).perform
      (state.part slot state.replica.dataset)).1.isError = true := by
    rw [acted]
    exact failed
  have lapsed := Command.action_lapsesOnError now cmd _ failedHere
  exact (congrArg Prod.snd acted).symm.trans
    (lapsed.eq_of_persistent persistent)

/-- The replica's record of a command that the slot's counter stands at. -/
def Recorded (state : Replication) (slot : Nat) (cmd : Command) : Prop :=
  ∃ record ∈ state.history.applied, record.slot = slot ∧
    record.sequence = state.metadata.sequence slot ∧
    record.args = cmd.name :: cmd.args

/-- What is known once the hook has accepted a write. -/
structure Accepted (cmd : Command) (slot : Nat) (store : Store)
    (after : Replication) : Prop where
  settled : after.history.unacked slot = none
  recorded : after.Unspent slot → after.Recorded slot cmd
  sound : ∀ store', Executed cmd store store' → Sound store' after

omit [FloatText] in
theorem Moved.unspent {slot leaderStep replicaStep : Nat} {after : Replication}
    {pending : Option Command} {applied suppressed : List ReplicationRecord}
    (moved : Moved slot state after leaderStep replicaStep pending applied suppressed)
    {other : Nat} (unspent : after.Unspent other) : state.Unspent other := by
  unfold Unspent at unspent ⊢
  by_cases same : other = slot
  · subst same
    rw [moved.appliedHere] at unspent
    omega
  · rwa [moved.applied other same] at unspent

/-- Soundness follows slot by slot, the command's own slot first. -/
theorem Sound.of_moved {slot leaderStep replicaStep : Nat} {cmd : Command} {store' : Store}
    {after : Replication} {pending : Option Command}
    {applied suppressed : List ReplicationRecord} (sound : Sound store state)
    (moved : Moved slot state after leaderStep replicaStep pending applied suppressed)
    (slotWrite : state.SlotWrite slot cmd)
    (leader : store'.dataset = store.dataset ∨ Executed cmd store store')
    (replica : after.replica.dataset = state.replica.dataset ∨
      ∃ now, after.replica.dataset =
        ((cmd.action now).perform state.replica.dataset).2)
    (records : state.history.applied ⊆ applied)
    (known : ∀ record ∈ suppressed, state.Unspent record.slot → record ∈ applied)
    (here : SlotSound store' after slot) : Sound store' after := by
  refine ⟨sound.paired.congr moved.leaderOwners moved.replicaOwners, ?_, ?_⟩
  · intro other leads
    by_cases same : other = slot
    · subst same
      exact here
    · have ledBefore := (moved.leaderOwners.leads_iff other).mp leads
      exact (sound.slots other ledBefore).congr
        (moved.sameSlot slotWrite same leader replica (moved.appliedRecords ▸ records))
  · rw [moved.suppressedRecords, moved.appliedRecords]
    exact fun record member unspent => known record member (moved.unspent unspent)

/-- The write's own slot when nothing moved and the replica's part is as
before. -/
theorem SlotSound.still {slot : Nat} {after : Replication}
    (here : SlotSound store state slot)
    (moved : Moved slot state after 0 0 (state.history.unacked slot)
      state.history.applied state.history.suppressed)
    (replicaPart : state.part slot after.replica.dataset =
      state.part slot state.replica.dataset) : SlotSound store after slot :=
  here.congr
    ⟨moved.leaderOwners, moved.sequenceHere, moved.appliedHere,
      moved.unackedHere, rfl, replicaPart, by simp [moved.appliedRecords]⟩

theorem SlotSound.of_inStep {slot : Nat} {store' : Store} {after : Replication}
    (persistent : Persistent (after.part slot store'.dataset))
    (settled : after.history.unacked slot = none)
    (inStep : InStep store' after slot) : SlotSound store' after slot :=
  ⟨persistent, fun _ _ => inStep, fun _ cmd pending => by
    rw [settled] at pending
    cases pending⟩

theorem SlotSound.of_spent {slot : Nat} {store' : Store} {after : Replication}
    (persistent : Persistent (after.part slot store'.dataset))
    (spent : ¬ after.Unspent slot) : SlotSound store' after slot :=
  ⟨persistent, fun unspent => absurd unspent spent,
    fun unspent => absurd unspent spent⟩

/-- The part of the leader stays persistent through its own execution. -/
theorem persistent_executed {slot : Nat} {cmd : Command} {store' : Store}
    (persistent : Persistent (state.part slot store.dataset))
    (slotWrite : state.SlotWrite slot cmd)
    (executed : Executed cmd store store') :
    Persistent (state.part slot store'.dataset) := by
  obtain ⟨now, dataset⟩ := executed
  have acted := congrArg Prod.snd (part_perform slotWrite now store.dataset)
  have kept := persistent.perform slotWrite.free now
  rw [acted] at kept
  rw [dataset]
  exact kept

theorem Sound.accepted {slot replicaStep : Nat} {cmd : Command} {after : Replication}
    {applied suppressed : List ReplicationRecord} (sound : Sound store state)
    (here : SlotSound store state slot)
    (moved : Moved slot state after 1 replicaStep none applied suppressed)
    (slotWrite : state.SlotWrite slot cmd)
    (replica : after.replica.dataset = state.replica.dataset ∨
      ∃ now, after.replica.dataset =
        ((cmd.action now).perform state.replica.dataset).2)
    (records : state.history.applied ⊆ applied)
    (known : ∀ record ∈ suppressed, state.Unspent record.slot → record ∈ applied)
    (recorded : state.nextRecord slot cmd ∈ applied)
    (followed : ∀ store', Executed cmd store store' →
      state.part slot store'.dataset = state.part slot after.replica.dataset)
    (counters : state.replica.metadata.applied slot + replicaStep =
      nextSequence (state.metadata.sequence slot)) :
    Accepted cmd slot store after := by
  have owners := moved.leaderOwners
  refine ⟨moved.unackedHere, fun _ => ?_, ?_⟩
  · exact ⟨_, moved.appliedRecords ▸ recorded, rfl, moved.sequenceHere.symm, rfl⟩
  · intro store' executed
    refine sound.of_moved moved slotWrite (.inr executed) replica records known
      (.of_inStep ?_ moved.unackedHere ⟨?_, ?_⟩)
    · rw [part_of_sameOwners owners]
      exact persistent_executed here.persistent slotWrite executed
    · rw [part_of_sameOwners owners, part_of_sameOwners owners]
      exact followed store' executed
    · exact (moved.appliedHere.trans counters).trans moved.sequenceHere.symm

theorem Sound.replicate_inStep {slot : Nat} {cmd : Command}
    (sound : Sound store state) (leads : state.metadata.Leads slot)
    (slotWrite : state.SlotWrite slot cmd)
    (admissible : ∃ now,
      (cmd.plan now (state.part slot store.dataset)).response = none)
    (unspent : state.Unspent slot)
    (settled : state.history.unacked slot = none) (link : Nat → Delivery) :
    ∃ after result, state.replicate link cmd = (result, after) ∧
      Kept slot state after ∧
      match result with
      | .error _ => Sound store after
      | .ok () => Accepted cmd slot store after := by
  obtain ⟨row, copy, pair⟩ := exists_slotPair sound.paired leads
  have here := sound.slots slot leads
  obtain ⟨equal, counters⟩ := here.settled unspent settled
  have next : state.replica.metadata.applied slot + 1 =
      nextSequence (state.metadata.sequence slot) := by
    rw [← counters, nextSequence_of_lt unspent]
  have replicaPersistent : Persistent (state.part slot state.replica.dataset) :=
    equal ▸ here.persistent
  have known : ∀ record ∈ state.history.suppressed, state.Unspent record.slot →
      record ∈ state.nextRecord slot cmd :: state.history.applied :=
    fun record member unspent =>
      List.mem_cons_of_mem _ (sound.suppressed record member unspent)
  obtain ⟨after, result, replicated, outcome⟩ := pair.replicate_outcome counters
    unspent link slotWrite.keyed slotWrite.routed
  refine ⟨after, result, replicated, ?_⟩
  cases outcome with
  | lost fate moved dataset =>
      exact ⟨moved.toKept, sound.of_moved moved slotWrite (.inl rfl) (.inl dataset)
        (List.Subset.refl _) sound.suppressed (here.still moved (by rw [dataset]))⟩
  | @refused _ now fate failed moved dataset =>
      have unchanged : state.part slot after.replica.dataset =
          state.part slot state.replica.dataset := by
        rw [dataset]
        exact part_of_failed replicaPersistent slotWrite failed
      exact ⟨moved.toKept, sound.of_moved moved slotWrite (.inl rfl) (.inr ⟨now, dataset⟩)
        (List.Subset.refl _) sound.suppressed (here.still moved unchanged)⟩
  | @unacknowledged _ _ now fate succeeded moved dataset =>
      have owners := moved.leaderOwners
      have acted := part_perform slotWrite now state.replica.dataset
      refine ⟨moved.toKept, sound.of_moved moved slotWrite (.inl rfl) (.inr ⟨now, dataset⟩)
        (List.subset_cons_self _ _) known ⟨?_, ?_, ?_⟩⟩
      · rw [part_of_sameOwners owners]
        exact here.persistent
      · intro _ none
        rw [moved.unackedHere] at none
        cases none
      · intro _ pending same
        rw [moved.unackedHere] at same
        obtain rfl := Option.some.inj same
        refine ⟨?_, slotWrite.congr owners, ?_, ?_, now, ?_, ?_⟩
        · exact moved.appliedHere.trans
            (congrArg (· + 1) (counters.trans moved.sequenceHere.symm))
        · rw [nextRecord_of_sameOwners owners moved.sequenceHere,
            moved.appliedRecords]
          exact List.mem_cons_self
        · rw [part_of_sameOwners owners]
          exact admissible
        · rw [part_of_sameOwners owners, equal, acted]
          exact succeeded
        · rw [part_of_sameOwners owners, part_of_sameOwners owners, equal,
            acted, dataset]
  | @acknowledged now fate succeeded moved dataset =>
      refine ⟨moved.toKept, sound.accepted here moved slotWrite (.inr ⟨now, dataset⟩)
        (List.subset_cons_self _ _) known List.mem_cons_self ?_ next⟩
      intro store' executed
      rw [dataset]
      exact part_executed_eq here.persistent equal slotWrite executed now

theorem Sound.replicate_repeat {slot : Nat} {cmd : Command}
    (sound : Sound store state) (leads : state.metadata.Leads slot)
    (unspent : state.Unspent slot)
    (pending : state.history.unacked slot = some cmd) (link : Nat → Delivery) :
    ∃ after result, state.replicate link cmd = (result, after) ∧
      Kept slot state after ∧
      match result with
      | .error _ => Sound store after
      | .ok () => Accepted cmd slot store after := by
  obtain ⟨row, copy, pair⟩ := exists_slotPair sound.paired leads
  have here := sound.slots slot leads
  obtain ⟨counters, slotWrite, recorded, admissible, now, succeeded, replayed⟩ :=
    here.ahead unspent cmd pending
  have next : state.replica.metadata.applied slot =
      nextSequence (state.metadata.sequence slot) := by
    unfold Unspent at unspent
    rw [counters, nextSequence_of_lt (by omega)]
  obtain ⟨after, result, replicated, dataset, outcome⟩ :=
    pair.replicate_repeat next.ge link slotWrite.keyed slotWrite.routed
  refine ⟨after, result, replicated, ?_⟩
  have known : ∀ record ∈ state.nextRecord slot cmd :: state.history.suppressed,
      state.Unspent record.slot → record ∈ state.history.applied := by
    rw [List.forall_mem_cons]
    exact ⟨fun _ => recorded, sound.suppressed⟩
  cases outcome with
  | lost _ moved =>
      exact ⟨moved.toKept, sound.of_moved moved slotWrite (.inl rfl) (.inl dataset)
        (List.Subset.refl _) sound.suppressed (here.still moved (by rw [dataset]))⟩
  | unacknowledged _ moved =>
      exact ⟨moved.toKept, sound.of_moved moved slotWrite (.inl rfl) (.inl dataset)
        (List.Subset.refl _) known
        (here.congr ⟨moved.leaderOwners, moved.sequenceHere, moved.appliedHere,
          moved.unackedHere.trans pending.symm, rfl, by rw [dataset],
          by simp [moved.appliedRecords]⟩)⟩
  | acknowledged moved =>
      refine ⟨moved.toKept, sound.accepted here moved slotWrite (.inl dataset)
        (List.Subset.refl _) known recorded ?_ next⟩
      intro store' executed
      obtain ⟨own, executedHere⟩ := executed
      rw [dataset, executedHere, replayed, ← (here.persistent.perform_eq
        slotWrite.write slotWrite.kept slotWrite.free own now).2,
        part_perform slotWrite own]

/-- Every record of a slot whose numbers are spent is lost or a duplicate. -/
theorem Sound.replicate_spent {slot : Nat} {cmd : Command}
    (sound : Sound store state) (leads : state.metadata.Leads slot)
    (slotWrite : state.SlotWrite slot cmd) (spent : ¬ state.Unspent slot)
    (link : Nat → Delivery) :
    ∃ after result, state.replicate link cmd = (result, after) ∧
      Kept slot state after ∧
      match result with
      | .error _ => Sound store after
      | .ok () => Accepted cmd slot store after := by
  obtain ⟨row, copy, pair⟩ := exists_slotPair sound.paired leads
  have here := sound.slots slot leads
  have bound := nextSequence_lt (state.metadata.sequence slot)
  have passed : nextSequence (state.metadata.sequence slot) ≤
      state.replica.metadata.applied slot := by
    unfold Unspent at spent
    omega
  have known : ∀ record ∈ state.nextRecord slot cmd :: state.history.suppressed,
      state.Unspent record.slot → record ∈ state.history.applied := by
    rw [List.forall_mem_cons]
    exact ⟨fun unspent => absurd unspent spent, sound.suppressed⟩
  obtain ⟨after, result, replicated, dataset, outcome⟩ :=
    pair.replicate_repeat passed link slotWrite.keyed slotWrite.routed
  refine ⟨after, result, replicated, ?_⟩
  cases outcome with
  | lost _ moved =>
      exact ⟨moved.toKept, sound.of_moved moved slotWrite (.inl rfl) (.inl dataset)
        (List.Subset.refl _) sound.suppressed (here.still moved (by rw [dataset]))⟩
  | unacknowledged _ moved =>
      refine ⟨moved.toKept, sound.of_moved moved slotWrite (.inl rfl) (.inl dataset)
        (List.Subset.refl _) known (.of_spent ?_ (mt moved.unspent spent))⟩
      rw [part_of_sameOwners moved.leaderOwners]
      exact here.persistent
  | acknowledged moved =>
      refine ⟨moved.toKept, moved.unackedHere,
        fun unspent => absurd (moved.unspent unspent) spent, fun store' executed =>
          sound.of_moved moved slotWrite (.inr executed) (.inl dataset)
            (List.Subset.refl _) known (.of_spent ?_ (mt moved.unspent spent))⟩
      rw [part_of_sameOwners moved.leaderOwners]
      exact persistent_executed here.persistent slotWrite executed

/-- A write that repeats whatever is unacknowledged in its slot keeps the pair
sound, and its slot is in step once both sides have executed it. -/
theorem Sound.replicate {slot : Nat} {cmd : Command}
    (sound : Sound store state) (leads : state.metadata.Leads slot)
    (slotWrite : state.SlotWrite slot cmd)
    (admissible : ∃ now,
      (cmd.plan now (state.part slot store.dataset)).response = none)
    (repeats : ∀ pending, state.history.unacked slot = some pending →
      cmd = pending)
    (link : Nat → Delivery) :
    ∃ after result, state.replicate link cmd = (result, after) ∧
      Kept slot state after ∧
      match result with
      | .error _ => Sound store after
      | .ok () => Accepted cmd slot store after := by
  by_cases unspent : state.Unspent slot
  case neg => exact sound.replicate_spent leads slotWrite unspent link
  cases pending : state.history.unacked slot with
  | none =>
      exact sound.replicate_inStep leads slotWrite admissible unspent pending link
  | some earlier =>
      obtain rfl := repeats earlier pending
      exact sound.replicate_repeat leads unspent pending link

end Replication
end MnemoKV
