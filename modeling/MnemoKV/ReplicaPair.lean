import MnemoKV.LabelledRuns
import MnemoKV.ReplicationOutcomes

/-!
# A leader with its replica

The system of one leader, one replica and the link between them, driven by
client commands at the leader.  A slot of the pair is in step, or the replica
is ahead by one command whose acknowledgement the leader never saw; the
invariant says which, for every slot the leader leads, until the replica has
applied the largest number of the slot.
-/

namespace MnemoKV

/-- A leader and its replica, with the ghost history of their records. -/
structure Pair where
  leader : Node
  replica : Node
  history : History

/-- One client command at the leader, with everything the environment decides
about it. -/
structure ClientCall where
  cmd : Command
  clock : WriteClock
  choices : Nat → Choices
  link : Nat → Delivery

namespace Pair

def replication (pair : Pair) : Replication :=
  { metadata := pair.leader.metadata, replica := pair.replica, sent := 0
    history := pair.history }

/-- `Coordinator.Execute` on the leader.  Commands that are forwarded or
internal to the cluster are not client commands for this pair. -/
def execute [FloatText] (pair : Pair) (call : ClientCall) : Frame × Pair :=
  match pair.leader.route call.cmd with
  | .here =>
      let (frame, engine, state) := pair.leader.engine.execute
        (some (Replication.hook call.link)) call.clock call.choices call.cmd
        pair.replication
      (frame,
        { leader := { pair.leader with
            metadata := state.metadata, engine := engine }
          replica := state.replica
          history := state.history })
  | .reply frame => (frame, pair)
  | .forward _ => (.newError "CLUSTERDOWN" "leader unavailable", pair)
  | .internal => (.newError "ERR" "not a client command", pair)

/-- One client command at the leader. -/
def step [FloatText] (pair : Pair) (call : ClientCall) : Pair :=
  (pair.execute call).2

/-- The pair at the end of the hook calls of one command. -/
def finish (pair : Pair) (store : Store) (state : Replication) : Pair :=
  { leader := { pair.leader with
      metadata := state.metadata
      engine := pair.leader.engine.withStore store }
    replica := state.replica
    history := state.history }

theorem execute_write [FloatText] {pair : Pair} (call : ClientCall)
    {frame : Frame} {store : Store} {next : Replication}
    (routed : pair.leader.route call.cmd = .here)
    (write : call.cmd.isWriteCommand = true)
    (executed : pair.leader.engine.executeWithAdmission
      (some (Replication.hook call.link)) call.clock call.choices call.cmd
      pair.replication = (frame, pair.leader.engine.withStore store, next)) :
    pair.execute call = (frame, pair.finish store next) := by
  simp [execute, routed, Engine.execute, write, executed, finish]

theorem execute_read [FloatText] {pair : Pair} (call : ClientCall)
    (routed : pair.leader.route call.cmd = .here)
    (isRead : call.cmd.isWriteCommand = false) :
    pair.execute call =
      ((Executor.execute call.clock.exec call.cmd pair.leader.engine.store).1,
        pair.finish
          (Executor.execute call.clock.exec call.cmd pair.leader.engine.store).2
          pair.replication) := by
  simp [execute, routed, Engine.execute, isRead, finish]

theorem execute_elsewhere [FloatText] {pair : Pair} (call : ClientCall)
    (elsewhere : pair.leader.route call.cmd ≠ .here) :
    ∃ frame, frame.isError = true ∧ pair.execute call = (frame, pair) := by
  unfold execute
  split
  · rename_i routed
    exact absurd routed elsewhere
  · rename_i frame routed
    exact ⟨frame, Node.route_reply routed, rfl⟩
  · exact ⟨_, rfl, rfl⟩
  · exact ⟨_, rfl, rfl⟩

end Pair

namespace Replication

/-- The part of a dataset that belongs to a slot of the leader's table. -/
def part (state : Replication) (slot : Nat) (dataset : Dataset) : Dataset :=
  dataset.within fun key => state.metadata.slotForKey key = slot

/-- Equal data and equal counters. -/
structure InStep (store : Store) (state : Replication) (slot : Nat) : Prop where
  datasets : state.part slot store.dataset = state.part slot state.replica.dataset
  counters : state.replica.metadata.applied slot = state.metadata.sequence slot

/-- A write without lifetimes on non-empty keys of one slot. -/
structure SlotWrite (state : Replication) (slot : Nat) (cmd : Command) :
    Prop where
  write : cmd.isWriteCommand = true
  kept : cmd.isFlush = false
  free : cmd.TTLFree
  keyed : cmd.extractPrimaryKey ≠ []
  routed : state.metadata.slotForKey cmd.extractPrimaryKey = slot
  members : cmd.KeysIn fun key => state.metadata.slotForKey key = slot

/-- A client's write as the coordinator lets it through: without keys, or with
all of them in one slot that the node leads. -/
structure LocalCommand (state : Replication) (cmd : Command) : Prop where
  write : cmd.isWriteCommand = true
  kept : cmd.isFlush = false
  keyed : cmd.extractKeys ≠ [] → cmd.extractPrimaryKey ≠ [] ∧
    state.metadata.Leads (state.metadata.slotForKey cmd.extractPrimaryKey) ∧
    cmd.KeysIn fun key => state.metadata.slotForKey key =
      state.metadata.slotForKey cmd.extractPrimaryKey

/-- The replica has executed a command that the leader has not. -/
structure Ahead [FloatText] (store : Store) (state : Replication) (slot : Nat)
    (cmd : Command) : Prop where
  counters :
    state.replica.metadata.applied slot = state.metadata.sequence slot + 1
  slotWrite : state.SlotWrite slot cmd
  recorded : state.nextRecord slot cmd ∈ state.history.applied
  admissible : ∃ now,
    (cmd.plan now (state.part slot store.dataset)).response = none
  replayed : ∃ now,
    ((cmd.action now).perform
        (state.part slot store.dataset)).1.isError = false ∧
      state.part slot state.replica.dataset =
        ((cmd.action now).perform (state.part slot store.dataset)).2

/-- Until its numbers are spent, a slot is in step, or the replica is ahead by
the command whose acknowledgement was lost. -/
structure SlotSound [FloatText] (store : Store) (state : Replication)
    (slot : Nat) : Prop where
  persistent : Persistent (state.part slot store.dataset)
  settled : state.Unspent slot → state.history.unacked slot = none →
    InStep store state slot
  ahead : state.Unspent slot → ∀ cmd, state.history.unacked slot = some cmd →
    Ahead store state slot cmd

/-- The invariant of a leader and its replica. -/
structure Sound [FloatText] (store : Store) (state : Replication) : Prop where
  paired : Paired state.metadata state.replica.metadata
  slots : ∀ slot, state.metadata.Leads slot → SlotSound store state slot
  suppressed : ∀ record ∈ state.history.suppressed,
    state.Unspent record.slot → record ∈ state.history.applied

theorem part_of_sameOwners {before after : Replication}
    (same : before.metadata.SameOwners after.metadata) (slot : Nat)
    (dataset : Dataset) : after.part slot dataset = before.part slot dataset := by
  funext key
  simp [part, Dataset.within, same.slotForKey]

theorem nextRecord_of_sameOwners {before after : Replication}
    (same : before.metadata.SameOwners after.metadata) {slot : Nat}
    (sequence : after.metadata.sequence slot = before.metadata.sequence slot)
    (cmd : Command) : after.nextRecord slot cmd = before.nextRecord slot cmd := by
  simp [nextRecord, same.localID, same.owner, sequence]

theorem SlotWrite.congr {before after : Replication} {slot : Nat} {cmd : Command}
    (slotWrite : before.SlotWrite slot cmd)
    (same : before.metadata.SameOwners after.metadata) :
    after.SlotWrite slot cmd := by
  obtain ⟨write, kept, free, keyed, routed, members⟩ := slotWrite
  refine ⟨write, kept, free, keyed, ?_, ?_⟩
  · rw [same.slotForKey]
    exact routed
  · intro key member
    rw [same.slotForKey]
    exact members key member

/-- What a slot depends on: its two parts, its counters, its unacknowledged
command and the records applied so far. -/
structure SameSlot (slot : Nat) (store store' : Store)
    (before after : Replication) : Prop where
  owners : before.metadata.SameOwners after.metadata
  sequence : after.metadata.sequence slot = before.metadata.sequence slot
  applied : after.replica.metadata.applied slot =
    before.replica.metadata.applied slot
  unacked : after.history.unacked slot = before.history.unacked slot
  leaderPart : before.part slot store'.dataset = before.part slot store.dataset
  replicaPart : before.part slot after.replica.dataset =
    before.part slot before.replica.dataset
  records : before.history.applied ⊆ after.history.applied

theorem SlotSound.congr [FloatText] {slot : Nat} {store store' : Store}
    {before after : Replication} (sound : SlotSound store before slot)
    (same : SameSlot slot store store' before after) :
    SlotSound store' after slot := by
  have unspentEq : after.Unspent slot = before.Unspent slot := by
    rw [Unspent, Unspent, same.applied]
  have leaderPart : after.part slot store'.dataset =
      before.part slot store.dataset :=
    (part_of_sameOwners same.owners slot _).trans same.leaderPart
  have replicaPart : after.part slot after.replica.dataset =
      before.part slot before.replica.dataset :=
    (part_of_sameOwners same.owners slot _).trans same.replicaPart
  refine ⟨?_, ?_, ?_⟩
  · rw [leaderPart]
    exact sound.persistent
  · intro unspent settled
    rw [unspentEq] at unspent
    rw [same.unacked] at settled
    obtain ⟨datasets, counters⟩ := sound.settled unspent settled
    refine ⟨?_, ?_⟩
    · rw [leaderPart, replicaPart]
      exact datasets
    · rw [same.applied, same.sequence]
      exact counters
  · intro unspent cmd pending
    rw [unspentEq] at unspent
    rw [same.unacked] at pending
    obtain ⟨counters, slotWrite, recorded, admissible, replayed⟩ :=
      sound.ahead unspent cmd pending
    refine ⟨?_, slotWrite.congr same.owners, ?_, ?_, ?_⟩
    · rw [same.applied, same.sequence]
      exact counters
    · rw [nextRecord_of_sameOwners same.owners same.sequence]
      exact same.records recorded
    · rw [leaderPart]
      exact admissible
    · rw [leaderPart, replicaPart]
      exact replayed

end Replication

theorem Pair.localCommand_of_here {pair : Pair} {cmd : Command}
    (nonempty : ∀ key ∈ cmd.extractKeys, key ≠ [])
    (write : cmd.isWriteCommand = true)
    (routed : pair.leader.route cmd = .here) :
    pair.replication.LocalCommand cmd := by
  obtain ⟨kept, keys⟩ := Node.route_here routed
  refine ⟨write, kept, fun some => ?_⟩
  rcases keys with none | ⟨row, present, leader, members⟩
  · exact absurd none some
  · refine ⟨?_, ⟨row.ownership, ?_, leader⟩, members⟩
    · obtain ⟨key, rest, listed⟩ := List.exists_cons_of_ne_nil some
      refine nonempty _ ?_
      simp [Command.extractPrimaryKey, listed]
    · exact congrArg (Option.map SlotState.ownership) present

end MnemoKV
