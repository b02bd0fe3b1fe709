import MnemoKV.SynchronousReplication

/-!
# What one replicated command can do

For a slot whose leader and replica agree on the ownership, the outcomes of
`Replicate` are listed exhaustively: when the counters are equal the record is
lost, refused, applied without a reply or applied and acknowledged; when the
record's number is not above the replica's counter, because the replica is one
ahead or because the number has wrapped around, the record is lost or taken for
a duplicate.
-/

namespace MnemoKV

/-- The local node leads the slot. -/
def Metadata.Leads (metadata : Metadata) (slot : Nat) : Prop :=
  ∃ owner, metadata.owner slot = some owner ∧
    owner.leaderID = metadata.localID

/-- Every slot that the first node leads is replicated on the second one, which
is ready and knows it. -/
structure Paired (leader replica : Metadata) : Prop where
  named : replica.localID ≠ ""
  slotCount : replica.slotCount = leader.slotCount
  rows : ∀ slot owner, leader.owner slot = some owner →
    owner.leaderID = leader.localID →
    owner.replicaID = replica.localID ∧ owner.ready = true ∧
      ∃ copy, replica.owner slot = some copy ∧
        copy.leaderID = leader.localID ∧ copy.replicaID = replica.localID ∧
        copy.term = owner.term

theorem Metadata.SameOwners.leads_iff {before after : Metadata}
    (same : before.SameOwners after) (slot : Nat) :
    after.Leads slot ↔ before.Leads slot := by
  simp [Metadata.Leads, same.owner, same.localID]

theorem Paired.congr {leader leader' replica replica' : Metadata}
    (paired : Paired leader replica) (sameLeader : leader.SameOwners leader')
    (sameReplica : replica.SameOwners replica') : Paired leader' replica' := by
  refine ⟨?_, ?_, ?_⟩
  · rw [sameReplica.localID]
    exact paired.named
  · rw [sameReplica.slotCount, sameLeader.slotCount]
    exact paired.slotCount
  · intro slot owner
    rw [sameLeader.owner, sameLeader.localID, sameReplica.owner,
      sameReplica.localID]
    exact paired.rows slot owner

namespace Node

/-- The executor's outcome on a node, at the level of datasets. -/
theorem applyReplicated_spec [FloatText] (node : Node) (now : Readings)
    (cmd : Command) :
    (node.engine.applyReplicated now cmd).1 =
        ((cmd.action now).perform node.dataset).1 ∧
      (node.engine.applyReplicated now cmd).2.store.dataset =
        ((cmd.action now).perform node.dataset).2 := by
  have outcome := Executor.observe_execute now cmd node.engine.store
  exact ⟨congrArg Prod.fst outcome, congrArg Prod.snd outcome⟩

/-- A record that the node's table accepts as the next one of its slot. -/
structure Fits (node : Node) (record : ReplicationRecord) (row : SlotState) :
    Prop where
  present : node.metadata.slot record.slot = some row
  replica : row.replicaID = node.metadata.localID
  leader : row.leaderID = record.sourceNodeID
  term : row.term = record.term

theorem validateReplication_duplicate {node : Node} {record : ReplicationRecord}
    {row : SlotState} (fits : node.Fits record row)
    (old : record.sequence ≤ row.lastAppliedSequence) :
    node.metadata.validateReplication record = .ok true := by
  simp [Metadata.validateReplication, fits.present, fits.replica, fits.leader,
    fits.term, old]

theorem validateReplication_next {node : Node} {record : ReplicationRecord}
    {row : SlotState} (fits : node.Fits record row)
    (room : row.lastAppliedSequence + 1 < 2 ^ 64)
    (next : record.sequence = row.lastAppliedSequence + 1) :
    node.metadata.validateReplication record = .ok false := by
  simp [Metadata.validateReplication, fits.present, fits.replica, fits.leader,
    fits.term, next, nextSequence_of_lt room]

/-- The table after the replica has applied the next record. -/
def committed (metadata : Metadata) (slot : Nat) (row : SlotState) : Metadata :=
  metadata.setSlot slot
    { row with
      lastAppliedSequence := row.lastAppliedSequence + 1
      lastSequence :=
        if row.lastAppliedSequence + 1 > row.lastSequence then
          row.lastAppliedSequence + 1
        else row.lastSequence }

theorem commitReplicaSequence_next {node : Node} {record : ReplicationRecord}
    {row : SlotState} (fits : node.Fits record row)
    (room : row.lastAppliedSequence + 1 < 2 ^ 64)
    (next : record.sequence = row.lastAppliedSequence + 1) :
    node.metadata.commitReplicaSequence record.slot record.term
      record.sequence = .ok (committed node.metadata record.slot row) := by
  simp [Metadata.commitReplicaSequence, fits.present, fits.replica, fits.term,
    next, nextSequence_of_lt room, committed]

/-- Applying the next record either fails in the executor or advances the
counter of the slot. -/
theorem applyReplication_next [FloatText] {node : Node}
    {record : ReplicationRecord} {row : SlotState} {cmd : Command}
    (fits : node.Fits record row)
    (room : row.lastAppliedSequence + 1 < 2 ^ 64)
    (next : record.sequence = row.lastAppliedSequence + 1)
    (carried : record.args = cmd.name :: cmd.args) (now : Readings) :
    ∃ engine, engine.store.dataset = ((cmd.action now).perform node.dataset).2 ∧
      node.applyReplication now record =
        if ((cmd.action now).perform node.dataset).1.isError then
          (.error .replicatedCommandFailed, { node with engine := engine })
        else (.ok (),
          { node with
            engine := engine
            metadata := committed node.metadata record.slot row }) := by
  obtain ⟨frame, dataset⟩ := node.applyReplicated_spec now cmd
  refine ⟨(node.engine.applyReplicated now cmd).2, dataset, ?_⟩
  unfold applyReplication
  simp only [validateReplication_next fits room next, carried,
    commitReplicaSequence_next fits room next, ← frame]

theorem applyReplication_duplicate [FloatText] {node : Node}
    {record : ReplicationRecord} {row : SlotState} (fits : node.Fits record row)
    (old : record.sequence ≤ row.lastAppliedSequence) (now : Readings) :
    node.applyReplication now record = (.ok (), node) := by
  simp [applyReplication, validateReplication_duplicate fits old]

end Node
namespace Replication

/-- The replica has not yet applied the largest number of the slot, behind
which it takes every record for a duplicate. -/
def Unspent (state : Replication) (slot : Nat) : Prop :=
  state.replica.metadata.applied slot + 1 < 2 ^ 64

/-- The two rows of a slot that the leader replicates. -/
structure SlotPair (state : Replication) (slot : Nat) (row copy : SlotState) :
    Prop where
  leaderRow : state.metadata.slot slot = some row
  leads : row.leaderID = state.metadata.localID
  assigned : row.replicaID = state.replica.id
  named : row.replicaID ≠ ""
  ready : row.replicaReady = true
  replicaRow : state.replica.metadata.slot slot = some copy
  copyLeader : copy.leaderID = state.metadata.localID
  copyReplica : copy.replicaID = state.replica.metadata.localID
  copyTerm : copy.term = row.term

theorem exists_slotPair {state : Replication}
    (paired : Paired state.metadata state.replica.metadata) {slot : Nat}
    (leads : state.metadata.Leads slot) :
    ∃ row copy, state.SlotPair slot row copy := by
  obtain ⟨owner, present, leader⟩ := leads
  obtain ⟨assigned, ready, copyOwner, copyPresent, copyLeader, copyReplica,
    copyTerm⟩ := paired.rows slot owner present leader
  obtain ⟨row, leaderRow, rfl⟩ := Option.map_eq_some_iff.mp present
  obtain ⟨copy, replicaRow, rfl⟩ := Option.map_eq_some_iff.mp copyPresent
  exact ⟨row, copy, leaderRow, leader, assigned,
    fun blank => paired.named (assigned.symm.trans blank), ready, replicaRow,
    copyLeader, copyReplica, copyTerm⟩

/-- The record that the next command of the slot travels in. -/
def nextRecord (state : Replication) (slot : Nat) (cmd : Command) :
    ReplicationRecord :=
  { sourceNodeID := state.metadata.localID, slot := slot
    term := (state.metadata.owner slot).elim 0 Ownership.term
    sequence := nextSequence (state.metadata.sequence slot)
    args := cmd.name :: cmd.args }

/-- Everything about other slots, and all ownership, stays. -/
structure Kept (slot : Nat) (before after : Replication) : Prop where
  leaderOwners : before.metadata.SameOwners after.metadata
  replicaOwners : before.replica.metadata.SameOwners after.replica.metadata
  sequence : ∀ other ≠ slot,
    after.metadata.sequence other = before.metadata.sequence other
  applied : ∀ other ≠ slot,
    after.replica.metadata.applied other = before.replica.metadata.applied other
  unacked : ∀ other ≠ slot,
    after.history.unacked other = before.history.unacked other

/-- How the counters of the slot, its unacknowledged command and the history
end up. -/
structure Moved (slot : Nat) (before after : Replication)
    (leaderStep replicaStep : Nat) (pending : Option Command)
    (appliedNow suppressedNow : List ReplicationRecord) : Prop
    extends Kept slot before after where
  sequenceHere : after.metadata.sequence slot =
    nextSequence^[leaderStep] (before.metadata.sequence slot)
  appliedHere : after.replica.metadata.applied slot =
    before.replica.metadata.applied slot + replicaStep
  unackedHere : after.history.unacked slot = pending
  appliedRecords : after.history.applied = appliedNow
  suppressedRecords : after.history.suppressed = suppressedNow

/-- The outcomes of replicating a command while the counters are equal. -/
inductive Outcome [FloatText] (link : Nat → Delivery) (cmd : Command)
    (slot : Nat) (before after : Replication) : Except String Unit → Prop
  | lost {text : String}
      (fate : (∃ reason, link before.sent = .undelivered reason) ∨
        ¬ (before.nextRecord slot cmd).Sendable)
      (moved : Moved slot before after 0 0 (before.history.unacked slot)
        before.history.applied before.history.suppressed)
      (dataset : after.replica.dataset = before.replica.dataset) :
      Outcome link cmd slot before after (.error text)
  | refused {text : String} {now : Readings}
      (fate : link before.sent = .answered now ∨
        ∃ reason, link before.sent = .unanswered now reason)
      (failed : ((cmd.action now).perform before.replica.dataset).1.isError =
        true)
      (moved : Moved slot before after 0 0 (before.history.unacked slot)
        before.history.applied before.history.suppressed)
      (dataset : after.replica.dataset =
        ((cmd.action now).perform before.replica.dataset).2) :
      Outcome link cmd slot before after (.error text)
  | unacknowledged {text reason : String} {now : Readings}
      (fate : link before.sent = .unanswered now reason)
      (succeeded : ((cmd.action now).perform
        before.replica.dataset).1.isError = false)
      (moved : Moved slot before after 0 1 (some cmd)
        (before.nextRecord slot cmd :: before.history.applied)
        before.history.suppressed)
      (dataset : after.replica.dataset =
        ((cmd.action now).perform before.replica.dataset).2) :
      Outcome link cmd slot before after (.error text)
  | acknowledged {now : Readings} (fate : link before.sent = .answered now)
      (succeeded : ((cmd.action now).perform
        before.replica.dataset).1.isError = false)
      (moved : Moved slot before after 1 1 none
        (before.nextRecord slot cmd :: before.history.applied)
        before.history.suppressed)
      (dataset : after.replica.dataset =
        ((cmd.action now).perform before.replica.dataset).2) :
      Outcome link cmd slot before after (.ok ())

/-- The outcomes while the replica is one record ahead. -/
inductive RepeatOutcome (link : Nat → Delivery) (cmd : Command) (slot : Nat)
    (before after : Replication) : Except String Unit → Prop
  | lost {text : String}
      (fate : (∃ reason, link before.sent = .undelivered reason) ∨
        ¬ (before.nextRecord slot cmd).Sendable)
      (moved : Moved slot before after 0 0 (before.history.unacked slot)
        before.history.applied before.history.suppressed) :
      RepeatOutcome link cmd slot before after (.error text)
  | unacknowledged {text reason : String} {now : Readings}
      (fate : link before.sent = .unanswered now reason)
      (moved : Moved slot before after 0 0 (some cmd) before.history.applied
        (before.nextRecord slot cmd :: before.history.suppressed)) :
      RepeatOutcome link cmd slot before after (.error text)
  | acknowledged
      (moved : Moved slot before after 1 0 none before.history.applied
        (before.nextRecord slot cmd :: before.history.suppressed)) :
      RepeatOutcome link cmd slot before after (.ok ())

variable {state : Replication} {slot : Nat} {row copy : SlotState}

section

variable (pair : state.SlotPair slot row copy)

include pair

theorem SlotPair.sequence_eq :
    state.metadata.sequence slot = row.lastSequence := by
  simp [Metadata.sequence, pair.leaderRow]

theorem SlotPair.applied_eq :
    state.replica.metadata.applied slot = copy.lastAppliedSequence := by
  simp [Metadata.applied, pair.replicaRow]

theorem SlotPair.recordOf_eq
    (cmd : Command) :
    state.recordOf slot row (nextSequence row.lastSequence) cmd =
      state.nextRecord slot cmd := by
  simp [recordOf, nextRecord, pair.sequence_eq, Metadata.owner, pair.leaderRow,
    SlotState.ownership]

theorem SlotPair.fits (cmd : Command) :
    state.replica.Fits (state.nextRecord slot cmd) copy :=
  ⟨pair.replicaRow, pair.copyReplica, pair.copyLeader, by
    simp [nextRecord, Metadata.owner, pair.leaderRow, SlotState.ownership,
      pair.copyTerm]⟩

/-- On a paired slot `Replicate` always transmits the next record. -/
theorem SlotPair.replicate_eq [FloatText]
    (link : Nat → Delivery) {cmd : Command} (keyed : cmd.extractPrimaryKey ≠ [])
    (routed : state.metadata.slotForKey cmd.extractPrimaryKey = slot) :
    state.replicate link cmd =
      transmit (link state.sent) (state.nextRecord slot cmd) row.replicaID cmd
        { state with sent := state.sent + 1 } := by
  have prepared : state.metadata.prepareReplication slot =
      .ok (row, nextSequence row.lastSequence) := by
    simp [Metadata.prepareReplication, pair.leaderRow, pair.leads, pair.named,
      pair.ready]
  rw [← pair.recordOf_eq cmd]
  simp only [replicate, if_neg keyed, routed, prepared, if_pos pair.assigned]

/-- The leader's table once the record is acknowledged. -/
theorem SlotPair.commitLeaderSequence_eq
    (cmd : Command) :
    state.metadata.commitLeaderSequence (state.nextRecord slot cmd).slot
        (state.nextRecord slot cmd).term
        (state.nextRecord slot cmd).sequence =
      .ok (state.metadata.setSlot slot
        { row with
          lastSequence := nextSequence row.lastSequence
          lastAppliedSequence := nextSequence row.lastSequence }) := by
  rw [← pair.recordOf_eq cmd]
  simp [recordOf, Metadata.commitLeaderSequence, pair.leaderRow, pair.leads]

end

/-- Nothing but the engine and the number of records sent has changed. -/
theorem moved_still {after : Replication} (slot : Nat)
    (metadata : after.metadata = state.metadata)
    (replica : after.replica.metadata = state.replica.metadata)
    (history : after.history = state.history) :
    Moved slot state after 0 0 (state.history.unacked slot)
      state.history.applied state.history.suppressed :=
  { leaderOwners := metadata ▸ .refl _
    replicaOwners := replica ▸ .refl _
    sequence := fun _ _ => by rw [metadata]
    applied := fun _ _ => by rw [replica]
    unacked := fun _ _ => by rw [history]
    sequenceHere := by rw [metadata]; rfl
    appliedHere := by rw [replica]; rfl
    unackedHere := by rw [history]
    appliedRecords := by rw [history]
    suppressedRecords := by rw [history] }

/-- The replica's table advances, or stays, with the history `applied` and
`suppressed`; `pending` is the new unacknowledged command. -/
theorem SlotPair.moved (pair : state.SlotPair slot row copy)
    {after : Replication} (leaderStep replicaStep : Bool)
    {pending : Option Command} {applied suppressed : List ReplicationRecord}
    (metadata : after.metadata =
      if leaderStep then state.metadata.setSlot slot
        { row with
          lastSequence := nextSequence row.lastSequence
          lastAppliedSequence := nextSequence row.lastSequence }
      else state.metadata)
    (replica : after.replica.metadata =
      if replicaStep then Node.committed state.replica.metadata slot copy
      else state.replica.metadata)
    (history : after.history =
      { applied := applied, suppressed := suppressed
        unacked := Function.update state.history.unacked slot pending }) :
    Moved slot state after leaderStep.toNat replicaStep.toNat pending applied
      suppressed := by
  have leaderOwners : state.metadata.SameOwners after.metadata := by
    rw [metadata]
    cases leaderStep
    · exact .refl _
    · exact Metadata.sameOwners_setSlot pair.leaderRow rfl
  have replicaOwners :
      state.replica.metadata.SameOwners after.replica.metadata := by
    rw [replica]
    cases replicaStep
    · exact .refl _
    · exact Metadata.sameOwners_setSlot pair.replicaRow rfl
  refine ⟨⟨leaderOwners, replicaOwners, ?_, ?_, ?_⟩, ?_, ?_, ?_, ?_, ?_⟩
  · intro other distinct
    rw [metadata]
    cases leaderStep <;> simp [Metadata.sequence_setSlot pair.leaderRow, distinct]
  · intro other distinct
    rw [replica]
    cases replicaStep <;>
      simp [Node.committed, Metadata.applied_setSlot pair.replicaRow, distinct]
  · intro other distinct
    simp [history, distinct]
  · rw [metadata]
    cases leaderStep <;>
      simp [Metadata.sequence_setSlot pair.leaderRow, pair.sequence_eq]
  · rw [replica]
    cases replicaStep <;>
      simp [Node.committed, Metadata.applied_setSlot pair.replicaRow,
        pair.applied_eq]
  · simp [history]
  · simp [history]
  · simp [history]

variable [FloatText]

theorem SlotPair.deliver_next (pair : state.SlotPair slot row copy)
    {cmd : Command} (equal : copy.lastAppliedSequence = row.lastSequence)
    (room : copy.lastAppliedSequence + 1 < 2 ^ 64)
    (small : (state.nextRecord slot cmd).Sendable) (now : Readings) (sent : Nat) :
    ∃ engine, engine.store.dataset =
        ((cmd.action now).perform state.replica.dataset).2 ∧
      ({ state with sent := sent }).deliver now (state.nextRecord slot cmd) =
        if ((cmd.action now).perform state.replica.dataset).1.isError then
          (.error .replicatedCommandFailed,
            { state with
              sent := sent, replica := { state.replica with engine := engine } })
        else (.ok (),
          { state with
            sent := sent
            replica := { state.replica with
              engine := engine
              metadata := Node.committed state.replica.metadata slot copy }
            history := { state.history with
              applied := state.nextRecord slot cmd :: state.history.applied } }) := by
  have next : (state.nextRecord slot cmd).sequence =
      copy.lastAppliedSequence + 1 := by
    simp only [nextRecord, pair.sequence_eq, ← equal, nextSequence_of_lt room]
  obtain ⟨engine, dataset, applied⟩ := Node.applyReplication_next
    (pair.fits cmd) room next rfl now
  refine ⟨engine, dataset, ?_⟩
  have sameSlot : (state.nextRecord slot cmd).slot = slot := rfl
  rw [sameSlot] at applied
  simp only [deliver, if_pos small, applied,
    Node.validateReplication_next (pair.fits cmd) room next]
  split_ifs <;> rfl

/-- With equal counters the outcomes are those of `Outcome`. -/
theorem SlotPair.replicate_outcome {cmd : Command}
    (pair : state.SlotPair slot row copy)
    (equal : state.replica.metadata.applied slot =
      state.metadata.sequence slot) (unspent : state.Unspent slot)
    (link : Nat → Delivery) (keyed : cmd.extractPrimaryKey ≠ [])
    (routed : state.metadata.slotForKey cmd.extractPrimaryKey = slot) :
    ∃ after result, state.replicate link cmd = (result, after) ∧
      Outcome link cmd slot state after result := by
  rw [pair.applied_eq, pair.sequence_eq] at equal
  rw [Unspent, pair.applied_eq] at unspent
  rw [pair.replicate_eq link keyed routed]
  by_cases small : (state.nextRecord slot cmd).Sendable
  case neg =>
    obtain ⟨text, refused⟩ := transmit_of_not_sendable small (link state.sent)
      row.replicaID cmd { state with sent := state.sent + 1 }
    exact ⟨_, _, refused, .lost (.inr small) (moved_still slot rfl rfl rfl) rfl⟩
  cases fate : link state.sent with
  | undelivered text =>
      exact ⟨_, _, rfl, .lost (.inl ⟨text, fate⟩) (moved_still slot rfl rfl rfl)
        rfl⟩
  | unanswered now text =>
      obtain ⟨engine, dataset, delivered⟩ :=
        pair.deliver_next equal unspent small now (state.sent + 1)
      simp only [transmit, delivered]
      cases failed : ((cmd.action now).perform state.replica.dataset).1.isError with
      | true =>
          exact ⟨_, _, rfl, .refused (.inr ⟨text, fate⟩) failed
            (moved_still slot rfl rfl rfl) dataset⟩
      | false =>
          exact ⟨_, _, rfl, .unacknowledged fate failed
            (pair.moved false true rfl rfl rfl) dataset⟩
  | answered now =>
      obtain ⟨engine, dataset, delivered⟩ :=
        pair.deliver_next equal unspent small now (state.sent + 1)
      simp only [transmit, delivered]
      cases failed : ((cmd.action now).perform state.replica.dataset).1.isError with
      | true =>
          exact ⟨_, _, rfl, .refused (.inl fate) failed
            (moved_still slot rfl rfl rfl) dataset⟩
      | false =>
          simp only [Bool.false_eq_true, if_false,
            pair.commitLeaderSequence_eq cmd]
          exact ⟨_, _, rfl, .acknowledged fate failed
            (pair.moved true true rfl rfl rfl) dataset⟩

/-- A delivered record whose number the replica has passed is a duplicate. -/
theorem SlotPair.replicate_repeat {cmd : Command}
    (pair : state.SlotPair slot row copy)
    (passed : nextSequence (state.metadata.sequence slot) ≤
      state.replica.metadata.applied slot)
    (link : Nat → Delivery) (keyed : cmd.extractPrimaryKey ≠ [])
    (routed : state.metadata.slotForKey cmd.extractPrimaryKey = slot) :
    ∃ after result, state.replicate link cmd = (result, after) ∧
      after.replica.dataset = state.replica.dataset ∧
      RepeatOutcome link cmd slot state after result := by
  have old : (state.nextRecord slot cmd).sequence ≤ copy.lastAppliedSequence := by
    rw [← pair.applied_eq]
    exact passed
  rw [pair.replicate_eq link keyed routed]
  by_cases small : (state.nextRecord slot cmd).Sendable
  case neg =>
    obtain ⟨text, refused⟩ := transmit_of_not_sendable small (link state.sent)
      row.replicaID cmd { state with sent := state.sent + 1 }
    exact ⟨_, _, refused, rfl, .lost (.inr small) (moved_still slot rfl rfl rfl)⟩
  have delivered : ∀ now sent,
      ({ state with sent := sent }).deliver now (state.nextRecord slot cmd) =
        (.ok (), { state with
          sent := sent
          history := { state.history with
            suppressed :=
              state.nextRecord slot cmd :: state.history.suppressed } }) := by
    intro now sent
    simp only [deliver, if_pos small,
      Node.applyReplication_duplicate (pair.fits cmd) old,
      Node.validateReplication_duplicate (pair.fits cmd) old]
  cases fate : link state.sent with
  | undelivered text =>
      exact ⟨_, _, rfl, rfl, .lost (.inl ⟨text, fate⟩)
        (moved_still slot rfl rfl rfl)⟩
  | unanswered now text =>
      simp only [transmit, delivered]
      exact ⟨_, _, rfl, rfl,
        .unacknowledged fate (pair.moved false false rfl rfl rfl)⟩
  | answered now =>
      simp only [transmit, delivered, pair.commitLeaderSequence_eq cmd]
      exact ⟨_, _, rfl, rfl, .acknowledged (pair.moved true false rfl rfl rfl)⟩

end Replication
end MnemoKV
