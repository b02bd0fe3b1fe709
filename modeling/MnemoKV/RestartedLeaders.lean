import MnemoKV.LeaderRestarts

/-!
# Writes of a restarted leader

A restarted leader numbers its records from the counter that it restored.  While
its next number is above the replica's counter, the replica applies every record
that it acknowledges; otherwise the next record of the slot that is acknowledged
is taken for a duplicate.
-/

namespace MnemoKV
namespace Metadata

theorem validateReplication_true {metadata : Metadata}
    {record : ReplicationRecord}
    (duplicate : metadata.validateReplication record = .ok true) :
    record.sequence ≤ metadata.applied record.slot := by
  unfold validateReplication at duplicate
  split at duplicate
  · cases duplicate
  · rename_i row present
    split_ifs at duplicate with foreign stale old gap
    · simpa [applied, present] using old
    · cases duplicate

theorem validateReplication_false {metadata : Metadata}
    {record : ReplicationRecord}
    (next : metadata.validateReplication record = .ok false) :
    metadata.applied record.slot < record.sequence ∧
      record.sequence = nextSequence (metadata.applied record.slot) := by
  unfold validateReplication at next
  split at next
  · cases next
  · rename_i row present
    split_ifs at next with foreign stale old gap
    · cases next
    · simpa [applied, present] using ⟨Nat.not_le.mp old, not_not.mp gap⟩

theorem applied_commitReplicaSequence {metadata result : Metadata}
    {slot term sequence : Nat}
    (committed : metadata.commitReplicaSequence slot term sequence = .ok result)
    (other : Nat) : result.applied other =
      if other = slot then sequence else metadata.applied other := by
  obtain ⟨row, present, -, -, -, rfl⟩ := commitReplicaSequence_ok committed
  exact applied_setSlot present _ other

end Metadata

/-- What a node does with a record: refuse it, skip it, or apply it. -/
inductive Node.Received (node after : Node) (record : ReplicationRecord) :
    Except ClusterError Unit → Prop
  | refused {failure : ClusterError} (table : after.metadata = node.metadata) :
      Received node after record (.error failure)
  | repeated (duplicate : node.metadata.validateReplication record = .ok true)
      (same : after = node) : Received node after record (.ok ())
  | applied (fresh : node.metadata.validateReplication record = .ok false)
      (counters : ∀ other, after.metadata.applied other =
        if other = record.slot then record.sequence
        else node.metadata.applied other) :
      Received node after record (.ok ())

theorem Node.applyReplication_received [FloatText] (now : Readings)
    (record : ReplicationRecord) (node : Node) :
    node.Received (node.applyReplication now record).2 record
      (node.applyReplication now record).1 := by
  unfold applyReplication
  split
  · exact .refused rfl
  · rename_i duplicate
    exact .repeated duplicate rfl
  · rename_i fresh
    split
    · exact .refused rfl
    · dsimp only
      split_ifs
      · exact .refused rfl
      · split
        · exact .refused rfl
        · rename_i metadata committed
          exact .applied fresh (Metadata.applied_commitReplicaSequence committed)

namespace Replication

/-- The leader's next number of the slot is above the replica's counter. -/
def Current (state : Replication) (slot : Nat) : Prop :=
  state.replica.metadata.applied slot <
    nextSequence (state.metadata.sequence slot)

instance (state : Replication) (slot : Nat) : Decidable (state.Current slot) :=
  inferInstanceAs (Decidable (_ < _))

/-- Counters after one more record of the slot. -/
def Incremented (slot : Nat) (before after : Nat → Nat) : Prop :=
  ∀ other, after other =
    if other = slot then nextSequence (before slot) else before other

/-- The outcomes of `Replicate` when every record is answered. -/
inductive Sent (cmd : Command) (slot : Nat) (before after : Replication) :
    Except String Unit → Prop
  | unsent (keyless : cmd.extractPrimaryKey = []) (same : after = before) :
      Sent cmd slot before after (.ok ())
  | refused {text : String}
      (slotCount : after.metadata.slotCount = before.metadata.slotCount)
      (sequence : after.metadata.sequence = before.metadata.sequence)
      (applied : after.replica.metadata.applied = before.replica.metadata.applied)
      (history : after.history.applied = before.history.applied ∧
        after.history.suppressed = before.history.suppressed) :
      Sent cmd slot before after (.error text)
  | repeated {record : ReplicationRecord} (keyed : cmd.extractPrimaryKey ≠ [])
      (slotCount : after.metadata.slotCount = before.metadata.slotCount)
      (behind : ¬ before.Current slot) (own : record.slot = slot)
      (sequence : Incremented slot before.metadata.sequence after.metadata.sequence)
      (applied : after.replica.metadata.applied = before.replica.metadata.applied)
      (history : after.history.applied = before.history.applied ∧
        after.history.suppressed = record :: before.history.suppressed) :
      Sent cmd slot before after (.ok ())
  | applied {record : ReplicationRecord} (keyed : cmd.extractPrimaryKey ≠ [])
      (slotCount : after.metadata.slotCount = before.metadata.slotCount)
      (current : before.Current slot)
      (equal : nextSequence (before.metadata.sequence slot) =
        nextSequence (before.replica.metadata.applied slot))
      (own : record.slot = slot)
      (carried : record.args = cmd.name :: cmd.args)
      (sequence : Incremented slot before.metadata.sequence after.metadata.sequence)
      (applied : Incremented slot before.replica.metadata.applied
        after.replica.metadata.applied)
      (history : after.history.applied = record :: before.history.applied ∧
        after.history.suppressed = before.history.suppressed) :
      Sent cmd slot before after (.ok ())

/-- The leader's table once the record after the prepared one is acknowledged. -/
theorem commitLeaderSequence_prepared {metadata : Metadata} {slot : Nat}
    {row : SlotState} (present : metadata.slot slot = some row)
    (leads : row.leaderID = metadata.localID) :
    ∃ next, metadata.commitLeaderSequence slot row.term
        (nextSequence row.lastSequence) = .ok next ∧ next.slotCount = metadata.slotCount ∧
      Incremented slot metadata.sequence next.sequence := by
  refine ⟨metadata.setSlot slot { row with
    lastSequence := nextSequence row.lastSequence
    lastAppliedSequence := nextSequence row.lastSequence },
    by simp [Metadata.commitLeaderSequence, present, leads], rfl, ?_⟩
  intro other
  rw [Metadata.sequence_setSlot present]
  simp [Metadata.sequence, present]

theorem transmit_sent [FloatText] {state : Replication} {slot : Nat}
    {row : SlotState} {cmd : Command} (keyed : cmd.extractPrimaryKey ≠ [])
    (present : state.metadata.slot slot = some row)
    (leads : row.leaderID = state.metadata.localID) (now : Readings)
    (sent : Nat) :
    let outcome := transmit (.answered now)
      (state.recordOf slot row (nextSequence row.lastSequence) cmd) row.replicaID
      cmd { state with sent := sent }
    Sent cmd slot state outcome.2 outcome.1 := by
  obtain ⟨next, committed, slotCount, counted⟩ :=
    commitLeaderSequence_prepared present leads
  have sequence : state.metadata.sequence slot = row.lastSequence := by
    simp [Metadata.sequence, present]
  generalize carries :
    state.recordOf slot row (nextSequence row.lastSequence) cmd = record
  have own : record.slot = slot := by rw [← carries]; rfl
  have term : record.term = row.term := by rw [← carries]; rfl
  have number : record.sequence = nextSequence row.lastSequence := by
    rw [← carries]; rfl
  have args : record.args = cmd.name :: cmd.args := by rw [← carries]; rfl
  by_cases small : record.Sendable
  case neg =>
    obtain ⟨text, refused⟩ := transmit_of_not_sendable small (.answered now)
      row.replicaID cmd { state with sent := sent }
    dsimp only
    rw [refused]
    exact .refused rfl rfl rfl ⟨rfl, rfl⟩
  have received := state.replica.applyReplication_received now record
  unfold transmit deliver
  dsimp only
  rw [if_pos small]
  rw [own, term, number]
  generalize state.replica.applyReplication now record = outcome at received ⊢
  obtain ⟨result, replica⟩ := outcome
  dsimp only at received ⊢
  cases received with
  | refused table =>
      exact .refused rfl rfl (by rw [table]) ⟨rfl, rfl⟩
  | repeated duplicate same =>
      have old := Metadata.validateReplication_true duplicate
      rw [number, own, ← sequence] at old
      simp only [duplicate, committed]
      exact .repeated keyed slotCount (Nat.not_lt.mpr old) own counted
        (by rw [same]; rfl) ⟨rfl, rfl⟩
  | applied fresh counters =>
      obtain ⟨above, equal⟩ := Metadata.validateReplication_false fresh
      rw [number, own, ← sequence] at above equal
      simp only [fresh, committed]
      refine .applied keyed slotCount above equal own args counted ?_ ⟨rfl, rfl⟩
      intro other
      have counter := counters other
      rw [own, number, ← sequence, equal] at counter
      exact counter

theorem replicate_sent [FloatText] {link : Nat → Delivery}
    (reliable : ∀ index, ∃ now, link index = .answered now) (cmd : Command)
    (state : Replication) :
    Sent cmd (state.metadata.slotForKey cmd.extractPrimaryKey) state
      (state.replicate link cmd).2 (state.replicate link cmd).1 := by
  unfold replicate
  split_ifs with keyless
  · exact .unsent keyless rfl
  · dsimp only
    split
    · exact .refused rfl rfl rfl ⟨rfl, rfl⟩
    · rename_i row sequence prepared
      obtain ⟨present, leads, -, -, rfl⟩ := Metadata.prepareReplication_ok prepared
      split_ifs
      · obtain ⟨now, answered⟩ := reliable state.sent
        rw [answered]
        exact transmit_sent keyless present leads now (state.sent + 1)
      · exact .refused rfl rfl rfl ⟨rfl, rfl⟩

/-- A counter that follows on another is not the largest number. -/
theorem Sent.unspent {cmd : Command} {target slot : Nat}
    {before after : Replication} {result : Except String Unit}
    (sent : Sent cmd target before after result) (unspent : after.Unspent slot) :
    before.Unspent slot := by
  unfold Unspent at unspent ⊢
  cases sent with
  | unsent _ same => rwa [same] at unspent
  | refused _ _ applied | repeated _ _ _ _ _ applied => rwa [applied] at unspent
  | applied _ _ current equal _ _ _ applied =>
      rw [applied slot] at unspent
      split_ifs at unspent with here
      · subst here
        unfold Current at current
        rw [equal] at current
        unfold nextSequence at current unspent
        omega
      · exact unspent

/-- What one record can change about a slot whose leader is current. -/
theorem Sent.keeps_current {cmd : Command} {target slot : Nat}
    {before after : Replication} {result : Except String Unit}
    (sent : Sent cmd target before after result) (current : before.Current slot)
    (unspent : after.Unspent slot) : after.Current slot := by
  unfold Current at current ⊢
  cases sent with
  | unsent _ same => rw [same]; exact current
  | refused _ sequence applied => rw [sequence, applied]; exact current
  | repeated _ _ behind _ sequence applied =>
      rw [applied, sequence slot]
      split_ifs with here
      · subst here
        exact absurd current behind
      · exact current
  | applied _ _ _ equal _ _ sequence applied =>
      unfold Unspent at unspent
      rw [applied slot] at unspent ⊢
      rw [sequence slot]
      split_ifs at unspent ⊢ with here
      · rw [equal, nextSequence_of_lt unspent]
        exact Nat.lt_succ_self _
      · exact current

end Replication

/-- The records of the slot that were answered as duplicates. -/
def History.skipped (slot : Nat) (history : History) : List ReplicationRecord :=
  history.suppressed.filter fun record => record.slot = slot

/-- Between two histories the replica has applied the command, and has answered
no record of the slot as a duplicate. -/
structure History.Reached (slot : Nat) (cmd : Command) (before after : History) :
    Prop where
  applied : ∃ record : ReplicationRecord, record.slot = slot ∧
    record.args = cmd.name :: cmd.args ∧
    before.applied.count record < after.applied.count record
  skipped : after.skipped slot = before.skipped slot

namespace Replication

/-- How far the records of one command have got while the leader is current. -/
structure Progress (slot : Nat) (start state : Replication) : Prop where
  slotCount : state.metadata.slotCount = start.metadata.slotCount
  current : state.Unspent slot → state.Current slot
  applied : ∀ record,
    start.history.applied.count record ≤ state.history.applied.count record
  skipped : state.Unspent slot →
    state.history.skipped slot = start.history.skipped slot

theorem skipped_eq_of_suppressed {slot : Nat} {before after : History}
    (same : after.suppressed = before.suppressed) :
    after.skipped slot = before.skipped slot := by
  rw [History.skipped, same, History.skipped]

theorem skipped_cons {slot : Nat} {record : ReplicationRecord}
    {before after : History}
    (longer : after.suppressed = record :: before.suppressed) :
    after.skipped slot = if record.slot = slot then
      record :: before.skipped slot else before.skipped slot := by
  rw [History.skipped, longer, List.filter_cons]
  simp [History.skipped]

theorem Progress.sent {slot : Nat} {start state next : Replication}
    {cmd : Command} {target : Nat} {result : Except String Unit}
    (progress : Progress slot start state)
    (sent : Sent cmd target state next result) : Progress slot start next := by
  have unspent : next.Unspent slot → state.Unspent slot := sent.unspent
  have current : next.Unspent slot → next.Current slot := fun later =>
    sent.keeps_current (progress.current (unspent later)) later
  cases sent with
  | unsent _ same => rw [same]; exact progress
  | refused slotCount _ _ history =>
      exact ⟨slotCount.trans progress.slotCount, current,
        fun record => by rw [history.1]; exact progress.applied record,
        fun later => (skipped_eq_of_suppressed history.2).trans
          (progress.skipped (unspent later))⟩
  | repeated _ slotCount behind own _ _ history =>
      refine ⟨slotCount.trans progress.slotCount, current,
        fun record => by rw [history.1]; exact progress.applied record,
        fun later => ?_⟩
      have elsewhere : target ≠ slot := by
        rintro rfl
        exact behind (progress.current (unspent later))
      rw [skipped_cons history.2, own, if_neg elsewhere]
      exact progress.skipped (unspent later)
  | applied _ slotCount _ _ _ _ _ _ history =>
      refine ⟨slotCount.trans progress.slotCount, current, fun record => ?_,
        fun later => (skipped_eq_of_suppressed history.2).trans
          (progress.skipped (unspent later))⟩
      rw [history.1]
      exact (progress.applied record).trans List.count_le_count_cons

/-- An acknowledged command of a current slot has reached the replica. -/
theorem Progress.reached {slot : Nat} {start state next : Replication}
    {cmd : Command} (progress : Progress slot start state)
    (keyed : cmd.extractPrimaryKey ≠ [])
    (sent : Sent cmd slot state next (.ok ())) (unspent : next.Unspent slot) :
    start.history.Reached slot cmd next.history := by
  have skipped := (progress.sent sent).skipped unspent
  have current := progress.current (sent.unspent unspent)
  cases sent with
  | unsent keyless => exact absurd keyless keyed
  | repeated _ _ behind => exact absurd current behind
  | @applied record _ _ _ _ own carried _ _ history =>
      refine ⟨⟨record, own, carried, ?_⟩, skipped⟩
      rw [history.1, List.count_cons_self]
      exact Nat.lt_succ_of_le (progress.applied record)

/-- While the leader is behind, nothing of the slot is applied until a record of
it has been skipped. -/
structure Lagging (slot : Nat) (start state : Replication) : Prop where
  slotCount : state.metadata.slotCount = start.metadata.slotCount
  lags : ¬ state.Current slot ∧
      state.history.skipped slot = start.history.skipped slot ∨
    (start.history.skipped slot).length < (state.history.skipped slot).length

theorem Lagging.sent {slot : Nat} {start state next : Replication}
    {cmd : Command} {target : Nat} {result : Except String Unit}
    (lagging : Lagging slot start state)
    (sent : Sent cmd target state next result) : Lagging slot start next := by
  obtain ⟨sameCount, lags⟩ := lagging
  cases sent with
  | unsent _ same => rw [same]; exact ⟨sameCount, lags⟩
  | refused slotCount sequence applied history =>
      refine ⟨slotCount.trans sameCount, ?_⟩
      rw [skipped_eq_of_suppressed history.2]
      unfold Current at lags ⊢
      rwa [sequence, applied]
  | repeated _ slotCount _ own sequence applied history =>
      refine ⟨slotCount.trans sameCount, ?_⟩
      rw [skipped_cons history.2, own]
      split_ifs with here
      · refine .inr ?_
        rw [List.length_cons]
        rcases lags with ⟨-, same⟩ | longer
        · rw [same]
          exact Nat.lt_succ_self _
        · exact longer.trans (Nat.lt_succ_self _)
      · unfold Current at lags ⊢
        rwa [applied, sequence slot, if_neg (Ne.symm here)]
  | applied _ slotCount current _ _ _ sequence applied history =>
      refine ⟨slotCount.trans sameCount, ?_⟩
      rw [skipped_eq_of_suppressed history.2]
      rcases lags with ⟨behind, same⟩ | longer
      · have elsewhere : slot ≠ target := by
          rintro rfl
          exact behind current
        refine .inl ⟨?_, same⟩
        unfold Current at behind ⊢
        rwa [applied slot, sequence slot, if_neg elsewhere, if_neg elsewhere]
      · exact .inr longer

theorem Lagging.skips {slot : Nat} {start state next : Replication}
    {cmd : Command} (lagging : Lagging slot start state)
    (keyed : cmd.extractPrimaryKey ≠ [])
    (sent : Sent cmd slot state next (.ok ())) :
    next.history.skipped slot ≠ start.history.skipped slot := by
  refine fun same => absurd (congrArg List.length same) (Nat.ne_of_gt ?_)
  cases sent with
  | unsent keyless => exact absurd keyless keyed
  | repeated _ _ _ own _ _ history =>
      rw [skipped_cons history.2, own, if_pos rfl, List.length_cons]
      rcases lagging.lags with ⟨-, same⟩ | longer
      · rw [same]
        exact Nat.lt_succ_self _
      · exact longer.trans (Nat.lt_succ_self _)
  | applied _ _ current _ _ _ _ _ history =>
      rw [skipped_eq_of_suppressed history.2]
      rcases lagging.lags with ⟨behind, -⟩ | longer
      · exact absurd current behind
      · exact longer

end Replication

namespace Pair

open Replication LabelledRuns

variable [FloatText] {pair : Pair} {call : ClientCall} {slot : Nat}

/-- A write of the slot that the leader carries out and answers without an
error. -/
structure Acknowledges (pair : Pair) (call : ClientCall) (slot : Nat) : Prop where
  write : call.cmd.isWriteCommand = true
  routed : pair.leader.metadata.slotForKey call.cmd.extractPrimaryKey = slot
  planned : (pair.leader.engine.store.planAdmission call.clock.plan
    call.cmd).1.response = none
  answered : (pair.execute call).1.isError = false

theorem Acknowledges.here (acknowledges : pair.Acknowledges call slot) :
    pair.leader.route call.cmd = .here := by
  by_contra elsewhere
  obtain ⟨frame, failed, executed⟩ := execute_elsewhere call elsewhere
  have answered := acknowledges.answered
  rw [executed, failed] at answered
  cases answered

/-- An acknowledged write has made room with evictions, if any, and has then
been replicated. -/
theorem Acknowledges.replicated {Invariant : Replication → Prop}
    {plan : AdmissionPlan} {planned : Store}
    (acknowledges : pair.Acknowledges call slot)
    (planning : pair.leader.engine.store.planAdmission call.clock.plan call.cmd =
      (plan, planned))
    (start : Invariant pair.replication)
    (evicts : pair.leader.engine.MayEvict plan → ∀ key state, Invariant state →
      Invariant (state.replicate call.link
        (Engine.evictionDeleteCommand key)).2) :
    ∃ state, Invariant state ∧
      (state.replicate call.link call.cmd).1 = .ok () ∧
      (pair.step call).history =
        (state.replicate call.link call.cmd).2.history ∧
      (pair.step call).replica =
        (state.replicate call.link call.cmd).2.replica := by
  have silent := acknowledges.planned
  rw [planning] at silent
  have rule : pair.leader.engine.MayEvict plan →
      Engine.EvictionRule (hook call.link) plan.key
        (fun _ state => Invariant state) (fun _ _ => True) (fun _ => True) := by
    intro may
    refine ⟨fun _ _ _ _ _ _ => trivial, ?_, fun _ _ _ _ _ _ _ _ _ => trivial⟩
    intro _ state next key holds _ _ answered
    have kept := evicts may key state holds
    rwa [show state.replicate call.link (Engine.evictionDeleteCommand key) =
      (.ok (), next) from answered] at kept
  have outcome : ∃ frame store next,
      pair.leader.engine.executeWithAdmission (some (hook call.link)) call.clock
          call.choices call.cmd pair.replication =
        (frame, pair.leader.engine.withStore store, next) ∧
      (frame.isError = false → ∃ state, Invariant state ∧
        state.replicate call.link call.cmd = (.ok (), next)) := by
    refine Engine.executeWithAdmission_rule rfl planning rule (fun _ => start) ?_
      ?_ ?_ ?_ ?_
    · intro frame responded
      rw [silent] at responded
      cases responded
    · exact fun _ _ _ succeeded => nomatch succeeded
    · exact fun _ _ _ _ succeeded => nomatch succeeded
    · exact fun _ _ _ _ _ _ => trivial
    · exact fun _ state _ holds answered _ => ⟨state, holds, answered⟩
  obtain ⟨frame, store, next, executed, sent⟩ := outcome
  have whole := execute_write call acknowledges.here acknowledges.write executed
  have answered := acknowledges.answered
  rw [whole] at answered
  obtain ⟨state, holds, replicated⟩ := sent answered
  refine ⟨state, holds, by rw [replicated], ?_⟩
  rw [step, whole, replicated]
  exact ⟨rfl, rfl⟩

omit [FloatText] in
theorem count_of_sent {cmd other : Command} {target : Nat}
    {before after : Replication} {result : Except String Unit}
    {record : ReplicationRecord} (sent : Sent other target before after result)
    (carried : record.args = cmd.name :: cmd.args)
    (different : other.extractPrimaryKey = [] ∨ other.name ≠ cmd.name) :
    after.history.applied.count record = before.history.applied.count record := by
  cases sent with
  | unsent _ same => rw [same]
  | refused _ _ _ history => rw [history.1]
  | repeated _ _ _ _ _ _ history => rw [history.1]
  | applied keyed _ _ _ _ otherCarried _ _ history =>
      rw [history.1]
      refine List.count_cons_of_ne fun same => ?_
      rw [same, carried, List.cons.injEq] at otherCarried
      rcases different with keyless | names
      · exact keyed keyless
      · exact names otherCarried.1.symm

/-- A write whose first key is empty is not replicated. -/
theorem Acknowledges.not_reached_of_keyless
    (acknowledges : pair.Acknowledges call slot)
    (reliable : ∀ index, ∃ now, call.link index = .answered now)
    (keyless : call.cmd.extractPrimaryKey = []) :
    ¬ pair.history.Reached slot call.cmd (pair.step call).history := by
  rintro ⟨⟨record, -, carried, grown⟩, -⟩
  let Unapplied (state : Replication) : Prop :=
    state.history.applied.count record = pair.history.applied.count record
  rcases planning : pair.leader.engine.store.planAdmission call.clock.plan
    call.cmd with ⟨plan, planned⟩
  have start : Unapplied pair.replication := rfl
  obtain ⟨state, same, -, finished, -⟩ := acknowledges.replicated planning start
    fun may key state unapplied => by
      have names : (Engine.evictionDeleteCommand key).name ≠ call.cmd.name := by
        intro named
        have deletes : call.cmd.verb = some .del := by
          rw [Command.verb, ← named]
          exact Command.verb_make .del [key]
        have growth := may.growing
        simp only [Store.planAdmission, deletes, Prod.mk.injEq] at planning
        rw [← planning.1] at growth
        exact absurd growth (Nat.lt_irrefl 0)
      exact (count_of_sent (replicate_sent reliable _ state) carried
        (.inr names)).trans unapplied
  have unchanged := count_of_sent (replicate_sent reliable call.cmd state) carried
    (.inl keyless)
  rw [finished, unchanged, same] at grown
  exact absurd grown (Nat.lt_irrefl _)

/-- An acknowledged write has reached the replica exactly if it names a key and
the leader's counter was not behind, unless it has spent the slot's numbers. -/
theorem Acknowledges.reached_iff (acknowledges : pair.Acknowledges call slot)
    (reliable : ∀ index, ∃ now, call.link index = .answered now)
    (unspent : (pair.step call).replication.Unspent slot) :
    pair.history.Reached slot call.cmd (pair.step call).history ↔
      call.cmd.extractPrimaryKey ≠ [] ∧ pair.replication.Current slot := by
  by_cases keyless : call.cmd.extractPrimaryKey = []
  · exact iff_of_false (acknowledges.not_reached_of_keyless reliable keyless)
      fun facts => facts.1 keyless
  rcases planning : pair.leader.engine.store.planAdmission call.clock.plan
    call.cmd with ⟨plan, planned⟩
  have target : ∀ state : Replication,
      state.metadata.slotCount = pair.replication.metadata.slotCount →
      state.metadata.slotForKey call.cmd.extractPrimaryKey = slot := by
    intro state sameCount
    rw [← acknowledges.routed, Metadata.slotForKey, sameCount]
    rfl
  by_cases current : pair.replication.Current slot
  · refine iff_of_true ?_ ⟨keyless, current⟩
    have start : Progress slot pair.replication pair.replication :=
      ⟨rfl, fun _ => current, fun _ => le_rfl, fun _ => rfl⟩
    obtain ⟨state, progress, replicated, finished, replica⟩ :=
      acknowledges.replicated planning start fun _ _ state progress =>
        progress.sent (replicate_sent reliable _ state)
    have sent := replicate_sent reliable call.cmd state
    rw [replicated, target state progress.slotCount] at sent
    rw [finished]
    refine progress.reached keyless sent ?_
    unfold Unspent at unspent ⊢
    rwa [← replica]
  · refine iff_of_false ?_ fun facts => current facts.2
    have start : Lagging slot pair.replication pair.replication :=
      ⟨rfl, .inl ⟨current, rfl⟩⟩
    obtain ⟨state, lagging, replicated, finished, -⟩ :=
      acknowledges.replicated planning start fun _ _ state lagging =>
        lagging.sent (replicate_sent reliable _ state)
    have sent := replicate_sent reliable call.cmd state
    rw [replicated, target state lagging.slotCount] at sent
    rw [finished]
    exact fun reached => lagging.skips keyless sent reached.skipped

/-- No command puts a current leader behind before the numbers are spent. -/
theorem current_step (reliable : ∀ index, ∃ now, call.link index = .answered now)
    (current : pair.replication.Unspent slot → pair.replication.Current slot) :
    (pair.step call).replication.Unspent slot →
      (pair.step call).replication.Current slot := by
  by_cases routed : pair.leader.route call.cmd = .here
  · cases write : call.cmd.isWriteCommand with
    | true =>
        have keeps : ∀ cmd state result next,
            (Unspent state slot → Current state slot) →
            (hook call.link).run cmd state = (result, next) →
            Unspent next slot → Current next slot := by
          intro cmd state result next holds answered unspent
          have sent := replicate_sent reliable cmd state
          rw [show state.replicate call.link cmd = (result, next) from answered]
            at sent
          exact sent.keeps_current (holds (sent.unspent unspent)) unspent
        obtain ⟨frame, store, next, executed, kept⟩ :=
          Engine.executeWithAdmission_keeps rfl keeps call.clock call.choices
            call.cmd pair.leader.engine current
        rw [step, execute_write call routed write executed]
        exact kept
    | false =>
        rw [step, execute_read call routed write]
        exact current
  · obtain ⟨frame, -, executed⟩ := execute_elsewhere call routed
    rw [step, executed]
    exact current

end Pair

namespace RestartablePair

open LabelledRuns Replication

section Runs

variable [FloatText] {config : ClusterConfig} {engineConfig : EngineConfig}
  {slot : Nat}

theorem current_step {state : RestartablePair} {event : LeaderEvent}
    (reliable : ∀ call, event = .client call →
      ∀ index, ∃ now, call.link index = .answered now)
    (restarts : ∀ now answers leader, event = .restart now answers →
      Node.start config engineConfig state.pair.leader.id state.saved now
        answers = .ok leader →
      ({ state.pair with leader := leader }).replication.Current slot)
    (current : state.pair.replication.Unspent slot →
      state.pair.replication.Current slot) :
    let next := (step config engineConfig state event).pair.replication
    next.Unspent slot → next.Current slot := by
  cases event with
  | client call =>
      dsimp only [step]
      split_ifs
      · exact Pair.current_step (reliable call rfl) current
      · exact current
  | capture now =>
      dsimp only [step]
      split_ifs
      · split
        · exact current
        · exact current
      · exact current
  | restart now answers =>
      dsimp only [step]
      split
      · exact current
      · rename_i leader started
        exact fun _ => restarts now answers leader rfl started

/-- In every run of a leader with snapshots and restarts, over a reliable link
and until the replica's counter is the largest `uint64`: an acknowledged write
of the slot has reached the replica exactly if it names a key and the leader's
next number is above the replica's counter; and it always is if it is at the
start and after every restart. -/
theorem acknowledged_writes_reach_replica (start : RestartablePair)
    (events : List LeaderEvent)
    (reliable : ∀ call, .client call ∈ events →
      ∀ index, ∃ now, call.link index = .answered now) :
    (∀ index call, events[index]? = some (.client call) →
      let state := stateAt (step config engineConfig) start events index
      let next := stateAt (step config engineConfig) start events (index + 1)
      state.serving = true → state.pair.Acknowledges call slot →
      next.pair.replication.Unspent slot →
      (state.pair.history.Reached slot call.cmd next.pair.history ↔
        call.cmd.extractPrimaryKey ≠ [] ∧
          state.pair.replication.Current slot)) ∧
    (start.pair.replication.Current slot →
      (∀ index now answers leader,
        events[index]? = some (.restart now answers) →
        let state := stateAt (step config engineConfig) start events index
        Node.start config engineConfig state.pair.leader.id state.saved now
          answers = .ok leader →
        ({ state.pair with leader := leader }).replication.Current slot) →
      ∀ index ≤ events.length,
        let state := stateAt (step config engineConfig) start events index
        state.pair.replication.Unspent slot →
        state.pair.replication.Current slot) := by
  constructor
  · intro index call here state next serving acknowledges unspent
    obtain ⟨inRange, event⟩ := List.getElem?_eq_some_iff.mp here
    have stepped : next = { state with pair := state.pair.step call } := by
      rw [show next = _ from stateAt_succ _ start events inRange, event]
      exact if_pos serving
    rw [stepped] at unspent ⊢
    exact acknowledges.reached_iff
      (reliable call (event ▸ List.getElem_mem inRange)) unspent
  · intro starts restarts index visited
    refine stateAt_induction (step config engineConfig) start events
      (fun state => state.pair.replication.Unspent slot →
        state.pair.replication.Current slot) (fun _ => starts) ?_ visited
    intro index inRange current
    refine current_step ?_ ?_ current
    · intro call event
      exact reliable call (event ▸ List.getElem_mem inRange)
    · intro now answers leader event
      exact restarts index now answers leader
        (List.getElem?_eq_some_iff.mpr ⟨inRange, event⟩)

end Runs

section Examples

attribute [local instance] FloatText.rejecting

open Pair (emptyPair setCall twoPeerConfig)

def unlimitedConfig : EngineConfig :=
  { stripeCount := 1, memoryLimitBytes := 0, evictionPolicy := "noeviction" }

def firstBoot : RestartablePair :=
  { pair := emptyPair, serving := true, saved := none }

def storeValue (time : Int) (data : String) : LeaderEvent :=
  .client (setCall time (.answered fun _ => time) "k" data)

/-- The snapshot is older than the first value, so the record of the second one
is taken for a duplicate and the replica keeps the first. -/
theorem restarted_leader_skips_replica :
    let events := [.capture 0, storeValue 1 "a",
      .restart 2 [some (newMetadata twoPeerConfig "node-2").snapshot],
      storeValue 3 "b"]
    let before := stateAt (step twoPeerConfig unlimitedConfig) firstBoot events 3
    let after := run (step twoPeerConfig unlimitedConfig) firstBoot events
    before.serving = true ∧
    (before.pair.execute (setCall 3 (.answered fun _ => 3) "k" "b")).1 = .ok ∧
    ¬ before.pair.history.Reached 0 (.make .set [.ascii "k", .ascii "b"])
      after.pair.history ∧
    (after.pair.leader.dataset (.ascii "k")).map Item.value =
      some (.string (.ascii "b")) ∧
    (after.pair.replica.dataset (.ascii "k")).map Item.value =
      some (.string (.ascii "a")) := by
  refine ⟨by decide, rfl, ?_, by decide, by decide⟩
  intro reached
  have same := reached.skipped
  revert same
  decide

/-- A snapshot of the first value lets the leader continue where it was. -/
theorem snapshot_keeps_replica_reached :
    let events := [storeValue 1 "a", .capture 2,
      .restart 3 [some (newMetadata twoPeerConfig "node-2").snapshot],
      storeValue 4 "b"]
    let before := stateAt (step twoPeerConfig unlimitedConfig) firstBoot events 3
    let after := stateAt (step twoPeerConfig unlimitedConfig) firstBoot events 4
    before.pair.history.Reached 0 (.make .set [.ascii "k", .ascii "b"])
      after.pair.history := by
  refine ((acknowledged_writes_reach_replica firstBoot _ ?_).1 3
    (setCall 4 (.answered fun _ => 4) "k" "b") rfl (by decide)
    ⟨rfl, by decide, rfl, rfl⟩ (by unfold Unspent; decide)).mpr
      ⟨by decide, by decide⟩
  intro call member index
  simp only [storeValue, List.mem_cons, LeaderEvent.client.injEq, reduceCtorEq,
    List.not_mem_nil, or_false, false_or] at member
  rcases member with rfl | rfl
  · exact ⟨_, rfl⟩
  · exact ⟨_, rfl⟩

end Examples
end RestartablePair
end MnemoKV
