import MnemoKV.ReplicaPairOutcomes

/-!
# Runs with lost acknowledgements

When each write repeats the command whose acknowledgement its slot has lost, the
replica never drops a record it has not applied, until the numbers of the slot
are spent.  A different command in its place travels under the same number and
is taken for the repetition.
-/

namespace MnemoKV
namespace Pair

open LabelledRuns Replication

theorem sound_stateAt [FloatText] {start : Pair} {calls : List ClientCall}
    (fresh : start.Fresh) (clients : ∀ call ∈ calls, ClientCommand call.cmd)
    (repeats : ∀ index (inRange : index < calls.length),
      (stateAt step start calls index).Repeats calls[index]) {index : Nat}
    (visited : index ≤ calls.length) : (stateAt step start calls index).Sound :=
  stateAt_induction step start calls Sound fresh.sound
    (fun index inRange sound => (sound.execute
      (clients _ (List.getElem_mem inRange)) (repeats index inRange)).sound) visited

/-- When every write repeats what is unacknowledged in its slot, the replica
only drops records that it has applied, and a write answered without an error
has reached the replica and left its slot in step, as long as the replica's
counter of the slot is below the largest `uint64`. -/
theorem suppressed_records_were_applied [FloatText] (start : Pair)
    (calls : List ClientCall) (fresh : start.Fresh) (clients : ∀ call ∈ calls, ClientCommand call.cmd)
    (repeats : ∀ index (inRange : index < calls.length),
      (stateAt step start calls index).Repeats calls[index])
    (index : Nat) (inRange : index < calls.length) :
    let pair := stateAt step start calls index
    let call := calls[index]
    let next := (pair.execute call).2
    (∀ record ∈ next.history.suppressed,
      next.replication.Unspent record.slot → record ∈ next.history.applied) ∧
    (call.cmd.isWriteCommand = true → (pair.execute call).1.isError = false →
      next.replication.Unspent
        (pair.leader.metadata.slotForKey call.cmd.extractPrimaryKey) →
      Done (pair.leader.metadata.slotForKey call.cmd.extractPrimaryKey)
        call.cmd (pair.execute call).1 pair.leader.engine.store
        next.leader.engine.store next.replication) := by
  have completed := (sound_stateAt fresh clients repeats inRange.le).execute
    (clients _ (List.getElem_mem inRange)) (repeats index inRange)
  exact ⟨completed.sound.suppressed, completed.done⟩

section Examples

attribute [local instance] FloatText.rejecting

/-- The acknowledgement of the first value is lost; a second one follows. -/
def overwriteRun : List ClientCall :=
  [setCall 0 (.unanswered (fun _ => 0) "i/o timeout") "k" "a",
    setCall 1 (.answered fun _ => 1) "k" "b"]

/-- The replica takes the second value for a repetition of the first one, and
the client is told that it was stored. -/
theorem overwrite_dropped_as_duplicate :
    let last := stateAt step emptyPair overwriteRun 2
    emptyPair.Fresh ∧ (∀ call ∈ overwriteRun, ClientCommand call.cmd) ∧
    ((stateAt step emptyPair overwriteRun 1).execute
      (setCall 1 (.answered fun _ => 1) "k" "b")).1 = .ok ∧
    (∃ record ∈ last.history.suppressed,
      record ∉ last.history.applied ∧
      ∃ earlier ∈ last.history.applied, earlier.slot = record.slot ∧
        earlier.term = record.term ∧ earlier.sequence = record.sequence) ∧
    (last.leader.dataset (.ascii "k")).map Item.value =
      some (.string (.ascii "b")) ∧
    (last.replica.dataset (.ascii "k")).map Item.value =
      some (.string (.ascii "a")) := by
  refine ⟨fresh_emptyPair, ?_, rfl, by decide, by decide, by decide⟩
  intro call member
  simp only [overwriteRun, List.mem_cons, List.not_mem_nil, or_false] at member
  rcases member with rfl | rfl
  · exact clientCommand_setCall (by decide)
  · exact clientCommand_setCall (by decide)

/-- The client repeats the unacknowledged command. -/
def retryRun : List ClientCall :=
  [setCall 0 (.unanswered (fun _ => 0) "i/o timeout") "k" "a",
    setCall 1 (.answered fun _ => 1) "k" "a"]

theorem retried_write_is_in_step :
    let pair := stateAt step emptyPair retryRun 1
    let call := setCall 1 (.answered fun _ => 1) "k" "a"
    pair.history.unacked 0 = some call.cmd ∧
    (pair.execute call).1 = .ok ∧
    Done (pair.leader.metadata.slotForKey call.cmd.extractPrimaryKey) call.cmd
      (pair.execute call).1 pair.leader.engine.store
      (pair.execute call).2.leader.engine.store
      (pair.execute call).2.replication := by
  refine ⟨rfl, rfl, (suppressed_records_were_applied emptyPair retryRun
    fresh_emptyPair ?_ ?_ 1 (by decide)).2 rfl rfl (by unfold Unspent; decide)⟩
  · intro call member
    simp only [retryRun, List.mem_cons, List.not_mem_nil, or_false] at member
    rcases member with rfl | rfl
    · exact clientCommand_setCall (by decide)
    · exact clientCommand_setCall (by decide)
  · intro index inRange
    refine ⟨fun _ _ pending unacked => ?_, fun limited => absurd limited ?_⟩
    · match index, inRange with
      | 0, _ => cases unacked
      | 1, _ =>
          have lost : (stateAt step emptyPair retryRun 1).history.unacked
              ((stateAt step emptyPair retryRun 1).leader.metadata.slotForKey
                (Bytes.ascii "k")) =
                some (setCall 1 (.answered fun _ => 1) "k" "a").cmd := by decide
          exact Option.some.inj (lost.symm.trans unacked)
    · match index, inRange with
      | 0, _ => decide
      | 1, _ => decide

end Examples

end Pair
end MnemoKV
