import MnemoKV.LocalAnswers
import MnemoKV.LostAcknowledgements
import MnemoKV.SnapshotDirectories

/-!
# Clients after a failover or a restart

A replica that takes over answers as its leader would have, and so does a node that
restarts from the snapshot of its engine.
-/

namespace MnemoKV

open LabelledRuns

/-- A failover keeps every acknowledged write: until the numbers of the slot are spent, its
replica answers as the leader would have, after the one command whose acknowledgement was
lost, if there is one. -/
theorem Pair.replica_answers_for_leader [FloatText] (start : Pair) (calls : List ClientCall)
    (fresh : start.Fresh) (clients : ∀ call ∈ calls, ClientCommand call.cmd)
    (repeats : ∀ index (inRange : index < calls.length),
      (stateAt step start calls index).Repeats calls[index])
    (index : Nat) (visited : index ≤ calls.length) (slot : Nat) :
    let pair := stateAt step start calls index
    pair.leader.metadata.Leads slot → pair.leader.engine.limitBytes = 0 →
    pair.replica.engine.limitBytes = 0 → pair.replication.Unspent slot →
    ∃ expected : Engine,
      (match pair.history.unacked slot with
        | none => expected = pair.leader.engine
        | some cmd => ∃ now, expected = (pair.leader.engine.applyReplicated now cmd).2) ∧
      ∀ later : List (WriteClock × Command),
        (∀ call ∈ later,
          call.2.KeysIn fun key => pair.leader.metadata.slotForKey key = slot) →
        ∀ choices others, (pair.replica.engine.answers choices later).1 =
          (expected.answers others later).1 := by
  intro pair leads leaderUnlimited replicaUnlimited unspent
  have sound := (sound_stateAt fresh clients repeats visited).slots slot leads
  cases unacked : pair.history.unacked slot with
  | none =>
      refine ⟨_, rfl, fun later members => ?_⟩
      exact Engine.answers_agree members replicaUnlimited leaderUnlimited
        (sound.settled unspent unacked).datasets.symm
  | some cmd =>
      obtain ⟨-, write, -, -, now, -, replayed⟩ := sound.ahead unspent cmd unacked
      refine ⟨_, ⟨now, rfl⟩, fun later members => ?_⟩
      refine Engine.answers_agree members replicaUnlimited leaderUnlimited (replayed.trans ?_)
      have acts := Command.perform_within write.kept write.members now
        pair.leader.engine.store.dataset
      rw [← Executor.dataset_execute] at acts
      exact congrArg Prod.snd acts

section Examples

attribute [local instance] FloatText.rejecting

/-- The replica has executed the write that its leader gave up. -/
theorem Pair.replica_answers_unacknowledged_write :
    let calls := [setCall 0 (.unanswered (fun _ => 0) "i/o timeout") "k" "a"]
    let pair := stateAt step emptyPair calls 1
    let get : List (WriteClock × Command) := [(.still 1, .make .get [.ascii "k"])]
    ∃ now, (pair.replica.engine.answers (fun _ _ => .canonical) get).1 =
      ((pair.leader.engine.applyReplicated now
        (.make .set [.ascii "k", .ascii "a"])).2.answers (fun _ _ => .canonical) get).1 := by
  intro calls pair get
  obtain ⟨_, ⟨now, rfl⟩, alike⟩ := replica_answers_for_leader emptyPair calls fresh_emptyPair
    (List.forall_mem_singleton.mpr (clientCommand_setCall (by decide)))
    (fun index inRange => match index, inRange with
      | 0, _ => ⟨fun _ _ _ => nofun, fun limited => absurd limited (by decide)⟩)
    1 le_rfl 0 ⟨_, rfl, rfl⟩ rfl rfl (by unfold Replication.Unspent; decide)
  exact ⟨now, alike get (by unfold Command.KeysIn; decide) _ _⟩

end Examples

namespace SnapshotManager

section Examples

attribute [local instance] FloatText.rejecting SliceSort.insertion SnapshotCodecs.unary
  SnapshotCodecs.unary_lawful

end Examples

end SnapshotManager
end MnemoKV
