import MnemoKV.ReplicaPairOutcomes

/-!
# Runs over a reliable link

When every record arrives and is answered, the nodes of a pair hold the same
entries under equal counters after every command, provided that the empty key,
which is never replicated, cannot be evicted, and until the numbers of the slot
are spent.
-/

namespace MnemoKV
namespace Pair

open LabelledRuns Replication

/-- Evictions cannot meet the empty key in a slot that the node leads. -/
def EmptyKeyClear (pair : Pair) : Prop :=
  pair.leader.engine.limitBytes = 0 ∨
    pair.leader.engine.policy = .noEviction ∨
    pair.leader.dataset [] = none ∨
    ¬ pair.leader.metadata.Leads (pair.leader.metadata.slotForKey [])

theorem EmptyKeyClear.foreign {pair : Pair} (clear : pair.EmptyKeyClear)
    (limited : 0 < pair.leader.engine.limitBytes)
    (evicting : pair.leader.engine.policy ≠ .noEviction)
    (stored : pair.leader.dataset [] ≠ none) :
    ¬ pair.leader.metadata.Leads (pair.leader.metadata.slotForKey []) := by
  rcases clear with unlimited | never | missing | foreign
  · omega
  · exact absurd never evicting
  · exact absurd missing stored
  · exact foreign

section Reliable

variable [FloatText] {pair : Pair} {call : ClientCall}

/-- The invariant on a reliable link. -/
structure Settled (start pair : Pair) : Prop where
  sound : pair.Sound
  owners : start.leader.metadata.SameOwners pair.leader.metadata
  settled : ∀ slot, pair.history.unacked slot = none
  clear : pair.EmptyKeyClear

omit [FloatText] in
theorem EmptyKeyClear.repeats (clear : pair.EmptyKeyClear)
    (settled : ∀ slot, pair.history.unacked slot = none) (call : ClientCall) :
    pair.Repeats call := by
  have acknowledged : ∀ slot pending, pair.history.unacked slot ≠ some pending :=
    fun slot pending unacked => by
      rw [settled] at unacked
      cases unacked
  refine ⟨fun _ _ pending unacked => absurd unacked (acknowledged _ _), ?_⟩
  intro limited evicting key stored _ leads
  refine ⟨?_, fun pending unacked => absurd unacked (acknowledged _ _)⟩
  rintro rfl
  exact clear.foreign limited evicting stored leads

theorem Completed.emptyKeyClear {frame : Frame} {next : Pair}
    (completed : Completed pair call frame next)
    (client : ClientCommand call.cmd) (clear : pair.EmptyKeyClear) :
    next.EmptyKeyClear := by
  rcases clear with unlimited | never | missing | foreign
  · exact .inl (completed.limitBytes.trans unlimited)
  · exact .inr (.inl (completed.policy.trans never))
  · refine .inr (.inr (.inl (completed.absent [] ?_ missing)))
    exact fun listed => client.nonempty [] listed rfl
  · refine .inr (.inr (.inr ?_))
    rw [completed.owners.slotForKey, completed.owners.leads_iff]
    exact foreign

theorem Settled.step {start : Pair} (settled : Settled start pair)
    (client : ClientCommand call.cmd)
    (reliable : ∀ index, ∃ now, call.link index = .answered now) :
    Settled start (pair.step call) := by
  have completed := settled.sound.execute client
    (settled.clear.repeats settled.settled call)
  refine ⟨completed.sound, settled.owners.trans completed.owners, ?_,
    completed.emptyKeyClear client settled.clear⟩
  intro slot
  rcases completed.reliable reliable slot with same | none
  · exact same.trans (settled.settled slot)
  · exact none

/-- On a reliable link every command leaves a slot of the leader in step, as
long as the replica's counter of it is below the largest `uint64`. -/
theorem leader_and_replica_stay_in_step (start : Pair) (calls : List ClientCall)
    (fresh : start.Fresh) (clear : start.EmptyKeyClear)
    (clients : ∀ call ∈ calls, ClientCommand call.cmd)
    (reliable : ∀ call ∈ calls, ∀ index, ∃ now, call.link index = .answered now)
    (index slot : Nat) (visited : index ≤ calls.length)
    (leads : start.leader.metadata.Leads slot)
    (unspent : (stateAt step start calls index).replication.Unspent slot) :
    InStep (stateAt step start calls index).leader.engine.store
      (stateAt step start calls index).replication slot := by
  have starts : Settled start start :=
    ⟨fresh.sound, .refl _, by simp [fresh.history, History.empty], clear⟩
  have settled := stateAt_induction step start calls (Settled start) starts
    (fun index inRange settled => settled.step
      (clients _ (List.getElem_mem inRange))
      (reliable _ (List.getElem_mem inRange))) visited
  exact (settled.sound.slots slot ((settled.owners.leads_iff slot).mpr leads)).settled
    unspent (settled.settled slot)

end Reliable

section Examples

attribute [local instance] FloatText.rejecting

/-- A pair whose nodes hold one entry and have room for one more byte. -/
def tightPair (key : Bytes) : Pair :=
  boot twoPeerConfig "node-1" "node-2"
    { store := (Store.new 1).insertNew key (.string (.ascii "x")) 0
      limitBytes := 130, policy := .fifo }

theorem fresh_tightPair (key : Bytes) : (tightPair key).Fresh := by
  refine fresh_boot paired_twoPeerConfig ?_
  intro other item found
  rw [Store.dataset_insertNew, Store.dataset_new, Function.update_apply] at found
  split_ifs at found
  cases found
  rfl

/-- The entry under the empty key is evicted on the leader only. -/
theorem empty_key_evicted_on_the_leader_only :
    let call := setCall 1 (.answered fun _ => 1) "k" "v"
    (tightPair []).Fresh ∧ ClientCommand call.cmd ∧
    (tightPair []).leader.metadata.Leads 0 ∧
    ((tightPair []).execute call).1 = .ok ∧
    ¬ InStep ((tightPair []).step call).leader.engine.store
      ((tightPair []).step call).replication 0 := by
  refine ⟨fresh_tightPair [], clientCommand_setCall (by decide),
    ⟨_, rfl, rfl⟩, rfl, ?_⟩
  intro inStep
  have same := congrFun inStep.datasets []
  revert same
  decide

/-- Another entry is evicted on both nodes. -/
theorem eviction_keeps_the_pair_in_step :
    let call := setCall 1 (.answered fun _ => 1) "k" "v"
    let pair := tightPair (.ascii "old")
    (pair.step call).leader.dataset (.ascii "old") = none ∧
    InStep (pair.step call).leader.engine.store (pair.step call).replication 0 := by
  refine ⟨by decide, leader_and_replica_stay_in_step (tightPair (.ascii "old"))
    [setCall 1 (.answered fun _ => 1) "k" "v"] (fresh_tightPair _)
    (.inr (.inr (.inl (by decide)))) ?_ ?_ 1 0 (by decide) ⟨_, rfl, rfl⟩
    (by unfold Unspent; decide)⟩
  · intro call member
    rw [List.mem_singleton.mp member]
    exact clientCommand_setCall (by decide)
  · intro call member index
    rw [List.mem_singleton.mp member]
    exact ⟨_, rfl⟩

end Examples
end Pair
end MnemoKV
