import MnemoKV.ReplicaPairOutcomes
import MnemoKV.ShardInstallation

/-!
# Client commands during the installation of a shard

The node that installs a shard also leads slots and executes client commands.
Those that run between the capture and the restore are lost, unless they leave
no trace in the live entries of other slots.
-/

namespace MnemoKV

open LabelledRuns Replication

section Owners

variable [FloatText]

theorem Pair.step_sameOwners (pair : Pair) (call : ClientCall) :
    pair.leader.metadata.SameOwners (pair.step call).leader.metadata := by
  unfold Pair.step
  by_cases routed : pair.leader.route call.cmd = .here
  · cases write : call.cmd.isWriteCommand with
    | true =>
        have hooked : ∀ (cmd : Command) (state : Replication)
            (result : Except String Unit) (next : Replication),
            pair.leader.metadata.SameOwners state.metadata →
            (hook call.link).run cmd state = (result, next) →
            pair.leader.metadata.SameOwners next.metadata := by
          intro cmd state result next owners answered
          have kept := replicate_sameOwners call.link cmd state
          have ran : state.replicate call.link cmd = (result, next) := answered
          rw [ran] at kept
          exact owners.trans kept
        obtain ⟨frame, store, next, executed, owners⟩ :=
          Engine.executeWithAdmission_keeps rfl hooked call.clock call.choices
            call.cmd pair.leader.engine (.refl pair.replication.metadata)
        rw [Pair.execute_write call routed write executed]
        exact owners
    | false =>
        rw [Pair.execute_read call routed write]
        exact .refl _
  · obtain ⟨frame, -, executed⟩ := Pair.execute_elsewhere call routed
    rw [executed]
    exact .refl _

theorem Pair.run_sameOwners (pair : Pair) (calls : List ClientCall) :
    pair.leader.metadata.SameOwners
      (run Pair.step pair calls).leader.metadata := by
  induction calls generalizing pair with
  | nil => exact .refl _
  | cons call rest induction =>
      exact (pair.step_sameOwners call).trans (induction (pair.step call))

end Owners

namespace Pair

/-- The capture, the client commands between the two locked steps and the
restore, on the node that leads the pair's slots.  Client commands go on when a
step fails. -/
def installEntries [FloatText] (transfer : ShardSnapshot)
    (captureTime restoreTime : Int) (between : List ClientCall) (pair : Pair) :
    Except InstallError Unit × Pair :=
  let later := run Pair.step pair between
  match pair.leader.validateTransfer transfer with
  | .error failure => (.error failure, later)
  | .ok () =>
      match pair.leader.combineEntries transfer captureTime with
      | .error failure => (.error failure, later)
      | .ok combined =>
          let (result, node) := later.leader.restoreCombined combined restoreTime
          (result, { later with leader := node })

/-- `ApplyShardSnapshot`, with client commands before the restore and before the
record of the applied sequence. -/
def applyShardSnapshot [FloatText] (transfer : ShardSnapshot)
    (captureTime restoreTime : Int) (between after : List ClientCall)
    (pair : Pair) : Except InstallError Unit × Pair :=
  let (result, installed) :=
    pair.installEntries transfer captureTime restoreTime between
  let last := run Pair.step installed after
  match result with
  | .error failure => (.error failure, last)
  | .ok () =>
      let (recorded, node) := last.leader.recordApplied transfer
      (recorded, { last with leader := node })

section Outcomes

variable [FloatText] {pair : Pair} {transfer : ShardSnapshot}
  {captureTime restoreTime : Int} {between : List ClientCall}

theorem installEntries_error {failure : InstallError}
    (failed : (pair.installEntries transfer captureTime restoreTime between).1 =
      .error failure) :
    (pair.installEntries transfer captureTime restoreTime between).2 =
      run Pair.step pair between := by
  unfold installEntries at failed ⊢
  dsimp only at failed ⊢
  split at failed
  · rfl
  · split at failed
    · rfl
    · rw [Node.restoreCombined_error failed]

theorem installEntries_ok
    (installs : (pair.installEntries transfer captureTime restoreTime between).1 =
      .ok ()) :
    ∃ store,
      (pair.installEntries transfer captureTime restoreTime between).2 =
        (run Pair.step pair between).finish store
          (run Pair.step pair between).replication ∧
      Node.Installed transfer captureTime restoreTime pair.leader store := by
  unfold installEntries at installs ⊢
  dsimp only at installs ⊢
  split at installs
  · cases installs
  · rename_i valid
    split at installs
    · cases installs
    · rename_i combined combines
      obtain ⟨store, restored, holds⟩ := Node.restoreCombined_ok installs
      refine ⟨store, ?_, Node.installed valid combines holds⟩
      rw [restored]
      rfl

end Outcomes

/-- A failed installation leaves every entry to the client commands.  After a
successful one only client commands change entries; it puts the live transferred
entries into their slot, and keeps the live entries of other slots exactly when
those are what the capture had found. -/
theorem installation_keeps_other_slots_iff [FloatText] (pair : Pair)
    (transfer : ShardSnapshot) (captureTime restoreTime : Int)
    (ordered : captureTime ≤ restoreTime) (between after : List ClientCall) :
    let slotOf := pair.leader.metadata.slotForKey
    let later := run Pair.step pair between
    let installed :=
      (pair.installEntries transfer captureTime restoreTime between).2
    let outcome :=
      pair.applyShardSnapshot transfer captureTime restoreTime between after
    (∀ failure, outcome.1 = .error failure → outcome.2.leader.dataset =
      (run Pair.step pair (between ++ after)).leader.dataset) ∧
    (outcome.1 = .ok () →
      outcome.2.leader.dataset = (run Pair.step installed after).leader.dataset ∧
      (∀ item ∈ transfer.entries,
        installed.leader.dataset item.key = item.restored restoreTime) ∧
      (∀ key ∉ transfer.entries.map SnapshotEntry.key,
        slotOf key = transfer.slot → installed.leader.dataset key = none) ∧
      ((∀ key, slotOf key ≠ transfer.slot → ∀ reading ≥ restoreTime,
          liveAt reading (installed.leader.dataset key) =
            liveAt reading (later.leader.dataset key)) ↔
        ∀ key, slotOf key ≠ transfer.slot →
          liveAt restoreTime (pair.leader.dataset key) =
            liveAt restoreTime (later.leader.dataset key))) := by
  intro slotOf later installed outcome
  cases result : (pair.installEntries transfer captureTime restoreTime between).1 with
  | error failure =>
      have unchanged := installEntries_error result
      have failed : outcome = (.error failure,
          run Pair.step (run Pair.step pair between) after) := by
        simp only [outcome, applyShardSnapshot, result, unchanged]
      rw [failed]
      refine ⟨?_, ?_⟩
      · intro _ _
        rw [run_append]
      · intro succeeded
        cases succeeded
  | ok _ =>
      obtain ⟨store, restored, facts⟩ := installEntries_ok result
      obtain ⟨owner, present, -, replica, current⟩ := facts.replica
      have owners : pair.leader.metadata.SameOwners
          (run Pair.step installed after).leader.metadata := by
        have kept := installed.run_sameOwners after
        simp only [installed, restored] at kept ⊢
        exact (pair.run_sameOwners between).trans kept
      obtain ⟨metadata, recorded⟩ := Node.recordApplied_of_owner
        ((owners.owner transfer.slot).trans present)
        (replica.trans owners.localID.symm) current
      have succeeds : outcome = (.ok (),
          { run Pair.step installed after with
            leader := { (run Pair.step installed after).leader with
              metadata := metadata } }) := by
        simp only [outcome, applyShardSnapshot, result]
        rw [recorded]
      have dataset : installed.leader.dataset = store.dataset := by
        simp only [installed, restored]
        rfl
      have merged : ∀ key, slotOf key ≠ transfer.slot →
          installed.leader.dataset key =
            liveAt restoreTime (pair.leader.dataset key) := by
        intro key other
        rw [dataset, facts.others key other, liveAt_liveAt ordered]
      rw [succeeds]
      refine ⟨?_, fun _ => ⟨rfl, ?_, ?_, ?_, ?_⟩⟩
      · intro _ failed
        cases failed
      · rw [dataset]
        exact facts.transferred
      · rw [dataset]
        exact facts.unlisted
      · intro kept key other
        have atRestore := kept key other restoreTime (le_refl restoreTime)
        rwa [merged key other, liveAt_liveAt (le_refl restoreTime)] at atRestore
      · intro same key other reading after
        rw [merged key other, same key other, liveAt_liveAt after]

section Examples

attribute [local instance] FloatText.rejecting

/-- Two empty nodes: the first leads slot 0, the second slot 1. -/
def crossedPair : Pair :=
  boot { twoPeerConfig with slotCount := 2 } "node-1" "node-2"
    { store := .new 1, limitBytes := 0, policy := .noEviction }

/-- A transfer of slot 1 with one entry. -/
def slotOneTransfer : ShardSnapshot :=
  { sourceNodeID := "node-2", slot := 1, term := 1, sequence := 0
    entries := [{ key := .ascii "b", valueType := "string", value := .ascii "x"
                  approxSize := 66, expiresAtNs := 0 }] }

/-- An acknowledged write to slot 0 is undone by the installation of slot 1. -/
theorem acknowledged_write_undone_by_installation :
    let call := setCall 1 (.answered fun _ => 1) "k" "v"
    let outcome := crossedPair.applyShardSnapshot slotOneTransfer 0 2 [call] []
    crossedPair.leader.metadata.Leads 0 ∧
    crossedPair.leader.metadata.slotForKey (.ascii "k") = 0 ∧
    (crossedPair.execute call).1 = .ok ∧
    ((crossedPair.step call).leader.dataset (.ascii "k")).isSome = true ∧
    outcome.1 = .ok () ∧ outcome.2.leader.dataset (.ascii "k") = none := by
  refine ⟨⟨_, rfl, rfl⟩, by decide, rfl, by decide, by decide, by decide⟩

/-- A write that fails between the locked steps and one that succeeds after
them. -/
theorem installation_keeps_later_write :
    let failing := setCall 1 (.undelivered "down") "k" "u"
    let call := setCall 3 (.answered fun _ => 3) "k" "v"
    let outcome :=
      crossedPair.applyShardSnapshot slotOneTransfer 0 2 [failing] [call]
    let installed := (crossedPair.installEntries slotOneTransfer 0 2 [failing]).2
    outcome.1 = .ok () ∧
    (outcome.2.leader.dataset (.ascii "k")).isSome = true ∧
    ∀ key, crossedPair.leader.metadata.slotForKey key ≠ 1 → ∀ reading ≥ 2,
      liveAt reading (installed.leader.dataset key) =
        liveAt reading
          ((run Pair.step crossedPair [failing]).leader.dataset key) := by
  refine ⟨by decide, by decide, ?_⟩
  refine ((installation_keeps_other_slots_iff crossedPair slotOneTransfer 0 2
    (by decide) [setCall 1 (.undelivered "down") "k" "u"]
    [setCall 3 (.answered fun _ => 3) "k" "v"]).2 (by decide)).2.2.2.mpr ?_
  intro key _
  rfl

end Examples
end Pair
end MnemoKV
