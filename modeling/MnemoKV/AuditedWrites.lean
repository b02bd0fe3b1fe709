import MnemoKV.ReliableLinks
import MnemoKV.StoreChanges

/-!
# Writes and their acknowledgements

An audit remembers, next to the state of replication, which records the replica
has acknowledged so far.  The leader changes its store only between two records,
so the moments of a write are the ends of the same write over a link that breaks
after some number of records.  At each of them the changes made so far are
compared with the records acknowledged so far.
-/

namespace MnemoKV

/-! ### Hooks with more state -/

namespace Engine

variable {σ τ : Type} {detailed : WriteHook σ} {project : σ → τ}
  {plain : WriteHook τ}

end Engine

/-! ### The audit -/

/-- The state of replication and the records acknowledged so far. -/
structure Audit where
  replication : Replication
  acknowledged : List ReplicationRecord

namespace Replication

/-- The record that `Replicate` sends for a command, if it sends one. -/
def outgoing (state : Replication) (cmd : Command) : Option ReplicationRecord :=
  if cmd.extractPrimaryKey = [] then none
  else
    let slot := state.metadata.slotForKey cmd.extractPrimaryKey
    match state.metadata.prepareReplication slot with
    | .error _ => none
    | .ok (row, sequence) => some (state.recordOf slot row sequence cmd)

end Replication

namespace Audit

def start (replication : Replication) : Audit :=
  { replication := replication, acknowledged := [] }

/-- The command's record for the slot is among the acknowledged ones. -/
def Acknowledged (audit : Audit) (slot : Nat) (cmd : Command) : Prop :=
  ∃ record ∈ audit.acknowledged, record.slot = slot ∧
    record.args = cmd.name :: cmd.args

variable [FloatText]

/-- The replicator's hook with a log of the records it got acknowledged. -/
def hook (link : Nat → Delivery) : WriteHook Audit :=
  { run := fun cmd audit =>
      let (result, next) := audit.replication.replicate link cmd
      (result,
        { replication := next
          acknowledged :=
            match result with
            | .ok () => (audit.replication.outgoing cmd).toList ++ audit.acknowledged
            | .error _ => audit.acknowledged })
    synchronous := true }

variable {link : Nat → Delivery} {cmd : Command} {audit next : Audit}

theorem acknowledged_subset (link : Nat → Delivery) (cmd : Command)
    (audit : Audit) :
    audit.acknowledged ⊆ ((hook link).run cmd audit).2.acknowledged := by
  unfold hook
  dsimp only
  split
  · exact List.subset_append_right _ _
  · exact List.Subset.refl _

theorem hook_ok (accepted : (hook link).run cmd audit = (.ok (), next)) :
    (audit.replication.replicate link cmd).1 = .ok () ∧ next.acknowledged =
      (audit.replication.outgoing cmd).toList ++ audit.acknowledged := by
  have result : (audit.replication.replicate link cmd).1 = .ok () :=
    congrArg Prod.fst accepted
  have last := congrArg Prod.snd accepted
  unfold hook at last
  simp only [result] at last
  exact ⟨result, by rw [← last]⟩

end Audit

/-- What an acknowledged record is known to be. -/
structure ReplicationRecord.Genuine (record : ReplicationRecord)
    (metadata : Metadata) (cmd : Command) : Prop where
  keyed : cmd.extractPrimaryKey ≠ []
  args : record.args = cmd.name :: cmd.args
  slot : record.slot = metadata.slotForKey cmd.extractPrimaryKey
  source : record.sourceNodeID = metadata.localID
  term : ∃ row, metadata.owner record.slot = some row ∧ record.term = row.term
  sequence : record.sequence < 2 ^ 64
  sendable : record.Sendable

theorem ReplicationRecord.Genuine.congr {record : ReplicationRecord}
    {before after : Metadata} {cmd : Command} (genuine : record.Genuine after cmd)
    (same : before.SameOwners after) : record.Genuine before cmd := by
  refine ⟨genuine.keyed, genuine.args, ?_, ?_, ?_, genuine.sequence,
    genuine.sendable⟩
  · rw [genuine.slot, same.slotForKey]
  · rw [genuine.source, same.localID]
  · obtain ⟨row, owned, term⟩ := genuine.term
    exact ⟨row, (same.owner _).symm.trans owned, term⟩

theorem Replication.genuine_of_ok [FloatText] {state : Replication}
    {link : Nat → Delivery} {cmd : Command} (keyed : cmd.extractPrimaryKey ≠ [])
    (result : (state.replicate link cmd).1 = .ok ()) :
    ∃ record, state.outgoing cmd = some record ∧
      record.Genuine state.metadata cmd ∧
      ∃ now, link state.sent = .answered now := by
  unfold replicate at result
  rw [if_neg keyed] at result
  dsimp only at result
  cases prepared : state.metadata.prepareReplication
      (state.metadata.slotForKey cmd.extractPrimaryKey) with
  | error failure =>
      rw [prepared] at result
      cases result
  | ok prepares =>
      obtain ⟨row, sequence⟩ := prepares
      rw [prepared] at result
      dsimp only at result
      obtain ⟨present, -, -, -, number⟩ := Metadata.prepareReplication_ok prepared
      refine ⟨state.recordOf (state.metadata.slotForKey cmd.extractPrimaryKey) row
        sequence cmd, by simp [outgoing, keyed, prepared],
        ⟨keyed, rfl, rfl, rfl, ?_, ?_, ?_⟩, ?_⟩
      · exact ⟨_, congrArg (Option.map SlotState.ownership) present, rfl⟩
      · exact number ▸ nextSequence_lt _
      · by_contra large
        obtain ⟨text, refused⟩ := transmit_of_not_sendable large _ _ _ _
        rw [refused] at result
        cases result
      · split_ifs at result with there
        · cases fate : link state.sent with
          | answered now => exact ⟨now, rfl⟩
          | undelivered text =>
              rw [fate] at result
              cases result
          | unanswered now text =>
              rw [fate] at result
              unfold transmit at result
              dsimp only at result
              split at result <;> cases result
        · cases result

namespace Audit

variable [FloatText] {link : Nat → Delivery} {cmd : Command} {audit next : Audit}

theorem acknowledged_of_ok (keyed : cmd.extractPrimaryKey ≠ [])
    (accepted : (hook link).run cmd audit = (.ok (), next)) :
    next.Acknowledged
      (audit.replication.metadata.slotForKey cmd.extractPrimaryKey) cmd := by
  obtain ⟨result, log⟩ := hook_ok accepted
  obtain ⟨record, sent, genuine, -⟩ := Replication.genuine_of_ok keyed result
  refine ⟨record, ?_, genuine.slot, genuine.args⟩
  rw [log, sent]
  exact List.mem_append_left _ (List.mem_singleton_self _)

theorem Acknowledged.run {slot : Nat} {sent : Command}
    (acknowledged : audit.Acknowledged slot sent) (link : Nat → Delivery)
    (cmd : Command) : ((hook link).run cmd audit).2.Acknowledged slot sent := by
  obtain ⟨record, listed, fits⟩ := acknowledged
  exact ⟨record, acknowledged_subset link cmd audit listed, fits⟩

/-- Every acknowledged record is genuine for some command. -/
structure Trusted (audit : Audit) (metadata : Metadata) : Prop where
  owners : metadata.SameOwners audit.replication.metadata
  genuine : ∀ record ∈ audit.acknowledged, ∃ cmd, record.Genuine metadata cmd

theorem Trusted.run {metadata : Metadata} {result : Except String Unit}
    (trusted : audit.Trusted metadata)
    (ran : (hook link).run cmd audit = (result, next)) : next.Trusted metadata := by
  have last : next = ((hook link).run cmd audit).2 := by rw [ran]
  refine ⟨?_, fun record listed => ?_⟩
  · rw [last]
    exact trusted.owners.trans (Replication.replicate_sameOwners link cmd _)
  · cases result with
    | error text =>
        have failed : (audit.replication.replicate link cmd).1 = .error text :=
          congrArg Prod.fst ran
        rw [last] at listed
        unfold hook at listed
        simp only [failed] at listed
        exact trusted.genuine record listed
    | ok =>
        obtain ⟨answered, log⟩ := hook_ok ran
        rw [log, List.mem_append, Option.mem_toList] at listed
        rcases listed with sent | earlier
        · by_cases keyed : cmd.extractPrimaryKey = []
          · simp [Replication.outgoing, keyed] at sent
          · obtain ⟨_, same, genuine, -⟩ := Replication.genuine_of_ok keyed answered
            obtain rfl := Option.some.inj (same.symm.trans sent)
            exact ⟨cmd, genuine.congr trusted.owners⟩
        · exact trusted.genuine record earlier

end Audit

/-! ### Planning and eviction -/

namespace Pair

variable [FloatText]

/-- The audit at the end of a client command. -/
def audited (pair : Pair) (call : ClientCall) : Audit :=
  match pair.leader.route call.cmd with
  | .here => (pair.leader.engine.execute (some (Audit.hook call.link)) call.clock
      call.choices call.cmd (.start pair.replication)).2.2
  | _ => .start pair.replication

variable {pair : Pair} {call : ClientCall} {store : Store} {audit next : Audit}

/-- What is gone or changed in the course of a write has its acknowledged
record, the empty key apart. -/
structure Audits (pair : Pair) (call : ClientCall) (store : Store)
    (audit : Audit) : Prop where
  owners : pair.leader.metadata.SameOwners audit.replication.metadata
  own : call.cmd.extractPrimaryKey ≠ [] → ∀ key ∈ call.cmd.extractKeys,
    store.find key ≠ pair.leader.engine.store.find key →
    audit.Acknowledged (pair.leader.metadata.slotForKey key) call.cmd
  evicted : ∀ key ∉ call.cmd.extractKeys, key ≠ [] →
    pair.leader.engine.store.find key ≠ none → store.find key = none →
    audit.Acknowledged (pair.leader.metadata.slotForKey key)
      (Engine.evictionDeleteCommand key)

theorem Audits.transmit {result : Except String Unit} {sent : Command}
    (audits : pair.Audits call store audit)
    (ran : (Audit.hook call.link).run sent audit = (result, next)) :
    pair.Audits call store next := by
  obtain rfl : ((Audit.hook call.link).run sent audit).2 = next := by rw [ran]
  exact ⟨audits.owners.trans (Replication.replicate_sameOwners call.link sent _),
    fun keyed key listed changed => (audits.own keyed key listed changed).run _ _,
    fun key other nonempty stored gone =>
      (audits.evicted key other nonempty stored gone).run _ _⟩

/-- An accepted eviction is acknowledged before the key goes away. -/
theorem Audits.evict {key : Bytes} (audits : pair.Audits call store audit)
    (foreign : key ∉ call.cmd.extractKeys)
    (accepted : (Audit.hook call.link).run (Engine.evictionDeleteCommand key)
      audit = (.ok (), next)) :
    pair.Audits call (store.deleteWithSize key).2 next := by
  have sent := audits.transmit accepted
  refine ⟨sent.owners, fun keyed own listed => ?_, fun other outside nonempty stored => ?_⟩
  · have different : key ≠ own := fun same => foreign (same ▸ listed)
    rw [Store.find_deleteWithSize, if_neg different]
    exact sent.own keyed own listed
  · rw [Store.find_deleteWithSize]
    split_ifs with same
    · subst same
      have keyed : (Engine.evictionDeleteCommand key).extractPrimaryKey ≠ [] :=
        nonempty
      have acknowledged := Audit.acknowledged_of_ok keyed accepted
      rw [audits.owners.slotForKey] at acknowledged
      exact fun _ => acknowledged
    · exact sent.evicted other outside nonempty stored

/-- An accepted command is acknowledged before it is executed. -/
theorem Audits.execute (audits : pair.Audits call store audit)
    (kept : call.cmd.isFlush = false)
    (oneSlot : call.cmd.KeysIn fun key => pair.leader.metadata.slotForKey key =
      pair.leader.metadata.slotForKey call.cmd.extractPrimaryKey)
    (accepted : (Audit.hook call.link).run call.cmd audit = (.ok (), next)) :
    pair.Audits call (Executor.execute call.clock.exec call.cmd store).2 next := by
  have sent := audits.transmit accepted
  refine ⟨sent.owners, fun keyed key listed _ => ?_,
    fun key other nonempty stored gone => sent.evicted key other nonempty stored ?_⟩
  · have acknowledged := Audit.acknowledged_of_ok keyed accepted
    rw [audits.owners.slotForKey] at acknowledged
    rw [oneSlot key listed]
    exact acknowledged
  · have outcome := Executor.observe_execute call.clock.exec call.cmd store
    have same := Command.action_perform_of_not_mem call.clock.exec call.cmd kept
      other store.dataset
    rw [← congrArg Prod.snd outcome] at same
    have absent : store.dataset key = none := by
      rw [← same]
      exact congrArg (Option.map Entry.item) gone
    exact Option.map_eq_none_iff.mp absent

section Planned

variable {plan : AdmissionPlan} {planned : Store}
  (planning : pair.leader.engine.store.planAdmission call.clock.plan call.cmd =
    (plan, planned))

include planning

end Planned

end Pair

/-! ### Moments of a write -/

/-- The call over a link that breaks after a number of records.  The leader stops
at the next record, so the end of this call is the leader's state before it. -/
def ClientCall.upTo (call : ClientCall) (count : Nat) : ClientCall :=
  { call with
    link := fun index =>
      if index < count then call.link index else .undelivered "" }

/-- A changed entry of the command has the command's acknowledged record for the
slot of its key, and another entry that is gone has that of its deletion. -/
structure Pair.Covered [FloatText] (pair : Pair) (call : ClientCall) : Prop where
  own : ∀ key ∈ call.cmd.extractKeys, (pair.step call).leader.engine.store.find key ≠
    pair.leader.engine.store.find key →
    (pair.audited call).Acknowledged (pair.leader.metadata.slotForKey key) call.cmd
  evicted : ∀ key ∉ call.cmd.extractKeys, pair.leader.engine.store.find key ≠ none →
    (pair.step call).leader.engine.store.find key = none →
    (pair.audited call).Acknowledged (pair.leader.metadata.slotForKey key)
      (Engine.evictionDeleteCommand key)

section Examples

attribute [local instance] FloatText.rejecting

end Examples

end MnemoKV
