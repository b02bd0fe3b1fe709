import MnemoKV.ClusterNode
import MnemoKV.RequestParsing

/-!
# Synchronous replication over an unreliable link

`Replicator.Replicate` as a write hook.  Its state holds the leader's slot
table and the replica node; the link decides for every record whether it
arrives and whether the reply comes back.  A history on the side remembers
which records the replica applied, which it acknowledged as duplicates, and
for each slot the command whose acknowledgement was lost last.
-/

namespace MnemoKV

/-- The fate of one `SendReplication`. -/
inductive Delivery
  | undelivered (text : String)
  | unanswered (now : Readings) (text : String)
  | answered (now : Readings)

/-- The replica's parser, which has limits of its own, takes the record. -/
def ReplicationRecord.Sendable (record : ReplicationRecord) : Prop :=
  WithinLimits (.ascii "REPLICATE" :: record.arguments)

instance (record : ReplicationRecord) : Decidable record.Sendable :=
  inferInstanceAs (Decidable (WithinLimits _))

/-- Ghost record of what the replica executed, skipped, or did not acknowledge. -/
structure History where
  applied : List ReplicationRecord
  suppressed : List ReplicationRecord
  unacked : Nat → Option Command

def History.empty : History :=
  { applied := [], suppressed := [], unacked := fun _ => none }

/-- The leader's side of replication, and the replica that it reaches. -/
structure Replication where
  metadata : Metadata
  replica : Node
  sent : Nat
  history : History

namespace Replication

/-- The record of a command under the next sequence number of its slot. -/
def recordOf (state : Replication) (slot : Nat) (row : SlotState)
    (sequence : Nat) (cmd : Command) : ReplicationRecord :=
  { sourceNodeID := state.metadata.localID, slot := slot, term := row.term
    sequence := sequence, args := cmd.name :: cmd.args }

/-- The record reaches the replica, if its parser takes it. -/
def deliver [FloatText] (now : Readings) (record : ReplicationRecord)
    (state : Replication) : Except ClusterError Unit × Replication :=
  if record.Sendable then
    let (result, replica) := state.replica.applyReplication now record
    let history :=
      match result, state.replica.metadata.validateReplication record with
      | .ok (), .ok true =>
          { state.history with
            suppressed := record :: state.history.suppressed }
      | .ok (), _ =>
          { state.history with applied := record :: state.history.applied }
      | .error _, _ => state.history
    (result, { state with replica := replica, history := history })
  else (.error .protocolError, state)

def setUnacked (state : Replication) (slot : Nat) (cmd : Option Command) :
    Replication :=
  { state with
    history := { state.history with
      unacked := Function.update state.history.unacked slot cmd } }

/-- The error of `SendReplication`, as `Replicate` wraps it. -/
def unavailableText (text : String) : String :=
  ClusterError.replicaUnavailable.text ++ ": " ++ text

def frameCode : ClusterError → String
  | .notLeader | .replicaUnavailable => "CLUSTERDOWN"
  | .staleTerm | .sequenceGap => "TRYAGAIN"
  | _ => "ERR"

def rejectionText (replicaID : String) (failure : ClusterError) : String :=
  match failure with
  | .sequenceGap | .staleTerm =>
      failure.text ++ ": replica " ++ replicaID ++ " rejected record"
  | _ => unavailableText ("replica " ++ replicaID ++ " rejected record: " ++
      frameCode failure ++ " " ++ failure.text)

/-- `SendReplication` and, once the reply is in, `CommitLeaderSequence`. -/
def transmit [FloatText] (delivery : Delivery) (record : ReplicationRecord)
    (replicaID : String) (cmd : Command) (state : Replication) :
    Except String Unit × Replication :=
  match delivery with
  | .undelivered text => (.error (unavailableText text), state)
  | .unanswered now text =>
      match state.deliver now record with
      | (.error _, next) => (.error (unavailableText text), next)
      | (.ok (), next) =>
          (.error (unavailableText text), next.setUnacked record.slot (some cmd))
  | .answered now =>
      match state.deliver now record with
      | (.error failure, next) =>
          (.error (rejectionText replicaID failure), next)
      | (.ok (), next) =>
          match next.metadata.commitLeaderSequence record.slot record.term
            record.sequence with
          | .error failure => (.error failure.text, next)
          | .ok metadata =>
              (.ok (), ({ next with metadata := metadata }).setUnacked
                record.slot none)

/-- `Replicator.Replicate`; a record for a node other than the replica does not
arrive. -/
def replicate [FloatText] (link : Nat → Delivery) (cmd : Command)
    (state : Replication) : Except String Unit × Replication :=
  if cmd.extractPrimaryKey = [] then (.ok (), state)
  else
    let slot := state.metadata.slotForKey cmd.extractPrimaryKey
    match state.metadata.prepareReplication slot with
    | .error failure => (.error failure.text, state)
    | .ok (row, sequence) =>
        let delivery :=
          if row.replicaID = state.replica.id then link state.sent
          else .undelivered ("unknown peer " ++ row.replicaID.quote)
        transmit delivery (state.recordOf slot row sequence cmd) row.replicaID
          cmd { state with sent := state.sent + 1 }

/-- The hook that `AttachEngine` installs. -/
def hook [FloatText] (link : Nat → Delivery) : WriteHook Replication :=
  { run := replicate link, synchronous := true }

theorem transmit_of_not_sendable [FloatText] {record : ReplicationRecord}
    (large : ¬ record.Sendable) (delivery : Delivery) (replicaID : String)
    (cmd : Command) (state : Replication) :
    ∃ text, state.transmit delivery record replicaID cmd =
      (.error text, state) := by
  cases delivery <;> simp [transmit, deliver, large]

end Replication

/-! ### What replication never changes -/

/-- Who owns a slot, in which term and whether the replica is ready. -/
structure Ownership where
  leaderID : String
  replicaID : String
  term : Nat
  ready : Bool
  deriving DecidableEq

def SlotState.ownership (row : SlotState) : Ownership :=
  { leaderID := row.leaderID, replicaID := row.replicaID, term := row.term
    ready := row.replicaReady }

namespace Metadata

def owner (metadata : Metadata) (slot : Nat) : Option Ownership :=
  (metadata.slot slot).map SlotState.ownership

def sequence (metadata : Metadata) (slot : Nat) : Nat :=
  (metadata.slot slot).elim 0 SlotState.lastSequence

def applied (metadata : Metadata) (slot : Nat) : Nat :=
  (metadata.slot slot).elim 0 SlotState.lastAppliedSequence

/-- Two tables that differ in counters only. -/
structure SameOwners (before after : Metadata) : Prop where
  localID : after.localID = before.localID
  slotCount : after.slotCount = before.slotCount
  owner : ∀ slot, after.owner slot = before.owner slot

theorem SameOwners.refl (metadata : Metadata) : SameOwners metadata metadata :=
  ⟨rfl, rfl, fun _ => rfl⟩

theorem SameOwners.trans {first second third : Metadata}
    (earlier : SameOwners first second) (later : SameOwners second third) :
    SameOwners first third :=
  ⟨later.localID.trans earlier.localID, later.slotCount.trans earlier.slotCount,
    fun slot => (later.owner slot).trans (earlier.owner slot)⟩

theorem SameOwners.slotForKey {before after : Metadata}
    (same : SameOwners before after) (key : Bytes) :
    after.slotForKey key = before.slotForKey key := by
  simp [Metadata.slotForKey, same.slotCount]

theorem sameOwners_setSlot {metadata : Metadata} {number : Nat}
    {old state : SlotState} (present : metadata.slot number = some old)
    (kept : state.ownership = old.ownership) :
    SameOwners metadata (metadata.setSlot number state) := by
  refine ⟨rfl, rfl, fun slot => ?_⟩
  by_cases same : number = slot
  · subst same
    simp [owner, slot_setSlot_self present, present, kept]
  · simp [owner, slot_setSlot_of_ne same]

theorem sequence_setSlot {metadata : Metadata} {number : Nat}
    {old : SlotState} (present : metadata.slot number = some old)
    (state : SlotState) (slot : Nat) :
    (metadata.setSlot number state).sequence slot =
      if slot = number then state.lastSequence else metadata.sequence slot := by
  by_cases same : slot = number
  · subst same
    simp [sequence, slot_setSlot_self present]
  · simp [sequence, slot_setSlot_of_ne (Ne.symm same), same]

theorem applied_setSlot {metadata : Metadata} {number : Nat}
    {old : SlotState} (present : metadata.slot number = some old)
    (state : SlotState) (slot : Nat) :
    (metadata.setSlot number state).applied slot =
      if slot = number then state.lastAppliedSequence
      else metadata.applied slot := by
  by_cases same : slot = number
  · subst same
    simp [applied, slot_setSlot_self present]
  · simp [applied, slot_setSlot_of_ne (Ne.symm same), same]

end Metadata

theorem counters_newMetadata {config : ClusterConfig} {localID : String}
    {number : Nat} {row : SlotState}
    (present : (newMetadata config localID).slot number = some row) :
    row.lastSequence = 0 ∧ row.lastAppliedSequence = 0 := by
  unfold newMetadata Metadata.slot at present
  dsimp only at present
  split_ifs at present
  · simp at present
  · simp only [initialSlots, List.getElem?_mapIdx, Option.map_eq_some_iff]
      at present
    obtain ⟨owner, -, rfl⟩ := present
    exact ⟨rfl, rfl⟩

theorem sequence_newMetadata (config : ClusterConfig) (localID : String)
    (slot : Nat) : (newMetadata config localID).sequence slot = 0 := by
  unfold Metadata.sequence
  cases present : (newMetadata config localID).slot slot with
  | none => rfl
  | some row => exact (counters_newMetadata present).1

theorem applied_newMetadata (config : ClusterConfig) (localID : String)
    (slot : Nat) : (newMetadata config localID).applied slot = 0 := by
  unfold Metadata.applied
  cases present : (newMetadata config localID).slot slot with
  | none => rfl
  | some row => exact (counters_newMetadata present).2

end MnemoKV
