import MnemoKV.ByteStrings
import MnemoKV.ClusterErrors
import MnemoKV.DecimalNumerals
import Mathlib.Data.List.Sort

/-!
# The fixed-slot metadata table

One `Metadata` value is the slot map a node uses for routing, fencing and
replication.  Every operation of `internal/cluster/metadata.go` that reads or
writes the table appears here under its own name; an operation that fails
leaves the table as it was, which `Except` makes structural.  Sequence
numbers count in `uint64` and wrap around; terms and versions, which only
topology changes move, are naturals.
-/

namespace MnemoKV

/-- The number after `sequence` in the source's `uint64` arithmetic. -/
def nextSequence (sequence : Nat) : Nat :=
  (sequence + 1) % 2 ^ 64

theorem nextSequence_lt (sequence : Nat) : nextSequence sequence < 2 ^ 64 :=
  Nat.mod_lt _ (by decide)

theorem nextSequence_of_lt {sequence : Nat} (room : sequence + 1 < 2 ^ 64) :
    nextSequence sequence = sequence + 1 :=
  Nat.mod_eq_of_lt room

/-- Ownership and replication state of one slot. -/
structure SlotState where
  number : Nat
  leaderID : String
  replicaID : String
  term : Nat
  lastSequence : Nat
  lastAppliedSequence : Nat
  replicaReady : Bool
  deriving DecidableEq, Repr

/-- A configured peer with its two addresses. -/
structure MetadataPeer where
  id : String
  address : String
  apiAddress : String
  deriving DecidableEq, Repr

/-- The part of the metadata that nodes send each other. -/
structure MetadataSnapshot where
  clusterID : String
  version : Nat
  slotCount : Nat
  peers : List MetadataPeer
  slots : List SlotState
  deriving DecidableEq, Repr

/-- What a node knows of its cluster. -/
structure Metadata where
  clusterID : String
  version : Nat
  slotCount : Nat
  localID : String
  peers : List MetadataPeer
  peerIDs : List String
  slots : List SlotState
  deriving DecidableEq, Repr

/-- A leader-to-replica record; `args` is the command name followed by its
arguments. -/
structure ReplicationRecord where
  sourceNodeID : String
  slot : Nat
  term : Nat
  sequence : Nat
  args : List Bytes
  deriving DecidableEq, Repr

/-- What follows `REPLICATE` when the record is sent. -/
def ReplicationRecord.arguments (record : ReplicationRecord) : List Bytes :=
  record.sourceNodeID.toUTF8.data.toList ::
    DecimalNumerals.write record.slot :: DecimalNumerals.write record.term ::
    DecimalNumerals.write record.sequence :: record.args

/-- The part of the cluster configuration that `NewMetadata` reads. -/
structure ClusterConfig where
  id : String
  enabled : Bool
  replicationEnabled : Bool
  slotCount : Nat
  peers : List MetadataPeer
  deriving DecidableEq, Repr

/-- Number of slots of the peer at `ownerIndex`: the first `remainder` owners
take one slot more than the rest. -/
def ownedSlotCount (slotCount peerCount ownerIndex : Nat) : Nat :=
  slotCount / peerCount + if ownerIndex < slotCount % peerCount then 1 else 0

/-- The slot table handed out by `NewMetadata`: contiguous ranges in the order
of `peerIDs`, each replicated on the next peer. -/
def initialSlots (config : ClusterConfig) (peerIDs : List String) :
    List SlotState :=
  let owners := peerIDs.zipIdx.flatMap fun owner =>
    List.replicate
      (ownedSlotCount config.slotCount peerIDs.length owner.2) owner
  owners.mapIdx fun slot owner =>
    { number := slot
      leaderID := owner.1
      replicaID :=
        if config.replicationEnabled then
          peerIDs.getD ((owner.2 + 1) % peerIDs.length) ""
        else ""
      term := 1
      lastSequence := 0
      lastAppliedSequence := 0
      replicaReady := config.replicationEnabled }

/-- The metadata of a node that starts for the first time. -/
def newMetadata (config : ClusterConfig) (localID : String) : Metadata :=
  let blank : Metadata :=
    { clusterID := config.id, version := 1, slotCount := config.slotCount,
      localID := localID, peers := [], peerIDs := [], slots := [] }
  if !config.enabled || config.slotCount == 0 || config.peers.isEmpty then blank
  else
    let peerIDs := (config.peers.map MetadataPeer.id).insertionSort (· ≤ ·)
    { blank with
      peers := config.peers.insertionSort
        (fun first second => first.id ≤ second.id)
      peerIDs := config.peers.map MetadataPeer.id
      slots := initialSlots config peerIDs }

namespace Metadata

def slot (metadata : Metadata) (number : Nat) : Option SlotState :=
  metadata.slots[number]?

def snapshot (metadata : Metadata) : MetadataSnapshot :=
  { clusterID := metadata.clusterID, version := metadata.version,
    slotCount := metadata.slotCount, peers := metadata.peers,
    slots := metadata.slots }

/-- Overwrite one slot, as the source does through `state := &m.slots[number]`. -/
def setSlot (metadata : Metadata) (number : Nat) (state : SlotState) : Metadata :=
  { metadata with slots := metadata.slots.set number state }

def bumpVersion (metadata : Metadata) : Metadata :=
  { metadata with version := metadata.version + 1 }

/-- The sequence number and the replica for a write to a slot that the node leads. -/
def prepareReplication (metadata : Metadata) (number : Nat) :
    Except ClusterError (SlotState × Nat) :=
  match metadata.slot number with
  | none => .error .slotOutOfRange
  | some state =>
      if state.leaderID ≠ metadata.localID then .error .notLeader
      else if state.replicaID = "" ∨ state.replicaReady = false then
        .error .replicaUnavailable
      else .ok (state, nextSequence state.lastSequence)

/-- The leader counts an acknowledged write. -/
def commitLeaderSequence (metadata : Metadata) (number term sequence : Nat) :
    Except ClusterError Metadata :=
  match metadata.slot number with
  | none => .error .slotOutOfRange
  | some state =>
      if state.leaderID ≠ metadata.localID ∨ state.term ≠ term then
        .error .staleTerm
      else if sequence ≠ nextSequence state.lastSequence then .error .sequenceGap
      else .ok (metadata.setSlot number
        { state with lastSequence := sequence, lastAppliedSequence := sequence })

/-- `true` means the record is a duplicate and must not be applied again. -/
def validateReplication (metadata : Metadata) (record : ReplicationRecord) :
    Except ClusterError Bool :=
  match metadata.slot record.slot with
  | none => .error .slotOutOfRange
  | some state =>
      if state.replicaID ≠ metadata.localID then .error .notReplica
      else if record.term ≠ state.term ∨ record.sourceNodeID ≠ state.leaderID then
        .error .staleTerm
      else if record.sequence ≤ state.lastAppliedSequence then .ok true
      else if record.sequence ≠ nextSequence state.lastAppliedSequence then
        .error .sequenceGap
      else .ok false

def commitReplicaSequence (metadata : Metadata) (number term sequence : Nat) :
    Except ClusterError Metadata :=
  match metadata.slot number with
  | none => .error .slotOutOfRange
  | some state =>
      if state.replicaID ≠ metadata.localID ∨ state.term ≠ term then
        .error .staleTerm
      else if sequence ≠ nextSequence state.lastAppliedSequence then
        .error .sequenceGap
      else .ok (metadata.setSlot number
        { state with
          lastAppliedSequence := sequence
          lastSequence :=
            if sequence > state.lastSequence then sequence
            else state.lastSequence })

/-- The replica takes over, under a new term. -/
def promote (metadata : Metadata) (number : Nat) :
    Except ClusterError Metadata :=
  match metadata.slot number with
  | none => .error .slotOutOfRange
  | some state =>
      if state.replicaID = "" then .error .noReplicaAssigned
      else .ok (metadata.setSlot number
        { state with
          leaderID := state.replicaID, replicaID := "", replicaReady := false,
          term := state.term + 1, lastSequence := 0,
          lastAppliedSequence := 0 }).bumpVersion

/-- The slot gets a replica, which is not ready yet. -/
def assignReplica (metadata : Metadata) (number : Nat) (nodeID : String) :
    Except ClusterError Metadata :=
  match metadata.slot number with
  | none => .error .slotOutOfRange
  | some state =>
      if nodeID ∉ metadata.peerIDs then .error (.unknownNode nodeID)
      else if nodeID = state.leaderID then .error .replicaIsLeader
      else .ok (metadata.setSlot number
        { state with
          replicaID := nodeID, replicaReady := false, term := state.term + 1,
          lastSequence := 0, lastAppliedSequence := 0 }).bumpVersion

def markReplicaReady (metadata : Metadata) (number term sequence : Nat) :
    Except ClusterError Metadata :=
  match metadata.slot number with
  | none => .error .slotOutOfRange
  | some state =>
      if state.leaderID ≠ metadata.localID ∨ state.term ≠ term ∨
          state.replicaID = "" then .error .staleTerm
      else .ok (metadata.setSlot number
        { state with
          replicaReady := true, lastSequence := sequence,
          lastAppliedSequence := sequence }).bumpVersion

def setReplicaApplied (metadata : Metadata) (number term sequence : Nat) :
    Except ClusterError Metadata :=
  match metadata.slot number with
  | none => .error .slotOutOfRange
  | some state =>
      if state.term ≠ term ∨ state.replicaID ≠ metadata.localID then
        .error .staleTerm
      else .ok (metadata.setSlot number
        { state with
          lastAppliedSequence := sequence, lastSequence := sequence })

/-- Peers are named, reachable and listed in strictly ascending order. -/
def validPeers : List MetadataPeer → Bool
  | [] => true
  | [peer] => peer.id != "" && peer.address != "" && peer.apiAddress != ""
  | first :: second :: rest =>
      first.id != "" && first.address != "" && first.apiAddress != "" &&
        decide (first.id < second.id) && validPeers (second :: rest)

def validSlots (slots : List SlotState) : Bool :=
  slots.zipIdx.all fun indexed =>
    indexed.1.number == indexed.2 && indexed.1.leaderID != "" &&
      indexed.1.term != 0

def validateMetadataSnapshot (incoming : MetadataSnapshot) : Bool :=
  incoming.clusterID != "" && incoming.slotCount != 0 &&
    decide (2 ≤ incoming.peers.length) && decide (incoming.peers.length ≤ 5) &&
    incoming.slots.length == incoming.slotCount && validPeers incoming.peers &&
    validSlots incoming.slots

/-- The row installed for an incoming slot.  A merge (`allowEqual` unset) of a
row of the current term keeps the local applied counter. -/
def mergeSlot (allowEqual : Bool) (current : Option SlotState)
    (incoming : SlotState) : SlotState :=
  match current with
  | none => incoming
  | some state =>
      if !allowEqual && state.term == incoming.term then
        { incoming with lastAppliedSequence := state.lastAppliedSequence }
      else incoming

/-- Takes a table that is newer, or as new where that is allowed. -/
def apply (metadata : Metadata) (incoming : MetadataSnapshot)
    (allowEqual : Bool) : Except ClusterError Metadata :=
  if !validateMetadataSnapshot incoming then .error .clusterMismatch
  else if incoming.clusterID ≠ metadata.clusterID ∨
      incoming.slotCount ≠ metadata.slotCount then .error .clusterMismatch
  else if incoming.peers ≠ metadata.peers then .error .clusterMismatch
  else if incoming.version < metadata.version ∨
      (allowEqual = false ∧ incoming.version = metadata.version) then
    .error .staleMetadata
  else .ok
    { metadata with
      version := incoming.version
      slots := incoming.slots.mapIdx fun index row =>
        mergeSlot allowEqual metadata.slots[index]? row }

def applyRemote (metadata : Metadata) (incoming : MetadataSnapshot) :
    Except ClusterError Metadata :=
  metadata.apply incoming false

/-- Takes the table of a file. -/
def restore (metadata : Metadata) (incoming : MetadataSnapshot) :
    Except ClusterError Metadata :=
  metadata.apply incoming true

@[simp]
theorem slot_setSlot_self {metadata : Metadata} {number : Nat}
    {old : SlotState} (present : metadata.slot number = some old)
    (state : SlotState) :
    (metadata.setSlot number state).slot number = some state := by
  have inRange : number < metadata.slots.length :=
    (List.getElem?_eq_some_iff.mp present).1
  simp [slot, setSlot, inRange]

@[simp]
theorem slot_setSlot_of_ne {metadata : Metadata} {number other : Nat}
    (distinct : number ≠ other) (state : SlotState) :
    (metadata.setSlot number state).slot other = metadata.slot other := by
  simp [slot, setSlot, List.getElem?_set_ne distinct]

theorem prepareReplication_ok {metadata : Metadata} {number : Nat}
    {state : SlotState} {sequence : Nat}
    (prepared : metadata.prepareReplication number = .ok (state, sequence)) :
    metadata.slot number = some state ∧ state.leaderID = metadata.localID ∧
      state.replicaID ≠ "" ∧ state.replicaReady = true ∧
      sequence = nextSequence state.lastSequence := by
  unfold prepareReplication at prepared
  split at prepared
  · cases prepared
  · rename_i current present
    split_ifs at prepared with foreign unready
    simp only [not_not] at foreign
    simp only [not_or, Bool.not_eq_false] at unready
    cases prepared
    exact ⟨present, foreign, unready.1, unready.2, rfl⟩

theorem commitLeaderSequence_ok {metadata result : Metadata}
    {number term sequence : Nat}
    (committed : metadata.commitLeaderSequence number term sequence =
      .ok result) :
    ∃ state, metadata.slot number = some state ∧
      state.leaderID = metadata.localID ∧ state.term = term ∧
      sequence = nextSequence state.lastSequence ∧
      result = metadata.setSlot number
        { state with
          lastSequence := sequence, lastAppliedSequence := sequence } := by
  unfold commitLeaderSequence at committed
  split at committed
  · cases committed
  · rename_i state present
    split_ifs at committed with stale gap
    simp only [not_or, not_not] at stale gap
    cases committed
    exact ⟨state, present, stale.1, stale.2, gap, rfl⟩

theorem commitReplicaSequence_ok {metadata result : Metadata}
    {number term sequence : Nat}
    (committed : metadata.commitReplicaSequence number term sequence =
      .ok result) :
    ∃ state, metadata.slot number = some state ∧
      state.replicaID = metadata.localID ∧ state.term = term ∧
      sequence = nextSequence state.lastAppliedSequence ∧
      result = metadata.setSlot number
        { state with
          lastAppliedSequence := sequence
          lastSequence :=
            if sequence > state.lastSequence then sequence
            else state.lastSequence } := by
  unfold commitReplicaSequence at committed
  split at committed
  · cases committed
  · rename_i state present
    split at committed
    · cases committed
    · rename_i current
      split at committed
      · cases committed
      · rename_i successor
        simp only [not_or, not_not] at current successor
        cases committed
        exact ⟨state, present, current.1, current.2, successor, rfl⟩

theorem promote_ok {metadata result : Metadata} {number : Nat}
    (promoted : metadata.promote number = .ok result) :
    ∃ state, metadata.slot number = some state ∧ state.replicaID ≠ "" ∧
      result = (metadata.setSlot number
        { state with
          leaderID := state.replicaID, replicaID := "", replicaReady := false,
          term := state.term + 1, lastSequence := 0,
          lastAppliedSequence := 0 }).bumpVersion := by
  unfold promote at promoted
  split at promoted
  · cases promoted
  · rename_i state present
    split_ifs at promoted with unassigned
    cases promoted
    exact ⟨state, present, unassigned, rfl⟩

theorem assignReplica_ok {metadata result : Metadata} {number : Nat}
    {nodeID : String}
    (assigned : metadata.assignReplica number nodeID = .ok result) :
    ∃ state, metadata.slot number = some state ∧
      nodeID ∈ metadata.peerIDs ∧ nodeID ≠ state.leaderID ∧
      result = (metadata.setSlot number
        { state with
          replicaID := nodeID, replicaReady := false, term := state.term + 1,
          lastSequence := 0, lastAppliedSequence := 0 }).bumpVersion := by
  unfold assignReplica at assigned
  split at assigned
  · cases assigned
  · rename_i state present
    split_ifs at assigned with unknown leader
    cases assigned
    exact ⟨state, present, unknown, leader, rfl⟩

theorem markReplicaReady_ok {metadata result : Metadata}
    {number term sequence : Nat}
    (marked : metadata.markReplicaReady number term sequence = .ok result) :
    ∃ state, metadata.slot number = some state ∧
      state.leaderID = metadata.localID ∧ state.term = term ∧
      state.replicaID ≠ "" ∧
      result = (metadata.setSlot number
        { state with
          replicaReady := true, lastSequence := sequence,
          lastAppliedSequence := sequence }).bumpVersion := by
  unfold markReplicaReady at marked
  split at marked
  · cases marked
  · rename_i state present
    split_ifs at marked with stale
    simp only [not_or, not_not] at stale
    cases marked
    exact ⟨state, present, stale.1, stale.2.1, stale.2.2, rfl⟩

theorem apply_ok {metadata result : Metadata} {incoming : MetadataSnapshot}
    {allowEqual : Bool}
    (applied : metadata.apply incoming allowEqual = .ok result) :
    validateMetadataSnapshot incoming = true ∧
      metadata.version ≤ incoming.version ∧
      (allowEqual = false → metadata.version < incoming.version) ∧
      result =
        { metadata with
          version := incoming.version
          slots := incoming.slots.mapIdx fun index row =>
            mergeSlot allowEqual metadata.slots[index]? row } := by
  unfold apply at applied
  split_ifs at applied with invalid foreign peers stale
  simp only [Bool.not_eq_true', Bool.not_eq_false] at invalid
  simp only [not_or, not_and, Nat.not_lt] at stale
  cases applied
  refine ⟨invalid, stale.1, ?_, rfl⟩
  intro merging
  exact Nat.lt_of_le_of_ne stale.1 (Ne.symm (stale.2 merging))

end Metadata
end MnemoKV
