import MnemoKV.ClusterMetadata

/-!
# The owners of the slots

A topology change replaces the leader or the replica of one slot, or marks the
replica ready, and makes a new version of the table.  Terms never fall, and within
a term the leader stays.
-/

namespace MnemoKV

/-- The part of a slot's row that topology changes write. -/
structure SlotOwners where
  leaderID : String
  replicaID : String
  term : Nat
  replicaReady : Bool
  deriving DecidableEq

def SlotState.owners (row : SlotState) : SlotOwners :=
  { leaderID := row.leaderID, replicaID := row.replicaID, term := row.term
    replicaReady := row.replicaReady }

namespace SlotOwners

/-- A slot has a leader other than its replica, and only a replica is ready. -/
structure WellFormed (slot : SlotOwners) : Prop where
  led : slot.leaderID ≠ ""
  apart : slot.leaderID ≠ slot.replicaID
  assigned : slot.replicaReady = true → slot.replicaID ≠ ""

/-- The term does not fall, and the leader stays within a term. -/
structure Precedes (old new : SlotOwners) : Prop where
  term_le : old.term ≤ new.term
  sameLeader : old.term = new.term → old.leaderID = new.leaderID

theorem Precedes.refl (slot : SlotOwners) : slot.Precedes slot :=
  ⟨Nat.le_refl _, fun _ => rfl⟩

theorem Precedes.trans {first second third : SlotOwners}
    (before : first.Precedes second) (after : second.Precedes third) :
    first.Precedes third := by
  have older := before.term_le
  have newer := after.term_le
  refine ⟨older.trans newer, fun same => ?_⟩
  exact (before.sameLeader (by omega)).trans (after.sameLeader (by omega))

end SlotOwners

abbrev OwnerTable := List SlotOwners

/-- Every slot of the old table is still there and has not gone back. -/
def OwnerTable.Precedes (old new : OwnerTable) : Prop :=
  List.Forall₂ SlotOwners.Precedes old new

def Metadata.owners (metadata : Metadata) : OwnerTable :=
  metadata.slots.map SlotState.owners

def MetadataSnapshot.owners (table : MetadataSnapshot) : OwnerTable :=
  table.slots.map SlotState.owners

namespace OwnerTable

theorem Precedes.refl (table : OwnerTable) : table.Precedes table := by
  induction table with
  | nil => exact .nil
  | cons slot rest induction => exact .cons (.refl slot) induction

theorem Precedes.trans {first second third : OwnerTable}
    (before : first.Precedes second) (after : second.Precedes third) :
    first.Precedes third := by
  induction before generalizing third with
  | nil => exact after
  | cons head tail induction =>
      cases after with
      | cons next rest => exact .cons (head.trans next) (induction rest)

theorem Precedes.row {old new : OwnerTable} (precedes : old.Precedes new)
    {number : Nat} {slot slot' : SlotOwners} (present : old[number]? = some slot)
    (present' : new[number]? = some slot') : slot.Precedes slot' := by
  induction precedes generalizing number with
  | nil => cases present
  | cons head tail induction =>
      cases number with
      | zero =>
          obtain rfl := Option.some.inj present
          obtain rfl := Option.some.inj present'
          exact head
      | succ number => exact induction present present'

theorem precedes_set {table : OwnerTable} {number : Nat} {old new : SlotOwners}
    (present : table[number]? = some old) (precedes : old.Precedes new) :
    table.Precedes (table.set number new) := by
  induction table generalizing number with
  | nil => cases present
  | cons slot rest induction =>
      cases number with
      | zero =>
          obtain rfl := Option.some.inj present
          exact .cons precedes (Precedes.refl rest)
      | succ number => exact .cons (SlotOwners.Precedes.refl slot) (induction present)

end OwnerTable

/-! ### What an operation does to the owners -/

namespace Metadata

variable {metadata result : Metadata} {number : Nat}

theorem owners_slot {row : SlotState} (present : metadata.slot number = some row) :
    metadata.owners[number]? = some row.owners := by
  have found : metadata.slots[number]? = some row := present
  simp [owners, found]

theorem owners_setSlot (metadata : Metadata) (number : Nat) (row : SlotState) :
    (metadata.setSlot number row).owners = metadata.owners.set number row.owners := by
  simp [owners, setSlot, List.map_set]

theorem owners_setSlot_same {row changed : SlotState}
    (present : metadata.slot number = some row) (same : changed.owners = row.owners) :
    (metadata.setSlot number changed).owners = metadata.owners := by
  rw [owners_setSlot, same]
  apply List.ext_getElem?
  intro index
  rw [List.getElem?_set]
  split_ifs with here inRange
  · subst here
    exact (owners_slot present).symm
  · subst here
    exact (List.getElem?_eq_none (by omega)).symm
  · rfl

/-- A successful topology change: a new version with one changed row, which
follows the old one and is well formed if that was. -/
structure Changes (metadata result : Metadata) : Prop where
  version : result.version = metadata.version + 1
  owners : ∃ number old new, metadata.owners[number]? = some old ∧
    old.Precedes new ∧ (old.WellFormed → new.WellFormed) ∧
    result.owners = metadata.owners.set number new

theorem changes_promote (promoted : metadata.promote number = .ok result) :
    metadata.Changes result := by
  obtain ⟨row, present, assigned, rfl⟩ := promote_ok promoted
  refine ⟨rfl, number, row.owners, _, owners_slot present, ?_, ?_,
    owners_setSlot metadata number _⟩
  · exact ⟨Nat.le_succ _, fun same => absurd same (Nat.ne_of_lt (Nat.lt_succ_self _))⟩
  · intro _
    exact ⟨assigned, assigned, fun ready => (nomatch ready)⟩

theorem changes_assignReplica {nodeID : String}
    (assigned : metadata.assignReplica number nodeID = .ok result) :
    metadata.Changes result := by
  obtain ⟨row, present, -, other, rfl⟩ := assignReplica_ok assigned
  refine ⟨rfl, number, row.owners, _, owners_slot present, ?_, ?_,
    owners_setSlot metadata number _⟩
  · exact ⟨Nat.le_succ _, fun same => absurd same (Nat.ne_of_lt (Nat.lt_succ_self _))⟩
  · intro wellFormed
    exact ⟨wellFormed.led, Ne.symm other, fun ready => (nomatch ready)⟩

theorem changes_markReplicaReady {term sequence : Nat}
    (marked : metadata.markReplicaReady number term sequence = .ok result) :
    metadata.Changes result := by
  obtain ⟨row, present, -, -, assigned, rfl⟩ := markReplicaReady_ok marked
  refine ⟨rfl, number, row.owners, _, owners_slot present, ?_, ?_,
    owners_setSlot metadata number _⟩
  · exact ⟨Nat.le_refl _, fun _ => rfl⟩
  · intro wellFormed
    exact ⟨wellFormed.led, wellFormed.apart, fun _ => assigned⟩

theorem owners_commitLeaderSequence {term sequence : Nat}
    (committed : metadata.commitLeaderSequence number term sequence = .ok result) :
    result.version = metadata.version ∧ result.owners = metadata.owners := by
  obtain ⟨row, present, -, -, -, rfl⟩ := commitLeaderSequence_ok committed
  exact ⟨rfl, owners_setSlot_same present rfl⟩

theorem owners_commitReplicaSequence {term sequence : Nat}
    (committed : metadata.commitReplicaSequence number term sequence = .ok result) :
    result.version = metadata.version ∧ result.owners = metadata.owners := by
  obtain ⟨row, present, -, -, -, rfl⟩ := commitReplicaSequence_ok committed
  exact ⟨rfl, owners_setSlot_same present rfl⟩

theorem owners_applyRemote {incoming : MetadataSnapshot}
    (applied : metadata.applyRemote incoming = .ok result) :
    metadata.version < result.version ∧ result.version = incoming.version ∧
      result.owners = incoming.owners := by
  obtain ⟨-, -, newer, rfl⟩ := apply_ok applied
  refine ⟨newer rfl, rfl, ?_⟩
  apply List.ext_getElem?
  intro index
  simp only [owners, MetadataSnapshot.owners, List.getElem?_map, List.getElem?_mapIdx,
    Option.map_map]
  congr 1
  funext row
  unfold mergeSlot
  dsimp only [Function.comp]
  split
  · rfl
  · split_ifs <;> rfl

end Metadata

end MnemoKV
