import Mathlib.Logic.Equiv.List
import Mathlib.Tactic.DeriveCountable
import MnemoKV.ControlFence
import MnemoKV.ShardTransfers
import MnemoKV.SliceSorts

/-!
# Sealed snapshots

A snapshot names its node and carries the entries of the engine with what the node
knows about the cluster.  It is sealed with the SHA-256 sum of a JSON text in which
its lists are sorted.  JSON text is UTF-8: two snapshots have the same text if they
are the same up to the order of their lists and up to bytes that are not UTF-8.
-/

namespace MnemoKV

/-- An instant and the zone that it is written in. -/
structure Timestamp where
  unixNano : Int
  zone : Int
  deriving DecidableEq

namespace Timestamp

/-- The start of the year 1. -/
def isZero (time : Timestamp) : Bool :=
  decide (time.unixNano = -62135596800 * 10 ^ 9)

def utc (time : Timestamp) : Timestamp :=
  { time with zone := 0 }

end Timestamp

/-- A peer in a snapshot. -/
@[ext]
structure SnapshotPeer where
  id : Bytes
  address : Bytes
  apiAddress : Bytes
  deriving DecidableEq

/-- A slot in a snapshot. -/
@[ext]
structure SnapshotSlot where
  number : Nat
  role : String
  leaderID : Bytes
  replicaID : Bytes
  term : Nat
  lastSequence : Nat
  lastAppliedSequence : Nat
  replicaReady : Bool
  deriving DecidableEq

/-- The content of a snapshot file. -/
structure SnapshotModel where
  format : String
  formatVersion : Nat
  nodeID : Bytes
  clusterID : Bytes
  createdAt : Timestamp
  slotCount : Nat
  metadataVersion : Nat
  peers : List SnapshotPeer
  slots : List SnapshotSlot
  entries : List SnapshotEntry
  checksum : Bytes
  deriving DecidableEq

/-- Why a model is not valid. -/
inductive ModelError
  | unsupportedFormat (format : String)
  | unsupportedVersion (version : Nat)
  | emptyNodeID
  | emptyTimestamp
  | notADigest
  | invalidChecksum
  | duplicateKey (key : Bytes)
  | unsupportedValueType (key : Bytes) (valueType : String)
  | slotOutside (slot slotCount : Nat)
  | duplicateSlot (slot : Nat)
  | unsupportedRole (slot : Nat) (role : String)
  | checksumMismatch (got want : Bytes)
  deriving DecidableEq

/-! ### JSON text -/

/-- A peer after a round trip through JSON. -/
def SnapshotPeer.overJSON (peer : SnapshotPeer) : SnapshotPeer :=
  { id := Utf8Coercion.coerce peer.id
    address := Utf8Coercion.coerce peer.address
    apiAddress := Utf8Coercion.coerce peer.apiAddress }

def SnapshotSlot.overJSON (slot : SnapshotSlot) : SnapshotSlot :=
  { slot with
    leaderID := Utf8Coercion.coerce slot.leaderID
    replicaID := Utf8Coercion.coerce slot.replicaID }

theorem SnapshotEntry.overJSON_eq_self {item : SnapshotEntry} :
    item.overJSON = item ↔ Utf8Coercion.coerce item.key = item.key :=
  ⟨congrArg SnapshotEntry.key, fun same => by rw [overJSON, same]⟩

def SnapshotModel.overJSON (model : SnapshotModel) : SnapshotModel :=
  { model with
    nodeID := Utf8Coercion.coerce model.nodeID
    clusterID := Utf8Coercion.coerce model.clusterID
    peers := model.peers.map SnapshotPeer.overJSON
    slots := model.slots.map SnapshotSlot.overJSON
    entries := model.entries.map SnapshotEntry.overJSON
    checksum := Utf8Coercion.coerce model.checksum }

/-- What a decoder finds behind the value that it has read. -/
inductive Following
  | nothing
  | value
  | malformed
  deriving DecidableEq

/-- The encoders and the hash function of the standard library. -/
class SnapshotCodecs where
  sum256 : Bytes → Digest
  marshal : SnapshotModel → Bytes
  writeJSON : SnapshotModel → Bytes
  readJSON : Bytes → Option (SnapshotModel × Following)
  writeGob : SnapshotModel → Bytes
  readGob : Bytes → Option (SnapshotModel × Following)

/-- JSON carries a model but for the bytes that are not UTF-8, and gob carries all
of it. -/
class LawfulSnapshotCodecs [SnapshotCodecs] : Prop where
  marshal_eq_iff (first second : SnapshotModel) :
    SnapshotCodecs.marshal first = SnapshotCodecs.marshal second ↔
      first.overJSON = second.overJSON
  readJSON_writeJSON (model : SnapshotModel) :
    SnapshotCodecs.readJSON (SnapshotCodecs.writeJSON model) =
      some (model.overJSON, .nothing)
  readGob_writeGob (model : SnapshotModel) :
    SnapshotCodecs.readGob (SnapshotCodecs.writeGob model) = some (model, .nothing)

/-! ### Texts that are numbers in unary -/

instance countableUInt8 : Countable UInt8 :=
  Function.Injective.countable fun _ _ => UInt8.toNat_inj.mp

instance countableChar : Countable Char :=
  Function.Injective.countable fun _ _ => Char.toNat_inj.mp

instance countableString : Countable String :=
  Function.Injective.countable fun _ _ => String.toList_inj.mp

deriving instance Countable for Timestamp, SnapshotEntry, SnapshotPeer, SnapshotSlot,
  SnapshotModel

namespace SnapshotCodecs

/-- The number of a model. -/
noncomputable def numberOf : SnapshotModel → Nat :=
  Classical.choose (exists_injective_nat SnapshotModel)

theorem numberOf_injective : Function.Injective numberOf :=
  Classical.choose_spec (exists_injective_nat SnapshotModel)

noncomputable def tally (model : SnapshotModel) : Bytes :=
  List.replicate (numberOf model) 0

open Classical in
noncomputable def readTally (text : Bytes) : Option (SnapshotModel × Following) :=
  (Function.partialInv numberOf text.length).map fun model => (model, .nothing)

theorem tally_injective : Function.Injective tally := by
  intro first second same
  have lengths := congrArg List.length same
  rw [tally, tally, List.length_replicate, List.length_replicate] at lengths
  exact numberOf_injective lengths

theorem readTally_tally (model : SnapshotModel) :
    readTally (tally model) = some (model, .nothing) := by
  rw [readTally, tally, List.length_replicate,
    Function.partialInv_left numberOf_injective, Option.map_some]

/-- Codecs that keep the laws, with a hash function that tells nothing apart. -/
@[reducible]
noncomputable def unary : SnapshotCodecs where
  sum256 _ := ⟨List.replicate 32 0, rfl⟩
  marshal model := tally model.overJSON
  writeJSON model := tally model.overJSON
  readJSON := readTally
  writeGob := tally
  readGob := readTally

theorem unary_lawful : @LawfulSnapshotCodecs unary :=
  letI := unary
  { marshal_eq_iff _ _ := tally_injective.eq_iff
    readJSON_writeJSON model := readTally_tally model.overJSON
    readGob_writeGob := readTally_tally }

end SnapshotCodecs

namespace SnapshotModel

/-! ### Sealing -/

/-- The loop over the entries; `seen` are the keys met so far. -/
def validateEntries : List Bytes → List SnapshotEntry → Except ModelError Unit
  | _, [] => .ok ()
  | seen, entry :: rest =>
      if entry.key ∈ seen then .error (.duplicateKey entry.key)
      else if entry.valueType ∈ ["string", "list", "zset"] then
        validateEntries (entry.key :: seen) rest
      else .error (.unsupportedValueType entry.key entry.valueType)

/-- The loop over the slots; `seen` are the numbers met so far. -/
def validateSlots (slotCount : Nat) : List Nat → List SnapshotSlot →
    Except ModelError Unit
  | _, [] => .ok ()
  | seen, slot :: rest =>
      if slotCount = 0 ∨ slot.number ≥ slotCount then
        .error (.slotOutside slot.number slotCount)
      else if slot.number ∈ seen then .error (.duplicateSlot slot.number)
      else if slot.role ∈ ["leader", "replica", "none"] then
        validateSlots slotCount (slot.number :: seen) rest
      else .error (.unsupportedRole slot.number slot.role)

def validateMetadata (requireChecksum : Bool) (model : SnapshotModel) :
    Except ModelError Unit :=
  if model.format ≠ "json" ∧ model.format ≠ "binary" then
    .error (.unsupportedFormat model.format)
  else if model.formatVersion ≠ 1 then
    .error (.unsupportedVersion model.formatVersion)
  else if model.nodeID = [] then .error .emptyNodeID
  else if model.createdAt.isZero then .error .emptyTimestamp
  else if requireChecksum = true ∧ model.checksum.length ≠ 64 then .error .notADigest
  else if requireChecksum = true ∧ HexText.decode model.checksum = none then
    .error .invalidChecksum
  else
    match validateEntries [] model.entries with
    | .error failure => .error failure
    | .ok () => validateSlots model.slotCount [] model.slots

/-- The checks of `Verify` contain those of `Seal`. -/
theorem validateMetadata_weaken {model : SnapshotModel}
    (valid : model.validateMetadata true = .ok ()) :
    model.validateMetadata false = .ok () := by
  unfold validateMetadata at valid ⊢
  split_ifs at valid with format version node created digest hex
  simp_all

theorem format_of_valid {model : SnapshotModel} {requireChecksum : Bool}
    (valid : model.validateMetadata requireChecksum = .ok ()) :
    model.format = "json" ∨ model.format = "binary" := by
  by_contra other
  rw [validateMetadata, if_pos (not_or.mp other)] at valid
  cases valid

section Checksums

variable [SliceSort]

/-- The copy that the checksum is computed of. -/
def canonical (model : SnapshotModel) : SnapshotModel :=
  { model with
    checksum := []
    createdAt := model.createdAt.utc
    entries := SliceSort.sort (fun first second => decide (first.key < second.key))
      model.entries
    peers := SliceSort.sort (fun first second => decide (first.id < second.id))
      model.peers
    slots := SliceSort.sort (fun first second => decide (first.number < second.number))
      model.slots }

variable [SnapshotCodecs]

def expectedChecksum (model : SnapshotModel) : Bytes :=
  HexText.encode (SnapshotCodecs.sum256 (SnapshotCodecs.marshal model.canonical)).val

/-- `Seal` sets the checksum. -/
def withChecksum (model : SnapshotModel) : SnapshotModel :=
  { model with checksum := model.expectedChecksum }

/-- Fills in the checksum. -/
def sealModel (model : SnapshotModel) : Except ModelError SnapshotModel :=
  match model.validateMetadata false with
  | .error failure => .error failure
  | .ok () => .ok model.withChecksum

def verify (model : SnapshotModel) : Except ModelError Unit :=
  match model.validateMetadata true with
  | .error failure => .error failure
  | .ok () =>
      if model.checksum ≠ model.expectedChecksum then
        .error (.checksumMismatch model.checksum model.expectedChecksum)
      else .ok ()

theorem length_expectedChecksum (model : SnapshotModel) :
    model.expectedChecksum.length = 64 := by
  rw [expectedChecksum, HexText.length_encode,
    (SnapshotCodecs.sum256 (SnapshotCodecs.marshal model.canonical)).property]

theorem validateMetadata_checksummed {model : SnapshotModel}
    (computed : model.checksum = model.expectedChecksum) :
    model.validateMetadata true = model.validateMetadata false := by
  have length := model.length_expectedChecksum
  have decoded : HexText.decode model.expectedChecksum ≠ none := by
    rw [expectedChecksum, HexText.decode_encode]
    simp
  rw [← computed] at length decoded
  simp [validateMetadata, length, decoded]

theorem verify_iff (model : SnapshotModel) :
    model.verify = .ok () ↔
      model.validateMetadata false = .ok () ∧ model.checksum = model.expectedChecksum := by
  constructor
  · intro verified
    unfold verify at verified
    split at verified
    · cases verified
    · rename_i valid
      split_ifs at verified with different
      exact ⟨validateMetadata_weaken valid, not_not.mp different⟩
  · rintro ⟨valid, computed⟩
    rw [verify, validateMetadata_checksummed computed, valid]
    simp [computed]

theorem sealModel_eq_ok {model sealed : SnapshotModel} :
    model.sealModel = .ok sealed ↔
      model.validateMetadata false = .ok () ∧ sealed = model.withChecksum := by
  unfold sealModel
  split <;> rename_i valid <;> simp [valid, eq_comm]

theorem verify_of_sealModel {model sealed : SnapshotModel}
    (sealing : model.sealModel = .ok sealed) :
    sealed.verify = .ok () := by
  obtain ⟨valid, rfl⟩ := sealModel_eq_ok.mp sealing
  exact (verify_iff _).mpr ⟨valid, rfl⟩

end Checksums

/-! ### What a checksum covers -/

/-- The strings of a model, but for its checksum. -/
def texts (model : SnapshotModel) : List Bytes :=
  [model.nodeID, model.clusterID] ++
    model.peers.flatMap (fun peer => [peer.id, peer.address, peer.apiAddress]) ++
    model.slots.flatMap (fun slot => [slot.leaderID, slot.replicaID]) ++
    model.entries.map SnapshotEntry.key

/-- All strings of the model are UTF-8. -/
def IsText (model : SnapshotModel) : Prop :=
  ∀ text ∈ model.texts, Utf8Coercion.coerce text = text

instance (model : SnapshotModel) : Decidable model.IsText :=
  inferInstanceAs (Decidable (∀ text ∈ model.texts, Utf8Coercion.coerce text = text))

theorem map_eq_self_iff {α : Type} {f : α → α} {list : List α} :
    list.map f = list ↔ ∀ element ∈ list, f element = element := by
  simpa using List.map_inj_left (f := f) (g := id) (l := list)

theorem isText_iff (model : SnapshotModel) :
    model.IsText ↔
      Utf8Coercion.coerce model.nodeID = model.nodeID ∧
      Utf8Coercion.coerce model.clusterID = model.clusterID ∧
      model.overJSON.peers = model.peers ∧ model.overJSON.slots = model.slots ∧
      model.overJSON.entries = model.entries := by
  have peers : model.overJSON.peers = model.peers ↔
      ∀ peer ∈ model.peers, Utf8Coercion.coerce peer.id = peer.id ∧
        Utf8Coercion.coerce peer.address = peer.address ∧
        Utf8Coercion.coerce peer.apiAddress = peer.apiAddress := by
    rw [overJSON, map_eq_self_iff]
    simp only [SnapshotPeer.overJSON, SnapshotPeer.ext_iff]
  have slots : model.overJSON.slots = model.slots ↔
      ∀ slot ∈ model.slots, Utf8Coercion.coerce slot.leaderID = slot.leaderID ∧
        Utf8Coercion.coerce slot.replicaID = slot.replicaID := by
    rw [overJSON, map_eq_self_iff]
    simp only [SnapshotSlot.overJSON, SnapshotSlot.ext_iff, true_and, and_true]
  have entries : model.overJSON.entries = model.entries ↔
      ∀ entry ∈ model.entries, Utf8Coercion.coerce entry.key = entry.key := by
    rw [overJSON, map_eq_self_iff]
    simp only [SnapshotEntry.overJSON_eq_self]
  rw [peers, slots, entries, IsText, texts]
  simp only [List.forall_mem_append, List.forall_mem_cons, List.forall_mem_flatMap,
    List.forall_mem_map, List.not_mem_nil, false_implies, implies_true, and_true,
    and_assoc]

/-- The same content, with the lists in any order. -/
structure SameContent (first second : SnapshotModel) : Prop where
  format : first.format = second.format
  formatVersion : first.formatVersion = second.formatVersion
  nodeID : first.nodeID = second.nodeID
  clusterID : first.clusterID = second.clusterID
  instant : first.createdAt.unixNano = second.createdAt.unixNano
  slotCount : first.slotCount = second.slotCount
  metadataVersion : first.metadataVersion = second.metadataVersion
  entries : first.entries.Perm second.entries
  peers : first.peers.Perm second.peers
  slots : first.slots.Perm second.slots

variable {first second : SnapshotModel}

/-- JSON writes no string of the one model like another string of the other. -/
def ToldApart (first second : SnapshotModel) : Prop :=
  ∀ text ∈ first.texts, ∀ other ∈ second.texts,
    Utf8Coercion.coerce text = Utf8Coercion.coerce other → text = other

theorem IsText.toldApart (firstText : first.IsText) (secondText : second.IsText) :
    first.ToldApart second := by
  intro text listed other otherListed same
  rwa [firstText text listed, secondText other otherListed] at same

theorem perm_of_perm_map {α β : Type} [DecidableEq α] {f : α → β}
    {listed others : List α} (same : (listed.map f).Perm (others.map f))
    (apart : ∀ element ∈ listed, ∀ other ∈ others, f element = f other →
      element = other) : listed.Perm others := by
  induction others generalizing listed with
  | nil => simpa using same
  | cons other rest induction =>
      obtain ⟨element, member, image⟩ := List.mem_map.mp
        (same.mem_iff.mpr (List.mem_cons_self : f other ∈ (other :: rest).map f))
      obtain rfl := apart element member other List.mem_cons_self image
      have first := List.perm_cons_erase member
      refine first.trans (.cons element (induction ?_ ?_))
      · exact ((first.symm.map f).trans same).cons_inv
      · exact fun kept keptMember other otherMember => apart kept
          (List.mem_of_mem_erase keptMember) other (List.mem_cons_of_mem _ otherMember)

theorem mem_texts {model : SnapshotModel} {text : Bytes} :
    text ∈ model.texts ↔ text = model.nodeID ∨ text = model.clusterID ∨
      (∃ peer ∈ model.peers, text = peer.id ∨ text = peer.address ∨
        text = peer.apiAddress) ∨
      (∃ slot ∈ model.slots, text = slot.leaderID ∨ text = slot.replicaID) ∨
      ∃ entry ∈ model.entries, entry.key = text := by
  simp [texts]

theorem SameContent.texts_iff (same : first.SameContent second) (text : Bytes) :
    text ∈ first.texts ↔ text ∈ second.texts := by
  simp only [mem_texts, same.nodeID, same.clusterID, same.peers.mem_iff,
    same.slots.mem_iff, same.entries.mem_iff]

theorem SameContent.of_overJSON (same : first.overJSON.SameContent second.overJSON)
    (apart : first.ToldApart second) : first.SameContent second := by
  refine
    { format := same.format
      formatVersion := same.formatVersion
      nodeID := apart _ (by simp [mem_texts]) _ (by simp [mem_texts]) same.nodeID
      clusterID := apart _ (by simp [mem_texts]) _ (by simp [mem_texts]) same.clusterID
      instant := same.instant
      slotCount := same.slotCount
      metadataVersion := same.metadataVersion
      entries := perm_of_perm_map same.entries ?_
      peers := perm_of_perm_map same.peers ?_
      slots := perm_of_perm_map same.slots ?_ }
  · intro entry member other otherMember equal
    have keys := apart entry.key (mem_texts.mpr (by grind)) other.key
      (mem_texts.mpr (by grind)) (congrArg SnapshotEntry.key equal)
    cases entry
    cases other
    simp_all [SnapshotEntry.overJSON]
  · intro peer member other otherMember equal
    refine SnapshotPeer.ext ?_ ?_ ?_
    · exact apart _ (mem_texts.mpr (by grind)) _ (mem_texts.mpr (by grind))
        (congrArg SnapshotPeer.id equal)
    · exact apart _ (mem_texts.mpr (by grind)) _ (mem_texts.mpr (by grind))
        (congrArg SnapshotPeer.address equal)
    · exact apart _ (mem_texts.mpr (by grind)) _ (mem_texts.mpr (by grind))
        (congrArg SnapshotPeer.apiAddress equal)
  · intro slot member other otherMember equal
    have leaders := apart _ (mem_texts.mpr (by grind)) _ (mem_texts.mpr (by grind))
      (congrArg SnapshotSlot.leaderID equal)
    have replicas := apart _ (mem_texts.mpr (by grind)) _ (mem_texts.mpr (by grind))
      (congrArg SnapshotSlot.replicaID equal)
    cases slot
    cases other
    simp_all [SnapshotSlot.overJSON]

/-- Sorting and leaving out the zone keeps the content. -/
theorem sameContent_of_canonical [SliceSort]
    (same : first.canonical.overJSON = second.canonical.overJSON) :
    first.overJSON.SameContent second.overJSON := by
  have perm_of_sorted {α : Type} (before : α → α → Bool) (coerce : α → α)
      {listed others : List α}
      (sorted : (SliceSort.sort before listed).map coerce =
        (SliceSort.sort before others).map coerce) :
      (listed.map coerce).Perm (others.map coerce) :=
    ((SliceSort.perm before listed).map coerce).symm.trans
      ((List.Perm.of_eq sorted).trans ((SliceSort.perm before others).map coerce))
  simp only [overJSON, canonical, Timestamp.utc, mk.injEq, Timestamp.mk.injEq] at same
  obtain ⟨format, version, node, cluster, ⟨instant, -⟩, count, metadata, peers, slots,
    entries, -⟩ := same
  exact
    { format := format
      formatVersion := version
      nodeID := node
      clusterID := cluster
      instant := instant
      slotCount := count
      metadataVersion := metadata
      entries := perm_of_sorted _ _ entries
      peers := perm_of_sorted _ _ peers
      slots := perm_of_sorted _ _ slots }

/-- A model that verifies with the checksum of another one has its content up to
the bytes that are not UTF-8, as far as SHA-256 tells their texts apart.  It has the
same content if JSON tells their strings apart, and only then if JSON tells those of
the sealed model apart. -/
theorem verify_detects_changes [SliceSort] [SnapshotCodecs] [LawfulSnapshotCodecs]
    {model original altered : SnapshotModel} (sealed : model.sealModel = .ok original)
    (carried : altered.checksum = original.checksum) (verified : altered.verify = .ok ())
    (separated : SnapshotCodecs.sum256 (SnapshotCodecs.marshal original.canonical) =
        SnapshotCodecs.sum256 (SnapshotCodecs.marshal altered.canonical) →
      SnapshotCodecs.marshal original.canonical =
        SnapshotCodecs.marshal altered.canonical) :
    original.overJSON.SameContent altered.overJSON ∧
      (original.IsText → altered.IsText → original.SameContent altered) ∧
      (original.ToldApart altered → original.SameContent altered) ∧
      (original.ToldApart original →
        (original.SameContent altered ↔ original.ToldApart altered)) := by
  have computed := ((verify_iff original).mp (verify_of_sealModel sealed)).2
  have recomputed := ((verify_iff altered).mp verified).2
  have sums : SnapshotCodecs.sum256 (SnapshotCodecs.marshal original.canonical) =
      SnapshotCodecs.sum256 (SnapshotCodecs.marshal altered.canonical) :=
    Subtype.ext (HexText.encode_injective
      (computed.symm.trans (carried.symm.trans recomputed)))
  have same := sameContent_of_canonical
    ((LawfulSnapshotCodecs.marshal_eq_iff _ _).mp (separated sums))
  refine ⟨same, fun firstText secondText => same.of_overJSON
    (firstText.toldApart secondText), same.of_overJSON, fun own =>
      ⟨fun content text listed other otherListed => ?_, same.of_overJSON⟩⟩
  exact own text listed other ((content.texts_iff other).mpr otherListed)

section Examples

attribute [local instance] SliceSort.insertion SnapshotCodecs.unary
  SnapshotCodecs.unary_lawful

/-- A model with a string under each of the keys. -/
def ofKeys (keys : List Bytes) (zone : Int) : SnapshotModel :=
  { format := "json", formatVersion := 1, nodeID := Bytes.ascii "node-1", clusterID := []
    createdAt := ⟨1, zone⟩, slotCount := 0, metadataVersion := 0, peers := [], slots := []
    entries := keys.map fun key =>
      ⟨key, "string", Bytes.ascii "v", stringEntrySize key (Bytes.ascii "v"), 0⟩
    checksum := [] }

/-- The model of other keys under the checksum of the first ones. -/
noncomputable def forged (keys others : List Bytes) (zone : Int) : SnapshotModel :=
  { ofKeys others zone with checksum := (ofKeys keys 0).expectedChecksum }

/-- The order of the entries and the zone of the clock do not count. -/
theorem reordered_model_has_same_content :
    (forged [[97], [98]] [[98], [97]] 3600).verify = .ok () ∧
      (ofKeys [[97], [98]] 0).withChecksum.SameContent
        (forged [[97], [98]] [[98], [97]] 3600) := by
  have same : (ofKeys [[97], [98]] 0).canonical =
      (forged [[97], [98]] [[98], [97]] 3600).canonical := rfl
  have verified : (forged [[97], [98]] [[98], [97]] 3600).verify = .ok () := by
    refine (verify_iff _).mpr ⟨rfl, ?_⟩
    rw [expectedChecksum, ← same]
    rfl
  have sealed : (ofKeys [[97], [98]] 0).sealModel =
      .ok (ofKeys [[97], [98]] 0).withChecksum := sealModel_eq_ok.mpr ⟨rfl, rfl⟩
  have carried : (forged [[97], [98]] [[98], [97]] 3600).checksum =
      (ofKeys [[97], [98]] 0).withChecksum.checksum := rfl
  exact ⟨verified, (verify_detects_changes sealed carried verified
    fun _ => congrArg SnapshotCodecs.marshal same).2.1 (by decide) (by decide)⟩

/-- Keys of one stray byte have the same text, so no checksum tells them apart. -/
theorem stray_bytes_are_not_detected :
    (ofKeys [[0xFF]] 0).sealModel = .ok (ofKeys [[0xFF]] 0).withChecksum ∧
      SnapshotCodecs.marshal (ofKeys [[0xFF]] 0).withChecksum.canonical =
        SnapshotCodecs.marshal (forged [[0xFF]] [[0xFE]] 0).canonical ∧
      (forged [[0xFF]] [[0xFE]] 0).checksum = (ofKeys [[0xFF]] 0).withChecksum.checksum ∧
      (forged [[0xFF]] [[0xFE]] 0).verify = .ok () ∧
      ¬ (ofKeys [[0xFF]] 0).withChecksum.SameContent (forged [[0xFF]] [[0xFE]] 0) := by
  have text : SnapshotCodecs.marshal (ofKeys [[0xFF]] 0).canonical =
      SnapshotCodecs.marshal (forged [[0xFF]] [[0xFE]] 0).canonical :=
    (LawfulSnapshotCodecs.marshal_eq_iff _ _).mpr rfl
  refine ⟨sealModel_eq_ok.mpr ⟨rfl, rfl⟩, text, rfl, ?_, ?_⟩
  · refine (verify_iff _).mpr ⟨rfl, ?_⟩
    rw [expectedChecksum, ← text]
    rfl
  · intro same
    exact absurd same.entries (by decide)

end Examples

end SnapshotModel

end MnemoKV
