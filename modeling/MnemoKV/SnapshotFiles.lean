import MnemoKV.SnapshotModels
import MnemoKV.SnapshotRoundTrips

/-!
# Snapshot files

A file holds a sealed model as JSON, or as gob behind a header and a length.  Both
formats verify the model when it is written and again when it is read.  The binary
format carries every model.  The JSON format carries the models whose strings are
UTF-8: any other key comes back as another key, or the file is refused.
-/

namespace MnemoKV

open SnapshotCodecs

/-- Why a file does not decode to a model. -/
inductive FileError
  | invalidModel (failure : ModelError)
  | unsupportedFormat (format : String)
  | malformedJSON
  | trailingValue
  | shortHeader
  | invalidHeader
  | shortLength
  | tooLarge
  | lengthMismatch (declared found : Nat)
  | malformedGob
  | trailingData
  | otherFormat (declared format : String)
  deriving DecidableEq

def binaryHeader : Bytes :=
  Bytes.ascii "MNEMOKV-SNAPSHOT" ++ [0]

/-- The largest signed 64-bit number. -/
def maxPayload : Nat := 2 ^ 63 - 1

section Codecs

variable [SnapshotCodecs]

def decodeJSON (file : Bytes) : Except FileError SnapshotModel :=
  match readJSON file with
  | none => .error .malformedJSON
  | some (model, .nothing) => .ok model
  | some (_, .value) => .error .trailingValue
  | some (_, .malformed) => .error .malformedJSON

def decodeBinary (file : Bytes) : Except FileError SnapshotModel :=
  if file.length < binaryHeader.length then .error .shortHeader
  else if file.take binaryHeader.length ≠ binaryHeader then .error .invalidHeader
  else
    match BigEndian.read 8 (file.drop binaryHeader.length) with
    | none => .error .shortLength
    | some (length, rest) =>
        if length ≥ maxPayload then .error .tooLarge
        else
          let payload := rest.take (length + 1)
          if payload.length ≠ length then .error (.lengthMismatch length payload.length)
          else
            match readGob payload with
            | none => .error .malformedGob
            | some (model, .nothing) => .ok model
            | some (_, _) => .error .trailingData

/-- A payload that is too long for its length field is refused. -/
theorem decodeBinary_eq_ok {payload : Bytes} {model : SnapshotModel} :
    decodeBinary (binaryHeader ++ (BigEndian.write 8 payload.length ++ payload)) =
        .ok model ↔
      payload.length < maxPayload ∧ readGob payload = some (model, .nothing) := by
  set length := payload.length % 256 ^ 8 with wrapped
  have header : ¬ (binaryHeader ++ (BigEndian.write 8 payload.length ++ payload)).length <
      binaryHeader.length := by simp
  rw [decodeBinary, if_neg header, List.take_left, if_neg (not_not.mpr rfl),
    List.drop_left, BigEndian.read_write_mod]
  dsimp only
  rw [← wrapped]
  by_cases large : length ≥ maxPayload
  · have long : ¬ payload.length < maxPayload := by
      have := Nat.mod_le payload.length (256 ^ 8)
      omega
    rw [if_pos large]
    simp [long]
  rw [if_neg large]
  by_cases exceeds : payload.length < maxPayload
  · have exact : length = payload.length := Nat.mod_eq_of_lt
      (exceeds.trans_le (by decide))
    have whole : payload.take (length + 1) = payload :=
      List.take_of_length_le (by omega)
    rw [whole, if_neg (not_not.mpr exact.symm)]
    rcases readGob payload with _ | ⟨found, following⟩
    · simp
    · cases following <;> simp [exceeds]
  · have longer : (payload.take (length + 1)).length ≠ length := by
      rw [List.length_take]
      omega
    rw [if_pos longer]
    simp [exceeds]

variable [SliceSort]

def encodeSnapshot (model : SnapshotModel) : Except FileError Bytes :=
  match model.verify with
  | .error failure => .error (.invalidModel failure)
  | .ok () =>
      if model.format = "json" then .ok (writeJSON model)
      else if model.format = "binary" then
        let payload := writeGob model
        .ok (binaryHeader ++ (BigEndian.write 8 payload.length ++ payload))
      else .error (.unsupportedFormat model.format)

def decodeSnapshot (file : Bytes) (format : String) : Except FileError SnapshotModel :=
  match if format = "json" then decodeJSON file
    else if format = "binary" then decodeBinary file
    else .error (.unsupportedFormat format) with
  | .error failure => .error failure
  | .ok model =>
      if model.format ≠ format then .error (.otherFormat model.format format)
      else
        match model.verify with
        | .error failure => .error (.invalidModel failure)
        | .ok () => .ok model

/-! ### Writing a model and reading it back -/

namespace SnapshotModel

/-- The fields that a file has to bring back. -/
structure SameRecord (model decoded : SnapshotModel) : Prop where
  entries : decoded.entries = model.entries
  peers : decoded.peers = model.peers
  slots : decoded.slots = model.slots
  nodeID : decoded.nodeID = model.nodeID
  clusterID : decoded.clusterID = model.clusterID
  checksum : decoded.checksum = model.checksum

/-- The encoded model decodes to the same content. -/
def RoundTrips (model : SnapshotModel) : Prop :=
  ∃ file decoded, encodeSnapshot model = .ok file ∧
    decodeSnapshot file model.format = .ok decoded ∧ model.SameRecord decoded

/-- The strings are UTF-8 if the format is JSON; otherwise the payload fits into the
memory of a process. -/
def Portable (model : SnapshotModel) : Prop :=
  if model.format = "json" then model.IsText else (writeGob model).length < maxPayload

theorem coerce_checksum {model : SnapshotModel} (verified : model.verify = .ok ()) :
    Utf8Coercion.coerce model.checksum = model.checksum := by
  rw [((verify_iff model).mp verified).2, expectedChecksum]
  exact Utf8Coercion.coerce_ascii fun _ => HexText.ascii_of_mem_encode

theorem IsText.overJSON_eq {model : SnapshotModel} (text : model.IsText)
    (verified : model.verify = .ok ()) : model.overJSON = model := by
  obtain ⟨node, cluster, peers, slots, entries⟩ := model.isText_iff.mp text
  have checksum := coerce_checksum verified
  cases model
  simp only [overJSON, mk.injEq, true_and] at node cluster peers slots entries checksum ⊢
  exact ⟨node, cluster, peers, slots, entries, checksum⟩

variable [LawfulSnapshotCodecs]

theorem decodeSnapshot_json {model : SnapshotModel} (format : model.format = "json") :
    decodeSnapshot (writeJSON model) model.format =
      match model.overJSON.verify with
      | .error failure => .error (.invalidModel failure)
      | .ok () => .ok model.overJSON := by
  have kept : model.overJSON.format = "json" := format
  simp [decodeSnapshot, decodeJSON, LawfulSnapshotCodecs.readJSON_writeJSON, format, kept]

theorem roundTrips_json_iff {model : SnapshotModel} (verified : model.verify = .ok ())
    (format : model.format = "json") : model.RoundTrips ↔ model.IsText := by
  have encoded : encodeSnapshot model = .ok (writeJSON model) := by
    rw [encodeSnapshot, verified]
    exact if_pos format
  constructor
  · rintro ⟨file, decoded, written, read, same⟩
    obtain rfl := Except.ok.inj (encoded.symm.trans written)
    rw [decodeSnapshot_json format] at read
    split at read
    · cases read
    · obtain rfl := Except.ok.inj read
      exact model.isText_iff.mpr
        ⟨same.nodeID, same.clusterID, same.peers, same.slots, same.entries⟩
  · intro text
    refine ⟨writeJSON model, model, encoded, ?_, ⟨rfl, rfl, rfl, rfl, rfl, rfl⟩⟩
    rw [decodeSnapshot_json format, text.overJSON_eq verified, verified]

theorem roundTrips_binary_iff {model : SnapshotModel} (verified : model.verify = .ok ())
    (format : model.format = "binary") :
    model.RoundTrips ↔ (writeGob model).length < maxPayload := by
  have notJSON : model.format ≠ "json" := by simp [format]
  have encoded : encodeSnapshot model = .ok (binaryHeader ++
      (BigEndian.write 8 (writeGob model).length ++ writeGob model)) := by
    rw [encodeSnapshot, verified]
    exact (if_neg notJSON).trans (if_pos format)
  constructor
  · rintro ⟨file, decoded, written, read, -⟩
    obtain rfl := Except.ok.inj (encoded.symm.trans written)
    rw [decodeSnapshot, if_neg notJSON, if_pos format] at read
    split at read
    · cases read
    · rename_i payloadRead
      exact (decodeBinary_eq_ok.mp payloadRead).1
  · intro short
    have payloadRead := decodeBinary_eq_ok.mpr
      ⟨short, LawfulSnapshotCodecs.readGob_writeGob model⟩
    refine ⟨_, model, encoded, ?_, ⟨rfl, rfl, rfl, rfl, rfl, rfl⟩⟩
    rw [decodeSnapshot, if_neg notJSON, if_pos format, payloadRead]
    simp [verified]

theorem roundTrips_iff {model : SnapshotModel} (verified : model.verify = .ok ()) :
    model.RoundTrips ↔ model.Portable := by
  rcases format_of_valid ((verify_iff model).mp verified).1 with format | format
  · rw [roundTrips_json_iff verified format, Portable, if_pos format]
  · have notJSON : model.format ≠ "json" := by simp [format]
    rw [roundTrips_binary_iff verified format, Portable, if_neg notJSON]

end SnapshotModel

end Codecs

/-! ### The models of the persistence manager -/

/-- The cluster metadata that a snapshot records. -/
structure ClusterMetadata where
  clusterID : Bytes
  slotCount : Nat
  metadataVersion : Nat
  peers : List SnapshotPeer
  slots : List SnapshotSlot
  deriving DecidableEq

/-- The settings of persistence. -/
structure PersistenceConfig where
  enabled : Bool
  format : String
  maxSnapshots : Int

/-- The manager of a node's snapshots. -/
structure SnapshotManager where
  cfg : PersistenceConfig
  nodeID : Bytes

/-- What a call of `Snapshot` meets: the engine and its clock, the clock of the manager,
and the metadata if there is a provider. -/
structure SnapshotCall where
  engine : Engine
  captureTime : Int
  reading : Timestamp
  metadata : Option ClusterMetadata

/-- Why a capture fails. -/
inductive CaptureError
  | entries (failure : SnapshotError)
  | model (failure : ModelError)
  deriving DecidableEq

namespace SnapshotManager

/-- The model before it is sealed. -/
def build (manager : SnapshotManager) (entries : List SnapshotEntry) (call : SnapshotCall) :
    SnapshotModel :=
  let model : SnapshotModel :=
    { format := manager.cfg.format, formatVersion := 1, nodeID := manager.nodeID
      clusterID := [], createdAt := call.reading.utc, slotCount := 0, metadataVersion := 0
      peers := [], slots := [], entries := entries, checksum := [] }
  match call.metadata with
  | none => model
  | some data =>
      { model with
        clusterID := data.clusterID
        slotCount := data.slotCount
        metadataVersion := data.metadataVersion
        peers := data.peers
        slots := data.slots }

section Captures

variable [SliceSort] [SnapshotCodecs]

/-- `Snapshot` up to the sealed model. -/
def capture (manager : SnapshotManager) (call : SnapshotCall) :
    Except CaptureError SnapshotModel :=
  match call.engine.snapshotEntries call.captureTime with
  | .error failure => .error (.entries failure)
  | .ok entries =>
      match (manager.build entries call).sealModel with
      | .error failure => .error (.model failure)
      | .ok model => .ok model

theorem capture_eq_ok {manager : SnapshotManager} {call : SnapshotCall}
    {model : SnapshotModel} :
    manager.capture call = .ok model ↔
      ∃ entries, call.engine.snapshotEntries call.captureTime = .ok entries ∧
        (manager.build entries call).sealModel = .ok model := by
  unfold capture
  split
  · rename_i failed
    simp [failed]
  · rename_i entries captured
    split <;> rename_i sealing <;> simp [captured, sealing]

/-- A captured model comes back from its file, and an entry from a transfer, exactly if
no string is mangled on the way. -/
theorem snapshots_round_trip_iff [LawfulSnapshotCodecs] :
    (∀ (manager : SnapshotManager) (call : SnapshotCall) (model : SnapshotModel),
      manager.capture call = .ok model → (model.RoundTrips ↔ model.Portable)) ∧
    ∀ transfer : ShardSnapshot, transfer.overJSON.entries = transfer.entries ↔
      ∀ item ∈ transfer.entries, Utf8Coercion.coerce item.key = item.key := by
  constructor
  · intro manager call model captured
    obtain ⟨entries, -, sealing⟩ := capture_eq_ok.mp captured
    exact SnapshotModel.roundTrips_iff (SnapshotModel.verify_of_sealModel sealing)
  · intro transfer
    simp only [ShardSnapshot.overJSON, SnapshotModel.map_eq_self_iff,
      SnapshotEntry.overJSON_eq_self]

end Captures

section Examples

attribute [local instance] SliceSort.insertion SnapshotCodecs.unary
  SnapshotCodecs.unary_lawful

def textManager : SnapshotManager :=
  { cfg := { enabled := true, format := "json", maxSnapshots := 1 }
    nodeID := Bytes.ascii "node-1" }

/-- A call on an engine that stores one string. -/
def callWithKey (key : Bytes) : SnapshotCall :=
  { engine := afterCommand (.make .set [key, Bytes.ascii "v"]), captureTime := 0
    reading := ⟨1, 0⟩, metadata := none }

/-- What that call captures. -/
noncomputable def capturedKey (key : Bytes) : SnapshotModel :=
  (textManager.build
    [⟨key, "string", Bytes.ascii "v", stringEntrySize key (Bytes.ascii "v"), 0⟩]
    (callWithKey key)).withChecksum

/-- A node of a cluster with a peer and a slot; the key and the name of the cluster are
letters of two bytes. -/
def letterCall : SnapshotCall :=
  { callWithKey [0xC3, 0xA9] with
    metadata := some
      { clusterID := [0xC3, 0xA9], slotCount := 2, metadataVersion := 3
        peers := [⟨Bytes.ascii "node-2", Bytes.ascii "host:7001", Bytes.ascii "host:8001"⟩]
        slots := [⟨1, "leader", Bytes.ascii "node-1", Bytes.ascii "node-2", 1, 4, 0,
          true⟩] } }

noncomputable def letterModel : SnapshotModel :=
  (textManager.build [⟨[0xC3, 0xA9], "string", Bytes.ascii "v", 67, 0⟩]
    letterCall).withChecksum

theorem text_key_round_trips :
    textManager.capture letterCall = .ok letterModel ∧ letterModel.RoundTrips := by
  have captured : textManager.capture letterCall = .ok letterModel :=
    capture_eq_ok.mpr ⟨_, by decide, SnapshotModel.sealModel_eq_ok.mpr ⟨rfl, rfl⟩⟩
  have portable : letterModel.Portable := by
    have format : letterModel.format = "json" := rfl
    rw [SnapshotModel.Portable, if_pos format]
    decide
  exact ⟨captured, (snapshots_round_trip_iff.1 _ _ _ captured).mpr portable⟩

/-- A key of one stray byte is read back as another key. -/
theorem stray_key_comes_back_changed :
    ∃ file decoded,
      textManager.capture (callWithKey [0xFF]) = .ok (capturedKey [0xFF]) ∧
      encodeSnapshot (capturedKey [0xFF]) = .ok file ∧
      decodeSnapshot file "json" = .ok decoded ∧
      decoded.entries.map SnapshotEntry.key = [[0xEF, 0xBF, 0xBD]] ∧
      ¬ (capturedKey [0xFF]).RoundTrips := by
  have captured : textManager.capture (callWithKey [0xFF]) = .ok (capturedKey [0xFF]) :=
    capture_eq_ok.mpr ⟨_, by decide, SnapshotModel.sealModel_eq_ok.mpr ⟨rfl, rfl⟩⟩
  obtain ⟨entries, -, sealing⟩ := capture_eq_ok.mp captured
  have verified := SnapshotModel.verify_of_sealModel sealing
  have text : marshal (capturedKey [0xFF]).canonical =
      marshal (capturedKey [0xFF]).overJSON.canonical :=
    (LawfulSnapshotCodecs.marshal_eq_iff _ _).mpr rfl
  have reread : (capturedKey [0xFF]).overJSON.verify = .ok () := by
    refine (SnapshotModel.verify_iff _).mpr ⟨rfl, ?_⟩
    rw [SnapshotModel.expectedChecksum, ← text]
    exact SnapshotModel.coerce_checksum verified
  refine ⟨writeJSON (capturedKey [0xFF]), (capturedKey [0xFF]).overJSON, captured, ?_, ?_,
    rfl, ?_⟩
  · rw [encodeSnapshot, verified]
    exact if_pos rfl
  · refine (SnapshotModel.decodeSnapshot_json rfl).trans ?_
    rw [reread]
  · intro roundTrips
    exact absurd ((SnapshotModel.roundTrips_json_iff verified rfl).mp roundTrips) (by decide)

end Examples

end SnapshotManager

end MnemoKV
