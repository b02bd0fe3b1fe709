import MnemoKV.SnapshotFiles

/-!
# The snapshot directory

`Snapshot` writes the captured model under a name that is free, then removes the
oldest valid files beyond the configured number; `RestoreLatest` restores the newest
valid file.  Both order the files by their creation times alone.  A snapshot whose
time is later than all others is therefore kept and restored.  Among equal times the
order is that of the directory, by the digits of a checksum: a snapshot may remove
its own file.
-/

namespace MnemoKV

/-! ### Names -/

/-- A number in decimal, filled with zeros to twenty characters. -/
def twentyDigits (number : Int) : Bytes :=
  let sign : Bytes := if number < 0 then [45] else []
  let digits := DecimalNumerals.write number.natAbs
  sign ++ List.replicate (20 - sign.length - digits.length) 48 ++ digits

/-- The text from the last dot on. -/
def fileExt (name : Bytes) : Bytes :=
  if 46 ∈ name then 46 :: (name.reverse.takeWhile (· ≠ 46)).reverse else []

def trimSuffix (text suffix : Bytes) : Bytes :=
  if suffix.isSuffixOf text then text.take (text.length - suffix.length) else text

def snapshotName (createdAt : Timestamp) (checksum ext : Bytes) : Bytes :=
  Bytes.ascii "snapshot-" ++ twentyDigits createdAt.unixNano ++ Bytes.ascii "-" ++
    checksum.take 12 ++ Bytes.ascii ".snapshot." ++ ext

def formatForFilename (name : Bytes) : Option String :=
  if (Bytes.ascii "snapshot-").isPrefixOf name = false then none
  else if (Bytes.ascii ".snapshot.json").isSuffixOf name then some "json"
  else if (Bytes.ascii ".snapshot.bin").isSuffixOf name then some "binary"
  else none

/-- The directory lists its files in the order of their names.  A file is represented by
the model that was written to it; `Decode` reads the same if the model is `Portable`. -/
abbrev SnapshotDirectory := Std.ExtTreeMap Bytes SnapshotModel compare

/-- The name that is tried for a suffix. -/
def candidateName (name : Bytes) (suffix : Nat) : Bytes :=
  let compoundExt := Bytes.ascii ".snapshot" ++ fileExt name
  let stem := trimSuffix name compoundExt
  if suffix > 0 then
    stem ++ Bytes.ascii "-" ++ DecimalNumerals.write suffix ++ compoundExt
  else name

/-- The loop ends at the first name that is free, at the latest after one round more than
there are files. -/
def availableSnapshotPath (directory : SnapshotDirectory) (name : Bytes) : Option Bytes :=
  ((List.range (directory.size + 1)).map (candidateName name)).find?
    fun candidate => decide (candidate ∉ directory)

theorem fileExt_append (base : Bytes) {ext : Bytes} (plain : 46 ∉ ext) :
    fileExt (base ++ 46 :: ext) = 46 :: ext := by
  have scanned : (base ++ 46 :: ext).reverse.takeWhile (· ≠ 46) = ext.reverse := by
    have all : ∀ byte ∈ ext.reverse, decide (byte ≠ 46) = true := by
      intro byte member
      simp only [decide_eq_true_eq]
      rintro rfl
      exact plain (List.mem_reverse.mp member)
    rw [List.reverse_append, List.reverse_cons, List.append_assoc,
      List.takeWhile_append_of_pos all]
    simp
  rw [fileExt, if_pos (by simp), scanned, List.reverse_reverse]

theorem trimSuffix_append (base suffix : Bytes) :
    trimSuffix (base ++ suffix) suffix = base := by
  rw [trimSuffix, if_pos (List.isSuffixOf_iff_suffix.mpr (List.suffix_append _ _)),
    List.length_append, Nat.add_sub_cancel, List.take_left]

section Candidates

variable {base ext : Bytes} (plain : 46 ∉ ext)
include plain

theorem candidateName_eq (suffix : Nat) :
    candidateName (base ++ (Bytes.ascii ".snapshot" ++ 46 :: ext)) suffix =
      base ++ ((if suffix > 0 then Bytes.ascii "-" ++ DecimalNumerals.write suffix else []) ++
        (Bytes.ascii ".snapshot" ++ 46 :: ext)) := by
  have extension : fileExt (base ++ (Bytes.ascii ".snapshot" ++ 46 :: ext)) = 46 :: ext := by
    rw [← List.append_assoc, fileExt_append _ plain]
  unfold candidateName
  dsimp only
  rw [extension, trimSuffix_append]
  split <;> simp only [List.append_assoc, List.nil_append]

/-- Different suffixes give different names. -/
theorem candidateName_injective :
    Function.Injective
      (candidateName (base ++ (Bytes.ascii ".snapshot" ++ 46 :: ext))) := by
  intro first second same
  rw [candidateName_eq plain, candidateName_eq plain] at same
  have middles := List.append_cancel_right (List.append_cancel_left same)
  rcases Nat.eq_zero_or_pos first with rfl | firstPos <;>
    rcases Nat.eq_zero_or_pos second with rfl | secondPos
  · rfl
  · simp [secondPos, Bytes.ascii] at middles
  · simp [firstPos, Bytes.ascii] at middles
  · rw [if_pos firstPos, if_pos secondPos] at middles
    have numerals := congrArg DecimalNumerals.read (List.append_cancel_left middles)
    rw [DecimalNumerals.read_write, DecimalNumerals.read_write] at numerals
    exact Option.some.inj numerals

/-- The loop ends: the directory has fewer names than there are candidates. -/
theorem availableSnapshotPath_found (directory : SnapshotDirectory) :
    ∃ path suffix, availableSnapshotPath directory
        (base ++ (Bytes.ascii ".snapshot" ++ 46 :: ext)) = some path ∧
      path ∉ directory ∧
      path = candidateName (base ++ (Bytes.ascii ".snapshot" ++ 46 :: ext)) suffix := by
  set name := base ++ (Bytes.ascii ".snapshot" ++ 46 :: ext)
  set candidates := (List.range (directory.size + 1)).map (candidateName name) with listed
  have distinct : candidates.Nodup :=
    List.nodup_range.map (candidateName_injective plain)
  have free : ∃ candidate ∈ candidates, candidate ∉ directory := by
    by_contra taken
    push Not at taken
    have bounded := (List.subperm_of_subset distinct fun candidate member =>
      Std.ExtTreeMap.mem_keys.mpr (taken candidate member)).length_le
    rw [Std.ExtTreeMap.length_keys, listed, List.length_map, List.length_range] at bounded
    omega
  obtain ⟨path, found⟩ : ∃ path, availableSnapshotPath directory name = some path := by
    obtain ⟨candidate, member, absent⟩ := free
    rw [← Option.isSome_iff_exists, availableSnapshotPath, List.find?_isSome]
    exact ⟨candidate, member, decide_eq_true absent⟩
  obtain ⟨suffix, -, rfl⟩ := List.mem_map.mp (List.mem_of_find?_eq_some found)
  exact ⟨_, suffix, found, by simpa using List.find?_some found, rfl⟩

end Candidates

/-! ### Writing and pruning -/

/-- The loop of `ValidateSnapshotEntries`; `seen` are the keys met so far. -/
def validateSnapshotEntries : List Bytes → List SnapshotEntry → Except SnapshotError Unit
  | _, [] => .ok ()
  | seen, item :: rest =>
      if item.key ∈ seen then .error (.duplicateKey item.key)
      else
        match decodeSnapshotEntry item 0 with
        | .error failure => .error failure
        | .ok _ => validateSnapshotEntries (item.key :: seen) rest

/-- Why a file is passed over. -/
inductive FileRefusal
  | undecodable (name : Bytes) (failure : FileError)
  | otherNode (name nodeID : Bytes)
  | invalidEntries (name : Bytes) (failure : SnapshotError)
  deriving DecidableEq

/-- A file that passed all checks, with its model. -/
structure ValidSnapshot where
  path : Bytes
  model : SnapshotModel
  deriving DecidableEq

/-- What is reported of a snapshot. -/
structure SnapshotResult where
  path : Bytes
  format : String
  createdAt : Timestamp
  entryCount : Nat
  checksum : Bytes
  deriving DecidableEq

/-- What is reported of a restore. -/
structure RestoreResult where
  result : SnapshotResult
  restoredEntries : Nat
  deriving DecidableEq

/-- The errors of the snapshot manager. -/
inductive PersistenceError
  | disabled
  | capture (failure : CaptureError)
  | noPath
  | write (failure : ModelError)
  | noSnapshot
  | noValidSnapshot (candidates : Nat) (last : Option FileRefusal)
  | metadataRefused (path : Bytes)
  | restore (path : Bytes) (failure : SnapshotError)
  deriving DecidableEq

namespace SnapshotManager

/-- The checks on one file with the name of a snapshot. -/
def inspect (manager : SnapshotManager) (name : Bytes) (format : String)
    (model : SnapshotModel) : Except FileRefusal ValidSnapshot :=
  if model.format ≠ format then
    .error (.undecodable name (.otherFormat model.format format))
  else if model.nodeID ≠ manager.nodeID then .error (.otherNode name model.nodeID)
  else
    match validateSnapshotEntries [] model.entries with
    | .error failure => .error (.invalidEntries name failure)
    | .ok () => .ok { path := name, model := model }

/-- The verdicts on the files with the names of snapshots. -/
def inspected (manager : SnapshotManager) (directory : SnapshotDirectory) :
    List (Except FileRefusal ValidSnapshot) :=
  directory.toList.filterMap fun file =>
    (formatForFilename file.1).map fun format => manager.inspect file.1 format file.2

/-- The refusal that `validSnapshots` reports. -/
def lastError (manager : SnapshotManager) (directory : SnapshotDirectory) :
    Option FileRefusal :=
  ((manager.inspected directory).filterMap fun verdict =>
    match verdict with
    | .error refusal => some refusal
    | .ok _ => none).getLast?

variable [SliceSort]

def validSnapshots (manager : SnapshotManager) (directory : SnapshotDirectory) :
    List ValidSnapshot :=
  SliceSort.sort
    (fun first second =>
      decide (first.model.createdAt.unixNano > second.model.createdAt.unixNano))
    ((manager.inspected directory).filterMap Except.toOption)

/-- Removes the oldest valid files above the maximum. -/
def pruneValidSnapshots (manager : SnapshotManager) (directory : SnapshotDirectory) :
    SnapshotDirectory :=
  let valid := manager.validSnapshots directory
  if manager.cfg.maxSnapshots ≤ 0 ∨ valid.length ≤ manager.cfg.maxSnapshots then directory
  else (valid.drop manager.cfg.maxSnapshots.toNat).foldl
    (fun directory old => directory.erase old.path) directory

variable [SnapshotCodecs]

def snapshot (manager : SnapshotManager) (call : SnapshotCall)
    (directory : SnapshotDirectory) :
    Except PersistenceError SnapshotResult × SnapshotDirectory :=
  if manager.cfg.enabled = false then (.error .disabled, directory)
  else
    match manager.capture call with
    | .error failure => (.error (.capture failure), directory)
    | .ok model =>
        let ext := if manager.cfg.format = "json" then Bytes.ascii "json"
          else Bytes.ascii "bin"
        match availableSnapshotPath directory
            (snapshotName model.createdAt model.checksum ext) with
        | none => (.error .noPath, directory)
        | some path =>
            match model.verify with
            | .error failure => (.error (.write failure), directory)
            | .ok () =>
                (.ok { path := path, format := model.format, createdAt := model.createdAt
                       entryCount := model.entries.length, checksum := model.checksum },
                  manager.pruneValidSnapshots (directory.insert path model))

/-- Restoring one file; the restorer of the metadata may refuse it. -/
def restore (restorer : Option (ClusterMetadata → Bool)) (now : Int)
    (latest : ValidSnapshot) (engine : Engine) :
    Except PersistenceError RestoreResult × Engine :=
  let data : ClusterMetadata :=
    { clusterID := latest.model.clusterID, slotCount := latest.model.slotCount
      metadataVersion := latest.model.metadataVersion, peers := latest.model.peers
      slots := latest.model.slots }
  if (restorer.map fun accepts => accepts data) = some false then
    (.error (.metadataRefused latest.path), engine)
  else
    match engine.restoreSnapshotEntries latest.model.entries now with
    | (.error failure, engine) => (.error (.restore latest.path failure), engine)
    | (.ok count, engine) =>
        (.ok { result :=
                { path := latest.path, format := latest.model.format
                  createdAt := latest.model.createdAt
                  entryCount := latest.model.entries.length
                  checksum := latest.model.checksum }
               restoredEntries := count }, engine)

/-- Restores the newest file that is valid. -/
def restoreLatest (manager : SnapshotManager) (restorer : Option (ClusterMetadata → Bool))
    (now : Int) (directory : SnapshotDirectory) (engine : Engine) :
    Except PersistenceError RestoreResult × Engine :=
  if manager.cfg.enabled = false then (.error .disabled, engine)
  else
    match manager.validSnapshots directory with
    | [] =>
        let candidates := (manager.inspected directory).length
        if candidates = 0 then (.error .noSnapshot, engine)
        else (.error (.noValidSnapshot candidates (manager.lastError directory)), engine)
    | latest :: _ => restore restorer now latest engine

end SnapshotManager

/-! ### The valid files -/

namespace SnapshotManager

/-- A file that `validSnapshots` lists. -/
structure Accepts (manager : SnapshotManager) (name : Bytes) (model : SnapshotModel) :
    Prop where
  named : formatForFilename name = some model.format
  owned : model.nodeID = manager.nodeID
  readable : validateSnapshotEntries [] model.entries = .ok ()

variable {manager : SnapshotManager} {directory : SnapshotDirectory}

/-- The file that a verdict lists, if any. -/
def listed (manager : SnapshotManager) (file : Bytes × SnapshotModel) :
    Option ValidSnapshot :=
  ((formatForFilename file.1).map fun format =>
    manager.inspect file.1 format file.2).bind Except.toOption

theorem listed_eq_some {name : Bytes} {model : SnapshotModel} {found : ValidSnapshot} :
    manager.listed (name, model) = some found ↔
      found = ⟨name, model⟩ ∧ manager.Accepts name model := by
  unfold listed inspect
  constructor
  · intro accepted
    cases named : formatForFilename name with
    | none => simp [named] at accepted
    | some format =>
        simp only [named, Option.map_some, Option.bind_some] at accepted
        split_ifs at accepted with format' node
        · cases accepted
        · cases accepted
        · split at accepted
          · cases accepted
          · rename_i readable
            obtain rfl := not_not.mp format'
            exact ⟨(Option.some.inj accepted).symm, named, not_not.mp node, readable⟩
  · rintro ⟨rfl, accepts⟩
    simp [accepts.named, accepts.owned, accepts.readable, Except.toOption]

theorem filterMap_inspected :
    (manager.inspected directory).filterMap Except.toOption =
      directory.toList.filterMap manager.listed := by
  rw [inspected, List.filterMap_filterMap]
  rfl

theorem stored_of_insert {path name : Bytes} {model stored : SnapshotModel}
    (found : (directory.insert path model)[name]? = some stored) :
    (name = path ∧ stored = model) ∨ directory[name]? = some stored := by
  rw [Std.ExtTreeMap.getElem?_insert] at found
  split_ifs at found with same
  · exact .inl ⟨(Std.LawfulEqCmp.eq_of_compare same).symm, (Option.some.inj found).symm⟩
  · exact .inr found

theorem restore_engine (now : Int) (latest : ValidSnapshot) (engine : Engine) :
    (restore none now latest engine).2 =
      (engine.restoreSnapshotEntries latest.model.entries now).2 := by
  unfold restore
  dsimp only
  rw [if_neg (by simp)]
  split <;> rename_i outcome <;> rw [outcome]

variable [SliceSort]

theorem mem_validSnapshots {found : ValidSnapshot} :
    found ∈ manager.validSnapshots directory ↔
      directory[found.path]? = some found.model ∧
        manager.Accepts found.path found.model := by
  rw [validSnapshots, SliceSort.mem_sort, filterMap_inspected, List.mem_filterMap]
  constructor
  · rintro ⟨⟨name, model⟩, member, accepted⟩
    obtain ⟨rfl, accepts⟩ := listed_eq_some.mp accepted
    exact ⟨Std.ExtTreeMap.mem_toList_iff_getElem?_eq_some.mp member, accepts⟩
  · rintro ⟨stored, accepts⟩
    exact ⟨(found.path, found.model),
      Std.ExtTreeMap.mem_toList_iff_getElem?_eq_some.mpr stored,
      listed_eq_some.mpr ⟨rfl, accepts⟩⟩

theorem nodup_validSnapshots (manager : SnapshotManager) (directory : SnapshotDirectory) :
    (manager.validSnapshots directory).Nodup := by
  have files : directory.toList.Nodup :=
    directory.distinct_keys_toList.imp fun {first second} different same =>
      different (by rw [same]; exact Std.ReflCmp.compare_self)
  rw [validSnapshots, filterMap_inspected]
  refine (SliceSort.perm _ _).nodup_iff.mpr (files.filterMap ?_)
  rintro ⟨name, model⟩ ⟨name', model'⟩ found first second
  obtain ⟨rfl, -⟩ := listed_eq_some.mp first
  obtain ⟨same, -⟩ := listed_eq_some.mp second
  cases same
  rfl

/-- The file that is later than all others comes first. -/
theorem head?_validSnapshots {path : Bytes} {model : SnapshotModel}
    (stored : directory[path]? = some model) (accepts : manager.Accepts path model)
    (latest : ∀ name other, directory[name]? = some other → name ≠ path →
      other.createdAt.unixNano < model.createdAt.unixNano) :
    (manager.validSnapshots directory).head? = some ⟨path, model⟩ := by
  have member : (⟨path, model⟩ : ValidSnapshot) ∈
      (manager.inspected directory).filterMap Except.toOption :=
    SliceSort.mem_sort.mp (mem_validSnapshots.mpr ⟨stored, accepts⟩)
  have order : (fun first second : ValidSnapshot =>
        decide (first.model.createdAt.unixNano > second.model.createdAt.unixNano)) =
      fun first second : ValidSnapshot => decide (-first.model.createdAt.unixNano <
        -second.model.createdAt.unixNano) := by
    funext first second
    simp only [neg_lt_neg_iff, gt_iff_lt]
  rw [validSnapshots, order]
  refine SliceSort.head?_sort member ?_
  intro other present different
  obtain ⟨found, -⟩ := mem_validSnapshots.mp (SliceSort.mem_sort.mpr present)
  have elsewhere : other.path ≠ path := by
    intro same
    rw [same, stored] at found
    exact different (by cases other; cases same; cases found; rfl)
  exact neg_lt_neg (latest other.path other.model found elsewhere)

theorem restoreLatest_of_head {restorer : Option (ClusterMetadata → Bool)} {now : Int}
    {engine : Engine} {latest : ValidSnapshot} (enabled : manager.cfg.enabled = true)
    (head : (manager.validSnapshots directory).head? = some latest) :
    manager.restoreLatest restorer now directory engine =
      restore restorer now latest engine := by
  obtain ⟨rest, valid⟩ := List.head?_eq_some_iff.mp head
  rw [restoreLatest, if_neg (by simp [enabled]), valid]

/-! ### Pruning -/

omit [SliceSort] in
theorem getElem?_eraseAll {olds : List ValidSnapshot} {name : Bytes} :
    (olds.foldl (fun directory old => directory.erase old.path) directory)[name]? =
      if name ∈ olds.map ValidSnapshot.path then none else directory[name]? := by
  induction olds generalizing directory with
  | nil => simp
  | cons old olds induction =>
      rw [List.foldl_cons, induction, Std.ExtTreeMap.getElem?_erase]
      by_cases later : name ∈ olds.map ValidSnapshot.path
      · simp [later]
      · by_cases here : old.path = name
        · simp [here]
        · have other : compare old.path name ≠ .eq := fun same =>
            here (Std.LawfulEqCmp.eq_of_compare same)
          have apart : name ≠ old.path := fun same => here same.symm
          simp only [List.map_cons, List.mem_cons, apart, later, or_self, if_false, other]

theorem stored_of_prune {name : Bytes} {model : SnapshotModel}
    (kept : (manager.pruneValidSnapshots directory)[name]? = some model) :
    directory[name]? = some model := by
  unfold pruneValidSnapshots at kept
  dsimp only at kept
  split_ifs at kept
  · exact kept
  · rw [getElem?_eraseAll] at kept
    split_ifs at kept
    exact kept

theorem prune_keeps_first (positive : 1 ≤ manager.cfg.maxSnapshots) {first : ValidSnapshot}
    (head : (manager.validSnapshots directory).head? = some first) :
    (manager.pruneValidSnapshots directory)[first.path]? = some first.model := by
  obtain ⟨rest, valid⟩ := List.head?_eq_some_iff.mp head
  obtain ⟨stored, -⟩ := mem_validSnapshots.mp (List.mem_of_mem_head? head)
  unfold pruneValidSnapshots
  dsimp only
  split_ifs
  · exact stored
  · have kept : first.path ∉ ((manager.validSnapshots directory).drop
        manager.cfg.maxSnapshots.toNat).map ValidSnapshot.path := by
      intro removed
      obtain ⟨old, dropped, same⟩ := List.mem_map.mp removed
      obtain ⟨count, maximum⟩ : ∃ count, manager.cfg.maxSnapshots.toNat = count + 1 :=
        ⟨manager.cfg.maxSnapshots.toNat - 1, by omega⟩
      have distinct := nodup_validSnapshots manager directory
      obtain ⟨storedOld, -⟩ := mem_validSnapshots.mp (List.mem_of_mem_drop dropped)
      rw [valid, maximum, List.drop_succ_cons] at dropped
      rw [same, stored] at storedOld
      have equal : old = first := by
        cases old
        cases first
        cases same
        cases storedOld
        rfl
      rw [valid, List.nodup_cons] at distinct
      exact distinct.1 (equal ▸ List.mem_of_mem_drop dropped)
    rw [getElem?_eraseAll, if_neg kept, stored]

end SnapshotManager

/-! ### One snapshot -/

/-- The format is read off the name again. -/
theorem formatForFilename_written (middle : Bytes) {format : String}
    (supported : format = "json" ∨ format = "binary") :
    formatForFilename (Bytes.ascii "snapshot-" ++ (middle ++ (Bytes.ascii ".snapshot" ++
      46 :: if format = "json" then Bytes.ascii "json" else Bytes.ascii "bin"))) =
        some format := by
  have start (rest : Bytes) :
      (Bytes.ascii "snapshot-").isPrefixOf (Bytes.ascii "snapshot-" ++ rest) = true :=
    List.isPrefixOf_iff_prefix.mpr (List.prefix_append _ _)
  have finish (front suffix : Bytes) :
      suffix.isSuffixOf (Bytes.ascii "snapshot-" ++ (front ++ suffix)) = true := by
    rw [← List.append_assoc]
    exact List.isSuffixOf_iff_suffix.mpr (List.suffix_append _ _)
  have json : Bytes.ascii ".snapshot" ++ 46 :: Bytes.ascii "json" =
      Bytes.ascii ".snapshot.json" := by decide
  have binary : Bytes.ascii ".snapshot" ++ 46 :: Bytes.ascii "bin" =
      Bytes.ascii ".snapshot.bin" := by decide
  unfold formatForFilename
  rcases supported with rfl | rfl
  · rw [if_pos rfl, json, start, finish]
    rfl
  · have other : (Bytes.ascii ".snapshot.json").isSuffixOf (Bytes.ascii "snapshot-" ++
        (middle ++ Bytes.ascii ".snapshot.bin")) = false := by
      by_contra ending
      have within := List.suffix_of_suffix_length_le
        (List.isSuffixOf_iff_suffix.mp (finish middle (Bytes.ascii ".snapshot.bin")))
        (List.isSuffixOf_iff_suffix.mp (Bool.not_eq_false _ ▸ ending)) (by decide)
      revert within
      decide
    have notJSON : ¬ "binary" = "json" := by decide
    rw [if_neg notJSON, binary, start, other, finish]
    rfl

theorem availableSnapshotPath_named (directory : SnapshotDirectory) (createdAt : Timestamp)
    (checksum : Bytes) {format : String}
    (supported : format = "json" ∨ format = "binary") :
    ∃ path, availableSnapshotPath directory (snapshotName createdAt checksum
        (if format = "json" then Bytes.ascii "json" else Bytes.ascii "bin")) = some path ∧
      path ∉ directory ∧ formatForFilename path = some format := by
  set ext := if format = "json" then Bytes.ascii "json" else Bytes.ascii "bin" with chosen
  set digits := twentyDigits createdAt.unixNano ++ (Bytes.ascii "-" ++ checksum.take 12)
  have plain : 46 ∉ ext := by
    rcases supported with rfl | rfl <;> decide
  have name : snapshotName createdAt checksum ext =
      Bytes.ascii "snapshot-" ++ digits ++ (Bytes.ascii ".snapshot" ++ 46 :: ext) := by
    have dotted : Bytes.ascii ".snapshot." = Bytes.ascii ".snapshot" ++ [46] := by decide
    simp only [snapshotName, dotted, digits, List.append_assoc, List.singleton_append]
  obtain ⟨path, suffix, found, free, rfl⟩ := availableSnapshotPath_found plain directory
  rw [name]
  refine ⟨_, found, free, ?_⟩
  rw [candidateName_eq plain, List.append_assoc, ← List.append_assoc digits, chosen,
    formatForFilename_written _ supported]

namespace SnapshotManager

variable [SliceSort] [SnapshotCodecs] {manager : SnapshotManager} {call : SnapshotCall}
  {directory : SnapshotDirectory}

/-- The fields of a captured model. -/
structure Captured (manager : SnapshotManager) (call : SnapshotCall)
    (model : SnapshotModel) : Prop where
  entries : call.engine.snapshotEntries call.captureTime = .ok model.entries
  nodeID : model.nodeID = manager.nodeID
  format : model.format = manager.cfg.format
  instant : model.createdAt.unixNano = call.reading.unixNano
  verified : model.verify = .ok ()

theorem captured {model : SnapshotModel} (captures : manager.capture call = .ok model) :
    manager.Captured call model := by
  obtain ⟨entries, listed, sealing⟩ := capture_eq_ok.mp captures
  have verified := SnapshotModel.verify_of_sealModel sealing
  obtain ⟨-, rfl⟩ := SnapshotModel.sealModel_eq_ok.mp sealing
  refine ⟨?_, ?_, ?_, ?_, verified⟩ <;>
    simp only [SnapshotModel.withChecksum, build] <;> split
  all_goals first | exact listed | rfl

/-- All that `Snapshot` can do. -/
inductive Snapshotted (manager : SnapshotManager) (call : SnapshotCall)
    (directory : SnapshotDirectory) :
    Except PersistenceError SnapshotResult × SnapshotDirectory → Prop
  | failed (failure : PersistenceError)
      (blocked : manager.cfg.enabled = false ∨ ∀ model, manager.capture call ≠ .ok model) :
      Snapshotted manager call directory (.error failure, directory)
  | written {model : SnapshotModel} (captures : manager.capture call = .ok model)
      {result : SnapshotResult} (enabled : manager.cfg.enabled = true)
      (free : result.path ∉ directory)
      (named : formatForFilename result.path = some model.format) :
      Snapshotted manager call directory
        (.ok result, manager.pruneValidSnapshots (directory.insert result.path model))

theorem snapshotted (manager : SnapshotManager) (call : SnapshotCall)
    (directory : SnapshotDirectory) :
    Snapshotted manager call directory (manager.snapshot call directory) := by
  by_cases disabled : manager.cfg.enabled = false
  · rw [snapshot, if_pos disabled]
    exact .failed .disabled (.inl disabled)
  rw [snapshot, if_neg disabled]
  cases captures : manager.capture call with
  | error failure => exact .failed (.capture failure) (.inr (by simp [captures]))
  | ok model =>
      have fields := captured captures
      have supported := SnapshotModel.format_of_valid
        ((SnapshotModel.verify_iff model).mp fields.verified).1
      obtain ⟨path, found, free, named⟩ :=
        availableSnapshotPath_named directory model.createdAt model.checksum supported
      dsimp only
      rw [← fields.format, found, fields.verified]
      exact .written captures (Bool.eq_true_of_not_eq_false disabled) free named

/-! ### Runs -/

/-- Every file is earlier than an instant. -/
def EarlierThan (instant : Int) (directory : SnapshotDirectory) : Prop :=
  ∀ (name : Bytes) (model : SnapshotModel), directory[name]? = some model →
    model.createdAt.unixNano < instant

theorem earlierThan_snapshot {instant : Int} (earlier : EarlierThan instant directory)
    (before : call.reading.unixNano < instant) :
    EarlierThan instant (manager.snapshot call directory).2 := by
  intro name model stored
  have done := snapshotted manager call directory
  generalize manager.snapshot call directory = outcome at done stored
  cases done with
  | failed failure blocked => exact earlier name model stored
  | written captures enabled free named =>
      rcases stored_of_insert (stored_of_prune stored) with ⟨-, rfl⟩ | old
      · rwa [(captured captures).instant]
      · exact earlier name model old

/-- The directory after a sequence of calls; it starts empty. -/
def history (manager : SnapshotManager) (calls : List SnapshotCall) : SnapshotDirectory :=
  LabelledRuns.run (fun directory call => (manager.snapshot call directory).2) ∅ calls

theorem earlierThan_history {calls : List SnapshotCall} {instant : Int}
    (before : ∀ earlier ∈ calls, earlier.reading.unixNano < instant) :
    EarlierThan instant (manager.history calls) := by
  refine LabelledRuns.run_induction _ ?_ ?_
  · intro directory earlier member files
    exact earlierThan_snapshot files (before earlier member)
  · intro name model stored
    simp at stored

/-- The snapshot of a later instant than all others survives and comes first. -/
theorem first_of_snapshot (positive : 1 ≤ manager.cfg.maxSnapshots)
    (files : EarlierThan call.reading.unixNano directory) {model : SnapshotModel}
    (captures : manager.capture call = .ok model) {path : Bytes}
    (named : formatForFilename path = some model.format)
    (readable : validateSnapshotEntries [] model.entries = .ok ()) :
    (manager.pruneValidSnapshots (directory.insert path model))[path]? = some model ∧
      (manager.validSnapshots (manager.pruneValidSnapshots
        (directory.insert path model))).head? = some ⟨path, model⟩ := by
  have fields := captured captures
  have accepts : manager.Accepts path model := ⟨named, fields.nodeID, readable⟩
  have latest : ∀ name other, (directory.insert path model)[name]? = some other →
      name ≠ path → other.createdAt.unixNano < model.createdAt.unixNano := by
    intro name other stored different
    rcases stored_of_insert stored with ⟨same, -⟩ | old
    · exact absurd same different
    · rw [fields.instant]
      exact files name other old
  have stored : (directory.insert path model)[path]? = some model := by simp
  have kept : (manager.pruneValidSnapshots (directory.insert path model))[path]? =
      some model :=
    prune_keeps_first positive (head?_validSnapshots stored accepts latest)
  exact ⟨kept, head?_validSnapshots kept accepts fun name other found =>
    latest name other (stored_of_prune found)⟩

/-- If the clock was read later than at all earlier calls, the file of a successful
snapshot exists and is the one that is restored. -/
theorem latest_snapshot_is_restored (manager : SnapshotManager)
    (positive : 1 ≤ manager.cfg.maxSnapshots) (calls : List SnapshotCall)
    (call : SnapshotCall)
    (later : ∀ earlier ∈ calls, earlier.reading.unixNano < call.reading.unixNano)
    (readable : ∀ entries, call.engine.snapshotEntries call.captureTime = .ok entries →
      validateSnapshotEntries [] entries = .ok ())
    {result : SnapshotResult} {directory : SnapshotDirectory}
    (succeeds : manager.snapshot call (manager.history calls) = (.ok result, directory)) :
    ∃ model, manager.capture call = .ok model ∧
      call.engine.snapshotEntries call.captureTime = .ok model.entries ∧
      directory[result.path]? = some model ∧
      (∀ restorer now engine, manager.restoreLatest restorer now directory engine =
        restore restorer now ⟨result.path, model⟩ engine) ∧
      ∀ now engine, (manager.restoreLatest none now directory engine).2 =
        (engine.restoreSnapshotEntries model.entries now).2 := by
  have done := snapshotted manager call (manager.history calls)
  rw [succeeds] at done
  cases done with
  | written captures enabled free named =>
      rename_i model
      have fields := captured captures
      obtain ⟨kept, head⟩ := first_of_snapshot positive (earlierThan_history later) captures
        named (readable _ fields.entries)
      refine ⟨model, captures, fields.entries, kept, ?_, ?_⟩
      · intro restorer now engine
        exact restoreLatest_of_head enabled head
      · intro now engine
        rw [restoreLatest_of_head enabled head, restore_engine]

end SnapshotManager

namespace SnapshotManager

section Examples

attribute [local instance] SliceSort.insertion

/-- The first six bytes of the SHA-256 sums of the JSON texts in which one string is
captured under the key `a` or `b`, five nanoseconds after the epoch. -/
@[reducible]
def twoSums : SnapshotCodecs where
  sum256 text :=
    if text = Bytes.ascii "a" then
      ⟨[0xAD, 0xB8, 0x72, 0x90, 0x05, 0x90] ++ List.replicate 26 0, rfl⟩
    else ⟨[0x47, 0xF8, 0xA5, 0x5B, 0x38, 0xDE] ++ List.replicate 26 0, rfl⟩
  marshal model := model.entries.flatMap SnapshotEntry.key
  writeJSON _ := []
  readJSON _ := none
  writeGob _ := []
  readGob _ := none

attribute [local instance] twoSums

def callAt (key : Bytes) (instant : Int) : SnapshotCall :=
  { callWithKey key with reading := ⟨instant, 0⟩ }

/-- A snapshot of the key `a` after one of the key `b`. -/
def secondSnapshot (instant : Int) :
    Except PersistenceError SnapshotResult × SnapshotDirectory :=
  textManager.snapshot (callAt (Bytes.ascii "a") instant)
    (textManager.history [callAt (Bytes.ascii "b") 5])

def secondResult (instant : Int) : SnapshotResult :=
  { path := snapshotName ⟨instant, 0⟩ (Bytes.ascii "adb872900590") (Bytes.ascii "json")
    format := "json", createdAt := ⟨instant, 0⟩, entryCount := 1
    checksum := Bytes.ascii "adb872900590" ++ List.replicate 52 48 }

theorem later_snapshot_is_restored :
    (secondSnapshot 6).1 = .ok (secondResult 6) ∧
      ∃ model, (secondSnapshot 6).2[(secondResult 6).path]? = some model ∧
        ∀ now engine, (textManager.restoreLatest none now (secondSnapshot 6).2 engine).2 =
          (engine.restoreSnapshotEntries model.entries now).2 := by
  have succeeded : (secondSnapshot 6).1 = .ok (secondResult 6) := by decide +kernel
  have readable : ∀ entries,
      (callAt (Bytes.ascii "a") 6).engine.snapshotEntries 0 = .ok entries →
        validateSnapshotEntries [] entries = .ok () := by
    intro entries captured
    have listed : (callAt (Bytes.ascii "a") 6).engine.snapshotEntries 0 =
        .ok [⟨Bytes.ascii "a", "string", Bytes.ascii "v", 66, 0⟩] := by decide
    obtain rfl := Except.ok.inj (listed.symm.trans captured)
    decide
  obtain ⟨model, -, -, stored, -, restored⟩ := latest_snapshot_is_restored textManager
    (by decide) [callAt (Bytes.ascii "b") 5] (callAt (Bytes.ascii "a") 6) (by decide)
    readable (Prod.ext succeeded rfl)
  exact ⟨succeeded, model, stored, restored⟩

/-- In the same nanosecond the older snapshot comes first, because its name does. -/
theorem snapshot_of_same_instant_is_removed :
    (secondSnapshot 5).1 = .ok (secondResult 5) ∧
      (secondSnapshot 5).2[(secondResult 5).path]? = none ∧
      ((callAt (Bytes.ascii "a") 5).engine.snapshotEntries 0).map
          (List.map SnapshotEntry.key) = .ok [Bytes.ascii "a"] ∧
      ((textManager.restoreLatest none 5 (secondSnapshot 5).2
          (afterCommand (.make .ping []))).2.snapshotEntries 5).map
        (List.map SnapshotEntry.key) = .ok [Bytes.ascii "b"] := by
  refine ⟨?_, ?_, ?_, ?_⟩ <;> decide +kernel

end Examples

end SnapshotManager

end MnemoKV
