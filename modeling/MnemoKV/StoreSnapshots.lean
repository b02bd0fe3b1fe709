import MnemoKV.SnapshotEncoding
import MnemoKV.WriteAdmission

/-!
# Capturing and restoring a store

A capture lists the unexpired entries, and a restore replaces everything that
is stored by the unexpired entries of a list.
-/

namespace MnemoKV

def Entry.snapshot (entry : Entry) : Except SnapshotError SnapshotEntry :=
  match encodeSnapshotValue entry.value with
  | .error failure => .error failure
  | .ok value => .ok
      { key := entry.key, valueType := entry.value.typeName, value := value
        approxSize := entry.sizeBytes, expiresAtNs := entry.expiresAtNs }

def encodeEntries : List Entry → Except SnapshotError (List SnapshotEntry)
  | [] => .ok []
  | entry :: rest =>
      match entry.snapshot with
      | .error failure => .error failure
      | .ok item =>
          match encodeEntries rest with
          | .error failure => .error failure
          | .ok items => .ok (item :: items)

namespace Store

/-- The unexpired entries in the order of their keys. -/
def snapshotEntries (now : Int) (store : Store) :
    Except SnapshotError (List SnapshotEntry) :=
  match encodeEntries (store.allEntries.filter fun entry =>
    !entry.isExpired now) with
  | .error failure => .error failure
  | .ok entries => .ok (entries.insertionSort fun first second =>
      (compare first.key second.key).isLE = true)

def replaceAll (entries : List Entry) (total : Nat) (store : Store) : Store :=
  { entries.foldl assign store.emptied with usedBytes := total, balance := total }

end Store

namespace SnapshotEntry

def isExpired (item : SnapshotEntry) (now : Int) : Bool :=
  decide (item.expiresAtNs ≠ 0) && decide (item.expiresAtNs ≤ now)

end SnapshotEntry

/-- The loop of `RestoreSnapshotEntries`; `seen` are the keys met so far. -/
def decodeEntries (now : Int) : List Bytes → Nat → List SnapshotEntry →
    Except SnapshotError (List Entry × Nat)
  | _, total, [] => .ok ([], total)
  | seen, total, item :: rest =>
      if item.key ∈ seen then .error (.duplicateKey item.key)
      else if item.isExpired now then
        decodeEntries now (item.key :: seen) total rest
      else
        match decodeSnapshotEntry item now with
        | .error failure => .error failure
        | .ok entry =>
            if maxUint64 - total < entry.sizeBytes then .error .sizeOverflow
            else
              match decodeEntries now (item.key :: seen)
                (total + entry.sizeBytes) rest with
              | .error failure => .error failure
              | .ok (entries, total) => .ok (entry :: entries, total)

namespace Engine

def snapshotEntries (now : Int) (engine : Engine) :
    Except SnapshotError (List SnapshotEntry) :=
  engine.store.snapshotEntries now

def restoreSnapshotEntries (entries : List SnapshotEntry) (now : Int)
    (engine : Engine) : Except SnapshotError Nat × Engine :=
  match decodeEntries now [] 0 entries with
  | .error failure => (.error failure, engine)
  | .ok (decoded, total) =>
      if 0 < engine.limitBytes ∧ total > engine.limitBytes then
        (.error (.limitExceeded total engine.limitBytes), engine)
      else (.ok decoded.length,
        engine.withStore (engine.store.replaceAll decoded total))

end Engine

/-! ### What a capture lists -/

theorem Store.mem_allEntries {store : Store} {entry : Entry} :
    entry ∈ store.allEntries ↔ store.find entry.key = some entry := by
  constructor
  · intro listed
    obtain ⟨stripe, -, here⟩ := List.mem_flatMap.mp listed
    exact find_of_mem_stripe here
  · intro found
    refine List.mem_flatMap.mpr ⟨store.stripeFor entry.key,
      List.mem_finRange _, List.mem_map.mpr ⟨(entry.key, entry), ?_, rfl⟩⟩
    exact Std.ExtTreeMap.mem_toList_iff_getElem?_eq_some.mpr found

/-- A successful encoding has one item for each entry, in their order. -/
theorem forall₂_encodeEntries {entries : List Entry} {items : List SnapshotEntry}
    (encoded : encodeEntries entries = .ok items) :
    List.Forall₂ (fun entry item => entry.snapshot = .ok item) entries items := by
  induction entries generalizing items with
  | nil =>
      obtain rfl := Except.ok.inj encoded
      exact .nil
  | cons entry rest induction =>
      unfold encodeEntries at encoded
      split at encoded
      · cases encoded
      · rename_i first firstEncoded
        split at encoded
        · cases encoded
        · rename_i others restEncoded
          obtain rfl := Except.ok.inj encoded
          exact .cons firstEncoded (induction restEncoded)

theorem mem_encodeEntries {entries : List Entry} {items : List SnapshotEntry}
    (encoded : encodeEntries entries = .ok items) {item : SnapshotEntry} :
    item ∈ items ↔ ∃ entry ∈ entries, entry.snapshot = .ok item := by
  have paired := forall₂_encodeEntries encoded
  clear encoded
  induction paired with
  | nil => simp
  | cons same rest induction =>
      simp only [List.mem_cons, induction, exists_eq_or_imp, same, Except.ok.injEq,
        @eq_comm _ item]

theorem snapshot_of_mem_encodeEntries {entries : List Entry}
    {items : List SnapshotEntry} (encoded : encodeEntries entries = .ok items)
    {entry : Entry} (member : entry ∈ entries) :
    ∃ item ∈ items, entry.snapshot = .ok item := by
  have paired := forall₂_encodeEntries encoded
  clear encoded
  induction paired with
  | nil => cases member
  | cons same rest induction =>
      rcases List.mem_cons.mp member with rfl | later
      · exact ⟨_, List.mem_cons_self, same⟩
      · obtain ⟨item, listed, itemEncoded⟩ := induction later
        exact ⟨item, List.mem_cons_of_mem _ listed, itemEncoded⟩

theorem Store.mem_snapshotEntries {store : Store} {now : Int}
    {items : List SnapshotEntry}
    (captured : store.snapshotEntries now = .ok items) {item : SnapshotEntry} :
    item ∈ items ↔ ∃ entry, store.find entry.key = some entry ∧
      entry.isExpired now = false ∧ entry.snapshot = .ok item := by
  unfold snapshotEntries at captured
  split at captured
  · cases captured
  · rename_i entries encoded
    obtain rfl := Except.ok.inj captured
    rw [List.mem_insertionSort, mem_encodeEntries encoded]
    simp only [List.mem_filter, mem_allEntries, Bool.not_eq_true', and_assoc]

theorem Store.snapshot_of_find {store : Store} {now : Int}
    {items : List SnapshotEntry}
    (captured : store.snapshotEntries now = .ok items) {key : Bytes}
    {entry : Entry} (found : store.find key = some entry)
    (live : entry.isExpired now = false) :
    ∃ item ∈ items, entry.snapshot = .ok item := by
  unfold snapshotEntries at captured
  split at captured
  · cases captured
  · rename_i entries encoded
    obtain rfl := Except.ok.inj captured
    have here : store.find entry.key = some entry := by
      rw [key_of_find found]
      exact found
    obtain ⟨item, listed, itemEncoded⟩ := snapshot_of_mem_encodeEntries encoded
      (List.mem_filter.mpr ⟨mem_allEntries.mpr here, by rw [live]; rfl⟩)
    exact ⟨item, List.mem_insertionSort _ |>.mpr listed, itemEncoded⟩

end MnemoKV
