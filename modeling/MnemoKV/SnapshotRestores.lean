import MnemoKV.StoreSnapshots

/-!
# What a restore brings back

A restore accepts a list only when every key occurs once and every live entry
decodes; afterwards exactly the live entries of the list are stored.  A captured
entry stands for what was live when it was captured.
-/

namespace MnemoKV

/-- The item that a snapshot entry stands for at the time of the restore. -/
def SnapshotEntry.restored (now : Int) (item : SnapshotEntry) : Option Item :=
  if item.isExpired now then none
  else
    match decodeSnapshotEntry item now with
    | .error _ => none
    | .ok entry => some entry.item

theorem key_of_decodeSnapshotEntry {item : SnapshotEntry} {now : Int}
    {entry : Entry} (decoded : decodeSnapshotEntry item now = .ok entry) :
    entry.key = item.key := by
  unfold decodeSnapshotEntry at decoded
  split at decoded
  · cases decoded
  · split_ifs at decoded
    obtain rfl := Except.ok.inj decoded
    rfl

/-- What the loop accepts: every key once, every live entry decoded. -/
structure Restorable (now : Int) (seen : List Bytes)
    (items : List SnapshotEntry) : Prop where
  fresh : ∀ item ∈ items, item.key ∉ seen
  distinct : (items.map SnapshotEntry.key).Nodup
  decodes : ∀ item ∈ items, item.isExpired now = false →
    ∃ entry, decodeSnapshotEntry item now = .ok entry

theorem decodeEntries_restorable {now : Int} {seen : List Bytes} {total : Nat}
    {items : List SnapshotEntry} {decoded : List Entry × Nat}
    (accepted : decodeEntries now seen total items = .ok decoded) :
    Restorable now seen items := by
  induction items generalizing seen total decoded with
  | nil => exact ⟨by simp, by simp, by simp⟩
  | cons item rest induction =>
      have extend : item.key ∉ seen → Restorable now (item.key :: seen) rest →
          (item.isExpired now = false →
            ∃ entry, decodeSnapshotEntry item now = .ok entry) →
          Restorable now seen (item :: rest) := by
        intro unseen tail decodes
        refine ⟨?_, ?_, ?_⟩
        · intro other member
          rcases List.mem_cons.mp member with rfl | later
          · exact unseen
          · exact fun old => tail.fresh other later (List.mem_cons_of_mem _ old)
        · rw [List.map_cons, List.nodup_cons]
          refine ⟨?_, tail.distinct⟩
          intro repeated
          obtain ⟨other, later, same⟩ := List.mem_map.mp repeated
          exact tail.fresh other later (same ▸ List.mem_cons_self)
        · intro other member live
          rcases List.mem_cons.mp member with rfl | later
          · exact decodes live
          · exact tail.decodes other later live
      unfold decodeEntries at accepted
      split_ifs at accepted with repeated expired
      · refine extend repeated (induction accepted) ?_
        intro live
        rw [expired] at live
        cases live
      · split at accepted
        · cases accepted
        · rename_i entry itemDecoded
          split_ifs at accepted
          split at accepted
          · cases accepted
          · rename_i entries total' restAccepted
            exact extend repeated (induction restAccepted)
              fun _ => ⟨entry, itemDecoded⟩

theorem dataset_foldl_assign {now : Int} {seen : List Bytes} {total : Nat}
    {items : List SnapshotEntry} {decoded : List Entry × Nat}
    (accepted : decodeEntries now seen total items = .ok decoded)
    (base : Store) :
    (∀ key ∉ items.map SnapshotEntry.key,
      (decoded.1.foldl Store.assign base).dataset key = base.dataset key) ∧
    ∀ item ∈ items, base.dataset item.key = none →
      (decoded.1.foldl Store.assign base).dataset item.key =
        item.restored now := by
  induction items generalizing seen total decoded base with
  | nil =>
      obtain rfl := Except.ok.inj accepted
      exact ⟨fun _ _ => rfl, by simp⟩
  | cons item rest induction =>
      have restorable := decodeEntries_restorable accepted
      have headFresh : item.key ∉ rest.map SnapshotEntry.key := by
        have distinct := restorable.distinct
        rw [List.map_cons, List.nodup_cons] at distinct
        exact distinct.1
      unfold decodeEntries at accepted
      split_ifs at accepted with repeated expired
      · obtain ⟨others, tail⟩ := induction accepted base
        refine ⟨?_, ?_⟩
        · intro key absent
          rw [List.map_cons, List.mem_cons, not_or] at absent
          exact others key absent.2
        · intro other member missing
          rcases List.mem_cons.mp member with rfl | later
          · rw [others _ headFresh, missing, SnapshotEntry.restored,
              if_pos expired]
          · exact tail other later missing
      · split at accepted
        · cases accepted
        · rename_i entry itemDecoded
          split_ifs at accepted
          split at accepted
          · cases accepted
          · rename_i entries total' restAccepted
            obtain rfl := Except.ok.inj accepted
            have sameKey := key_of_decodeSnapshotEntry itemDecoded
            obtain ⟨others, tail⟩ := induction restAccepted (base.assign entry)
            have assigned : ∀ key, key ≠ item.key →
                (base.assign entry).dataset key = base.dataset key := by
              intro key distinct
              rw [Store.dataset_assign, sameKey]
              exact Function.update_of_ne distinct _ _
            refine ⟨?_, ?_⟩
            · intro key absent
              rw [List.map_cons, List.mem_cons, not_or] at absent
              exact (others key absent.2).trans (assigned key absent.1)
            · intro other member missing
              rcases List.mem_cons.mp member with rfl | later
              · refine (others _ headFresh).trans ?_
                rw [Store.dataset_assign, sameKey, Function.update_self,
                  SnapshotEntry.restored, if_neg expired, itemDecoded]
              · have distinct : other.key ≠ item.key := fun same =>
                  headFresh (same ▸ List.mem_map_of_mem later)
                refine tail other later ?_
                rw [assigned other.key distinct]
                exact missing

theorem Engine.restoreSnapshotEntries_error {entries : List SnapshotEntry}
    {now : Int} {engine : Engine} {failure : SnapshotError}
    (failed : (engine.restoreSnapshotEntries entries now).1 = .error failure) :
    (engine.restoreSnapshotEntries entries now).2 = engine := by
  unfold restoreSnapshotEntries at failed ⊢
  split at failed
  · rfl
  · split_ifs at failed ⊢
    rfl

/-- The entries of the list are all that is stored after a restore. -/
structure Store.Holds (store : Store) (now : Int) (entries : List SnapshotEntry) :
    Prop where
  restorable : Restorable now [] entries
  listed : ∀ item ∈ entries, store.dataset item.key = item.restored now
  absent : ∀ key ∉ entries.map SnapshotEntry.key, store.dataset key = none

theorem Engine.restoreSnapshotEntries_ok {entries : List SnapshotEntry}
    {now : Int} {engine : Engine} {count : Nat}
    (accepted : (engine.restoreSnapshotEntries entries now).1 = .ok count) :
    ∃ store, (engine.restoreSnapshotEntries entries now).2 =
        engine.withStore store ∧ store.Holds now entries := by
  unfold restoreSnapshotEntries at accepted ⊢
  split at accepted
  · cases accepted
  · rename_i decoded total outcome
    split_ifs at accepted ⊢ with large
    refine ⟨_, rfl, decodeEntries_restorable outcome, ?_, ?_⟩
    · intro item member
      exact (dataset_foldl_assign outcome _).2 item member
        (by simp [Store.dataset])
    · intro key absent
      refine ((dataset_foldl_assign outcome _).1 key absent).trans ?_
      simp [Store.dataset]

/-! ### Captured entries -/

theorem decodeSnapshotValue_encode {entry : Entry} {item : SnapshotEntry}
    {value : Value} (encoded : entry.snapshot = .ok item)
    (decoded : decodeSnapshotValue item = .ok value) : value = entry.value := by
  unfold Entry.snapshot at encoded
  split at encoded
  · cases encoded
  · rename_i payload payloadEncoded
    obtain rfl := Except.ok.inj encoded
    cases stored : entry.value with
    | string data =>
        rw [stored] at payloadEncoded decoded
        obtain rfl := Except.ok.inj payloadEncoded
        exact (Except.ok.inj decoded).symm
    | list items =>
        rw [stored] at payloadEncoded decoded
        simp only [decodeSnapshotValue, Value.typeName] at decoded
        cases outcome : decodeListValue payload with
        | error failure => simp [outcome, Except.map] at decoded
        | ok items' =>
            have same := decodeListValue_encode payloadEncoded outcome
            simpa [outcome, Except.map, same, eq_comm] using decoded
    | zset members =>
        rw [stored] at payloadEncoded decoded
        simp only [decodeSnapshotValue, Value.typeName] at decoded
        cases outcome : decodeZSetValue payload with
        | error failure => simp [outcome, Except.map] at decoded
        | ok members' =>
            have same := decodeZSetValue_encode payloadEncoded outcome
            simpa [outcome, Except.map, same, eq_comm] using decoded

theorem snapshot_fields {entry : Entry} {item : SnapshotEntry}
    (encoded : entry.snapshot = .ok item) :
    item.key = entry.key ∧ item.approxSize = entry.sizeBytes ∧
      item.expiresAtNs = entry.expiresAtNs := by
  unfold Entry.snapshot at encoded
  split at encoded
  · cases encoded
  · obtain rfl := Except.ok.inj encoded
    exact ⟨rfl, rfl, rfl⟩

/-- A captured entry that decodes brings its item back, if it is still live. -/
theorem restored_snapshot {entry : Entry} {item : SnapshotEntry} {now : Int}
    (encoded : entry.snapshot = .ok item)
    (decodes : item.isExpired now = false →
      ∃ restored, decodeSnapshotEntry item now = .ok restored) :
    item.restored now = liveAt now (some entry.item) := by
  obtain ⟨-, size, expires⟩ := snapshot_fields encoded
  have sameExpiry : item.isExpired now = entry.item.isExpired now := by
    rw [SnapshotEntry.isExpired, expires]
    rfl
  rw [liveAt_some, SnapshotEntry.restored, sameExpiry]
  split_ifs with expired
  · rfl
  · obtain ⟨restored, decoded⟩ := decodes (by simpa [sameExpiry] using expired)
    rw [decoded]
    unfold decodeSnapshotEntry at decoded
    split at decoded
    · cases decoded
    · rename_i value valueDecoded
      have same := decodeSnapshotValue_encode encoded valueDecoded
      split_ifs at decoded
      obtain rfl := Except.ok.inj decoded
      simp [Entry.item, same, size, expires]

end MnemoKV
