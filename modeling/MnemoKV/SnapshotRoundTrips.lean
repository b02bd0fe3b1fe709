import MnemoKV.EngineRuns

/-!
# Captures that come back

A capture at some time, restored at that time, brings back every entry that was
live then, at its size and with its expiration, if the payload of each of them
can be written and read to its end.  The reader fails at the end of a payload
even when it asks for no byte, so a list or a sorted set that ends with an empty
element cannot be restored, and with it nothing else of the capture.
-/

namespace MnemoKV

/-- Elements that fit the prefixes and do not end with an empty one. -/
structure Readable (elements : List Bytes) : Prop where
  counted : elements.length ≤ maxUint32
  measured : ∀ element ∈ elements, element.length ≤ maxUint32
  ending : elements.getLast? ≠ some []

/-- A value that the decoder takes back. -/
def Value.Readable : Value → Prop
  | .string _ => True
  | .list items => MnemoKV.Readable items
  | .zset members => MnemoKV.Readable (members.list.map ZSetMember.member)

instance (elements : List Bytes) : Decidable (Readable elements) :=
  decidable_of_iff (elements.length ≤ maxUint32 ∧
      (∀ element ∈ elements, element.length ≤ maxUint32) ∧
      elements.getLast? ≠ some [])
    ⟨fun facts => ⟨facts.1, facts.2.1, facts.2.2⟩,
      fun readable => ⟨readable.counted, readable.measured, readable.ending⟩⟩

instance : (value : Value) → Decidable value.Readable
  | .string _ => .isTrue trivial
  | .list items => inferInstanceAs (Decidable (MnemoKV.Readable items))
  | .zset members => inferInstanceAs
      (Decidable (MnemoKV.Readable (members.list.map ZSetMember.member)))

theorem encodeLengthPrefixed_ne_nil (item : Bytes) :
    encodeLengthPrefixed item ≠ [] := by
  simp [encodeLengthPrefixed, BigEndian.write]

theorem encodeMember_ne_nil (node : ZSetMember) : encodeMember node ≠ [] := by
  simp [encodeMember, BigEndian.write]

/-- Encoded elements are read to the end unless the last one is empty. -/
theorem decodeElements_accepts_iff (items : List Bytes)
    (fits : ∀ item ∈ items, item.length ≤ maxUint32) (index : Nat) :
    (∃ decoded, decodeElements index items.length
      (items.flatMap encodeLengthPrefixed) = .ok decoded) ↔
      items.getLast? ≠ some [] := by
  induction items generalizing index with
  | nil => exact iff_of_true ⟨_, rfl⟩ (by simp)
  | cons item tail induction =>
      have itemFits := fits item List.mem_cons_self
      rw [List.flatMap_cons, List.length_cons, decodeElements,
        readLengthPrefixed_encode itemFits]
      cases tail with
      | nil =>
          by_cases empty : item = []
          · simp [empty]
          · simp [empty, decodeElements]
      | cons next rest =>
          have more : item ++ (next :: rest).flatMap encodeLengthPrefixed ≠ [] := by
            simp [encodeLengthPrefixed_ne_nil]
          rw [if_neg more, List.getLast?_cons_cons, ← induction
            (fun other member => fits other (List.mem_cons_of_mem _ member))
            (index + 1)]
          dsimp only
          cases decodeElements (index + 1) (next :: rest).length
            ((next :: rest).flatMap encodeLengthPrefixed) with
          | error failure => simp
          | ok decoded => simp

theorem decodeMembers_accepts_iff (nodes : SkipList)
    (fits : ∀ node ∈ nodes, node.member.length ≤ maxUint32) (index : Nat)
    (value : ZSetValue) :
    (∃ decoded, decodeMembers index nodes.length value
      (nodes.flatMap encodeMember) = .ok decoded) ↔
      (nodes.map ZSetMember.member).getLast? ≠ some [] := by
  induction nodes generalizing index value with
  | nil => exact iff_of_true ⟨_, rfl⟩ (by simp)
  | cons node tail induction =>
      have nodeFits := fits node List.mem_cons_self
      have bits : node.score.val.toNat < 256 ^ 8 := node.score.val.toNat_lt
      have number : ¬ Score.isNaN node.score.val = true := by
        simp [node.score.property]
      rw [List.flatMap_cons, List.length_cons, decodeMembers, encodeMember,
        List.append_assoc, BigEndian.read_write bits]
      simp only [UInt64.ofNat_toNat, dif_neg number]
      rw [readLengthPrefixed_encode nodeFits]
      cases tail with
      | nil =>
          by_cases empty : node.member = []
          · simp [empty]
          · simp [empty, decodeMembers]
      | cons next rest =>
          have more : node.member ++ (next :: rest).flatMap encodeMember ≠ [] := by
            simp [encodeMember_ne_nil]
          rw [if_neg more, List.map_cons, List.map_cons, List.getLast?_cons_cons]
          exact induction
            (fun other member => fits other (List.mem_cons_of_mem _ member))
            (index + 1) _

theorem length_flatMap_encodeLengthPrefixed (items : List Bytes) :
    4 * items.length ≤ (items.flatMap encodeLengthPrefixed).length := by
  induction items with
  | nil => simp
  | cons item tail induction =>
      simp only [List.flatMap_cons, List.length_append, List.length_cons,
        encodeLengthPrefixed, BigEndian.length_write]
      omega

theorem length_flatMap_encodeMember (nodes : SkipList) :
    12 * nodes.length ≤ (nodes.flatMap encodeMember).length := by
  induction nodes with
  | nil => simp
  | cons node tail induction =>
      simp only [List.flatMap_cons, List.length_append, List.length_cons,
        encodeMember, encodeLengthPrefixed, BigEndian.length_write]
      omega

theorem list_survives_iff (items : List Bytes) :
    (∃ payload decoded, encodeListValue items = .ok payload ∧
      decodeListValue payload = .ok decoded) ↔ Readable items := by
  unfold encodeListValue
  split_ifs with long large
  · refine iff_of_false (by simp) fun readable => ?_
    exact absurd readable.counted (Nat.not_le.mpr long)
  · refine iff_of_false (by simp) fun readable => ?_
    obtain ⟨item, member, size⟩ := List.any_eq_true.mp large
    exact absurd (readable.measured item member)
      (Nat.not_le.mpr (of_decide_eq_true size))
  · have count : items.length < 256 ^ 4 := by
      simp only [maxUint32] at long
      omega
    have fits : ∀ item ∈ items, item.length ≤ maxUint32 := by
      simpa using large
    have guarded : ¬ items.length >
        (items.flatMap encodeLengthPrefixed).length / 4 := by
      have bytes := length_flatMap_encodeLengthPrefixed items
      omega
    have ending := decodeElements_accepts_iff items fits 0
    have readable : Readable items ↔ items.getLast? ≠ some [] :=
      ⟨Readable.ending, fun ending => ⟨Nat.not_lt.mp long, fits, ending⟩⟩
    rw [readable, ← ending]
    simp only [Except.ok.injEq, exists_eq_left', exists_and_left]
    unfold decodeListValue
    rw [BigEndian.read_write count]
    dsimp only
    rw [if_neg guarded]
    cases parsed : decodeElements 0 items.length
      (items.flatMap encodeLengthPrefixed) with
    | error failure => simp
    | ok decoded =>
        have same := decodeElements_encode items fits 0 []
          (by rw [List.append_nil]; exact parsed)
        rw [same]
        simp

theorem zset_survives_iff (value : ZSetValue) :
    (∃ payload decoded, encodeZSetValue value = .ok payload ∧
      decodeZSetValue payload = .ok decoded) ↔
      Readable (value.list.map ZSetMember.member) := by
  unfold encodeZSetValue
  rw [SkipList.range_all]
  dsimp only
  split_ifs with long large
  · refine iff_of_false (by simp) fun readable => ?_
    have counted := readable.counted
    rw [List.length_map] at counted
    exact absurd counted (Nat.not_le.mpr long)
  · refine iff_of_false (by simp) fun readable => ?_
    obtain ⟨node, member, size⟩ := List.any_eq_true.mp large
    exact absurd (readable.measured node.member (List.mem_map_of_mem member))
      (Nat.not_le.mpr (of_decide_eq_true size))
  · have count : value.list.length < 256 ^ 4 := by
      simp only [maxUint32] at long
      omega
    have fits : ∀ node ∈ value.list, node.member.length ≤ maxUint32 := by
      simpa using large
    have guarded : ¬ value.list.length >
        (value.list.flatMap encodeMember).length / 12 := by
      have bytes := length_flatMap_encodeMember value.list
      omega
    have ending := decodeMembers_accepts_iff value.list fits 0 .empty
    have readable : Readable (value.list.map ZSetMember.member) ↔
        (value.list.map ZSetMember.member).getLast? ≠ some [] := by
      refine ⟨Readable.ending, fun ending => ⟨?_, ?_, ending⟩⟩
      · rw [List.length_map]
        exact Nat.not_lt.mp long
      · exact List.forall_mem_map.mpr fits
    rw [readable, ← ending]
    simp only [Except.ok.injEq, exists_eq_left', exists_and_left]
    unfold decodeZSetValue
    rw [BigEndian.read_write count]
    dsimp only
    rw [if_neg guarded]
    cases parsed : decodeMembers 0 value.list.length .empty
      (value.list.flatMap encodeMember) with
    | error failure => simp
    | ok decoded =>
        have same := decodeMembers_encode value.list fits 0 .empty []
          (by rw [List.append_nil]; exact parsed)
        rw [same]
        simp

theorem entry_survives_iff (entry : Entry) (now : Int) :
    (∃ item restored, entry.snapshot = .ok item ∧
      decodeSnapshotEntry item now = .ok restored) ↔ entry.value.Readable := by
  have size := entry.sized
  cases stored : entry.value with
  | string data =>
      refine iff_of_true ?_ trivial
      rw [stored] at size
      simp [Entry.snapshot, stored, encodeSnapshotValue, decodeSnapshotEntry,
        decodeSnapshotValue, Value.typeName, ← size]
  | list items =>
      rw [stored] at size
      rw [Value.Readable, ← list_survives_iff]
      simp only [Entry.snapshot, stored, encodeSnapshotValue]
      cases encoded : encodeListValue items with
      | error failure => simp
      | ok payload =>
          cases parsed : decodeListValue payload with
          | error failure =>
              simp [decodeSnapshotEntry, decodeSnapshotValue, Value.typeName,
                parsed, Except.map]
          | ok decoded =>
              obtain rfl := decodeListValue_encode encoded parsed
              simp [decodeSnapshotEntry, decodeSnapshotValue, Value.typeName,
                parsed, Except.map, ← size]
  | zset members =>
      rw [stored] at size
      rw [Value.Readable, ← zset_survives_iff]
      simp only [Entry.snapshot, stored, encodeSnapshotValue]
      cases encoded : encodeZSetValue members with
      | error failure => simp
      | ok payload =>
          cases parsed : decodeZSetValue payload with
          | error failure =>
              simp [decodeSnapshotEntry, decodeSnapshotValue, Value.typeName,
                parsed, Except.map]
          | ok decoded =>
              obtain rfl := decodeZSetValue_encode encoded parsed
              simp [decodeSnapshotEntry, decodeSnapshotValue, Value.typeName,
                parsed, Except.map, ← size]

/-! ### Whole captures -/

theorem encodeEntries_accepts {entries : List Entry}
    (encodes : ∀ entry ∈ entries, ∃ item, entry.snapshot = .ok item) :
    ∃ items, encodeEntries entries = .ok items := by
  induction entries with
  | nil => exact ⟨_, rfl⟩
  | cons entry rest induction =>
      obtain ⟨item, encoded⟩ := encodes entry List.mem_cons_self
      obtain ⟨items, restEncoded⟩ := induction fun other member =>
        encodes other (List.mem_cons_of_mem _ member)
      exact ⟨item :: items, by simp [encodeEntries, encoded, restEncoded]⟩

theorem encodeEntries_fields {entries : List Entry} {items : List SnapshotEntry}
    (encoded : encodeEntries entries = .ok items) :
    items.map SnapshotEntry.key = entries.map Entry.key ∧
      items.map SnapshotEntry.approxSize = entries.map Entry.sizeBytes := by
  have paired := forall₂_encodeEntries encoded
  clear encoded
  induction paired with
  | nil => exact ⟨rfl, rfl⟩
  | cons same rest induction =>
      obtain ⟨key, size, -⟩ := snapshot_fields same
      simp only [List.map_cons, key, size, induction, and_self]

theorem Restorable.tail {now : Int} {seen : List Bytes} {item : SnapshotEntry}
    {rest : List SnapshotEntry} (restorable : Restorable now seen (item :: rest)) :
    Restorable now (item.key :: seen) rest := by
  have distinct := restorable.distinct
  rw [List.map_cons, List.nodup_cons] at distinct
  refine ⟨?_, distinct.2, fun other member => restorable.decodes other
    (List.mem_cons_of_mem _ member)⟩
  intro other member
  rw [List.mem_cons, not_or]
  exact ⟨fun same => distinct.1 (same ▸ List.mem_map_of_mem member),
    restorable.fresh other (List.mem_cons_of_mem _ member)⟩

theorem size_of_decodeSnapshotEntry {item : SnapshotEntry} {now : Int}
    {entry : Entry} (decoded : decodeSnapshotEntry item now = .ok entry) :
    entry.sizeBytes = item.approxSize := by
  unfold decodeSnapshotEntry at decoded
  split at decoded
  · cases decoded
  · split_ifs at decoded
    obtain rfl := Except.ok.inj decoded
    rfl

/-- The loop of a restore accepts live entries whose sizes add up. -/
theorem decodeEntries_accepts {now : Int} {seen : List Bytes} {start : Nat}
    {items : List SnapshotEntry} (restorable : Restorable now seen items)
    (live : ∀ item ∈ items, item.isExpired now = false)
    (fits : start + (items.map SnapshotEntry.approxSize).sum < 2 ^ 64) :
    ∃ decoded, decodeEntries now seen start items =
      .ok (decoded, start + (items.map SnapshotEntry.approxSize).sum) := by
  induction items generalizing seen start with
  | nil => exact ⟨[], rfl⟩
  | cons item rest induction =>
      have unseen := restorable.fresh item List.mem_cons_self
      have current := live item List.mem_cons_self
      obtain ⟨entry, parsed⟩ :=
        restorable.decodes item List.mem_cons_self current
      have size := size_of_decodeSnapshotEntry parsed
      rw [List.map_cons, List.sum_cons, ← Nat.add_assoc] at fits ⊢
      obtain ⟨decoded, restDecoded⟩ := induction restorable.tail
        (fun other member => live other (List.mem_cons_of_mem _ member)) fits
      have room : ¬ maxUint64 - start < item.approxSize := by
        simp only [maxUint64]
        omega
      exact ⟨entry :: decoded, by
        simp [decodeEntries, unseen, current, parsed, size, room, restDecoded]⟩

namespace Store

def liveEntries (now : Int) (store : Store) : List Entry :=
  store.allEntries.filter fun entry => !entry.isExpired now

/-- The sizes of the entries that a capture lists. -/
def liveBytes (now : Int) (store : Store) : Nat :=
  ((store.liveEntries now).map Entry.sizeBytes).sum

theorem mem_liveEntries {now : Int} {store : Store} {entry : Entry} :
    entry ∈ store.liveEntries now ↔
      store.find entry.key = some entry ∧ entry.isExpired now = false := by
  simp [liveEntries, mem_allEntries]

theorem snapshotEntries_fields {now : Int} {store : Store}
    {items : List SnapshotEntry}
    (captured : store.snapshotEntries now = .ok items) :
    (items.map SnapshotEntry.key).Nodup ∧
      (items.map SnapshotEntry.approxSize).sum = store.liveBytes now := by
  unfold snapshotEntries at captured
  split at captured
  · cases captured
  · rename_i unsorted encoded
    obtain rfl := Except.ok.inj captured
    have sorted := List.perm_insertionSort (fun first second : SnapshotEntry =>
      (compare first.key second.key).isLE = true) unsorted
    obtain ⟨keys, sizes⟩ := encodeEntries_fields encoded
    constructor
    · rw [(sorted.map SnapshotEntry.key).nodup_iff, keys]
      exact (List.filter_sublist.map Entry.key).nodup store.nodup_keys
    · rw [(sorted.map SnapshotEntry.approxSize).sum_eq, sizes]
      rfl

/-- A capture succeeds if every live entry survives; then it is restorable. -/
theorem snapshotEntries_accepts {now : Int} {store : Store}
    (readable : ∀ entry ∈ store.liveEntries now, entry.value.Readable) :
    ∃ items, store.snapshotEntries now = .ok items ∧ Restorable now [] items ∧
      ∀ item ∈ items, item.isExpired now = false := by
  have survives := fun entry member =>
    (entry_survives_iff entry now).mpr (readable entry member)
  obtain ⟨unsorted, encoded⟩ := encodeEntries_accepts fun entry member => by
    obtain ⟨item, -, itemEncoded, -⟩ := survives entry member
    exact ⟨item, itemEncoded⟩
  obtain ⟨items, captured⟩ : ∃ items, store.snapshotEntries now = .ok items := by
    unfold snapshotEntries
    unfold liveEntries at encoded
    rw [encoded]
    exact ⟨_, rfl⟩
  have live : ∀ item ∈ items, item.isExpired now = false := by
    intro item member
    obtain ⟨entry, -, current, itemEncoded⟩ :=
      (mem_snapshotEntries captured).mp member
    rw [SnapshotEntry.isExpired, (snapshot_fields itemEncoded).2.2]
    exact current
  refine ⟨items, captured, ⟨by simp, (snapshotEntries_fields captured).1, ?_⟩, live⟩
  intro item member _
  obtain ⟨entry, found, current, itemEncoded⟩ :=
    (mem_snapshotEntries captured).mp member
  obtain ⟨item', restored, encoded', decoded⟩ :=
    survives entry (mem_liveEntries.mpr ⟨found, current⟩)
  rw [itemEncoded] at encoded'
  obtain rfl := Except.ok.inj encoded'
  exact ⟨restored, decoded⟩

theorem Holds.dataset_eq {now : Int} {source target : Store}
    {items : List SnapshotEntry} (captured : source.snapshotEntries now = .ok items)
    (holds : target.Holds now items) (key : Bytes) :
    target.dataset key = liveAt now (source.dataset key) := by
  have unlisted : (∀ item ∈ items, item.key ≠ key) → target.dataset key = none := by
    intro missing
    refine holds.absent key fun listed => ?_
    obtain ⟨item, member, same⟩ := List.mem_map.mp listed
    exact missing item member same
  have source_of : ∀ item ∈ items, item.key = key → ∃ entry,
      source.find key = some entry ∧ entry.isExpired now = false := by
    intro item member same
    obtain ⟨entry, found, current, encoded⟩ :=
      (mem_snapshotEntries captured).mp member
    rw [← (snapshot_fields encoded).1, same] at found
    exact ⟨entry, found, current⟩
  have stored : source.dataset key = (source.find key).map Entry.item := rfl
  cases found : source.find key with
  | none =>
      rw [stored, found]
      refine unlisted fun item member same => ?_
      obtain ⟨entry, present, -⟩ := source_of item member same
      rw [found] at present
      cases present
  | some entry =>
      rw [stored, found, Option.map_some]
      cases current : entry.isExpired now with
      | true =>
          have dead : entry.item.isExpired now = true := current
          rw [liveAt_some, if_pos dead]
          refine unlisted fun item member same => ?_
          obtain ⟨other, present, live⟩ := source_of item member same
          rw [found] at present
          obtain rfl := Option.some.inj present
          rw [current] at live
          cases live
      | false =>
          obtain ⟨item, member, encoded⟩ := snapshot_of_find captured found current
          have sameKey : item.key = key :=
            (snapshot_fields encoded).1.trans (key_of_find found)
          rw [← sameKey, holds.listed item member]
          exact restored_snapshot encoded (holds.restorable.decodes item member)

end Store

/-- What is asked of a capture and its restore at one time: both succeed, and
the target then has the live entries of the source and their bytes. -/
def RestoresCapture (now : Int) (source target : Engine) : Prop :=
  ∃ entries count, source.snapshotEntries now = .ok entries ∧
    (target.restoreSnapshotEntries entries now).1 = .ok count ∧
    (∀ key, (target.restoreSnapshotEntries entries now).2.store.dataset key =
      liveAt now (source.store.dataset key)) ∧
    (target.restoreSnapshotEntries entries now).2.store.usedBytes =
      source.store.liveBytes now

/-- A capture comes back exactly if every live value can be read to its end and
the live bytes can be counted. -/
theorem capture_is_restored_iff (now : Int) (source target : Engine)
    (room : target.limitBytes = 0 ∨
      source.store.liveBytes now ≤ target.limitBytes) :
    RestoresCapture now source target ↔
      (∀ entry ∈ source.store.liveEntries now, entry.value.Readable) ∧
      source.store.liveBytes now < 2 ^ 64 := by
  constructor
  · rintro ⟨items, count, captured, accepted, -, used⟩
    constructor
    · intro entry member
      obtain ⟨found, live⟩ := Store.mem_liveEntries.mp member
      obtain ⟨item, listed, encoded⟩ :=
        Store.snapshot_of_find captured found live
      obtain ⟨_, -, holds⟩ := Engine.restoreSnapshotEntries_ok accepted
      obtain ⟨restored, decoded⟩ := holds.restorable.decodes item listed (by
        rw [SnapshotEntry.isExpired, (snapshot_fields encoded).2.2]
        exact live)
      exact (entry_survives_iff entry now).mp ⟨item, restored, encoded, decoded⟩
    · rw [← used]
      unfold Engine.restoreSnapshotEntries at accepted ⊢
      split at accepted
      · cases accepted
      · rename_i decoded total outcome
        split_ifs at accepted ⊢
        exact (Engine.decodeEntries_total outcome (by decide)).2
  · rintro ⟨readable, fits⟩
    obtain ⟨items, captured, restorable, live⟩ :=
      Store.snapshotEntries_accepts readable
    have bytes := (Store.snapshotEntries_fields captured).2
    obtain ⟨decoded, outcome⟩ := decodeEntries_accepts restorable live
      (by rw [bytes, Nat.zero_add]; exact fits)
    rw [bytes, Nat.zero_add] at outcome
    have within : ¬ (0 < target.limitBytes ∧
        source.store.liveBytes now > target.limitBytes) := by omega
    have restore : target.restoreSnapshotEntries items now =
        (.ok decoded.length, target.withStore
          (target.store.replaceAll decoded (source.store.liveBytes now))) := by
      unfold Engine.restoreSnapshotEntries
      rw [outcome]
      exact if_neg within
    obtain ⟨store, restored, holds⟩ :=
      Engine.restoreSnapshotEntries_ok (congrArg Prod.fst restore)
    refine ⟨items, decoded.length, captured, congrArg Prod.fst restore, ?_, ?_⟩
    · intro key
      rw [restored]
      exact holds.dataset_eq captured key
    · rw [restore]
      rfl

section Examples

attribute [local instance] FloatText.rejecting

/-- An engine without limit after one command at time 0. -/
def afterCommand (cmd : Command) : Engine :=
  (LabelledRuns.run EngineCall.step (Engine.new
    { stripeCount := 1, memoryLimitBytes := 0, evictionPolicy := "noeviction" },
      ()) [.execute none (.still 0) (fun _ => .canonical) cmd]).1

/-- A list that ends with an empty element cannot be restored. -/
theorem trailing_empty_element_is_lost :
    ¬ RestoresCapture 0 (afterCommand (.make .rpush [[107], [1], []]))
      (afterCommand (.make .ping [])) := by
  rintro ⟨items, count, captured, accepted, -, -⟩
  have entries : (afterCommand (.make .rpush [[107], [1], []])).snapshotEntries 0 =
      .ok [{ key := [107], valueType := "list"
             value := [0, 0, 0, 2, 0, 0, 0, 1, 1, 0, 0, 0, 0]
             approxSize := 162, expiresAtNs := 0 }] := by
    decide
  rw [entries] at captured
  obtain rfl := Except.ok.inj captured
  cases accepted

/-- The same elements in the other order come back. -/
theorem leading_empty_element_is_restored :
    RestoresCapture 0 (afterCommand (.make .rpush [[107], [], [1]]))
      (afterCommand (.make .ping [])) :=
  (capture_is_restored_iff 0 _ _ (.inl rfl)).mpr ⟨by decide, by decide⟩

end Examples
end MnemoKV
