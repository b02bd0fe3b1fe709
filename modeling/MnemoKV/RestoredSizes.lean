import MnemoKV.AdmissionBounds
import MnemoKV.EngineRuns

/-!
# Sizes of restored values

A decoded value is hardly larger than its payload, so entries whose key and
payload fit into an address space are accounted at their exact sizes.
-/

namespace MnemoKV

theorem readLengthPrefixed_bytes {index : Nat} {payload item rest : Bytes}
    (parsed : readLengthPrefixed index payload = .ok (item, rest)) :
    payload.length = 4 + item.length + rest.length := by
  unfold readLengthPrefixed at parsed
  split at parsed
  · cases parsed
  · rename_i length behind prefixed
    have whole := (BigEndian.read_eq_some prefixed).1
    split_ifs at parsed with long ended
    obtain ⟨rfl, rfl⟩ := Prod.mk.inj (Except.ok.inj parsed)
    rw [List.length_take, List.length_drop]
    omega

theorem decodeElements_bytes {index count : Nat} {payload rest : Bytes}
    {items : List Bytes}
    (decoded : decodeElements index count payload = .ok (items, rest)) :
    itemBytes items + rest.length = 44 * count + payload.length := by
  induction count generalizing index payload items with
  | zero =>
      obtain ⟨rfl, rfl⟩ := Prod.mk.inj (Except.ok.inj decoded)
      simp [itemBytes]
  | succ count induction =>
      unfold decodeElements at decoded
      split at decoded
      · cases decoded
      · rename_i item behind parsed
        split at decoded
        · cases decoded
        · rename_i others last tail
          obtain ⟨rfl, rfl⟩ := Prod.mk.inj (Except.ok.inj decoded)
          have head := readLengthPrefixed_bytes parsed
          have sum := induction tail
          have split : itemBytes (item :: others) =
              48 + item.length + itemBytes others := by simp [itemBytes]
          omega

theorem decodeListValue_bytes {payload : Bytes} {items : List Bytes}
    (decoded : decodeListValue payload = .ok items) :
    itemBytes items ≤ 44 * 2 ^ 32 + payload.length := by
  unfold decodeListValue at decoded
  split at decoded
  · cases decoded
  · rename_i count behind counted
    obtain ⟨whole, small⟩ := BigEndian.read_eq_some counted
    split_ifs at decoded
    split at decoded
    · cases decoded
    · rename_i elements rest parsed
      split_ifs at decoded
      have sum := decodeElements_bytes parsed
      obtain rfl := Except.ok.inj decoded
      have appended : itemBytes (pushItems false elements []) =
          itemBytes elements := by simp [pushItems]
      omega

theorem decodeMembers_bytes {index count : Nat} {payload rest : Bytes}
    {value decodedValue : ZSetValue}
    (decoded : decodeMembers index count value payload = .ok (decodedValue, rest)) :
    decodedValue.memberBytes + rest.length ≤
      value.memberBytes + 52 * count + payload.length := by
  induction count generalizing index payload value with
  | zero =>
      obtain ⟨rfl, rfl⟩ := Prod.mk.inj (Except.ok.inj decoded)
      omega
  | succ count induction =>
      unfold decodeMembers at decoded
      split at decoded
      · cases decoded
      · rename_i bits behind scored
        have score := (BigEndian.read_eq_some scored).1
        split_ifs at decoded with nan
        split at decoded
        · cases decoded
        · rename_i member last parsed
          have head := readLengthPrefixed_bytes parsed
          have sum := induction decoded
          rw [ZSetValue.memberBytes_add] at sum
          split_ifs at sum <;> omega

theorem decodeZSetValue_bytes {payload : Bytes} {value : ZSetValue}
    (decoded : decodeZSetValue payload = .ok value) :
    value.memberBytes ≤ 52 * 2 ^ 32 + payload.length := by
  unfold decodeZSetValue at decoded
  split at decoded
  · cases decoded
  · rename_i count behind counted
    obtain ⟨whole, small⟩ := BigEndian.read_eq_some counted
    split_ifs at decoded
    split at decoded
    · cases decoded
    · rename_i members rest parsed
      split_ifs at decoded
      have sum := decodeMembers_bytes parsed
      obtain rfl := Except.ok.inj decoded
      have emptyBytes : ZSetValue.empty.memberBytes = 0 := rfl
      omega

/-- Key and payload fit into an address space. -/
def SnapshotEntry.Short (item : SnapshotEntry) : Prop :=
  item.key.length + item.value.length < 2 ^ 63

theorem decodeSnapshotValue_bytes {item : SnapshotEntry} {value : Value}
    (short : item.Short) (decoded : decodeSnapshotValue item = .ok value) :
    value.exactSize item.key < 2 ^ 64 := by
  unfold SnapshotEntry.Short at short
  unfold decodeSnapshotValue at decoded
  split_ifs at decoded
  · obtain rfl := Except.ok.inj decoded
    change 64 + item.key.length + item.value.length < 2 ^ 64
    omega
  · cases parsed : decodeListValue item.value with
    | error failure =>
        rw [parsed] at decoded
        cases decoded
    | ok items =>
        rw [parsed] at decoded
        obtain rfl := Except.ok.inj decoded
        have bytes := decodeListValue_bytes parsed
        change 64 + item.key.length + itemBytes items < 2 ^ 64
        omega
  · cases parsed : decodeZSetValue item.value with
    | error failure =>
        rw [parsed] at decoded
        cases decoded
    | ok members =>
        rw [parsed] at decoded
        obtain rfl := Except.ok.inj decoded
        have bytes := decodeZSetValue_bytes parsed
        change 80 + item.key.length + members.memberBytes < 2 ^ 64
        omega

theorem decodeSnapshotEntry_exact {item : SnapshotEntry} {now : Int}
    {entry : Entry} (short : item.Short)
    (decoded : decodeSnapshotEntry item now = .ok entry) :
    entry.item.Exact entry.key := by
  have own := key_of_decodeSnapshotEntry decoded
  unfold decodeSnapshotEntry at decoded
  split at decoded
  · cases decoded
  · rename_i value parsed
    split_ifs at decoded with mismatched
    have fits := decodeSnapshotValue_bytes short parsed
    have same := Value.size_eq_exactSize fits
    obtain rfl := Except.ok.inj decoded
    change item.approxSize = value.exactSize item.key ∧ item.approxSize < 2 ^ 64
    rw [← not_not.mp mismatched, same]
    exact ⟨rfl, fits⟩

theorem mem_decodeEntries {now : Int} {seen : List Bytes} {start finish : Nat}
    {items : List SnapshotEntry} {decoded : List Entry}
    (accepted : decodeEntries now seen start items = .ok (decoded, finish))
    {entry : Entry} (member : entry ∈ decoded) :
    ∃ item ∈ items, decodeSnapshotEntry item now = .ok entry := by
  induction items generalizing seen start decoded with
  | nil =>
      obtain ⟨rfl, rfl⟩ := Prod.mk.inj (Except.ok.inj accepted)
      cases member
  | cons item rest induction =>
      have later : (∃ item ∈ rest, decodeSnapshotEntry item now = .ok entry) →
          ∃ other ∈ item :: rest, decodeSnapshotEntry other now = .ok entry := by
        rintro ⟨other, listed, parsed⟩
        exact ⟨other, List.mem_cons_of_mem _ listed, parsed⟩
      unfold decodeEntries at accepted
      split_ifs at accepted
      · exact later (induction accepted member)
      · split at accepted
        · cases accepted
        · rename_i first parsed
          split_ifs at accepted
          split at accepted
          · cases accepted
          · rename_i entries total restAccepted
            obtain ⟨rfl, rfl⟩ := Prod.mk.inj (Except.ok.inj accepted)
            rcases List.mem_cons.mp member with rfl | listed
            · exact ⟨item, List.mem_cons_self, parsed⟩
            · exact later (induction restAccepted listed)

theorem Store.find_foldl_assign {entries : List Entry} {state : Store}
    {key : Bytes} {entry : Entry}
    (found : (entries.foldl assign state).find key = some entry) :
    entry ∈ entries ∨ state.find key = some entry := by
  induction entries generalizing state with
  | nil => exact .inr found
  | cons first rest induction =>
      rcases induction found with listed | earlier
      · exact .inl (List.mem_cons_of_mem _ listed)
      · rw [find_assign] at earlier
        split_ifs at earlier
        · obtain rfl := Option.some.inj earlier
          exact .inl List.mem_cons_self
        · exact .inr earlier

end MnemoKV
