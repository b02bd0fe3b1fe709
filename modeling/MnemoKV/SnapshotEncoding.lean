import MnemoKV.BigEndian
import MnemoKV.StoredValues

/-!
# The encoding of values in snapshots

Lists and sorted sets are written with a count and length-prefixed elements.
Whatever the decoder accepts of an encoded value is that value.  It does not
accept all of them: an empty element at the very end is read as the end of the
payload.
-/

namespace MnemoKV

/-- A stored entry in a snapshot, with its value encoded. -/
structure SnapshotEntry where
  key : Bytes
  valueType : String
  value : Bytes
  approxSize : Nat
  expiresAtNs : Int
  deriving DecidableEq

/-- Why a value cannot be encoded or decoded. -/
inductive SnapshotError
  | tooManyElements
  | elementTooLarge
  | noLength
  | countExceedsPayload (count : Nat)
  | endOfPayload (index : Nat)
  | lengthExceedsPayload (index : Nat)
  | notANumber (index : Nat)
  | trailingBytes (count : Nat)
  | unsupportedType (key : Bytes) (valueType : String)
  | sizeMismatch (key : Bytes) (approxSize calculated : Nat)
  | duplicateKey (key : Bytes)
  | sizeOverflow
  | limitExceeded (total limit : Nat)
  deriving DecidableEq, Repr

def maxUint32 : Nat := 2 ^ 32 - 1

def encodeLengthPrefixed (item : Bytes) : Bytes :=
  BigEndian.write 4 item.length ++ item

def encodeListValue (items : List Bytes) : Except SnapshotError Bytes :=
  if items.length > maxUint32 then .error .tooManyElements
  else if items.any fun item => decide (item.length > maxUint32) then
    .error .elementTooLarge
  else .ok (BigEndian.write 4 items.length ++
    items.flatMap encodeLengthPrefixed)

def encodeMember (node : ZSetMember) : Bytes :=
  BigEndian.write 8 node.score.val.toNat ++ encodeLengthPrefixed node.member

def encodeZSetValue (value : ZSetValue) : Except SnapshotError Bytes :=
  let members := value.list.range 0 (-1)
  if members.length > maxUint32 then .error .tooManyElements
  else if members.any fun node => decide (node.member.length > maxUint32) then
    .error .elementTooLarge
  else .ok (BigEndian.write 4 members.length ++ members.flatMap encodeMember)

def encodeSnapshotValue : Value → Except SnapshotError Bytes
  | .string data => .ok data
  | .list items => encodeListValue items
  | .zset members => encodeZSetValue members

/-- A read from the payload fails at its end, even when no byte is asked for. -/
def readLengthPrefixed (index : Nat) (payload : Bytes) :
    Except SnapshotError (Bytes × Bytes) :=
  match BigEndian.read 4 payload with
  | none => .error (.endOfPayload index)
  | some (length, rest) =>
      if length > rest.length then .error (.lengthExceedsPayload index)
      else if rest = [] then .error (.endOfPayload index)
      else .ok (rest.take length, rest.drop length)

/-- The loop of `decodeListValue` over the remaining elements. -/
def decodeElements : Nat → Nat → Bytes →
    Except SnapshotError (List Bytes × Bytes)
  | _, 0, payload => .ok ([], payload)
  | index, count + 1, payload =>
      match readLengthPrefixed index payload with
      | .error failure => .error failure
      | .ok (item, rest) =>
          match decodeElements (index + 1) count rest with
          | .error failure => .error failure
          | .ok (items, rest) => .ok (item :: items, rest)

def decodeListValue (payload : Bytes) : Except SnapshotError (List Bytes) :=
  match BigEndian.read 4 payload with
  | none => .error .noLength
  | some (count, rest) =>
      if count > rest.length / 4 then .error (.countExceedsPayload count)
      else
        match decodeElements 0 count rest with
        | .error failure => .error failure
        | .ok (items, rest) =>
            if rest.length ≠ 0 then .error (.trailingBytes rest.length)
            else .ok (pushItems false items [])

/-- The loop of `decodeZSetValue` over the remaining members. -/
def decodeMembers : Nat → Nat → ZSetValue → Bytes →
    Except SnapshotError (ZSetValue × Bytes)
  | _, 0, value, payload => .ok (value, payload)
  | index, count + 1, value, payload =>
      match BigEndian.read 8 payload with
      | none => .error (.endOfPayload index)
      | some (bits, rest) =>
          if nan : Score.isNaN (UInt64.ofNat bits) = true then
            .error (.notANumber index)
          else
            match readLengthPrefixed index rest with
            | .error failure => .error failure
            | .ok (member, rest) =>
                decodeMembers (index + 1) count
                  (value.add ⟨UInt64.ofNat bits, Bool.eq_false_iff.mpr nan⟩
                    member).2 rest

def decodeZSetValue (payload : Bytes) : Except SnapshotError ZSetValue :=
  match BigEndian.read 4 payload with
  | none => .error .noLength
  | some (count, rest) =>
      if count > rest.length / 12 then .error (.countExceedsPayload count)
      else
        match decodeMembers 0 count .empty rest with
        | .error failure => .error failure
        | .ok (value, rest) =>
            if rest.length ≠ 0 then .error (.trailingBytes rest.length)
            else .ok value

def decodeSnapshotValue (item : SnapshotEntry) : Except SnapshotError Value :=
  if item.valueType = "string" then .ok (.string item.value)
  else if item.valueType = "list" then
    (decodeListValue item.value).map Value.list
  else if item.valueType = "zset" then
    (decodeZSetValue item.value).map Value.zset
  else .error (.unsupportedType item.key item.valueType)

def decodeSnapshotEntry (item : SnapshotEntry) (now : Int) :
    Except SnapshotError Entry :=
  match decodeSnapshotValue item with
  | .error failure => .error failure
  | .ok value =>
      if mismatched : value.size item.key ≠ item.approxSize then
        .error (.sizeMismatch item.key item.approxSize (value.size item.key))
      else .ok
        { key := item.key, value := value, sizeBytes := item.approxSize
          expiresAtNs := item.expiresAtNs, createdAtNs := now
          updatedAtNs := now, lastAccessNs := now, accessCount := 1
          version := 1, sized := (not_not.mp mismatched).symm }

/-! ### Decoding what was encoded -/

theorem readLengthPrefixed_encode {item : Bytes} (fits : item.length ≤ maxUint32)
    (index : Nat) (rest : Bytes) :
    readLengthPrefixed index (encodeLengthPrefixed item ++ rest) =
      if item ++ rest = [] then .error (.endOfPayload index)
      else .ok (item, rest) := by
  have small : item.length < 256 ^ 4 := by
    simp only [maxUint32] at fits
    omega
  unfold readLengthPrefixed encodeLengthPrefixed
  rw [List.append_assoc, BigEndian.read_write small]
  have long : ¬ item.length > (item ++ rest).length := by simp
  simp only [if_neg long, List.take_left', List.drop_left']

/-- Elements come back as they were. -/
theorem decodeElements_encode (items : List Bytes)
    (fits : ∀ item ∈ items, item.length ≤ maxUint32) (index : Nat)
    (rest : Bytes) {decoded : List Bytes × Bytes}
    (accepted : decodeElements index items.length
      (items.flatMap encodeLengthPrefixed ++ rest) = .ok decoded) :
    decoded = (items, rest) := by
  induction items generalizing index decoded with
  | nil => exact (Except.ok.inj accepted).symm
  | cons item tail induction =>
      have itemFits := fits item List.mem_cons_self
      rw [List.flatMap_cons, List.append_assoc, List.length_cons] at accepted
      unfold decodeElements at accepted
      rw [readLengthPrefixed_encode itemFits] at accepted
      split_ifs at accepted with ended
      dsimp only at accepted
      split at accepted
      · cases accepted
      · rename_i items' rest' decodedTail
        have same := induction
          (fun other member => fits other (List.mem_cons_of_mem _ member))
          (index + 1) decodedTail
        cases same
        exact (Except.ok.inj accepted).symm

theorem decodeListValue_encode {items : List Bytes} {payload : Bytes}
    {decoded : List Bytes} (encoded : encodeListValue items = .ok payload)
    (accepted : decodeListValue payload = .ok decoded) : decoded = items := by
  unfold encodeListValue at encoded
  split_ifs at encoded with long large
  obtain rfl := Except.ok.inj encoded
  have count : items.length < 256 ^ 4 := by
    simp only [maxUint32] at long
    omega
  have fits : ∀ item ∈ items, item.length ≤ maxUint32 := by
    simpa using large
  unfold decodeListValue at accepted
  rw [BigEndian.read_write count] at accepted
  dsimp only at accepted
  split_ifs at accepted
  split at accepted
  · cases accepted
  · rename_i items' rest' decodedItems
    split_ifs at accepted
    have same : (items', rest') = (items, []) :=
      decodeElements_encode items fits 0 [] (by simpa using decodedItems)
    cases same
    simpa [pushItems] using (Except.ok.inj accepted).symm

theorem decodeMembers_encode (nodes : SkipList)
    (fits : ∀ node ∈ nodes, node.member.length ≤ maxUint32) (index : Nat)
    (value : ZSetValue) (rest : Bytes) {decoded : ZSetValue × Bytes}
    (accepted : decodeMembers index nodes.length value
      (nodes.flatMap encodeMember ++ rest) = .ok decoded) :
    decoded =
      (nodes.foldl (fun state node => (state.add node.score node.member).2) value,
        rest) := by
  induction nodes generalizing index value decoded with
  | nil => exact (Except.ok.inj accepted).symm
  | cons node tail induction =>
      have nodeFits := fits node List.mem_cons_self
      have bits : node.score.val.toNat < 256 ^ 8 := node.score.val.toNat_lt
      have number : ¬ Score.isNaN node.score.val = true := by
        simp [node.score.property]
      rw [List.flatMap_cons, List.append_assoc, List.length_cons] at accepted
      unfold decodeMembers encodeMember at accepted
      rw [List.append_assoc, BigEndian.read_write bits] at accepted
      simp only [UInt64.ofNat_toNat, dif_neg number] at accepted
      rw [readLengthPrefixed_encode nodeFits] at accepted
      split_ifs at accepted with ended
      exact induction
        (fun other member => fits other (List.mem_cons_of_mem _ member))
        (index + 1) _ accepted

theorem decodeZSetValue_encode {value decoded : ZSetValue} {payload : Bytes}
    (encoded : encodeZSetValue value = .ok payload)
    (accepted : decodeZSetValue payload = .ok decoded) : decoded = value := by
  unfold encodeZSetValue at encoded
  rw [SkipList.range_all] at encoded
  dsimp only at encoded
  split_ifs at encoded with long large
  obtain rfl := Except.ok.inj encoded
  have count : value.list.length < 256 ^ 4 := by
    simp only [maxUint32] at long
    omega
  have fits : ∀ node ∈ value.list, node.member.length ≤ maxUint32 := by
    simpa using large
  unfold decodeZSetValue at accepted
  rw [BigEndian.read_write count] at accepted
  dsimp only at accepted
  split_ifs at accepted
  split at accepted
  · cases accepted
  · rename_i decoded' rest' decodedMembers
    split_ifs at accepted
    rw [← List.append_nil (value.list.flatMap encodeMember)] at decodedMembers
    have same := decodeMembers_encode value.list fits 0 .empty [] decodedMembers
    rw [ZSetValue.foldl_add_list] at same
    cases same
    exact (Except.ok.inj accepted).symm

end MnemoKV
