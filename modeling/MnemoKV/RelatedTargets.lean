import Mathlib.Data.List.GetD
import MnemoKV.MergingDecoders

/-!
# Targets that decoding does not tell apart

A decoder respects a relation if related targets stay related under every document,
and the documents fit them alike.  Slices whose memory differs only behind the last
element that is not zero are related in this way, and no others are.
-/

namespace MergingDecoders

variable {α β : Type*}

/-- Related targets decode to related results. -/
def Respects (related : α → α → Prop) (decode : Decoder α) : Prop :=
  ∀ document first second, related first second →
    related (decode document first).value (decode document second).value ∧
      (decode document first).fit = (decode document second).fit

theorem respects_eq (decode : Decoder α) : Respects Eq decode := by
  rintro document first _ rfl
  exact ⟨rfl, rfl⟩

section Records

variable {related : α → α → Prop}

theorem Respects.part {inner : Decoder β} {relatedParts : β → β → Prop}
    (respects : Respects relatedParts inner) {get : α → β} {set : β → α → α}
    (gets : ∀ first second, related first second →
      relatedParts (get first) (get second))
    (sets : ∀ first second one other, related first second →
      relatedParts one other → related (set one first) (set other second)) :
    Respects related (part get set inner) := by
  intro document first second alike
  obtain ⟨values, fits⟩ := respects document _ _ (gets first second alike)
  exact ⟨sets _ _ _ _ alike values, fits⟩

theorem Respects.decodeFields {known : List (String × Decoder α)}
    (respects : ∀ field ∈ known, Respects related field.2)
    (fields : List (String × Json)) {first second : α}
    (alike : related first second) :
    related (decodeFields known fields first).value
        (decodeFields known fields second).value ∧
      (decodeFields known fields first).fit =
        (decodeFields known fields second).fit := by
  induction fields generalizing first second with
  | nil => exact ⟨alike, rfl⟩
  | cons field rest induction =>
      obtain ⟨name, document⟩ := field
      simp only [MergingDecoders.decodeFields]
      cases found : lookupField known name with
      | none => exact induction alike
      | some decode =>
          obtain ⟨own, member⟩ := mem_of_lookupField found
          obtain ⟨values, fits⟩ := respects _ member document first second alike
          obtain ⟨laterValues, laterFits⟩ := induction values
          dsimp only [Decoded.andThen] at *
          rw [fits]
          split
          · exact ⟨values, fits⟩
          · exact ⟨laterValues, by rw [laterFits]⟩

theorem Respects.record {known : List (String × Decoder α)}
    (respects : ∀ field ∈ known, Respects related field.2) :
    Respects related (record known) := by
  intro document first second alike
  cases document with
  | object fields => exact Respects.decodeFields respects fields alike
  | _ => exact ⟨alike, rfl⟩

end Records

section Slices

variable {zero : α} {decode : Decoder α} {first second : Slice α}

/-- The slices show the same, and behind it their memory is the same up to zeros. -/
structure Slice.Alike (zero : α) (first second : Slice α) : Prop where
  items : first.items = second.items
  spare : ∀ index, first.spare.getD index zero = second.spare.getD index zero

theorem Slice.Alike.backing (alike : first.Alike zero second) (index : Nat) :
    first.backing.getD index zero = second.backing.getD index zero := by
  rw [Slice.backing, Slice.backing, alike.items]
  rcases Nat.lt_or_ge index second.items.length with inside | behind
  · rw [List.getD_append _ _ _ _ inside, List.getD_append _ _ _ _ inside]
  · rw [List.getD_append_right _ _ _ _ behind, List.getD_append_right _ _ _ _ behind]
    exact alike.spare _

theorem decodeItems_congr (items : List Json) {backing other : List α}
    (same : ∀ index, backing.getD index zero = other.getD index zero) :
    decodeItems zero decode items backing = decodeItems zero decode items other := by
  induction items generalizing backing other with
  | nil => rfl
  | cons item rest induction =>
      have head : backing.headD zero = other.headD zero := by
        rw [List.headD_eq_getD, List.headD_eq_getD]
        exact same 0
      have tail : ∀ index, backing.tail.getD index zero =
          other.tail.getD index zero := by
        intro index
        rw [List.getD_eq_getElem?_getD, List.getD_eq_getElem?_getD,
          List.getElem?_tail, List.getElem?_tail, ← List.getD_eq_getElem?_getD,
          ← List.getD_eq_getElem?_getD]
        exact same (index + 1)
      simp only [decodeItems, head, induction tail]

theorem getD_drop (items : List α) (count index : Nat) :
    (items.drop count).getD index zero = items.getD (count + index) zero := by
  rw [List.getD_eq_getElem?_getD, List.getElem?_drop, ← List.getD_eq_getElem?_getD]

theorem respects_slice (zero : α) (decode : Decoder α) :
    Respects (Slice.Alike zero) (slice zero decode) := by
  intro document first second alike
  have dropped : ∀ count index, (first.backing.drop count).getD index zero =
      (second.backing.drop count).getD index zero := by
    intro count index
    rw [getD_drop, getD_drop]
    exact alike.backing (count + index)
  cases document with
  | null => exact ⟨⟨rfl, fun _ => rfl⟩, rfl⟩
  | array items =>
      cases items with
      | nil => exact ⟨⟨rfl, fun _ => rfl⟩, rfl⟩
      | cons item rest =>
          have decoded : decodeItems zero decode (item :: rest) first.backing =
              decodeItems zero decode (item :: rest) second.backing :=
            decodeItems_congr _ alike.backing
          simp only [slice, decoded]
          split
          · exact ⟨⟨by rw [alike.items], by rw [alike.items]; exact dropped _⟩, rfl⟩
          · exact ⟨⟨rfl, dropped _⟩, rfl⟩
  | _ => exact ⟨alike, rfl⟩

/-- An array that leaves everything as it finds it. -/
def nulls (count : Nat) : Json := .array (List.replicate count .null)

theorem ranged_nulls (ranges : List (String × Int × Int)) (count : Nat) :
    (nulls count).ranged ranges = true := by
  unfold nulls
  rw [Json.ranged]
  induction count with
  | zero => rfl
  | succ count induction =>
      rw [List.replicate_succ, allRanged, induction]
      rfl

theorem ranged_field (ranges : List (String × Int × Int)) (name : String)
    (count : Nat) : (Json.object [(name, nulls count)]).ranged ranges = true := by
  rw [Json.ranged, fieldsRanged, ranged_nulls]
  rfl

theorem slice_nulls (keeps : ∀ old, decode .null old = .whole old) (count : Nat)
    (old : Slice α) :
    ∃ shown, slice zero decode (nulls count) old = .whole shown ∧
      ∀ index < count, shown.items[index]? = some (old.backing.getD index zero) := by
  have merges : ∀ _ old : α, decode .null old = .whole old := fun _ => keeps
  have decoded := slice_encode zero merges (List.replicate count zero) old
  rw [List.map_replicate] at decoded
  refine ⟨_, decoded, fun index inside => ?_⟩
  rw [getElem?_mergeItems, List.getElem?_replicate, if_pos inside]
  rfl

/-- Slices that show the same after every array of nulls are alike. -/
theorem Slice.alike_of_nulls (keeps : ∀ old, decode .null old = .whole old)
    (items : first.items = second.items)
    (shown : ∀ count one other,
      slice zero decode (nulls count) first = .whole one →
      slice zero decode (nulls count) second = .whole other →
      one.items = other.items) : first.Alike zero second := by
  have backing : ∀ index,
      first.backing.getD index zero = second.backing.getD index zero := by
    intro index
    obtain ⟨one, decodedOne, showsOne⟩ := slice_nulls keeps (index + 1) first
    obtain ⟨other, decodedOther, showsOther⟩ := slice_nulls keeps (index + 1) second
    have same := shown _ one other decodedOne decodedOther
    refine Option.some.inj ?_
    rw [← showsOne index index.lt_succ_self, same,
      showsOther index index.lt_succ_self]
  refine ⟨items, fun index => ?_⟩
  have behind := backing (second.items.length + index)
  rw [Slice.backing, Slice.backing, items,
    List.getD_append_right _ _ _ _ (Nat.le_add_right ..),
    List.getD_append_right _ _ _ _ (Nat.le_add_right ..)] at behind
  simpa using behind

theorem forall_getD_eq_zero_iff (zero : α) (items : List α) :
    (∀ index, ([] : List α).getD index zero = items.getD index zero) ↔
      ∀ item ∈ items, item = zero := by
  constructor
  · intro blank item member
    obtain ⟨index, found⟩ := List.mem_iff_getElem?.mp member
    simpa [List.getD_eq_getElem?_getD, found] using (blank index).symm
  · intro blank index
    cases found : items[index]? with
    | none => simp [List.getD_eq_getElem?_getD, found]
    | some item =>
        simp [List.getD_eq_getElem?_getD, found,
          blank item (List.mem_of_getElem? found)]

end Slices

end MergingDecoders
