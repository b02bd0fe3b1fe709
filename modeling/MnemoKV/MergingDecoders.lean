import Mathlib.Data.List.Sort

/-!
# Decoding into a value that is already there

A decoder of this kind gets the old value with the document.  A field that the
document does not have keeps its old value, the elements of an array are decoded
into those of the old slice, and the entries of a map are added to the old map.
A value that does not fit is passed over, so that a document which is refused may
have changed the target.
-/

namespace MergingDecoders

/-- A JSON value, with its numbers sorted by the field they are for. -/
inductive Json
  | null
  | boolean (value : Bool)
  /-- An integer that the field it is for can hold. -/
  | number (value : Int)
  /-- Any other number. -/
  | decimal (literal : String)
  | text (value : String)
  /-- A text that is read as a point in time. -/
  | time (value : String) (instant : Int)
  | array (items : List Json)
  | object (fields : List (String × Json))

/-- How far a document fits.  A value of the wrong type does not keep the decoder
from going on, an error of a value's own decoder does. -/
inductive Fit
  | whole
  | partly
  | stopped
  deriving DecidableEq

def Fit.and : Fit → Fit → Fit
  | whole, later => later
  | partly, whole => partly
  | partly, later => later
  | stopped, _ => stopped

/-- What decoding leaves in the target, whether the document fits or not. -/
@[ext]
structure Decoded (α : Type*) where
  value : α
  fit : Fit

namespace Decoded

variable {α β : Type*}

def whole (value : α) : Decoded α := ⟨value, .whole⟩

/-- The target stays as it was. -/
def misfit (old : α) : Decoded α := ⟨old, .partly⟩

def map (change : α → β) (decoded : Decoded α) : Decoded β :=
  ⟨change decoded.value, decoded.fit⟩

def andThen (first : Decoded α) (next : α → Decoded α) : Decoded α :=
  match first.fit with
  | .stopped => first
  | fit => ⟨(next first.value).value, fit.and (next first.value).fit⟩

@[simp]
theorem map_whole (change : α → β) (value : α) :
    (whole value).map change = whole (change value) := rfl

@[simp]
theorem whole_andThen (value : α) (next : α → Decoded α) :
    (whole value).andThen next = next value := rfl

@[simp]
theorem value_whole (value : α) : (whole value).value = value := rfl

@[simp]
theorem fit_whole (value : α) : (whole value).fit = .whole := rfl

end Decoded

/-- A decoder merges a document into what the target holds. -/
abbrev Decoder (α : Type*) := Json → α → Decoded α

def text : Decoder String
  | .null, old => .whole old
  | .text value, _ | .time value _, _ => .whole value
  | _, old => .misfit old

def boolean : Decoder Bool
  | .null, old => .whole old
  | .boolean value, _ => .whole value
  | _, old => .misfit old

def integer : Decoder Int
  | .null, old => .whole old
  | .number value, _ => .whole value
  | _, old => .misfit old

def natural : Decoder Nat
  | .null, old => .whole old
  | .number (.ofNat value), _ => .whole value
  | _, old => .misfit old

@[simp]
theorem text_text (value old : String) : text (.text value) old = .whole value := rfl

@[simp]
theorem boolean_boolean (value old : Bool) :
    boolean (.boolean value) old = .whole value := rfl

@[simp]
theorem integer_number (value old : Int) :
    integer (.number value) old = .whole value := rfl

@[simp]
theorem natural_number (value old : Nat) :
    natural (.number (value : Int)) old = .whole value := rfl

/-- A text that stands for a value. -/
def named {α : Type*} (parse : String → α) : Decoder α
  | .null, old => .whole old
  | .text value, _ | .time value _, _ => .whole (parse value)
  | _, old => .misfit old

section Records

variable {α β : Type*}

/-- The decoder of a field as one of the record that has it. -/
def part (get : α → β) (set : β → α → α) (decode : Decoder β) : Decoder α :=
  fun document old => (decode document (get old)).map fun value => set value old

/-- Letters that differ in case only are the same, and two letters outside ASCII have
an ASCII one of their own case class. -/
def foldRune (rune : Char) : Char :=
  if rune = 'ſ' then 'S' else if rune = 'K' then 'K' else rune.toUpper

/-- A name up to case, as object keys are matched. -/
def foldName (name : String) : List Char := name.toList.map foldRune

/-- The field of that name, or else the one that has it up to case. -/
def lookupField (known : List (String × Decoder α)) (name : String) :
    Option (Decoder α) :=
  match known.lookup name with
  | some decode => some decode
  | none => (known.find? fun field => foldName field.1 = foldName name).map Prod.snd

theorem mem_of_lookupField {known : List (String × Decoder α)} {name : String}
    {decode : Decoder α} (found : lookupField known name = some decode) :
    ∃ own, (own, decode) ∈ known := by
  unfold lookupField at found
  split at found
  · rename_i listed
    obtain ⟨before, after, split, -⟩ := List.lookup_eq_some_iff.mp listed
    exact ⟨name, by simp [split, Option.some.inj found]⟩
  · obtain ⟨⟨own, _⟩, listed, rfl⟩ := Option.map_eq_some_iff.mp found
    exact ⟨own, List.mem_of_find?_eq_some listed⟩

/-- The fields of an object in their order; those that the record does not have are
passed over. -/
def decodeFields (known : List (String × Decoder α)) :
    List (String × Json) → α → Decoded α
  | [], old => .whole old
  | (name, document) :: rest, old =>
      match lookupField known name with
      | none => decodeFields known rest old
      | some decode =>
          (decode document old).andThen fun value => decodeFields known rest value

/-- Fields are decoded one by one, and missing ones are left alone. -/
def record (known : List (String × Decoder α)) : Decoder α
  | .null, old => .whole old
  | .object fields, old => decodeFields known fields old
  | _, old => .misfit old

end Records

section Ranges

variable (ranges : List (String × Int × Int))

/-- An integer is within the range of the field that it is given for. -/
def inRange (name : String) : Json → Bool
  | .number value =>
      ((ranges.find? fun range => foldName range.1 = foldName name).map Prod.snd).all
        fun (low, high) => decide (low ≤ value ∧ value < high)
  | _ => true

mutual

/-- All numbers are in the range of the fields they are for. -/
def Json.ranged : Json → Bool
  | .array items => allRanged items
  | .object fields => fieldsRanged fields
  | _ => true

def allRanged : List Json → Bool
  | [] => true
  | item :: rest => item.ranged && allRanged rest

def fieldsRanged : List (String × Json) → Bool
  | [] => true
  | (name, value) :: rest =>
      inRange ranges name value && value.ranged && fieldsRanged rest

end

end Ranges

/-- A field that the encoder leaves out when it is empty. -/
def omitEmpty (name : String) (empty : Bool) (value : Json) : List (String × Json) :=
  if empty then [] else [(name, value)]

/-- The elements that a slice shows, and those behind them that it still holds
in memory. -/
structure Slice (α : Type*) where
  items : List α
  spare : List α

def Slice.backing {α : Type*} (slice : Slice α) : List α := slice.items ++ slice.spare

section Arrays

variable {α : Type*} (zero : α)

def decodeItems (decode : Decoder α) : List Json → List α → Decoded (List α)
  | [], _ => .whole []
  | item :: rest, backing =>
      let first := decode item (backing.headD zero)
      match first.fit with
      | .stopped => ⟨[first.value], .stopped⟩
      | fit =>
          let others := decodeItems decode rest backing.tail
          ⟨first.value :: others.value, fit.and others.fit⟩

/-- Elements are decoded over the backing array, spare ones included. -/
def slice (decode : Decoder α) : Decoder (Slice α)
  | .null, _ => .whole ⟨[], []⟩
  | .array [], _ => .whole ⟨[], []⟩
  | .array items, old =>
      let decoded := decodeItems zero decode items old.backing
      match decoded.fit with
      | .stopped =>
          -- The slice has not been cut yet.
          ⟨⟨decoded.value ++ old.items.drop decoded.value.length,
            old.backing.drop (max decoded.value.length old.items.length)⟩, .stopped⟩
      | fit => ⟨⟨decoded.value, old.backing.drop decoded.value.length⟩, fit⟩
  | _, old => .misfit old

/-- Each element merged with the one at its place in the old backing array. -/
def mergeItems (merge : α → α → α) : List α → List α → List α
  | [], _ => []
  | item :: rest, backing =>
      merge item (backing.headD zero) :: mergeItems merge rest backing.tail

variable {encode : α → Json} {decode : Decoder α} {merge : α → α → α}

theorem decodeItems_encode
    (merges : ∀ item old, decode (encode item) old = .whole (merge item old))
    (items backing : List α) :
    decodeItems zero decode (items.map encode) backing =
      .whole (mergeItems zero merge items backing) := by
  induction items generalizing backing with
  | nil => rfl
  | cons item rest induction =>
      simp only [List.map_cons, decodeItems, merges, induction, Decoded.fit_whole,
        Decoded.value_whole, Fit.and, mergeItems]
      rfl

variable {zero}

@[simp]
theorem length_mergeItems (items backing : List α) :
    (mergeItems zero merge items backing).length = items.length := by
  induction items generalizing backing with
  | nil => rfl
  | cons item rest induction => simp [mergeItems, induction]

theorem getElem?_mergeItems (items backing : List α) (index : Nat) :
    (mergeItems zero merge items backing)[index]? =
      items[index]?.map fun item => merge item (backing.getD index zero) := by
  induction items generalizing backing index with
  | nil => rfl
  | cons first rest induction =>
      cases index with
      | zero => cases backing <;> rfl
      | succ index =>
          rw [mergeItems, List.getElem?_cons_succ, induction, List.getElem?_cons_succ]
          cases backing <;> simp

/-- A merge of lists gives the new list exactly if it does so at each place. -/
theorem mergeItems_eq_self_iff (zero : α) (merge : α → α → α)
    (items backing : List α) :
    mergeItems zero merge items backing = items ↔
      ∀ index item, items[index]? = some item →
        merge item (backing.getD index zero) = item := by
  induction items generalizing backing with
  | nil => simp [mergeItems]
  | cons first rest induction =>
      rw [mergeItems, List.cons.injEq, induction]
      constructor
      · rintro ⟨head, tail⟩ index item present
        cases index with
        | zero =>
            obtain rfl := Option.some.inj present
            rwa [← List.headD_eq_getD]
        | succ index =>
            have same := tail index item present
            cases backing <;> simpa using same
      · intro every
        refine ⟨?_, fun index item present => ?_⟩
        · rw [List.headD_eq_getD]
          exact every 0 first rfl
        · have same := every (index + 1) item present
          cases backing <;> simpa using same

theorem mergeItems_of_forget (forgets : ∀ item old, merge item old = item)
    (items backing : List α) : mergeItems zero merge items backing = items :=
  (mergeItems_eq_self_iff zero merge items backing).mpr fun _ item _ => forgets item _

/-- A slice decoded from an encoded list shows its items merged with the old
backing array, and keeps what lay behind them. -/
theorem slice_encode (zero : α)
    (merges : ∀ item old, decode (encode item) old = .whole (merge item old))
    (items : List α) (old : Slice α) :
    slice zero decode (.array (items.map encode)) old =
      .whole ⟨mergeItems zero merge items old.backing,
        if items = [] then [] else old.backing.drop items.length⟩ := by
  cases items with
  | nil => rfl
  | cons first rest =>
      have decoded := decodeItems_encode zero merges (first :: rest) old.backing
      rw [List.map_cons] at decoded ⊢
      simp only [slice, decoded, Decoded.fit_whole, Decoded.value_whole,
        length_mergeItems, if_neg (List.cons_ne_nil first rest)]
      rfl

end Arrays

section Maps

variable {α : Type*}

abbrev Table (α : Type*) := Std.ExtTreeMap String α compare

/-- An entry is stored even if its value fits only partly. -/
def decodeEntries (zero : α) (decode : Decoder α) :
    List (String × Json) → Table α → Decoded (Table α)
  | [], old => .whole old
  | (key, document) :: rest, old =>
      let decoded := decode document zero
      match decoded.fit with
      | .stopped => ⟨old, .stopped⟩
      | fit =>
          let later := decodeEntries zero decode rest (old.insert key decoded.value)
          ⟨later.value, fit.and later.fit⟩

/-- An object adds or replaces keys and removes none. -/
def table (zero : α) (decode : Decoder α) : Decoder (Table α)
  | .null, _ => .whole ∅
  | .object fields, old => decodeEntries zero decode fields old
  | _, old => .misfit old

def encodeTable (encode : α → Json) (entries : Table α) : Json :=
  .object (entries.toList.map fun entry => (entry.1, encode entry.2))

/-- The old entries under those of the new table. -/
def mergeTables (old new : Table α) : Table α := old.insertMany new.toList

variable {zero : α} {encode : α → Json} {decode : Decoder α}

theorem decodeEntries_encode
    (returns : ∀ item, decode (encode item) zero = .whole item)
    (entries : List (String × α)) (old : Table α) :
    decodeEntries zero decode
        (entries.map fun entry => (entry.1, encode entry.2)) old =
      .whole (old.insertMany entries) := by
  induction entries generalizing old with
  | nil => rw [Std.ExtTreeMap.insertMany_nil]; rfl
  | cons entry rest induction =>
      rw [Std.ExtTreeMap.insertMany_cons, ← induction]
      simp only [List.map_cons, decodeEntries, returns, Decoded.fit_whole,
        Decoded.value_whole, Fit.and]

theorem table_encodeTable (returns : ∀ item, decode (encode item) zero = .whole item)
    (old new : Table α) :
    table zero decode (encodeTable encode new) old = .whole (mergeTables old new) :=
  decodeEntries_encode returns new.toList old

theorem getElem?_mergeTables {old new : Table α} {key : String} {value : α}
    (found : new[key]? = some value) : (mergeTables old new)[key]? = some value :=
  Std.ExtTreeMap.getElem?_insertMany_list_of_mem Std.ReflCmp.compare_self
    new.distinct_keys_toList (Std.ExtTreeMap.mem_toList_iff_getElem?_eq_some.mpr found)

/-- Only a table without other keys is replaced. -/
theorem mergeTables_eq_right_iff (old new : Table α) :
    mergeTables old new = new ↔ ∀ key ∈ old, key ∈ new := by
  constructor
  · intro same key known
    rw [← same]
    exact Std.ExtTreeMap.mem_insertMany_list.mpr (.inl known)
  · intro covered
    apply Std.ExtTreeMap.ext_getElem?
    intro key
    cases found : new[key]? with
    | some value => exact getElem?_mergeTables found
    | none =>
        have missing : key ∉ new := by
          rwa [Std.ExtTreeMap.mem_iff_isSome_getElem?, Option.not_isSome_iff_eq_none]
        have unlisted : (new.toList.map Prod.fst).contains key = false := by
          rw [Std.ExtTreeMap.map_fst_toList_eq_keys]
          simpa using missing
        rw [mergeTables,
          Std.ExtTreeMap.getElem?_insertMany_list_of_contains_eq_false unlisted]
        exact Std.ExtTreeMap.getElem?_eq_none fun known => missing (covered key known)

end Maps

end MergingDecoders
