import Mathlib.Data.List.AList
import Mathlib.Data.List.Induction

/-!
# Counting values by a key

Values are counted in groups, one for each key, and a group remembers its first value.
If more than half of a number of voters are needed, then at most one group has them.
-/

namespace Groupings

variable {Key Value : Type*} [DecidableEq Key]

/-- The first member of a class and how many there are. -/
structure Tally (Value : Type*) where
  first : Value
  count : Nat

abbrev Groups (Key Value : Type*) := AList fun _ : Key => Tally Value

def add (key : Value → Key) (groups : Groups Key Value) (value : Value) : Groups Key Value :=
  match groups.lookup (key value) with
  | none => groups.insert (key value) ⟨value, 1⟩
  | some group => groups.insert (key value) { group with count := group.count + 1 }

/-- The groups of a list of values. -/
def collect (key : Value → Key) (values : List Value) : Groups Key Value :=
  values.foldl (add key) ∅

variable {key : Value → Key} {values : List Value} {name : Key} {group : Tally Value}

/-- How often a key occurs. -/
def occurrences (key : Value → Key) (values : List Value) (name : Key) : Nat :=
  (values.map key).count name

theorem find?_eq_none_iff_occurrences :
    (values.find? fun value => key value = name) = none ↔ occurrences key values name = 0 := by
  simp [occurrences, List.count_eq_zero]

theorem lookup_add_self (groups : Groups Key Value) (value : Value) :
    (add key groups value).lookup (key value) =
      some ((groups.lookup (key value)).elim ⟨value, 1⟩ fun group =>
        { group with count := group.count + 1 }) := by
  unfold add
  cases groups.lookup (key value) with
  | none => exact AList.lookup_insert _
  | some group => exact AList.lookup_insert _

theorem lookup_add_of_ne (groups : Groups Key Value) {value : Value}
    (other : key value ≠ name) : (add key groups value).lookup name = groups.lookup name := by
  unfold add
  split <;> exact AList.lookup_insert_ne other.symm

/-- A group has the first value of its key, and counts all. -/
theorem lookup_collect (key : Value → Key) (values : List Value) (name : Key) :
    (collect key values).lookup name =
      (values.find? fun value => key value = name).map fun first =>
        ⟨first, occurrences key values name⟩ := by
  unfold collect
  -- From the end: the last value changes one group of those before it.
  induction values using List.reverseRecOn with
  | nil => rfl
  | append_singleton values value induction =>
      have counted : occurrences key (values ++ [value]) name =
          occurrences key values name + if key value = name then 1 else 0 := by
        simp [occurrences, List.count_singleton]
      rw [List.foldl_append, List.foldl_cons, List.foldl_nil, List.find?_append, counted]
      by_cases own : key value = name
      · subst own
        rw [lookup_add_self, induction]
        cases found : values.find? fun other => key other = key value with
        | none =>
            rw [find?_eq_none_iff_occurrences] at found
            simp [found]
        | some first => simp
      · rw [lookup_add_of_ne _ own, induction]
        simp [own]

theorem mem_entries_collect :
    ⟨name, group⟩ ∈ (collect key values).entries ↔
      (values.find? fun value => key value = name) = some group.first ∧
        group.count = occurrences key values name := by
  rw [← AList.mem_lookup_iff, lookup_collect, Option.mem_def, Option.map_eq_some_iff]
  constructor
  · rintro ⟨first, found, rfl⟩
    exact ⟨found, rfl⟩
  · rintro ⟨found, counted⟩
    exact ⟨group.first, found, by rw [← counted]⟩

theorem occurrences_perm {values' : List Value} (same : values'.Perm values) (name : Key) :
    occurrences key values' name = occurrences key values name :=
  (same.map key).count_eq name

/-- Two keys do not both have a majority of the voters. -/
theorem majority_unique {voters : Nat} (short : values.length ≤ voters) {name' : Key}
    (majority : voters / 2 + 1 ≤ occurrences key values name)
    (majority' : voters / 2 + 1 ≤ occurrences key values name') : name = name' := by
  by_contra different
  have apart : occurrences key values name + occurrences key values name' ≤ values.length := by
    have split := List.length_eq_countP_add_countP (· == name) (l := values.map key)
    have within : (values.map key).count name' ≤
        (values.map key).countP fun other => ¬ (other == name) = true := by
      refine List.countP_mono_left fun other _ same => ?_
      rw [beq_iff_eq] at same
      simpa [same] using Ne.symm different
    rw [List.length_map] at split
    unfold occurrences
    exact split ▸ Nat.add_le_add_left within _
  omega

end Groupings
