import Mathlib.Data.List.Basic

/-!
# Updates that address rows by key

A sequence of updates, each of them for the rows with one key, acts on every row
by the subsequence that addresses it.
-/

namespace AddressedUpdates

variable {Key Row Update : Type*} [DecidableEq Key] (key : Row → Key)
  (address : Update → Key) (act : Update → Row → Row)

/-- One update in a list of rows. -/
def update (rows : List Row) (change : Update) : List Row :=
  rows.map fun row => if key row = address change then act change row else row

/-- The updates for one key. -/
def addressing (changes : List Update) (target : Key) : List Update :=
  changes.filter fun change => address change = target

/-- A row after the updates that address it. -/
def rowAfter (changes : List Update) (row : Row) : Row :=
  (addressing address changes (key row)).foldl (fun row change => act change row) row

variable {key address act}

@[simp]
theorem addressing_nil (target : Key) :
    addressing address ([] : List Update) target = [] := rfl

theorem addressing_append (first second : List Update) (target : Key) :
    addressing address (first ++ second) target =
      addressing address first target ++ addressing address second target :=
  List.filter_append ..

theorem addressing_cons_self (change : Update) (rest : List Update) :
    addressing address (change :: rest) (address change) =
      change :: addressing address rest (address change) := by
  simp [addressing]

theorem addressing_eq_self {changes : List Update} {target : Key}
    (own : ∀ change ∈ changes, address change = target) :
    addressing address changes target = changes := by
  rw [addressing, List.filter_eq_self]
  intro change listed
  simpa using own change listed

theorem addressing_eq_nil {changes : List Update} {target : Key}
    (other : ∀ change ∈ changes, address change ≠ target) :
    addressing address changes target = [] := by
  rw [addressing, List.filter_eq_nil_iff]
  intro change listed
  simpa using other change listed

section Keys

variable (keeps : ∀ change row, key (act change row) = key row)

include keeps

omit [DecidableEq Key] in
theorem key_foldl (changes : List Update) (row : Row) :
    key (changes.foldl (fun row change => act change row) row) = key row := by
  induction changes generalizing row with
  | nil => rfl
  | cons change rest induction => rw [List.foldl_cons, induction, keeps]

theorem key_rowAfter (changes : List Update) (row : Row) :
    key (rowAfter key address act changes row) = key row :=
  key_foldl keeps _ row

theorem foldl_update (changes : List Update) (rows : List Row) :
    changes.foldl (update key address act) rows =
      rows.map (rowAfter key address act changes) := by
  induction changes generalizing rows with
  | nil => exact (List.map_id rows).symm
  | cons change rest induction =>
      rw [List.foldl_cons, induction, update, List.map_map]
      apply List.map_congr_left
      intro row _
      by_cases same : key row = address change
      · simp [rowAfter, addressing, same, keeps]
      · simp [rowAfter, addressing, same, Ne.symm same]

theorem rowAfter_append (first second : List Update) (row : Row) :
    rowAfter key address act (first ++ second) row =
      rowAfter key address act second (rowAfter key address act first row) := by
  rw [rowAfter, addressing_append, List.foldl_append]
  conv_rhs => rw [rowAfter, key_rowAfter keeps]
  rfl

end Keys

end AddressedUpdates
