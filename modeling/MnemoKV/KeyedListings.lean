import Mathlib.Data.List.Perm.Subperm
import Mathlib.Data.List.Nodup
import Mathlib.Algebra.Order.BigOperators.Group.List
import Mathlib.Algebra.Order.Ring.Nat

/-!
# Listings of partial maps

A listing of a partial map is a list of its rows in which every key occurs
once.  Sums over listings depend on the map only, and change with an update of
the map by the weights of what was there before and after.
-/

namespace KeyedListings

variable {Key Value : Type*}

/-- The rows are the graph of the map, each key once. -/
structure Lists (map : Key → Option Value) (rows : List (Key × Value)) :
    Prop where
  distinct : (rows.map Prod.fst).Nodup
  complete : ∀ key value, (key, value) ∈ rows ↔ map key = some value

/-- The sum of the weights of all rows. -/
def total (weight : Key → Value → Nat) (rows : List (Key × Value)) : Nat :=
  (rows.map fun row => weight row.1 row.2).sum

/-- The weight of what a key holds, if anything. -/
def held (weight : Key → Value → Nat) (key : Key) : Option Value → Nat
  | some value => weight key value
  | none => 0

namespace Lists

variable {map map' : Key → Option Value} {rows rows' : List (Key × Value)}

theorem nodup (lists : Lists map rows) : rows.Nodup :=
  lists.distinct.of_map

theorem perm (lists : Lists map rows) (lists' : Lists map rows') :
    rows.Perm rows' := by
  refine (List.perm_ext_iff_of_nodup lists.nodup lists'.nodup).mpr ?_
  rintro ⟨key, value⟩
  rw [lists.complete, lists'.complete]

theorem total_eq (weight : Key → Value → Nat) (lists : Lists map rows)
    (lists' : Lists map rows') : total weight rows = total weight rows' :=
  ((lists.perm lists').map _).sum_eq

theorem nil : Lists (fun _ : Key => (none : Option Value)) [] :=
  ⟨List.nodup_nil, by simp⟩

variable [DecidableEq Key]

theorem cons (lists : Lists map rows) {key : Key} (missing : map key = none)
    (value : Value) :
    Lists (Function.update map key (some value)) ((key, value) :: rows) := by
  have absent : key ∉ rows.map Prod.fst := by
    intro listed
    obtain ⟨⟨own, stored⟩, member, rfl⟩ := List.mem_map.mp listed
    rw [lists.complete, missing] at member
    cases member
  refine ⟨List.nodup_cons.mpr ⟨absent, lists.distinct⟩, fun other stored => ?_⟩
  by_cases same : other = key
  · subst same
    have unlisted : (other, stored) ∉ rows := fun member =>
      absent (List.mem_map_of_mem member)
    simp [unlisted, eq_comm]
  · simp [same, lists.complete]

theorem filter (lists : Lists map rows) (key : Key) :
    Lists (Function.update map key none) (rows.filter (·.1 ≠ key)) := by
  refine ⟨lists.distinct.sublist (List.filter_sublist.map _), ?_⟩
  intro other stored
  by_cases same : other = key
  · subst same
    simp
  · simp [same, lists.complete]

theorem total_remove (weight : Key → Value → Nat) (lists : Lists map rows) {key : Key}
    (lists' : Lists (Function.update map key none) rows') :
    total weight rows' + held weight key (map key) = total weight rows := by
  cases stored : map key with
  | none =>
      have same : Function.update map key none = map := by
        rw [← stored, Function.update_eq_self]
      rw [same] at lists'
      exact lists'.total_eq weight lists
  | some value =>
      have back : Function.update (Function.update map key none) key
          (some value) = map := by
        rw [Function.update_idem, ← stored, Function.update_eq_self]
      have whole := lists'.cons (Function.update_self ..) value
      rw [back] at whole
      have sum := whole.total_eq weight lists
      simp only [total, held, List.map_cons, List.sum_cons] at sum ⊢
      omega

/-- An update exchanges the weight of the old value for that of the new. -/
theorem total_update (weight : Key → Value → Nat) (lists : Lists map rows) {key : Key}
    {stored : Option Value}
    (lists' : Lists (Function.update map key stored) rows') :
    total weight rows' + held weight key (map key) =
      total weight rows + held weight key stored := by
  have before := lists.total_remove weight (lists.filter key)
  have emptied := lists'.filter key
  rw [Function.update_idem] at emptied
  have after := lists'.total_remove weight (lists'.filter key)
  rw [Function.update_self, emptied.total_eq weight (lists.filter key)] at after
  omega

theorem held_le_total (weight : Key → Value → Nat) (lists : Lists map rows)
    (key : Key) : held weight key (map key) ≤ total weight rows := by
  have split := lists.total_remove weight (lists.filter key)
  omega

/-- Different keys together hold at most the total. -/
theorem sum_held_le_total (weight : Key → Value → Nat) (lists : Lists map rows)
    {keys : List Key} (distinct : keys.Nodup) :
    (keys.map fun key => held weight key (map key)).sum ≤ total weight rows := by
  induction keys generalizing map rows with
  | nil => exact Nat.zero_le _
  | cons key keys induction =>
      obtain ⟨unlisted, distinct⟩ := List.nodup_cons.mp distinct
      have rest := induction (lists.filter key) distinct
      have others : (keys.map fun other =>
          held weight other (Function.update map key none other)) =
            keys.map fun other => held weight other (map other) := by
        refine List.map_congr_left fun other member => ?_
        have different : other ≠ key := fun same => unlisted (same ▸ member)
        rw [Function.update_of_ne different]
      have split := lists.total_remove weight (lists.filter key)
      rw [others] at rest
      rw [List.map_cons, List.sum_cons]
      omega

/-- A map that holds no more under any key has no larger total. -/
theorem total_mono (weight : Key → Value → Nat) (lists : Lists map rows)
    (lists' : Lists map' rows')
    (smaller : ∀ key, held weight key (map' key) ≤ held weight key (map key)) :
    total weight rows' ≤ total weight rows := by
  have listed : total weight rows' =
      ((rows'.map Prod.fst).map fun key => held weight key (map' key)).sum := by
    rw [total, List.map_map]
    congr 1
    refine List.map_congr_left fun row member => ?_
    have stored := (lists'.complete row.1 row.2).mp member
    simp [held, stored]
  calc total weight rows'
      = ((rows'.map Prod.fst).map fun key => held weight key (map' key)).sum :=
        listed
    _ ≤ ((rows'.map Prod.fst).map fun key => held weight key (map key)).sum :=
        List.sum_le_sum fun key _ => smaller key
    _ ≤ total weight rows := lists.sum_held_le_total weight lists'.distinct

end Lists
end KeyedListings
