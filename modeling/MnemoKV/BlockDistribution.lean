import Mathlib.Data.List.Induction
import Mathlib.Data.List.Range
import Mathlib.Algebra.Order.Ring.Nat
import Mathlib.Algebra.BigOperators.Group.List.Basic

/-!
# Dealing out a range in blocks

A total is dealt out to owners in equal shares, and the first owners take one more each
until nothing remains.  The items of all owners are written one after another into an
array of the length of the total.
-/

namespace BlockDistribution

/-- The size of a block: the remainder goes to the first ones. -/
def share (total owners index : Nat) : Nat :=
  total / owners + if index < total % owners then 1 else 0

theorem share_le_succ (total owners first second : Nat) :
    share total owners first ≤ share total owners second + 1 := by
  unfold share
  split_ifs <;> omega

theorem sum_shares_range (total owners count : Nat) :
    ((List.range count).map (share total owners)).sum =
      count * (total / owners) + min count (total % owners) := by
  induction count with
  | zero => simp
  | succ count induction =>
      rw [List.range_succ, List.map_append, List.sum_append, induction, Nat.succ_mul]
      simp only [List.map_cons, List.map_nil, List.sum_singleton, share]
      split_ifs <;> omega

/-- Nothing is left over and nothing is missing. -/
theorem sum_shares {total owners : Nat} (some : 0 < owners) :
    ((List.range owners).map (share total owners)).sum = total := by
  rw [sum_shares_range, Nat.min_eq_right (Nat.mod_lt total some).le]
  exact Nat.div_add_mod total owners

/-! ### Writing in order -/

variable {Item : Type*}

/-- An array and the place of the next write. -/
structure Filling (Item : Type*) where
  items : List Item
  next : Nat

/-- Writes the item for the next place; a place outside the array is a failure. -/
def Filling.write (state : Filling Item) (make : Nat → Item) : Option (Filling Item) :=
  if state.next < state.items.length then
    some ⟨state.items.set state.next (make state.next), state.next + 1⟩
  else none

/-- What has been written stays in front of what is left of the array. -/
theorem foldlM_write (makers : List (Nat → Item)) (written rest : List Item)
    (fits : makers.length ≤ rest.length) :
    makers.foldlM Filling.write ⟨written ++ rest, written.length⟩ =
      some ⟨written ++ (makers.mapIdx fun index make => make (written.length + index)) ++
          rest.drop makers.length,
        written.length + makers.length⟩ := by
  induction makers generalizing written rest with
  | nil => simp
  | cons make makers induction =>
      cases rest with
      | nil => simp at fits
      | cons old rest =>
          have place : written.length < (written ++ old :: rest).length := by simp
          have later := induction (written ++ [make written.length]) rest
            (by simpa using fits)
          rw [List.foldlM_cons, Filling.write, if_pos place]
          simp only [List.length_append, List.length_singleton, List.append_assoc,
            List.singleton_append] at later
          simp only [Option.bind_eq_bind, Option.bind_some, List.set_append_right _ _ le_rfl,
            Nat.sub_self, List.set_cons_zero, later]
          simp [List.mapIdx_cons, Nat.add_assoc, Nat.add_comm 1]

/-- An array of the right length is filled exactly. -/
theorem foldlM_write_fresh (makers : List (Nat → Item)) (fresh : List Item)
    (fits : fresh.length = makers.length) :
    makers.foldlM Filling.write ⟨fresh, 0⟩ =
      some ⟨makers.mapIdx fun index make => make index, makers.length⟩ := by
  have filled := foldlM_write makers [] fresh fits.ge
  rw [List.drop_of_length_le fits.le] at filled
  simpa using filled

end BlockDistribution
