import Mathlib.Data.List.Sort

/-!
# Sorting with an unspecified order of ties

A sorting routine permutes a slice until no element stands behind one that must
follow it.  It is a function of the slice, but where the comparison ties it may
order the elements in any way.
-/

/-- A sorting routine for slices, which is given the strict comparison. -/
class SliceSort where
  sort {α : Type} : (α → α → Bool) → List α → List α
  perm {α : Type} (before : α → α → Bool) (slice : List α) :
    (sort before slice).Perm slice
  sorted {α β : Type} [LinearOrder β] (rank : α → β) (slice : List α) :
    (sort (fun first second => decide (rank first < rank second)) slice).Pairwise
      fun first second => rank first ≤ rank second

namespace SliceSort

/-- The routine for short slices: elements move to the left past all that must follow
them, so ties keep their order. -/
@[reducible]
def insertion : SliceSort where
  sort before slice := slice.insertionSort fun first second => before second first = false
  perm before slice := List.perm_insertionSort _ slice
  sorted {α β} _ rank slice := by
    let follows : α → α → Prop := fun first second =>
      decide (rank second < rank first) = false
    have iff_le (first second : α) : follows first second ↔ rank first ≤ rank second := by
      simp [follows]
    have total : Std.Total follows := ⟨fun first second => by
      simpa only [iff_le] using le_total (rank first) (rank second)⟩
    have trans : IsTrans α follows := ⟨fun first second third => by
      simpa only [iff_le] using le_trans⟩
    exact (List.pairwise_insertionSort follows slice).imp fun {first second} =>
      (iff_le first second).mp

variable [SliceSort] {α β : Type} [LinearOrder β]

@[simp]
theorem mem_sort {before : α → α → Bool} {slice : List α} {element : α} :
    element ∈ sort before slice ↔ element ∈ slice :=
  (perm before slice).mem_iff

/-- An element that is strictly before all others comes first. -/
theorem head?_sort {rank : α → β} {slice : List α} {least : α} (member : least ∈ slice)
    (first : ∀ other ∈ slice, other ≠ least → rank least < rank other) :
    (sort (fun first second => decide (rank first < rank second)) slice).head? =
      some least := by
  obtain ⟨head, rest, arranged⟩ : ∃ head rest,
      sort (fun first second => decide (rank first < rank second)) slice =
        head :: rest :=
    List.exists_cons_of_ne_nil (List.ne_nil_of_mem (mem_sort.mpr member))
  have listed : least ∈ head :: rest := arranged ▸ mem_sort.mpr member
  have present : head ∈ slice := mem_sort.mp (arranged ▸ List.mem_cons_self)
  have ordered := sorted rank slice
  rw [arranged] at ordered ⊢
  rw [List.head?_cons, Option.some_inj]
  by_contra different
  rcases List.mem_cons.mp listed with rfl | behind
  · exact different rfl
  · exact absurd ((List.pairwise_cons.mp ordered).1 least behind)
      (not_le.mpr (first head present different))

end SliceSort
