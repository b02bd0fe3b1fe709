import Mathlib.Order.Basic
import Mathlib.Data.List.Basic

/-!
# Histories with one entry for each version

A history lists the values that a shared object has had, the first one under
version one.  Copies that carry their version are recorded in it, so copies of one
version agree and newer copies come later in the order of the history.
-/

namespace LinearHistories

variable {Entry : Type*} {history : List Entry} {version newer : Nat}
  {entry later : Entry}

/-- The history has the entry under the version. -/
def Recorded (history : List Entry) (version : Nat) (entry : Entry) : Prop :=
  0 < version ∧ history[version - 1]? = some entry

theorem Recorded.unique (first : Recorded history version entry)
    (second : Recorded history version later) : entry = later :=
  Option.some.inj (first.2.symm.trans second.2)

theorem Recorded.mem (recorded : Recorded history version entry) : entry ∈ history :=
  List.mem_of_getElem? recorded.2

theorem Recorded.le_length (recorded : Recorded history version entry) :
    version ≤ history.length := by
  have positive := recorded.1
  have inRange := (List.getElem?_eq_some_iff.mp recorded.2).1
  omega

theorem Recorded.append (recorded : Recorded history version entry) (next : Entry) :
    Recorded (history ++ [next]) version entry :=
  ⟨recorded.1, List.getElem?_append_left
    (List.getElem?_eq_some_iff.mp recorded.2).1 ▸ recorded.2⟩

theorem recorded_last (history : List Entry) (next : Entry) :
    Recorded (history ++ [next]) (history.length + 1) next := by
  refine ⟨Nat.succ_pos _, ?_⟩
  simp

theorem recorded_append {next : Entry}
    (recorded : Recorded (history ++ [next]) version entry) :
    Recorded history version entry ∨ version = history.length + 1 ∧ entry = next := by
  obtain ⟨positive, found⟩ := recorded
  rcases Nat.lt_or_ge (version - 1) history.length with before | last
  · rw [List.getElem?_append_left before] at found
    exact .inl ⟨positive, found⟩
  · rw [List.getElem?_append_right last] at found
    obtain ⟨inRange, rfl⟩ := List.getElem?_eq_some_iff.mp found
    rw [List.length_singleton] at inRange
    exact .inr ⟨by omega, by simp⟩

section Order

variable {Precedes : Entry → Entry → Prop}

theorem Recorded.precedes (refl : ∀ entry, Precedes entry entry)
    (ordered : history.Pairwise Precedes) (old : Recorded history version entry)
    (new : Recorded history newer later) (le : version ≤ newer) :
    Precedes entry later := by
  rcases Nat.lt_or_eq_of_le le with less | rfl
  · have positive := old.1
    obtain ⟨oldRange, rfl⟩ := List.getElem?_eq_some_iff.mp old.2
    obtain ⟨newRange, rfl⟩ := List.getElem?_eq_some_iff.mp new.2
    exact List.pairwise_iff_getElem.mp ordered _ _ oldRange newRange (by omega)
  · rw [old.unique new]
    exact refl later

theorem pairwise_append_last (refl : ∀ entry, Precedes entry entry)
    (trans : ∀ {first second third}, Precedes first second → Precedes second third →
      Precedes first third)
    (ordered : history.Pairwise Precedes)
    (last : Recorded history history.length entry) {next : Entry}
    (follows : Precedes entry next) : (history ++ [next]).Pairwise Precedes := by
  rw [List.pairwise_append]
  refine ⟨ordered, List.pairwise_singleton .., ?_⟩
  intro earlier member other same
  rw [List.mem_singleton.mp same]
  obtain ⟨index, inRange, rfl⟩ := List.mem_iff_getElem.mp member
  have recorded : Recorded history (index + 1) history[index] :=
    ⟨Nat.succ_pos _, List.getElem?_eq_getElem inRange⟩
  exact trans (recorded.precedes refl ordered last inRange) follows

end Order

end LinearHistories
