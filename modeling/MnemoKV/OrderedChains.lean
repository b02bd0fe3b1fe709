import Mathlib.Data.List.TakeWhile
import Mathlib.Data.List.Pairwise

/-!
# Ordered chains

A chain is a list whose elements stand in a strict order.  Insertion and
removal search from the front, stepping over the elements that come before the
one in question, as the bottom level of a skip list does.
-/

namespace OrderedChains

variable {α : Type*} (before : α → α → Bool)

/-- Before the first element that is not smaller. -/
def insert (element : α) (chain : List α) : List α :=
  chain.takeWhile (before · element) ++
    element :: chain.dropWhile (before · element)

/-- Removes the first element that does not come before the target, if it is the
target; tells whether it was. -/
def delete (same : α → α → Bool) (target : α) (chain : List α) : Bool × List α :=
  match chain.dropWhile (before · target) with
  | [] => (false, chain)
  | element :: rest =>
      if same element target then
        (true, chain.takeWhile (before · target) ++ rest)
      else (false, chain)

theorem mem_insert {element other : α} {chain : List α} :
    other ∈ insert before element chain ↔ other = element ∨ other ∈ chain := by
  have split : other ∈ chain ↔ other ∈ chain.takeWhile (before · element) ∨
      other ∈ chain.dropWhile (before · element) := by
    rw [← List.mem_append, List.takeWhile_append_dropWhile]
  simp only [insert, List.mem_append, List.mem_cons, split]
  constructor
  · rintro (early | same | late)
    · exact .inr (.inl early)
    · exact .inl same
    · exact .inr (.inr late)
  · rintro (same | early | late)
    · exact .inr (.inl same)
    · exact .inl early
    · exact .inr (.inr late)

/-- An element after all others goes to the end. -/
theorem insert_of_last {element : α} {chain : List α}
    (last : ∀ other ∈ chain, before other element = true) :
    insert before element chain = chain ++ [element] := by
  have taken : chain.takeWhile (before · element) = chain :=
    List.takeWhile_eq_self_iff.mpr last
  have dropped : chain.dropWhile (before · element) = [] :=
    List.dropWhile_eq_nil_iff.mpr last
  rw [insert, taken, dropped]

theorem delete_sublist (same : α → α → Bool) (target : α) (chain : List α) :
    (delete before same target chain).2.Sublist chain := by
  unfold delete
  split
  · exact .refl chain
  · rename_i element rest dropped
    have shorter := (List.sublist_cons_self element rest).append_left
      (chain.takeWhile (before · target))
    rw [← dropped, List.takeWhile_append_dropWhile] at shorter
    split_ifs
    · exact shorter
    · exact .refl chain

variable {before}

section

variable (trans : ∀ first second third, before first second = true →
  before second third = true → before first third = true)

include trans

/-- Past the first element that does not come before another, none does. -/
theorem not_before_of_mem_dropWhile
    {element : α} {chain : List α}
    (ordered : chain.Pairwise (before · · = true))
    {other : α} (late : other ∈ chain.dropWhile (before · element)) :
    before other element = false := by
  induction chain with
  | nil => cases late
  | cons head tail induction =>
      rw [List.pairwise_cons] at ordered
      obtain ⟨headFirst, tailOrdered⟩ := ordered
      rw [List.dropWhile_cons] at late
      split_ifs at late with early
      · exact induction tailOrdered late
      · rcases List.mem_cons.mp late with rfl | later
        · exact Bool.eq_false_iff.mpr early
        · refine Bool.eq_false_iff.mpr fun contrary => early ?_
          exact trans head other element (headFirst other later) contrary

/-- Past the first element that does not come before it, everything comes after
a comparable element. -/
theorem after_of_mem_dropWhile
    {element : α} {chain : List α}
    (ordered : chain.Pairwise (before · · = true))
    (comparable : ∀ other ∈ chain,
      before other element = true ∨ before element other = true)
    {other : α} (late : other ∈ chain.dropWhile (before · element)) :
    before element other = true := by
  refine (comparable other ((List.dropWhile_sublist _).subset late)).resolve_left ?_
  rw [not_before_of_mem_dropWhile trans ordered late]
  exact Bool.false_ne_true

theorem pairwise_insert
    {element : α} {chain : List α}
    (ordered : chain.Pairwise (before · · = true))
    (comparable : ∀ other ∈ chain,
      before other element = true ∨ before element other = true) :
    (insert before element chain).Pairwise (before · · = true) := by
  have late : ∀ other ∈ chain.dropWhile (before · element),
      before element other = true := fun other member =>
    after_of_mem_dropWhile trans ordered comparable member
  have early : ∀ other ∈ chain.takeWhile (before · element),
      before other element = true := by
    intro other member
    have holds := List.mem_takeWhile_imp member
    exact holds
  refine List.pairwise_append.mpr ⟨?_, ?_, ?_⟩
  · exact ordered.sublist (List.takeWhile_sublist _)
  · exact List.pairwise_cons.mpr
      ⟨late, ordered.sublist (List.dropWhile_sublist _)⟩
  · intro first firstEarly second secondLate
    rcases List.mem_cons.mp secondLate with same | later
    · rw [same]
      exact early first firstEarly
    · exact trans first element second (early first firstEarly)
        (late second later)

end

theorem takeWhile_dropWhile_of_mem
    (asymm : ∀ first second, before first second = true →
      before second first = false)
    {element : α} {chain : List α}
    (ordered : chain.Pairwise (before · · = true)) (member : element ∈ chain) :
    ∃ early late, chain = early ++ element :: late ∧
      chain.takeWhile (before · element) = early ∧
      chain.dropWhile (before · element) = element :: late := by
  induction chain with
  | nil => cases member
  | cons head tail induction =>
      rw [List.pairwise_cons] at ordered
      obtain ⟨headFirst, tailOrdered⟩ := ordered
      rcases List.mem_cons.mp member with rfl | later
      · have stop : before element element = false := by
          cases reflexive : before element element with
          | false => rfl
          | true =>
              rw [asymm element element reflexive] at reflexive
              cases reflexive
        exact ⟨[], tail, rfl, by simp [stop], by simp [stop]⟩
      · obtain ⟨early, late, split, taken, dropped⟩ :=
          induction tailOrdered later
        have step : before head element = true := headFirst element later
        refine ⟨head :: early, late, by rw [split]; rfl, ?_, ?_⟩
        · rw [List.takeWhile_cons, if_pos step, taken]
        · rw [List.dropWhile_cons, if_pos step, dropped]

/-- A removal finds an element that the search cannot tell from its target. -/
theorem delete_finds {same : α → α → Bool}
    (asymm : ∀ first second, before first second = true →
      before second first = false)
    {element target : α} {chain : List α}
    (ordered : chain.Pairwise (before · · = true)) (member : element ∈ chain)
    (alike : ∀ other, before other target = before other element)
    (matching : same element target = true) :
    (delete before same target chain).1 = true := by
  obtain ⟨early, late, -, -, dropped⟩ := takeWhile_dropWhile_of_mem asymm ordered member
  simp only [delete, alike, dropped, matching, if_true]

end OrderedChains
