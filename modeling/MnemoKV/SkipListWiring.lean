import MnemoKV.SkipLists
import Mathlib.Data.List.Perm.Subperm

/-!
# The wiring of a skip list

On every level the links visit the nodes that are high enough, in the order of
the bottom level.  A search for a target splits the bottom level into the nodes
before the target and the others, and finds on each level the last high enough
node of the first part: exactly the link that an insertion or a removal has to
rewrite.
-/

namespace SkipLists

open LinkedChains

namespace Linked

variable {α : Type} {maxLevel : Nat} {list list' : Linked α}
  {chain early late : List Nat}

/-- Each node points back to the one before it, the first to nothing. -/
def Backed (list : Linked α) : Option Nat → List Nat → Prop
  | _, [] => True
  | previous, address :: rest =>
      list.backward address = some previous ∧ Backed list (some address) rest

theorem Backed.congr {previous : Option Nat} (backed : list.Backed previous chain)
    (same : ∀ address ∈ chain, list'.backward address = list.backward address) :
    list'.Backed previous chain := by
  induction chain generalizing previous with
  | nil => trivial
  | cons address rest induction =>
      refine ⟨(same address List.mem_cons_self).trans backed.1, ?_⟩
      exact induction backed.2 fun other member =>
        same other (List.mem_cons_of_mem _ member)

/-- Only the first node points back to something else. -/
theorem Backed.repoint {previous link : Option Nat} (backed : list.Backed previous chain)
    (distinct : chain.Nodup)
    (backward : ∀ address ∈ chain, list'.backward address =
      if chain.head? = some address then some link else list.backward address) :
    list'.Backed link chain := by
  cases chain with
  | nil => trivial
  | cons next rest =>
      refine ⟨(backward next List.mem_cons_self).trans (if_pos rfl), ?_⟩
      refine backed.2.congr fun address member => ?_
      have notFirst : (next :: rest).head? ≠ some address := by
        intro same
        obtain rfl := Option.some.inj same
        exact (List.nodup_cons.mp distinct).1 member
      exact (backward address (List.mem_cons_of_mem _ member)).trans (if_neg notFirst)

theorem backed_append {previous : Option Nat} :
    list.Backed previous (early ++ late) ↔
      list.Backed previous early ∧
        list.Backed ((early.map some).getLastD previous) late := by
  induction early generalizing previous with
  | nil => simp [Backed]
  | cons address rest induction =>
      simp only [List.cons_append, Backed, induction, List.map_cons,
        List.getLastD_cons, and_assoc]

/-- The nodes of the bottom level, and how everything else follows them. -/
structure Wired (maxLevel : Nat) (list : Linked α) (chain : List Nat) :
    Prop where
  distinct : (0 :: chain).Nodup
  stored : ∀ address ∈ chain, address < list.nodes.length
  top : list.height 0 = maxLevel
  levels : 1 ≤ list.level ∧ list.level ≤ maxLevel
  heights : ∀ address ∈ chain,
    1 ≤ list.height address ∧ list.height address ≤ list.level
  paths : ∀ level < maxLevel,
    Path (list.forward level) 0 (chain.filter (level < list.height ·))
  backs : list.Backed none chain
  counted : list.length = chain.length

/-- The list holds these elements, in this order. -/
def Holds (maxLevel : Nat) (list : Linked α) (elements : List α) : Prop :=
  ∃ chain, Wired maxLevel list chain ∧
    chain.map list.element = elements.map some

theorem holds_new (zero : α) (positive : 1 ≤ maxLevel) :
    Holds maxLevel (new zero maxLevel) [] := by
  refine ⟨[], ?_, rfl⟩
  constructor
  · exact List.nodup_singleton 0
  · exact fun _ member => nomatch member
  · simp [height, new]
  · exact ⟨le_refl _, positive⟩
  · exact fun _ member => nomatch member
  · intro level below
    simp [LinkedChains.Path, forward, new, below]
  · trivial
  · rfl

/-- The last of some nodes that is high enough for a level, or the head. -/
def lastBelow (list : Linked α) (early : List Nat) (level : Nat) : Nat :=
  (early.filter (level < list.height ·)).getLastD 0

theorem lastBelow_mem (list : Linked α) (early : List Nat) (level : Nat) :
    list.lastBelow early level ∈ 0 :: early := by
  have member := List.getLastD_mem_cons (a := 0)
    (l := early.filter (level < list.height ·))
  exact List.cons_subset_cons 0 (List.filter_subset_self _) member

namespace Wired

variable (wired : Wired maxLevel list chain)

include wired

theorem size : chain.length < list.nodes.length := by
  have headStored : 0 < list.nodes.length := by
    have high : 0 < list.height 0 := by
      have := wired.levels
      have := wired.top
      omega
    obtain ⟨node, stored, -⟩ := exists_node_of_height high
    exact (List.getElem?_eq_some_iff.mp stored).1
  have inside : 0 :: chain ⊆ List.range list.nodes.length := by
    intro address member
    rw [List.mem_range]
    rcases List.mem_cons.mp member with rfl | listed
    · exact headStored
    · exact wired.stored address listed
  have bound := (List.subperm_of_subset wired.distinct inside).length_le
  rw [List.length_cons, List.length_range] at bound
  omega

theorem bottom : Path (list.forward 0) 0 chain := by
  have path := wired.paths 0 (by have := wired.levels; omega)
  have all : chain.filter (0 < list.height ·) = chain := by
    refine List.filter_eq_self.mpr fun address member => ?_
    have high := (wired.heights address member).1
    exact decide_eq_true high
  rwa [all] at path

theorem height_lastBelow (early : List Nat) {level : Nat}
    (below : level < maxLevel) : level < list.height (list.lastBelow early level) := by
  have member := List.getLastD_mem_cons (a := 0)
    (l := early.filter (level < list.height ·))
  rcases List.mem_cons.mp member with head | listed
  · unfold lastBelow
    rw [head, wired.top]
    exact below
  · exact of_decide_eq_true (List.mem_filter.mp listed).2

/-- On a level the links lead from the last early node to the late ones. -/
theorem path_lastBelow (split : chain = early ++ late) {level : Nat}
    (below : level < maxLevel) :
    Path (list.forward level) (list.lastBelow early level)
      (late.filter (level < list.height ·)) := by
  have path := wired.paths level below
  rw [split, List.filter_append] at path
  exact path.drop

/-- The same from any early node that is high enough. -/
theorem path_of_early (split : chain = early ++ late) {level start : Nat}
    (below : level < maxLevel) (high : level < list.height start)
    (member : start ∈ 0 :: early) :
    ∃ between, Path (list.forward level) start
        (between ++ late.filter (level < list.height ·)) ∧
      between.Sublist early ∧
      between.getLastD start = list.lastBelow early level := by
  have path := wired.paths level below
  rw [split, List.filter_append] at path
  rcases List.mem_cons.mp member with rfl | listed
  · exact ⟨_, path, List.filter_sublist, rfl⟩
  · have kept : start ∈ early.filter (level < list.height ·) :=
      List.mem_filter.mpr ⟨listed, decide_eq_true high⟩
    obtain ⟨front, between, apart⟩ := List.append_of_mem kept
    refine ⟨between, ?_, ?_, ?_⟩
    · rw [apart, ← List.concat_append, List.append_assoc] at path
      have rest := path.drop
      rwa [List.concat_eq_append, List.getLastD_concat] at rest
    · have inner : between.Sublist (early.filter (level < list.height ·)) := by
        rw [apart]
        exact (List.sublist_cons_self _ _).trans (List.sublist_append_right _ _)
      exact inner.trans List.filter_sublist
    · unfold lastBelow
      rw [apart, getLastD_append_cons]

end Wired

/-! ### Searching -/

section Searching

variable {before : α → α → Bool} {target : α}

/-- Whether a node comes before the target. -/
def passed (before : α → α → Bool) (target : α) (list : Linked α)
    (address : Nat) : Bool :=
  ((list.element address).map (before · target)).getD false

/-- A split of the bottom level at a target. -/
structure SplitAt (before : α → α → Bool) (target : α) (list : Linked α)
    (chain early late : List Nat) : Prop where
  split : chain = early ++ late
  present : ∀ address ∈ chain, (list.element address).isSome = true
  early : ∀ address ∈ early, passed before target list address = true
  late : ∀ address ∈ late, passed before target list address = false

theorem SplitAt.search (wired : Wired maxLevel list chain)
    (parts : SplitAt before target list chain early late) {level start : Nat}
    (below : level ≤ maxLevel) (member : start ∈ 0 :: early)
    (high : level ≤ list.height start) :
    list.search before target level start =
      some ((List.range level).map (list.lastBelow early),
        if level = 0 then start else list.lastBelow early 0) := by
  induction level generalizing start with
  | zero => rfl
  | succ level induction =>
      obtain ⟨between, path, inside, last⟩ :=
        wired.path_of_early parts.split below high member
      have whole : (between ++ late.filter (level < list.height ·)).Sublist
          chain := by
        rw [parts.split]
        exact inside.append List.filter_sublist
      have tested : ∀ address ∈ between ++ late.filter (level < list.height ·),
          (list.element address).map (before · target) =
            some (passed before target list address) := by
        intro address listed
        obtain ⟨element, found⟩ := Option.isSome_iff_exists.mp
          (parts.present address (whole.subset listed))
        simp [passed, found]
      have short := whole.length_le.trans_lt wired.size
      have taken : (between ++ late.filter (level < list.height ·)).takeWhile
          (passed before target list) = between := by
        rw [List.takeWhile_append_of_pos fun address listed =>
          parts.early address (inside.subset listed)]
        rw [List.takeWhile_eq_nil_iff.mpr, List.append_nil]
        intro nonempty
        have listed := (List.mem_filter.mp (List.getElem_mem nonempty)).1
        simp [parts.late _ listed]
      have stepped := advance_of_path path tested short
      rw [taken, last] at stepped
      have lastHigh : level < list.height (list.lastBelow early level) :=
        wired.height_lastBelow early below
      have rest := induction (Nat.le_of_succ_le below)
        (lastBelow_mem list early level) (Nat.le_of_lt lastHigh)
      simp only [Linked.search, stepped, rest, Option.bind_eq_bind,
        Option.bind_some, List.range_succ, List.map_append, List.map_cons,
        List.map_nil, Nat.add_one_ne_zero, if_false]
      split_ifs with lowest
      · rw [lowest]
      · rfl

theorem exists_splitAt
    (trans : ∀ first second third, before first second = true →
      before second third = true → before first third = true)
    {elements : List α} (shown : chain.map list.element = elements.map some)
    (ordered : elements.Pairwise (before · · = true)) (target : α) :
    ∃ early late, SplitAt before target list chain early late ∧
      early.map list.element = (elements.takeWhile (before · target)).map some ∧
      late.map list.element = (elements.dropWhile (before · target)).map some := by
  let test (element : Option α) : Bool := (element.map (before · target)).getD false
  have earlyShown : (chain.takeWhile (passed before target list)).map
      list.element = (elements.takeWhile (before · target)).map some := by
    have taken := List.takeWhile_map (f := list.element) (p := test) (l := chain)
    rw [shown, List.takeWhile_map] at taken
    exact taken.symm
  have lateShown : (chain.dropWhile (passed before target list)).map
      list.element = (elements.dropWhile (before · target)).map some := by
    have dropped := List.dropWhile_map (f := list.element) (p := test) (l := chain)
    rw [shown, List.dropWhile_map] at dropped
    exact dropped.symm
  refine ⟨_, _, ⟨?_, ?_, ?_, ?_⟩, earlyShown, lateShown⟩
  · exact List.takeWhile_append_dropWhile.symm
  · intro address member
    have listed : list.element address ∈ elements.map some :=
      shown ▸ List.mem_map_of_mem member
    obtain ⟨element, -, same⟩ := List.mem_map.mp listed
    rw [← same]
    rfl
  · intro address member
    exact List.mem_takeWhile_imp member
  · intro address member
    have listed : list.element address ∈
        (elements.dropWhile (before · target)).map some :=
      lateShown ▸ List.mem_map_of_mem member
    obtain ⟨element, late, same⟩ := List.mem_map.mp listed
    have after := OrderedChains.not_before_of_mem_dropWhile trans ordered late
    simp [passed, ← same, after]

end Searching

end Linked
end SkipLists
