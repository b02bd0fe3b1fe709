import MnemoKV.SkipListWiring

/-!
# Insertion and removal in a skip list

Both operations are computed in memory first, as equations for the fields of
every node afterwards; that the result is wired again is then a matter of the
chains of each level.
-/

namespace SkipLists

open LinkedChains

namespace Linked

variable {α : Type} {maxLevel : Nat} {list list' : Linked α}
  {chain early late : List Nat} {before same : α → α → Bool} {target : α}

namespace Wired

variable (wired : Wired maxLevel list chain)

include wired

theorem head_stored : 0 < list.nodes.length :=
  Nat.zero_lt_of_lt wired.size

theorem fresh : list.nodes.length ∉ 0 :: chain := by
  intro member
  rcases List.mem_cons.mp member with head | listed
  · exact absurd head (Nat.ne_of_gt wired.head_stored)
  · exact absurd (wired.stored _ listed) (lt_irrefl _)

theorem lastBelow_ne_fresh (split : chain = early ++ late) (level : Nat) :
    list.lastBelow early level ≠ list.nodes.length := by
  intro contrary
  refine wired.fresh (contrary ▸ ?_)
  have member := lastBelow_mem list early level
  rw [split]
  exact List.cons_subset_cons 0 (List.subset_append_left _ _) member

theorem lastBelow_above (split : chain = early ++ late) {level : Nat}
    (above : list.level ≤ level) : list.lastBelow early level = 0 := by
  have none : early.filter (level < list.height ·) = [] := by
    refine List.filter_eq_nil_iff.mpr fun address member => ?_
    have listed : address ∈ chain := split ▸ List.mem_append_left _ member
    have low := (wired.heights address listed).2
    simp only [decide_eq_true_eq]
    omega
  unfold lastBelow
  rw [none]
  rfl

theorem lastBelow_bottom (split : chain = early ++ late) :
    list.lastBelow early 0 = early.getLastD 0 := by
  have all : early.filter (0 < list.height ·) = early := by
    refine List.filter_eq_self.mpr fun address member => ?_
    have listed : address ∈ chain := split ▸ List.mem_append_left _ member
    exact decide_eq_true (wired.heights address listed).1
  unfold lastBelow
  rw [all]

theorem forward_bottom (split : chain = early ++ late) :
    list.forward 0 (early.getLastD 0) = some late.head? := by
  have path := wired.bottom
  rw [split] at path
  exact path.drop.head

/-- The predecessors on all levels, those above the list included. -/
theorem padded_update (split : chain = early ++ late) (height : Nat) :
    (List.range list.level).map (list.lastBelow early) ++
        List.replicate (height - list.level) 0 =
      (List.range (max list.level height)).map (list.lastBelow early) := by
  have total : max list.level height = list.level + (height - list.level) := by
    omega
  have above : List.replicate (height - list.level) 0 =
      (List.range (height - list.level)).map
        fun extra => list.lastBelow early (list.level + extra) := by
    refine (List.eq_replicate_iff.mpr ⟨by simp, ?_⟩).symm
    intro address member
    obtain ⟨extra, -, rfl⟩ := List.mem_map.mp member
    exact wired.lastBelow_above split (Nat.le_add_right _ _)
  rw [total, List.range_add, List.map_append, List.map_map, above]
  rfl

end Wired

/-! ### Insertion -/

/-- What a node points back to behind these nodes. -/
def previousOf (early : List Nat) : Option Nat :=
  if early.getLastD 0 = 0 then none else some (early.getLastD 0)

theorem previousOf_eq (headless : 0 ∉ early) :
    previousOf early = (early.map some).getLastD none := by
  induction early using List.reverseRecOn with
  | nil => rfl
  | append_singleton early last _ =>
      have apart : last ≠ 0 := by
        rintro rfl
        exact headless (List.mem_append_right _ List.mem_cons_self)
      unfold previousOf
      rw [List.map_append, List.map_singleton, List.getLastD_concat,
        List.getLastD_concat, if_neg apart]

/-- The level of the list is that of its highest node. -/
def Tight (list : Linked α) (chain : List Nat) : Prop :=
  list.level = 1 ∨ ∃ address ∈ chain, list.height address = list.level

/-- The memory after an insertion between two parts of the bottom level. -/
structure Inserted (list : Linked α) (early late : List Nat) (newElement : α)
    (newHeight : Nat) (list' : Linked α) : Prop where
  size : list'.nodes.length = list.nodes.length + 1
  element : ∀ address, list'.element address =
    if address = list.nodes.length then some newElement
    else list.element address
  height : ∀ address, list'.height address =
    if address = list.nodes.length then newHeight else list.height address
  linked : ∀ level address, level < newHeight → list'.forward level address =
    if address = list.lastBelow early level then some (some list.nodes.length)
    else if address = list.nodes.length then
      list.forward level (list.lastBelow early level)
    else list.forward level address
  above : ∀ level address, newHeight ≤ level → address ≠ list.nodes.length →
    list'.forward level address = list.forward level address
  backward : ∀ address, list'.backward address =
    if late.head? = some address then some (some list.nodes.length)
    else if address = list.nodes.length then some (previousOf early)
    else list.backward address
  level : list'.level = max list.level newHeight
  length : list'.length = list.length + 1

theorem allocate_fields (list : Linked α) (element : α) (height : Nat) :
    let raw := list.allocate element height
    (∀ address, raw.element address =
      if address = list.nodes.length then some element
      else list.element address) ∧
    (∀ address, raw.height address =
      if address = list.nodes.length then height else list.height address) ∧
    (∀ level address, address ≠ list.nodes.length →
      raw.forward level address = list.forward level address) ∧
    (∀ address, raw.backward address =
      if address = list.nodes.length then some none
      else list.backward address) := by
  have stored : ∀ address, (list.allocate element height).nodes[address]? =
      if address = list.nodes.length then
        some { element := element, backward := none
               forward := List.replicate height none }
      else list.nodes[address]? := by
    intro address
    unfold allocate
    by_cases own : address = list.nodes.length
    · simp [own]
    · rw [if_neg own]
      rcases Nat.lt_or_gt_of_ne own with earlier | later
      · rw [List.getElem?_append_left earlier]
      · rw [List.getElem?_eq_none (by simpa using Nat.succ_le_of_lt later),
          List.getElem?_eq_none (Nat.le_of_lt later)]
  refine ⟨fun address => ?_, fun address => ?_, fun level address other => ?_,
    fun address => ?_⟩
  · by_cases own : address = list.nodes.length
    · simp [Linked.element, stored, own]
    · simp [Linked.element, stored, own]
  · by_cases own : address = list.nodes.length
    · simp [Linked.height, stored, own]
    · simp [Linked.height, stored, own]
  · simp [Linked.forward, stored, other]
  · by_cases own : address = list.nodes.length
    · simp [Linked.backward, stored, own]
    · simp [Linked.backward, stored, own]

theorem insert_inserted (wired : Wired maxLevel list chain)
    (parts : SplitAt before target list chain early late) {height : Nat}
    (positive : 1 ≤ height) (bounded : height ≤ maxLevel) :
    ∃ list', list.insert before target height = some list' ∧
      Inserted list early late target height list' := by
  obtain ⟨lowest, highest⟩ := wired.levels
  have searched := parts.search wired highest List.mem_cons_self
    (wired.top ▸ highest)
  have padded := wired.padded_update parts.split height
  have taken : ((List.range (max list.level height)).map
      (list.lastBelow early)).take height =
        (List.range' 0 height).map (list.lastBelow early) := by
    rw [← List.map_take, List.take_range, List.range_eq_range',
      Nat.min_eq_left (Nat.le_max_right _ _)]
  have first : ((List.range (max list.level height)).map
      (list.lastBelow early)).head? = some (early.getLastD 0) := by
    obtain ⟨more, sum⟩ : ∃ more, max list.level height = more + 1 :=
      ⟨max list.level height - 1, by omega⟩
    rw [sum, List.range_succ_eq_map, List.map_cons, List.head?_cons,
      wired.lastBelow_bottom parts.split]
  -- The memory once the node is allocated, linked and pointed back.
  obtain ⟨rawElement, rawHeight, rawForward, rawBackward⟩ :=
    allocate_fields { list with level := max list.level height } target height
  obtain ⟨linkedList, linkedEq, relinked, links⟩ := link_relinks
    list.nodes.length (list.lastBelow early) height 0
    ({ list with level := max list.level height }.allocate target height) (by
      intro level _ below
      have apart := wired.lastBelow_ne_fresh parts.split level
      refine ⟨?_, ?_, apart⟩
      · rw [rawHeight, if_pos rfl]
        omega
      · rw [rawHeight, if_neg apart]
        exact wired.height_lastBelow early (by omega))
  have linkedSize : linkedList.nodes.length = list.nodes.length + 1 := by
    rw [relinked.size]
    simp [allocate]
  obtain ⟨backList, backEq, rebacked, backs⟩ := setBackward_rebacks
    (by rw [linkedSize]; exact Nat.lt_succ_self _) (previousOf early)
  have onward : backList.forward 0 list.nodes.length = some late.head? := by
    have apart := wired.lastBelow_ne_fresh parts.split 0
    rw [rebacked.forward, links, if_pos ⟨le_refl _, by omega⟩,
      if_neg (Ne.symm apart), if_pos rfl, rawForward _ _ apart,
      wired.lastBelow_bottom parts.split]
    exact wired.forward_bottom parts.split
  have nextStored : ∀ place, late.head? = some place →
      place < backList.nodes.length := by
    intro place next
    have listed : place ∈ chain := by
      rw [parts.split]
      exact List.mem_append_right _ (List.mem_of_mem_head? next)
    have stored := wired.stored place listed
    rw [rebacked.size, linkedSize]
    omega
  obtain ⟨lastList, lastEq, rebacked', backs'⟩ :=
    setBackwardOf_rebacks nextStored (some list.nodes.length)
  refine ⟨{ lastList with length := lastList.length + 1 }, ?_, ?_⟩
  · unfold Linked.insert
    simp only [searched, padded, taken, first, linkedEq, Option.bind_eq_bind,
      Option.bind_some]
    rw [show (if early.getLastD 0 = 0 then none else some (early.getLastD 0)) =
      previousOf early from rfl, backEq]
    simp only [onward, lastEq, Option.bind_some]
  · constructor
    · exact (rebacked'.size.trans rebacked.size).trans linkedSize
    · intro address
      exact (rebacked'.element address).trans ((rebacked.element address).trans
        ((relinked.element address).trans (rawElement address)))
    · intro address
      exact (rebacked'.height address).trans ((rebacked.height address).trans
        ((relinked.height address).trans (rawHeight address)))
    · intro level address below
      refine (rebacked'.forward level address).trans
        ((rebacked.forward level address).trans ?_)
      have apart := wired.lastBelow_ne_fresh parts.split level
      rw [links, if_pos ⟨Nat.zero_le _, by omega⟩, rawForward _ _ apart]
      split_ifs with atPrevious atNode
      · rfl
      · rfl
      · exact rawForward level address atNode
    · intro level address above other
      refine (rebacked'.forward level address).trans
        ((rebacked.forward level address).trans ?_)
      rw [links, if_neg (by omega)]
      exact rawForward level address other
    · intro address
      refine (backs' address).trans ?_
      rw [backs, relinked.backward, rawBackward]
      split_ifs <;> rfl
    · exact (rebacked'.level.trans rebacked.level).trans relinked.level
    · exact congrArg (· + 1)
        ((rebacked'.length.trans rebacked.length).trans relinked.length)

namespace Inserted

variable {element : α} {height : Nat}
  (inserted : Inserted list early late element height list')
  (old : Wired maxLevel list (early ++ late))

include inserted old

theorem height_of_mem {address : Nat} (member : address ∈ 0 :: (early ++ late)) :
    list'.height address = list.height address := by
  have apart : address ≠ list.nodes.length := fun same => old.fresh (same ▸ member)
  rw [inserted.height, if_neg apart]

/-- The old nodes of a level. -/
theorem filter_of_subset {part : List Nat} (inside : part ⊆ early ++ late) (level : Nat) :
    part.filter (level < list'.height ·) = part.filter (level < list.height ·) := by
  refine List.filter_congr fun address member => ?_
  rw [inserted.height_of_mem old (List.mem_cons_of_mem _ (inside member))]

theorem paths {level : Nat} (below : level < maxLevel) :
    Path (list'.forward level) 0
      ((early ++ list.nodes.length :: late).filter (level < list'.height ·)) := by
  have apart : ∀ address ∈ 0 :: (early ++ late), address ≠ list.nodes.length :=
    fun address member same => old.fresh (same ▸ member)
  have ownHeight : list'.height list.nodes.length = height := by
    rw [inserted.height, if_pos rfl]
  have path := old.paths level below
  rw [List.filter_append] at path
  rw [List.filter_append, List.filter_cons, ownHeight,
    inserted.filter_of_subset old (List.subset_append_left _ _),
    inserted.filter_of_subset old (List.subset_append_right _ _)]
  have sublist : (early.filter (level < list.height ·) ++
      late.filter (level < list.height ·)).Sublist (early ++ late) :=
    List.filter_sublist.append List.filter_sublist
  have inside := List.cons_subset_cons 0 sublist.subset
  by_cases high : level < height
  · rw [if_pos (decide_eq_true high)]
    refine path.insert (old.distinct.sublist (sublist.cons_cons 0)) ?_ ?_ ?_
    · exact (inserted.linked level _ high).trans (if_pos rfl)
    · have other := old.lastBelow_ne_fresh rfl level
      rw [inserted.linked level _ high, if_neg (Ne.symm other), if_pos rfl]
      rfl
    · intro address member different
      exact (inserted.linked level address high).trans
        ((if_neg different).trans (if_neg (apart address (inside member))))
  · rw [if_neg (by simpa using high)]
    refine path.congr fun address member => ?_
    exact inserted.above level address (Nat.le_of_not_lt high)
      (apart address (inside member))

theorem backs : list'.Backed none (early ++ list.nodes.length :: late) := by
  have old_backs := backed_append.mp old.backs
  obtain ⟨headAbsent, split⟩ := List.nodup_cons.mp old.distinct
  have headless : 0 ∉ early := fun member =>
    headAbsent (List.mem_append_left _ member)
  have apart : ∀ address ∈ early ++ late, address ≠ list.nodes.length :=
    fun address member same => old.fresh (same ▸ List.mem_cons_of_mem _ member)
  refine backed_append.mpr ⟨old_backs.1.congr fun address member => ?_, ?_, ?_⟩
  · have notNext : late.head? ≠ some address := by
      intro next
      exact (List.disjoint_of_nodup_append split) member (List.mem_of_mem_head? next)
    rw [inserted.backward, if_neg notNext,
      if_neg (apart address (List.mem_append_left _ member))]
  · have notNext : late.head? ≠ some list.nodes.length := by
      intro next
      exact apart _ (List.mem_append_right _ (List.mem_of_mem_head? next)) rfl
    rw [inserted.backward, if_neg notNext, if_pos rfl, previousOf_eq headless]
  · refine old_backs.2.repoint (List.nodup_append.mp split).2.1 fun address member => ?_
    rw [inserted.backward, if_neg (apart address (List.mem_append_right _ member))]

theorem wired (positive : 1 ≤ height) (bounded : height ≤ maxLevel) :
    Wired maxLevel list' (early ++ list.nodes.length :: late) := by
  have members : ∀ address, address ∈ early ++ list.nodes.length :: late ↔
      address = list.nodes.length ∨ address ∈ early ++ late := by
    intro address
    rw [List.perm_middle.mem_iff, List.mem_cons]
  constructor
  · have distinct : (list.nodes.length :: 0 :: (early ++ late)).Nodup :=
      List.nodup_cons.mpr ⟨old.fresh, old.distinct⟩
    have middle : (0 :: (early ++ list.nodes.length :: late)).Perm
        (list.nodes.length :: 0 :: (early ++ late)) :=
      (List.perm_middle.cons 0).trans (List.Perm.swap _ _ _)
    exact middle.nodup_iff.mpr distinct
  · intro address member
    rw [inserted.size]
    rcases (members address).mp member with rfl | listed
    · exact Nat.lt_succ_self _
    · exact Nat.lt_succ_of_lt (old.stored address listed)
  · rw [inserted.height_of_mem old List.mem_cons_self, old.top]
  · rw [inserted.level]
    have := old.levels
    omega
  · intro address member
    rw [inserted.level]
    rcases (members address).mp member with rfl | listed
    · rw [inserted.height, if_pos rfl]
      omega
    · rw [inserted.height_of_mem old (List.mem_cons_of_mem _ listed)]
      have := old.heights address listed
      omega
  · exact fun level => inserted.paths old
  · exact inserted.backs old
  · rw [inserted.length, old.counted]
    simp only [List.length_append, List.length_cons]
    omega

theorem tight (high : list.Tight (early ++ late)) :
    list'.Tight (early ++ list.nodes.length :: late) := by
  unfold Tight
  rw [inserted.level]
  rcases Nat.le_total list.level height with grown | kept
  · refine .inr ⟨list.nodes.length, by simp, ?_⟩
    rw [inserted.height, if_pos rfl, Nat.max_eq_right grown]
  · rw [Nat.max_eq_left kept]
    rcases high with flat | ⟨address, member, top⟩
    · exact .inl flat
    · refine .inr ⟨address, ?_, ?_⟩
      · exact List.perm_middle.mem_iff.mpr (List.mem_cons_of_mem _ member)
      · rw [inserted.height_of_mem old (List.mem_cons_of_mem _ member), top]

end Inserted

section

variable (trans : ∀ first second third, before first second = true →
    before second third = true → before first third = true) {elements : List α}

include trans

/-- Insertion succeeds at any height, between the nodes before and those after. -/
theorem insert_shown (wired : Wired maxLevel list chain)
    (shown : chain.map list.element = elements.map some)
    (ordered : elements.Pairwise (before · · = true)) (element : α) {height : Nat}
    (positive : 1 ≤ height) (bounded : height ≤ maxLevel) :
    ∃ early late list', chain = early ++ late ∧
      list.insert before element height = some list' ∧
      Inserted list early late element height list' ∧
      (early ++ list.nodes.length :: late).map list'.element =
        (OrderedChains.insert before element elements).map some := by
  obtain ⟨early, late, parts, earlyShown, lateShown⟩ :=
    exists_splitAt trans shown ordered element
  obtain ⟨list', computed, inserted⟩ :=
    insert_inserted wired parts positive bounded
  refine ⟨early, late, list', parts.split, computed, inserted, ?_⟩
  have kept : ∀ part ⊆ chain, part.map list'.element = part.map list.element := by
    intro part inside
    refine List.map_congr_left fun address member => ?_
    have apart : address ≠ list.nodes.length := fun same =>
      wired.fresh (same ▸ List.mem_cons_of_mem _ (inside member))
    rw [inserted.element, if_neg apart]
  have own : list'.element list.nodes.length = some element := by
    rw [inserted.element, if_pos rfl]
  rw [parts.split] at kept
  rw [List.map_append, List.map_cons, kept early (List.subset_append_left _ _),
    kept late (List.subset_append_right _ _), own, earlyShown, lateShown,
    OrderedChains.insert, List.map_append, List.map_cons]

theorem insert_holds (holds : Holds maxLevel list elements)
    (ordered : elements.Pairwise (before · · = true)) (element : α) {height : Nat}
    (positive : 1 ≤ height) (bounded : height ≤ maxLevel) :
    ∃ list', list.insert before element height = some list' ∧
      Holds maxLevel list' (OrderedChains.insert before element elements) := by
  obtain ⟨chain, wired, shown⟩ := holds
  obtain ⟨early, late, list', rfl, computed, inserted, shown'⟩ :=
    insert_shown trans wired shown ordered element positive bounded
  exact ⟨list', computed, _, inserted.wired wired positive bounded, shown'⟩

end

/-! ### Removal -/

/-- On a level, the predecessors of a node lead to it if it is high enough. -/
theorem Wired.leads_iff {node : Nat} {rest : List Nat}
    (wired : Wired maxLevel list (early ++ node :: rest)) {level : Nat}
    (below : level < maxLevel) :
    list.forward level (list.lastBelow early level) = some (some node) ↔
      level < list.height node := by
  have path := (wired.path_lastBelow rfl below).head
  rw [path, Option.some.injEq, List.filter_cons]
  by_cases high : level < list.height node
  · simp [high]
  · have absent : node ∉ rest := by
      have distinct := (List.nodup_cons.mp wired.distinct).2
      exact (List.nodup_cons.mp (List.nodup_append.mp distinct).2.1).1
    rw [if_neg (by simpa using high)]
    refine ⟨fun first => ?_, fun contrary => absurd contrary high⟩
    have listed := List.mem_of_mem_head? first
    exact absurd (List.mem_filter.mp listed).1 absent

theorem Wired.paths_unlinked {node : Nat} {rest : List Nat}
    (wired : Wired maxLevel list (early ++ node :: rest))
    (links : ∀ level address, list'.forward level address =
      if level < list.height node ∧ address = list.lastBelow early level then
        list.forward level node
      else list.forward level address)
    {level : Nat} (below : level < maxLevel) :
    Path (list'.forward level) 0
      ((early ++ rest).filter (level < list.height ·)) := by
  have path := wired.paths level below
  rw [List.filter_append, List.filter_cons] at path
  rw [List.filter_append]
  by_cases high : level < list.height node
  · rw [if_pos (decide_eq_true high)] at path
    have sublist : (early.filter (level < list.height ·) ++
        node :: rest.filter (level < list.height ·)).Sublist
          (early ++ node :: rest) :=
      List.filter_sublist.append (List.filter_sublist.cons_cons node)
    refine path.remove (wired.distinct.sublist (sublist.cons_cons 0)) ?_ ?_
    · exact (links level _).trans (if_pos ⟨high, rfl⟩)
    · intro address _ different
      exact (links level address).trans (if_neg fun both => different both.2)
  · rw [if_neg (by simpa using high)] at path
    refine path.congr fun address _ => ?_
    exact (links level address).trans (if_neg fun both => high both.1)

theorem lowerLevel_bounds
    (paths : ∀ level < maxLevel,
      Path (list.forward level) 0 (chain.filter (level < list.height ·)))
    {level : Nat} (positive : 1 ≤ level) (bounded : level ≤ maxLevel)
    (heights : ∀ address ∈ chain, list.height address ≤ level) :
    ∃ lowered, list.lowerLevel level = some lowered ∧
      1 ≤ lowered ∧ lowered ≤ level ∧
      (∀ address ∈ chain, list.height address ≤ lowered) ∧
      (lowered = 1 ∨ ∃ address ∈ chain, list.height address = lowered) := by
  induction level with
  | zero => omega
  | succ level induction =>
      cases level with
      | zero => exact ⟨1, rfl, le_refl _, le_refl _, heights, .inl rfl⟩
      | succ level =>
          have first := (paths (level + 1) bounded).head
          simp only [lowerLevel, first, Option.bind_eq_bind, Option.bind_some]
          by_cases empty : (chain.filter (level + 1 < list.height ·)).head? = none
          · rw [if_pos empty]
            have low : ∀ address ∈ chain, list.height address ≤ level + 1 := by
              intro address member
              have none := List.filter_eq_nil_iff.mp (List.head?_eq_none_iff.mp empty)
                address member
              simpa using none
            obtain ⟨lowered, found, positive, bounded, heights⟩ :=
              induction (by omega) (by omega) low
            exact ⟨lowered, found, positive, by omega, heights⟩
          · rw [if_neg empty]
            obtain ⟨address, top⟩ := Option.ne_none_iff_exists'.mp empty
            obtain ⟨member, high⟩ := List.mem_filter.mp (List.mem_of_mem_head? top)
            have exactly : list.height address = level + 2 :=
              le_antisymm (heights address member) (of_decide_eq_true high)
            exact ⟨level + 2, rfl, by omega, le_refl _, heights,
              .inr ⟨address, member, exactly⟩⟩

/-- The memory after a node is removed from the bottom level. -/
structure Removed (list : Linked α) (early : List Nat) (node : Nat) (rest : List Nat)
    (list' : Linked α) : Prop where
  size : list'.nodes.length = list.nodes.length
  element : ∀ address, list'.element address = list.element address
  height : ∀ address, list'.height address = list.height address
  forward : ∀ level address, list'.forward level address =
    if level < list.height node ∧ address = list.lastBelow early level then
      list.forward level node
    else list.forward level address
  backward : ∀ address, list'.backward address =
    if rest.head? = some address then some ((early.map some).getLastD none)
    else list.backward address
  levels : 1 ≤ list'.level ∧ list'.level ≤ list.level
  low : ∀ address ∈ early ++ rest, list.height address ≤ list'.level
  length : list'.length = list.length - 1

/-- Removal of the first node that does not come before the target. -/
theorem delete_removed {node : Nat} {rest : List Nat} {element : α}
    (wired : Wired maxLevel list (early ++ node :: rest))
    (parts : SplitAt before target list (early ++ node :: rest) early (node :: rest))
    (found : list.element node = some element)
    (matching : same element target = true) :
    ∃ list', list.delete before same target = some (true, list') ∧
      Removed list early node rest list' ∧ list'.Tight (early ++ rest) := by
  obtain ⟨lowest, highest⟩ := wired.levels
  have searched := parts.search wired highest List.mem_cons_self
    (wired.top ▸ highest)
  have finish := wired.lastBelow_bottom rfl
  have first := wired.forward_bottom rfl
  obtain ⟨absentHead, distinct⟩ := List.nodup_cons.mp wired.distinct
  have nodeListed : node ∈ early ++ node :: rest :=
    List.mem_append_right _ List.mem_cons_self
  have apart : ∀ level, list.lastBelow early level ≠ node := by
    intro level contrary
    have member := lastBelow_mem list early level
    rw [contrary] at member
    rcases List.mem_cons.mp member with rfl | listed
    · exact absentHead nodeListed
    · exact List.disjoint_of_nodup_append distinct listed List.mem_cons_self
  -- The memory once the node is passed over and its successor is pointed back.
  obtain ⟨unlinked, unlinkedEq, relinked, links⟩ := unlink_relinks node
    (list.lastBelow early) list.level 0 list (by
      intro level _ below
      exact ⟨wired.height_lastBelow early (by omega), apart level,
        wired.leads_iff (by omega)⟩)
  have links : ∀ level address, unlinked.forward level address =
      if level < list.height node ∧ address = list.lastBelow early level then
        list.forward level node
      else list.forward level address := by
    intro level address
    have bound := (wired.heights node nodeListed).2
    rw [links]
    by_cases passed : level < list.height node ∧
        address = list.lastBelow early level
    · rw [if_pos passed, if_pos ⟨Nat.zero_le _, by omega, passed⟩]
    · rw [if_neg passed, if_neg fun all => passed all.2.2]
  have onward : unlinked.forward 0 node = some rest.head? := by
    rw [links, if_neg fun both => apart 0 both.2.symm]
    exact wired.bottom.drop.2.head
  have previous : unlinked.backward node =
      some ((early.map some).getLastD none) := by
    rw [relinked.backward, (backed_append.mp wired.backs).2.1]
  have restStored : ∀ place, rest.head? = some place →
      place < unlinked.nodes.length := by
    intro place next
    rw [relinked.size]
    exact wired.stored place (List.mem_append_right _
      (List.mem_cons_of_mem _ (List.mem_of_mem_head? next)))
  obtain ⟨pointed, pointedEq, rebacked, backs⟩ :=
    setBackwardOf_rebacks restStored ((early.map some).getLastD none)
  have height : ∀ address, pointed.height address = list.height address :=
    fun address => (rebacked.height address).trans (relinked.height address)
  have forward : ∀ level address, pointed.forward level address =
      if level < list.height node ∧ address = list.lastBelow early level then
        list.forward level node
      else list.forward level address :=
    fun level address => (rebacked.forward level address).trans (links level address)
  have paths : ∀ level < maxLevel, Path (pointed.forward level) 0
      ((early ++ rest).filter (level < pointed.height ·)) := by
    intro level below
    simp only [height]
    exact wired.paths_unlinked forward below
  have level : pointed.level = list.level := rebacked.level.trans relinked.level
  obtain ⟨lowered, loweredEq, positive, bounded, low, tight⟩ := lowerLevel_bounds paths
    (level ▸ lowest) (level ▸ highest) (by
      intro address member
      rw [height, level]
      exact (wired.heights address
        ((List.sublist_cons_self node rest).append_left early |>.subset member)).2)
  refine ⟨{ pointed with level := lowered, length := pointed.length - 1 }, ?_, ?_, tight⟩
  · have notZero : list.level ≠ 0 := by omega
    unfold Linked.delete
    rw [List.range_eq_range', if_neg notZero, finish] at searched
    simp only [searched, first, found, matching, unlinkedEq, onward, previous,
      pointedEq, loweredEq, List.head?_cons, Option.bind_eq_bind,
      Option.bind_some, if_true]
  · exact
      { size := rebacked.size.trans relinked.size
        element := fun address =>
          (rebacked.element address).trans (relinked.element address)
        height := height
        forward := forward
        backward := fun address =>
          (backs address).trans (by rw [relinked.backward])
        levels := ⟨positive, level ▸ bounded⟩
        low := fun address member => (height address) ▸ low address member
        length := congrArg (· - 1) (rebacked.length.trans relinked.length) }

theorem Removed.wired {node : Nat} {rest : List Nat}
    (removed : Removed list early node rest list')
    (old : Wired maxLevel list (early ++ node :: rest)) :
    Wired maxLevel list' (early ++ rest) := by
  have sublist : (early ++ rest).Sublist (early ++ node :: rest) :=
    (List.sublist_cons_self node rest).append_left early
  obtain ⟨-, distinct⟩ := List.nodup_cons.mp old.distinct
  constructor
  · exact old.distinct.sublist (sublist.cons_cons 0)
  · intro address member
    rw [removed.size]
    exact old.stored address (sublist.subset member)
  · exact (removed.height 0).trans old.top
  · exact ⟨removed.levels.1, removed.levels.2.trans old.levels.2⟩
  · intro address member
    rw [removed.height]
    exact ⟨(old.heights address (sublist.subset member)).1, removed.low address member⟩
  · intro level below
    simp only [removed.height]
    exact old.paths_unlinked removed.forward below
  · obtain ⟨earlyBacks, -, restBacks⟩ := backed_append.mp old.backs
    refine backed_append.mpr ⟨earlyBacks.congr fun address member => ?_, ?_⟩
    · have notNext : rest.head? ≠ some address := by
        intro next
        exact List.disjoint_of_nodup_append distinct member
          (List.mem_cons_of_mem _ (List.mem_of_mem_head? next))
      rw [removed.backward, if_neg notNext]
    · have restDistinct := (List.nodup_cons.mp (List.nodup_append.mp distinct).2.1).2
      exact restBacks.repoint restDistinct fun address _ => removed.backward address
  · rw [removed.length, old.counted]
    simp only [List.length_append, List.length_cons]
    omega

/-- A removal that finds something else, or nothing, changes nothing. -/
theorem delete_misses (wired : Wired maxLevel list chain)
    (parts : SplitAt before target list chain early late)
    (other : ∀ node element, late.head? = some node →
      list.element node = some element → same element target = false) :
    list.delete before same target = some (false, list) := by
  obtain ⟨lowest, highest⟩ := wired.levels
  have searched := parts.search wired highest List.mem_cons_self
    (wired.top ▸ highest)
  have notZero : list.level ≠ 0 := by omega
  rw [if_neg notZero, wired.lastBelow_bottom parts.split] at searched
  have first := wired.forward_bottom parts.split
  unfold Linked.delete
  simp only [searched, first, Option.bind_eq_bind, Option.bind_some]
  cases next : late.head? with
  | none => rfl
  | some node =>
      have listed : node ∈ chain := by
        rw [parts.split]
        exact List.mem_append_right _ (List.mem_of_mem_head? next)
      obtain ⟨element, found⟩ :=
        Option.isSome_iff_exists.mp (parts.present node listed)
      simp only [found, other node element next found, Option.bind_some]
      rfl

section

variable (same) (trans : ∀ first second third, before first second = true →
    before second third = true → before first third = true) {elements : List α}

include trans

/-- Removal succeeds: it misses, or it passes over the node of the target. -/
theorem delete_shown (wired : Wired maxLevel list chain)
    (shown : chain.map list.element = elements.map some)
    (ordered : elements.Pairwise (before · · = true)) (target : α) :
    (OrderedChains.delete before same target elements = (false, elements) ∧
      list.delete before same target = some (false, list)) ∨
    ∃ early node rest element kept list', chain = early ++ node :: rest ∧
      list.element node = some element ∧ same element target = true ∧
      OrderedChains.delete before same target elements = (true, kept) ∧
      list.delete before same target = some (true, list') ∧
      Removed list early node rest list' ∧ list'.Tight (early ++ rest) ∧
      (early ++ rest).map list'.element = kept.map some := by
  obtain ⟨early, late, parts, earlyShown, lateShown⟩ :=
    exists_splitAt trans shown ordered target
  unfold OrderedChains.delete
  cases dropped : elements.dropWhile (before · target) with
  | nil =>
      rw [dropped] at lateShown
      obtain rfl := List.map_eq_nil_iff.mp lateShown
      exact .inl ⟨rfl, delete_misses wired parts fun _ _ next => by cases next⟩
  | cons element others =>
      rw [dropped, List.map_cons] at lateShown
      obtain ⟨node, rest, rfl, found, restShown⟩ := List.map_eq_cons_iff.mp lateShown
      dsimp only
      by_cases matching : same element target = true
      · obtain rfl := parts.split
        obtain ⟨list', deleted, removed, tight⟩ :=
          delete_removed wired parts found matching
        have keptAll : list'.element = list.element := funext removed.element
        refine .inr ⟨early, node, rest, element, _, list', rfl, found, matching,
          if_pos matching, deleted, removed, tight, ?_⟩
        rw [keptAll, List.map_append, List.map_append, earlyShown, restShown]
      · refine .inl ⟨if_neg matching, delete_misses wired parts ?_⟩
        intro first other next present
        obtain rfl := Option.some.inj next
        obtain rfl := Option.some.inj (found.symm.trans present)
        exact Bool.eq_false_iff.mpr matching

theorem delete_holds (holds : Holds maxLevel list elements)
    (ordered : elements.Pairwise (before · · = true)) (target : α) :
    ∃ list', list.delete before same target =
        some ((OrderedChains.delete before same target elements).1, list') ∧
      Holds maxLevel list' (OrderedChains.delete before same target elements).2 := by
  obtain ⟨chain, wired, shown⟩ := holds
  rcases delete_shown same trans wired shown ordered target with
    ⟨missed, computed⟩ |
      ⟨early, node, rest, _, kept, list', rfl, -, -, hit, computed, removed, -, shown'⟩
  · rw [missed]
    exact ⟨list, computed, chain, wired, shown⟩
  · rw [hit]
    exact ⟨list', computed, _, removed.wired wired, shown'⟩

end

/-! ### Reading along the bottom level -/

theorem collect_of_path {start : Nat} {addresses : List Nat} {elements : List α}
    (path : Path (list.forward 0) start addresses)
    (shown : (start :: addresses).map list.element = elements.map some)
    (count : Nat) :
    list.collect count (some start) = some (elements.take count) := by
  induction count generalizing start addresses elements with
  | zero => rfl
  | succ count induction =>
      obtain ⟨element, rest, rfl, found, restShown⟩ :=
        List.map_eq_cons_iff.mp shown.symm
      simp only [collect, ← found, path.head, Option.bind_eq_bind,
        Option.bind_some, List.take_succ_cons]
      cases addresses with
      | nil =>
          obtain rfl := List.map_eq_nil_iff.mp restShown
          cases count <;> rfl
      | cons next addresses =>
          rw [List.head?_cons, induction path.2 restShown.symm]
          rfl

/-- From some index on, a number of elements. -/
theorem Holds.collect {elements : List α} (holds : Holds maxLevel list elements)
    {start : Nat} (inside : start < elements.length) (count : Nat) :
    ∃ address, walk (list.forward 0) (start + 1) 0 = some (some address) ∧
      list.collect count (some address) = some ((elements.drop start).take count) := by
  obtain ⟨chain, wired, shown⟩ := holds
  have length : chain.length = elements.length := by
    have := congrArg List.length shown
    simpa using this
  have within : start < chain.length := length ▸ inside
  have split : chain = chain.take start ++ chain[start] :: chain.drop (start + 1) := by
    rw [← List.drop_eq_getElem_cons within, List.take_append_drop]
  refine ⟨chain[start], ?_, ?_⟩
  · rw [walk_of_path wired.bottom, List.getElem?_cons_succ,
      List.getElem?_eq_getElem within]
  · have path := wired.bottom
    rw [split] at path
    refine collect_of_path path.drop.2 ?_ count
    rw [← List.drop_eq_getElem_cons within, List.map_drop, shown, ← List.map_drop]

theorem Holds.length {elements : List α} (holds : Holds maxLevel list elements) :
    list.length = elements.length := by
  obtain ⟨chain, wired, shown⟩ := holds
  have length := congrArg List.length shown
  rw [List.length_map, List.length_map] at length
  rw [wired.counted, length]

end Linked
end SkipLists
