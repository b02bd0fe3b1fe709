import Mathlib.Algebra.Order.BigOperators.Group.List
import Mathlib.Algebra.Order.Ring.Int
import Mathlib.Data.List.ProdSigma
import Mathlib.Tactic.Ring

/-!
# Moving load from one node to another

Loads are integers.  A move of one unit from a node with more to a node with less stays
within the range of the loads, and if the difference was at least two, it lowers the sum
of their squares.
-/

namespace LoadBalancing

variable {Node : Type*} [DecidableEq Node]

def change (loads : Node → Int) (node : Node) (amount : Int) : Node → Int :=
  Function.update loads node (loads node + amount)

/-- One unit goes from a node to another. -/
def move (loads : Node → Int) (source target : Node) : Node → Int :=
  change (change loads source (-1)) target 1

/-- The sum of the squared loads, which every move to a lighter node lowers. -/
def squares (nodes : List Node) (loads : Node → Int) : Int :=
  (nodes.map fun node => loads node ^ 2).sum

/-- The largest difference between two nodes. -/
def gap (nodes : List Node) (loads : Node → Int) : Int :=
  ((nodes.product nodes).map fun pair => loads pair.1 - loads pair.2).foldr max 0

/-- How often each node is named. -/
def tally (names : List Node) : Node → Int := fun node => names.count node

variable {nodes : List Node} {loads : Node → Int} {source target : Node}

theorem move_apply (loads : Node → Int) (source target node : Node) :
    move loads source target node =
      loads node + (if target = node then 1 else 0) - (if source = node then 1 else 0) := by
  unfold move change
  by_cases atTarget : target = node
  · subst atTarget
    rw [Function.update_self, if_pos rfl]
    by_cases atSource : source = target
    · rw [atSource, Function.update_self, if_pos rfl]
      omega
    · rw [Function.update_of_ne (Ne.symm atSource), if_neg atSource]
      omega
  · rw [Function.update_of_ne (Ne.symm atTarget), if_neg atTarget]
    by_cases atSource : source = node
    · rw [atSource, Function.update_self, if_pos rfl]
      omega
    · rw [Function.update_of_ne (Ne.symm atSource), if_neg atSource]
      omega

theorem move_self (loads : Node → Int) (node : Node) : move loads node node = loads := by
  funext other
  rw [move_apply, Int.add_sub_cancel]

omit [DecidableEq Node] in
theorem squares_nonneg (nodes : List Node) (loads : Node → Int) : 0 ≤ squares nodes loads := by
  refine List.sum_nonneg fun square member => ?_
  obtain ⟨node, -, rfl⟩ := List.mem_map.mp member
  exact sq_nonneg _

omit [DecidableEq Node] in
theorem squares_congr {loads' : Node → Int}
    (same : ∀ node ∈ nodes, loads' node = loads node) :
    squares nodes loads' = squares nodes loads := by
  unfold squares
  rw [List.map_congr_left fun node member => by rw [same node member]]

theorem squares_change (distinct : nodes.Nodup) {node : Node} (member : node ∈ nodes)
    (loads : Node → Int) (amount : Int) :
    squares nodes (change loads node amount) =
      squares nodes loads + 2 * amount * loads node + amount ^ 2 := by
  induction nodes with
  | nil => cases member
  | cons first rest induction =>
      obtain ⟨absent, distinct⟩ := List.nodup_cons.mp distinct
      have split : ∀ loads : Node → Int,
          squares (first :: rest) loads = loads first ^ 2 + squares rest loads :=
        fun loads => List.sum_cons
      rw [split, split]
      rcases List.mem_cons.mp member with rfl | later
      · have others : squares rest (change loads node amount) = squares rest loads := by
          refine squares_congr fun other listed => Function.update_of_ne ?_ _ _
          rintro rfl
          exact absent listed
        rw [others, change, Function.update_self]
        ring
      · have apart : first ≠ node := fun same => absent (same ▸ later)
        rw [induction distinct later, change, Function.update_of_ne apart]
        ring

/-- A move between loads that differ by two or more. -/
theorem squares_move_lt (distinct : nodes.Nodup) (fromNode : source ∈ nodes)
    (toNode : target ∈ nodes) (uneven : 2 ≤ loads source - loads target) :
    squares nodes (move loads source target) < squares nodes loads := by
  have apart : target ≠ source := by
    rintro rfl
    omega
  rw [move, squares_change distinct toNode, squares_change distinct fromNode]
  have kept : change loads source (-1) target = loads target :=
    Function.update_of_ne apart _ _
  rw [kept]
  omega

omit [DecidableEq Node] in
theorem le_gap {first second : Node} (member : first ∈ nodes) (member' : second ∈ nodes)
    (loads : Node → Int) : loads first - loads second ≤ gap nodes loads := by
  have listed : loads first - loads second ∈
      (nodes.product nodes).map fun pair => loads pair.1 - loads pair.2 :=
    List.mem_map.mpr ⟨(first, second), List.mem_product.mpr ⟨member, member'⟩, rfl⟩
  unfold gap
  generalize (nodes.product nodes).map (fun pair => loads pair.1 - loads pair.2) =
    differences at *
  induction differences with
  | nil => cases listed
  | cons difference rest induction =>
      rcases List.mem_cons.mp listed with rfl | later
      · exact le_max_left _ _
      · exact (induction later).trans (le_max_right _ _)

omit [DecidableEq Node] in
theorem gap_le {bound : Int} (positive : 0 ≤ bound)
    (within : ∀ first ∈ nodes, ∀ second ∈ nodes, loads first - loads second ≤ bound) :
    gap nodes loads ≤ bound := by
  have bounded : ∀ difference ∈
      (nodes.product nodes).map fun pair => loads pair.1 - loads pair.2,
      difference ≤ bound := by
    intro difference listed
    obtain ⟨pair, member, rfl⟩ := List.mem_map.mp listed
    obtain ⟨first, second⟩ := List.mem_product.mp member
    exact within pair.1 first pair.2 second
  unfold gap
  generalize (nodes.product nodes).map (fun pair => loads pair.1 - loads pair.2) =
    differences at *
  induction differences with
  | nil => exact positive
  | cons difference rest induction =>
      obtain ⟨own, others⟩ := List.forall_mem_cons.mp bounded
      exact max_le own (induction others)

/-- A move from a larger to a smaller load does not widen the range. -/
theorem gap_move_le (fromNode : source ∈ nodes) (toNode : target ∈ nodes)
    (largest : ∀ node ∈ nodes, loads node ≤ loads source)
    (least : ∀ node ∈ nodes, loads target ≤ loads node)
    (uneven : loads target < loads source) :
    gap nodes (move loads source target) ≤ gap nodes loads := by
  have whole := le_gap fromNode toNode loads
  refine gap_le (by omega) fun first firstMember second secondMember => ?_
  have firstBound := largest first firstMember
  have secondBound := least second secondMember
  rw [move_apply, move_apply]
  split_ifs <;> subst_vars <;> omega

/-! ### Tallies -/

theorem tally_set {names : List Node} {index : Nat} {old : Node}
    (found : names[index]? = some old) (new : Node) :
    tally (names.set index new) = move (tally names) old new := by
  obtain ⟨inside, same⟩ := List.getElem?_eq_some_iff.mp found
  have counted : 0 < names.count old := List.count_pos_iff.mpr (same ▸ List.getElem_mem inside)
  funext node
  rw [move_apply, tally, tally, List.count_set inside, same]
  simp only [beq_iff_eq]
  by_cases atOld : old = node
  · subst atOld
    rw [if_pos rfl, if_pos rfl]
    split_ifs <;> omega
  · rw [if_neg atOld, if_neg atOld]
    split_ifs <;> omega

theorem tally_perm {names names' : List Node} (same : names.Perm names') :
    tally names = tally names' := by
  funext node
  rw [tally, tally, same.count_eq]

end LoadBalancing
