import MnemoKV.ByteStrings
import MnemoKV.OrderedChains
import Mathlib.Data.List.Sort
import Mathlib.Algebra.Order.Ring.Int

/-!
# Sorted sets

Scores are the bit patterns of 64-bit floats with the IEEE order; reading and
printing their decimal text is left to an arbitrary `FloatText`.  A sorted set
is its index together with the bottom chain of its skip list, which is all that
callers observe of the list.  The chain is ordered and holds exactly the indexed
members, so a set is determined by its chain.
-/

namespace MnemoKV

/-- The decimal conversions `strconv.ParseFloat` and `strconv.FormatFloat`
between texts and float bits. -/
class FloatText where
  parseFloat : Bytes → Option UInt64
  formatFloat : UInt64 → Bytes

/-- The conversion that takes no text for a number, for runs without scores. -/
@[reducible]
def FloatText.rejecting : FloatText :=
  { parseFloat := fun _ => none, formatFloat := fun _ => [] }

namespace Score

def magnitude (bits : UInt64) : Nat := bits.toNat % 2 ^ 63

def isNaN (bits : UInt64) : Bool :=
  decide (2047 * 2 ^ 52 < magnitude bits)

/-- Position of a float on the number line; both zeros share one. -/
def position (bits : UInt64) : Int :=
  if bits.toNat < 2 ^ 63 then magnitude bits else -(magnitude bits : Int)

/-- The order of Go, which holds for no NaN. -/
def less (first second : UInt64) : Bool :=
  !isNaN first && !isNaN second && decide (position first < position second)

def same (first second : UInt64) : Bool :=
  !isNaN first && !isNaN second && decide (position first = position second)

def infinity : UInt64 := 0x7FF0000000000000

def negativeInfinity : UInt64 := 0xFFF0000000000000

/-- `formatFloat64`. -/
def format [FloatText] (bits : UInt64) : Bytes :=
  if same bits 0 then Bytes.ascii "0"
  else if bits = infinity then Bytes.ascii "inf"
  else if bits = negativeInfinity then Bytes.ascii "-inf"
  else FloatText.formatFloat bits

end Score

/-- A float that is not NaN, as every caller of `ZSetValue.Add` makes sure. -/
abbrev Number := { bits : UInt64 // Score.isNaN bits = false }

namespace Number

theorem less_iff (first second : Number) :
    Score.less first.val second.val = true ↔
      Score.position first.val < Score.position second.val := by
  simp [Score.less, first.property, second.property]

theorem same_iff (first second : Number) :
    Score.same first.val second.val = true ↔
      Score.position first.val = Score.position second.val := by
  simp [Score.same, first.property, second.property]

end Number

/-- A member with its score. -/
structure ZSetMember where
  member : Bytes
  score : Number
  deriving DecidableEq

/-- The elements of a skip list, from the first to the last. -/
abbrev SkipList := List ZSetMember

namespace SkipList

/-- The order of the chain, which the search loops follow. -/
def before (first second : ZSetMember) : Bool :=
  Score.less first.score.val second.score.val ||
    (Score.same first.score.val second.score.val &&
      compare first.member second.member == .lt)

def insert (score : Number) (member : Bytes) (nodes : SkipList) : SkipList :=
  OrderedChains.insert before { member := member, score := score } nodes

def delete (score : Number) (member : Bytes) (nodes : SkipList) : SkipList :=
  let target : ZSetMember := { member := member, score := score }
  match nodes.dropWhile (before · target) with
  | [] => nodes
  | node :: rest =>
      if Score.same node.score.val score.val && node.member == member then
        nodes.takeWhile (before · target) ++ rest
      else nodes

def range (start stop : Int) (nodes : SkipList) : List ZSetMember :=
  let length : Int := nodes.length
  let start := if start < 0 then start + length else start
  let stop := if stop < 0 then stop + length else stop
  let start := if start < 0 then 0 else start
  let stop := if stop ≥ length then length - 1 else stop
  if start > stop then []
  else (nodes.drop start.toNat).take (stop - start + 1).toNat

theorem range_all (nodes : SkipList) : nodes.range 0 (-1) = nodes := by
  cases nodes with
  | nil => rfl
  | cons head tail =>
      have length : ((head :: tail).length : Int) = tail.length + 1 := by simp
      simp only [range, length]
      have start : ¬ ((0 : Int) < 0) := by omega
      have negative : (-1 : Int) < 0 := by omega
      have inside : ¬ (-1 + ((tail.length : Int) + 1) ≥ (tail.length : Int) + 1) := by
        omega
      have nonempty : ¬ ((0 : Int) > -1 + ((tail.length : Int) + 1)) := by omega
      simp only [if_neg start, if_pos negative, if_neg inside, if_neg nonempty]
      have count : (-1 + ((tail.length : Int) + 1) - 0 + 1).toNat =
          (head :: tail).length := by
        rw [List.length_cons]
        omega
      rw [count]
      simp

theorem before_iff (first second : ZSetMember) :
    before first second = true ↔
      Score.position first.score.val < Score.position second.score.val ∨
        Score.position first.score.val = Score.position second.score.val ∧
          compare first.member second.member = .lt := by
  simp [before, Number.less_iff, Number.same_iff]

theorem before_trans (first second third : ZSetMember)
    (earlier : before first second = true) (later : before second third = true) :
    before first third = true := by
  rw [before_iff] at *
  rcases earlier with less | ⟨same, less⟩
  · rcases later with less' | ⟨same', -⟩
    · exact .inl (less.trans less')
    · exact .inl (same' ▸ less)
  · rcases later with less' | ⟨same', less'⟩
    · exact .inl (same ▸ less')
    · exact .inr ⟨same.trans same', Std.TransCmp.lt_trans less less'⟩

theorem before_asymm (first second : ZSetMember)
    (earlier : before first second = true) : before second first = false := by
  rw [Bool.eq_false_iff]
  intro contrary
  have reflexive := before_trans first second first earlier contrary
  rw [before_iff] at reflexive
  rcases reflexive with less | ⟨-, less⟩
  · exact absurd less (lt_irrefl _)
  · have equal : compare first.member first.member = .eq :=
      Std.ReflCmp.compare_self
    rw [equal] at less
    cases less

/-- Nodes that differ are comparable. -/
theorem before_or_before {first second : ZSetMember}
    (distinct : Score.position first.score.val = Score.position second.score.val →
      first.member ≠ second.member) :
    before first second = true ∨ before second first = true := by
  simp only [before_iff]
  rcases lt_trichotomy (Score.position first.score.val)
    (Score.position second.score.val) with less | same | greater
  · exact .inl (.inl less)
  · cases order : compare first.member second.member with
    | lt => exact .inl (.inr ⟨same, rfl⟩)
    | eq => exact absurd (Std.LawfulEqCmp.eq_of_compare order) (distinct same)
    | gt => exact .inr (.inr ⟨same.symm, Std.OrientedCmp.lt_of_gt order⟩)
  · exact .inr (.inl greater)

end SkipList

/-- A sorted set, whose index and ordered list have the same members. -/
structure ZSetValue where
  index : Std.ExtTreeMap Bytes Number compare
  list : SkipList
  ordered : list.Pairwise (SkipList.before · · = true)
  indexed : ∀ member score, index[member]? = some score ↔
    { member := member, score := score } ∈ list
  deriving DecidableEq

namespace ZSetValue

def empty : ZSetValue where
  index := ∅
  list := []
  ordered := .nil
  indexed := by simp

theorem score_of_mem {value : ZSetValue} {node : ZSetMember}
    (member : node ∈ value.list) : value.index[node.member]? = some node.score :=
  (value.indexed node.member node.score).mpr member

/-- A chain with a node for a new member. -/
theorem ordered_insert {value : ZSetValue} {member : Bytes}
    (fresh : value.index[member]? = none) (score : Number) :
    (value.list.insert score member).Pairwise (SkipList.before · · = true) := by
  refine OrderedChains.pairwise_insert SkipList.before_trans value.ordered ?_
  intro other listed
  refine SkipList.before_or_before fun _ same => ?_
  have found := score_of_mem listed
  rw [same, fresh] at found
  cases found

theorem indexed_insert {value : ZSetValue} {member : Bytes}
    (fresh : value.index[member]? = none) (score : Number) (other : Bytes)
    (otherScore : Number) :
    (value.index.insert member score)[other]? = some otherScore ↔
      { member := other, score := otherScore } ∈
        value.list.insert score member := by
  rw [Std.ExtTreeMap.getElem?_insert, SkipList.insert, OrderedChains.mem_insert]
  by_cases same : member = other
  · subst same
    have absent : { member := member, score := otherScore } ∉ value.list := by
      intro listed
      have found := score_of_mem listed
      rw [fresh] at found
      cases found
    simp [absent, eq_comm]
  · have different : compare member other ≠ .eq := fun equal =>
      same (Std.LawfulEqCmp.eq_of_compare equal)
    simp [different, value.indexed, Ne.symm same]

/-- The chain without the node of an indexed member. -/
theorem list_delete {value : ZSetValue} {member : Bytes} {old : Number}
    (found : value.index[member]? = some old) :
    ∃ early late,
      value.list = early ++ { member := member, score := old } :: late ∧
      value.list.delete old member = early ++ late := by
  have listed := (value.indexed member old).mp found
  obtain ⟨early, late, split, taken, dropped⟩ :=
    OrderedChains.takeWhile_dropWhile_of_mem SkipList.before_asymm value.ordered
      listed
  refine ⟨early, late, split, ?_⟩
  have same : Score.same old.val old.val = true := (Number.same_iff _ _).mpr rfl
  simp [SkipList.delete, taken, dropped, same]

/-- The set without an indexed member. -/
def without (value : ZSetValue) {member : Bytes} {old : Number}
    (found : value.index[member]? = some old) : ZSetValue where
  index := value.index.erase member
  list := value.list.delete old member
  ordered := by
    obtain ⟨early, late, split, deleted⟩ := list_delete found
    have ordered := value.ordered
    rw [split] at ordered
    rw [deleted]
    exact ordered.sublist (List.Sublist.append_left (List.sublist_cons_self _ _) _)
  indexed := by
    obtain ⟨early, late, split, deleted⟩ := list_delete found
    have ordered := value.ordered
    rw [split, List.pairwise_append, List.pairwise_cons] at ordered
    obtain ⟨-, ⟨afterTarget, -⟩, beforeTarget⟩ := ordered
    have irreflexive : ∀ node : ZSetMember,
        SkipList.before node node ≠ true := by
      intro node reflexive
      rw [SkipList.before_asymm node node reflexive] at reflexive
      cases reflexive
    intro other score
    rw [Std.ExtTreeMap.getElem?_erase, deleted]
    by_cases same : member = other
    · subst same
      have absent : { member := member, score := score } ∉ early ++ late := by
        intro listed
        have whole : { member := member, score := score } ∈ value.list := by
          rw [split]
          rcases List.mem_append.mp listed with front | back
          · exact List.mem_append_left _ front
          · exact List.mem_append_right _ (List.mem_cons_of_mem _ back)
        have equal := (score_of_mem whole).symm.trans found
        obtain rfl := Option.some.inj equal
        rcases List.mem_append.mp listed with front | back
        · exact irreflexive _ (beforeTarget _ front _ List.mem_cons_self)
        · exact irreflexive _ (afterTarget _ back)
      simp [absent]
    · have different : compare member other ≠ .eq := fun equal =>
        same (Std.LawfulEqCmp.eq_of_compare equal)
      have node : ({ member := other, score := score } : ZSetMember) ≠
          { member := member, score := old } := by
        intro equal
        exact same (congrArg ZSetMember.member equal).symm
      simp [different, value.indexed, split, node]

theorem index_without {value : ZSetValue} {member : Bytes} {old : Number}
    (found : value.index[member]? = some old) :
    (value.without found).index[member]? = none := by
  simp [without]

/-- The set with a new member. -/
def adding (value : ZSetValue) {member : Bytes}
    (fresh : value.index[member]? = none) (score : Number) : ZSetValue where
  index := value.index.insert member score
  list := value.list.insert score member
  ordered := ordered_insert fresh score
  indexed := indexed_insert fresh score

/-- The set with a new score for a member: its node is deleted and inserted
again. -/
def rescoring (value : ZSetValue) {member : Bytes} {old : Number}
    (found : value.index[member]? = some old) (score : Number) : ZSetValue where
  index := value.index.insert member score
  list := (value.list.delete old member).insert score member
  ordered := ordered_insert (index_without found) score
  indexed := by
    intro other otherScore
    have moved := indexed_insert (index_without found) score other otherScore
    refine Iff.trans ?_ moved
    simp only [without, Std.ExtTreeMap.getElem?_insert,
      Std.ExtTreeMap.getElem?_erase]
    split <;> rfl

/-- Inserts or updates a member; `true` means that it is new. -/
def add (value : ZSetValue) (score : Number) (member : Bytes) :
    Bool × ZSetValue :=
  match found : value.index[member]? with
  | some old =>
      if Score.same old.val score.val then (false, value)
      else (false, value.rescoring found score)
  | none => (true, value.adding found score)

theorem add_found {value : ZSetValue} {member : Bytes} {old : Number}
    (found : value.index[member]? = some old) (score : Number) :
    value.add score member =
      if Score.same old.val score.val then (false, value)
      else (false, value.rescoring found score) := by
  unfold add
  split
  · rename_i other foundOther
    obtain rfl := Option.some.inj (found.symm.trans foundOther)
    rfl
  · rename_i missing
    rw [found] at missing
    cases missing

theorem add_missing {value : ZSetValue} {member : Bytes}
    (missing : value.index[member]? = none) (score : Number) :
    value.add score member = (true, value.adding missing score) := by
  unfold add
  split
  · rename_i old found
    rw [missing] at found
    cases found
  · rfl

/-- The loop of `zsetAdd`: the number of new members and the final value. -/
def addAll (value : ZSetValue) (pairs : List (Number × Bytes)) :
    Nat × ZSetValue :=
  pairs.foldl
    (fun state pair =>
      let (isNew, next) := state.2.add pair.1 pair.2
      (if isNew then state.1 + 1 else state.1, next))
    (0, value)

def score (value : ZSetValue) (member : Bytes) : Option Number :=
  value.index[member]?

def card (value : ZSetValue) : Nat := value.list.length

/-! ### Sets are determined by their chains -/

theorem eq_of_list {first second : ZSetValue} (same : first.list = second.list) :
    first = second := by
  have index : first.index = second.index := by
    refine Std.ExtTreeMap.ext_getElem? fun member => ?_
    refine Option.ext fun score => ?_
    rw [first.indexed, second.indexed, same]
  cases first
  cases second
  simp_all

theorem list_add_of_last {value : ZSetValue} {node : ZSetMember}
    (last : ∀ other ∈ value.list, SkipList.before other node = true)
    (fresh : ∀ other ∈ value.list, other.member ≠ node.member) :
    (value.add node.score node.member).2.list = value.list ++ [node] := by
  have missing : value.index[node.member]? = none := by
    cases found : value.index[node.member]? with
    | none => rfl
    | some old =>
        have listed := (value.indexed node.member old).mp found
        have different := fresh _ listed
        exact absurd rfl different
  rw [add_missing missing]
  exact OrderedChains.insert_of_last _ last

/-- Different nodes of a set have different members. -/
theorem pairwise_member_ne (value : ZSetValue) :
    value.list.Pairwise fun first second => first.member ≠ second.member := by
  refine value.ordered.imp_of_mem ?_
  intro first second firstListed secondListed earlier same
  have firstScore := score_of_mem firstListed
  have secondScore := score_of_mem secondListed
  rw [same, secondScore] at firstScore
  have equal : first = second := by
    cases first
    cases second
    simp_all
  subst equal
  have later := SkipList.before_asymm first first earlier
  rw [later] at earlier
  cases earlier

/-- Adding the nodes of a chain one after the other. -/
theorem list_foldl_add (nodes : SkipList) (value : ZSetValue)
    (ordered : (value.list ++ nodes).Pairwise (SkipList.before · · = true))
    (distinct : (value.list ++ nodes).Pairwise
      fun first second => first.member ≠ second.member) :
    (nodes.foldl (fun state node => (state.add node.score node.member).2)
      value).list = value.list ++ nodes := by
  induction nodes generalizing value with
  | nil => simp
  | cons node rest induction =>
      have added : (value.add node.score node.member).2.list =
          value.list ++ [node] := by
        refine list_add_of_last ?_ ?_
        · intro other listed
          exact (List.pairwise_append.mp ordered).2.2 other listed node
            List.mem_cons_self
        · intro other listed
          exact (List.pairwise_append.mp distinct).2.2 other listed node
            List.mem_cons_self
      have split : value.list ++ node :: rest =
          (value.add node.score node.member).2.list ++ rest := by
        rw [added, List.append_assoc, List.singleton_append]
      rw [split] at ordered distinct ⊢
      exact induction _ ordered distinct

/-- A set is rebuilt from its own chain. -/
theorem foldl_add_list (value : ZSetValue) :
    value.list.foldl (fun state node => (state.add node.score node.member).2)
      empty = value :=
  eq_of_list (list_foldl_add value.list empty value.ordered
    value.pairwise_member_ne)

end ZSetValue
end MnemoKV
