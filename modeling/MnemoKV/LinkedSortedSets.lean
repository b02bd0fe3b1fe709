import MnemoKV.SkipListUpdates
import MnemoKV.StoreOperations

/-!
# Sorted sets over a linked skip list

`ZSetValue` as the source lays it out: an index and a skip list whose nodes are
linked on up to 32 levels.  It refines the sorted set that keeps the bottom
chain only, and with it a finite map from members to scores with an ordered
enumeration, for every choice of node levels.
-/

namespace MnemoKV

open SkipLists LinkedChains

def skipListMaxLevel : Nat := 32

/-- The height of a node. -/
abbrev NodeLevel := { height : Nat // 1 ≤ height ∧ height ≤ skipListMaxLevel }

/-- A sorted set as the code has it: an index and a linked skip list. -/
structure LinkedZSet where
  index : Std.ExtTreeMap Bytes Number compare
  list : Linked ZSetMember

namespace LinkedZSet

/-- The unused member of the head. -/
def zero : ZSetMember := { member := [], score := ⟨0, by decide⟩ }

def new : LinkedZSet := { index := ∅, list := .new zero skipListMaxLevel }

def sameNode (node target : ZSetMember) : Bool :=
  Score.same node.score.val target.score.val && node.member == target.member

/-- `SkipList.Insert` and `SkipList.Delete`. -/
def insertNode (level : NodeLevel) (score : Number) (member : Bytes)
    (list : Linked ZSetMember) : Option (Linked ZSetMember) :=
  list.insert SkipList.before { member := member, score := score } level.val

def deleteNode (score : Number) (member : Bytes) (list : Linked ZSetMember) :
    Option (Bool × Linked ZSetMember) :=
  list.delete SkipList.before sameNode { member := member, score := score }

/-- `Add`: a member that has the score stays, another one is inserted anew. -/
def add (set : LinkedZSet) (level : NodeLevel) (score : Number)
    (member : Bytes) : Option (Bool × LinkedZSet) :=
  match set.index[member]? with
  | some old =>
      if Score.same old.val score.val then some (false, set)
      else do
        let (_, list) ← deleteNode old member set.list
        let list ← insertNode level score member list
        some (false, { index := set.index.insert member score, list := list })
  | none => do
      let list ← insertNode level score member set.list
      some (true, { index := set.index.insert member score, list := list })

def score (set : LinkedZSet) (member : Bytes) : Option Number :=
  set.index[member]?

def card (set : LinkedZSet) : Nat := set.list.length

/-- `SkipList.Range`, with the sums of its `int64` indices. -/
def range (set : LinkedZSet) (start stop : Int) : Option (List ZSetMember) :=
  if set.list.length = 0 then some []
  else
    let length : Int := set.list.length
    let start := if start < 0 then wrapInt64 (start + length) else start
    let stop := if stop < 0 then wrapInt64 (stop + length) else stop
    let start := if start < 0 then 0 else start
    let stop := if stop ≥ length then length - 1 else stop
    if start > stop then some []
    else do
      let first ← walk (set.list.forward 0) (start.toNat + 1) 0
      set.list.collect (stop - start + 1).toNat first

/-! ### Refinement of the chain -/

/-- The linked set has the index and the chain of the other. -/
structure Refines (set : LinkedZSet) (value : ZSetValue) : Prop where
  index : set.index = value.index
  list : set.list.Holds skipListMaxLevel value.list

theorem refines_new : Refines new ZSetValue.empty :=
  ⟨rfl, Linked.holds_new zero (by decide)⟩

variable {set : LinkedZSet} {value : ZSetValue}

theorem delete_eq (score : Number) (member : Bytes) (nodes : SkipList) :
    (OrderedChains.delete SkipList.before sameNode
      { member := member, score := score } nodes).2 = nodes.delete score member := by
  unfold OrderedChains.delete SkipList.delete
  dsimp only
  cases nodes.dropWhile (SkipList.before · { member := member, score := score }) with
  | nil => rfl
  | cons node rest => exact apply_ite Prod.snd _ _ _

theorem add_refines (refines : Refines set value) (level : NodeLevel)
    (score : Number) (member : Bytes) :
    ∃ set', set.add level score member = some ((value.add score member).1, set') ∧
      Refines set' (value.add score member).2 := by
  unfold add
  rw [refines.index]
  cases found : value.index[member]? with
  | some old =>
      rw [ZSetValue.add_found found]
      by_cases same : Score.same old.val score.val = true
      · simp only [if_pos same]
        exact ⟨set, rfl, refines⟩
      · simp only [if_neg same]
        obtain ⟨shorter, deleted, shorterHolds⟩ :=
          Linked.delete_holds sameNode SkipList.before_trans refines.list
            value.ordered { member := member, score := old }
        rw [delete_eq] at shorterHolds
        obtain ⟨longer, inserted, longerHolds⟩ :=
          Linked.insert_holds SkipList.before_trans shorterHolds
            (value.without found).ordered { member := member, score := score }
            level.property.1 level.property.2
        refine ⟨{ index := value.index.insert member score, list := longer }, ?_,
          rfl, longerHolds⟩
        unfold deleteNode insertNode
        simp only [deleted, inserted, Option.bind_eq_bind, Option.bind_some]
  | none =>
      rw [ZSetValue.add_missing found]
      obtain ⟨longer, inserted, longerHolds⟩ :=
        Linked.insert_holds SkipList.before_trans refines.list value.ordered
          { member := member, score := score } level.property.1 level.property.2
      refine ⟨{ index := value.index.insert member score, list := longer }, ?_,
        rfl, longerHolds⟩
      unfold insertNode
      simp only [inserted, Option.bind_eq_bind, Option.bind_some]

/-- The sums of indices stay within `int64`. -/
theorem wrap_index {index : Int} {length : Nat} (lowest : minInt64 ≤ index)
    (fits : (length : Int) ≤ maxInt64) (negative : index < 0) :
    wrapInt64 (index + length) = index + length := by
  unfold minInt64 at lowest
  unfold maxInt64 at fits
  unfold wrapInt64
  rw [Int.bmod_def]
  omega

theorem range_refines (refines : Refines set value) {start stop : Int}
    (startLowest : minInt64 ≤ start) (stopLowest : minInt64 ≤ stop)
    (fits : (value.list.length : Int) ≤ maxInt64) :
    set.range start stop = some (value.list.range start stop) := by
  have length := refines.list.length
  have unwrapped : ∀ index : Int, minInt64 ≤ index →
      (if index < 0 then wrapInt64 (index + value.list.length) else index) =
        if index < 0 then index + value.list.length else index := by
    intro index lowest
    split_ifs with negative
    · exact wrap_index lowest fits negative
    · rfl
  unfold range SkipList.range
  simp only [length, unwrapped start startLowest, unwrapped stop stopLowest]
  generalize (if start < 0 then start + (value.list.length : Int) else start) = first
  generalize (if stop < 0 then stop + (value.list.length : Int) else stop) = last
  obtain ⟨low, lowEq, lowNonneg⟩ : ∃ low, (if first < 0 then 0 else first) = low ∧
      0 ≤ low := ⟨_, rfl, by split_ifs <;> omega⟩
  obtain ⟨high, highEq, highInside⟩ : ∃ high,
      (if last ≥ (value.list.length : Int) then (value.list.length : Int) - 1
        else last) = high ∧ high < value.list.length :=
    ⟨_, rfl, by split_ifs <;> omega⟩
  rw [lowEq, highEq]
  by_cases crossed : low > high
  · rw [if_pos crossed, if_pos crossed]
    split_ifs <;> rfl
  · have inside : low.toNat < value.list.length := by omega
    obtain ⟨address, walked, collected⟩ :=
      refines.list.collect inside (high - low + 1).toNat
    have inhabited : ¬ value.list.length = 0 := by omega
    rw [if_neg crossed, if_neg crossed, if_neg inhabited, walked]
    exact collected

end LinkedZSet

/-! ### The ordered map -/

/-- The members whose index lies between the bounds; a negative bound counts
from the end. -/
def SkipList.slice (nodes : SkipList) (start stop : Int) : List ZSetMember :=
  let length : Int := nodes.length
  let first := if start < 0 then start + length else start
  let last := if stop < 0 then stop + length else stop
  nodes.zipIdx.filterMap fun indexed =>
    if first ≤ (indexed.2 : Int) ∧ (indexed.2 : Int) ≤ last then some indexed.1
    else none

theorem SkipList.filterMap_zipIdx (nodes : SkipList) (offset : Nat)
    (first last : Int) :
    ((nodes.zipIdx offset).filterMap fun indexed =>
        if first ≤ (indexed.2 : Int) ∧ (indexed.2 : Int) ≤ last then some indexed.1
        else none) =
      (nodes.drop (first - offset).toNat).take
        (last + 1 - max first offset).toNat := by
  induction nodes generalizing offset with
  | nil => simp
  | cons node rest induction =>
      rw [List.zipIdx_cons, List.filterMap_cons]
      dsimp only
      have tail := induction (offset + 1)
      by_cases early : (offset : Int) < first
      · have outside : ¬ (first ≤ (offset : Int) ∧ (offset : Int) ≤ last) := by omega
        have skip : (first - (offset : Int)).toNat =
            (first - ((offset + 1 : Nat) : Int)).toNat + 1 := by omega
        have bounds : max first ((offset + 1 : Nat) : Int) = max first (offset : Int) := by
          omega
        simp only [if_neg outside]
        rw [tail, skip, List.drop_succ_cons, bounds]
      · have start : (first - (offset : Int)).toNat = 0 := by omega
        have start' : (first - ((offset + 1 : Nat) : Int)).toNat = 0 := by omega
        rw [start', List.drop_zero] at tail
        rw [start, List.drop_zero]
        by_cases within : (offset : Int) ≤ last
        · have inside : first ≤ (offset : Int) ∧ (offset : Int) ≤ last := by omega
          have count : (last + 1 - max first (offset : Int)).toNat =
              (last + 1 - max first ((offset + 1 : Nat) : Int)).toNat + 1 := by
            omega
          simp only [if_pos inside]
          rw [tail, count, List.take_succ_cons]
        · have outside : ¬ (first ≤ (offset : Int) ∧ (offset : Int) ≤ last) := by
            omega
          have count : (last + 1 - max first (offset : Int)).toNat = 0 := by omega
          have count' : (last + 1 - max first ((offset + 1 : Nat) : Int)).toNat =
              0 := by omega
          simp only [if_neg outside]
          rw [tail, count, count', List.take_zero, List.take_zero]

theorem SkipList.range_eq_slice (nodes : SkipList) (start stop : Int) :
    nodes.range start stop = nodes.slice start stop := by
  unfold range slice
  simp only [filterMap_zipIdx]
  generalize (if start < 0 then start + (nodes.length : Int) else start) = first
  generalize (if stop < 0 then stop + (nodes.length : Int) else stop) = last
  have low : (if first < 0 then 0 else first) = max first 0 := by omega
  have drop : (first - ((0 : Nat) : Int)).toNat = (max first 0).toNat := by omega
  rw [low, drop, Nat.cast_zero]
  split_ifs with beyond crossed crossed
  · -- The upper bound is clamped: there is nothing to take beyond the end.
    have none : nodes.drop (max first 0).toNat = [] :=
      List.drop_eq_nil_of_le (by omega)
    rw [none, List.take_nil]
  · rw [List.take_of_length_le, List.take_of_length_le] <;>
      rw [List.length_drop] <;> omega
  · have count : (last + 1 - max first 0).toNat = 0 := by omega
    rw [count, List.take_zero]
  · congr 1
    omega

/-- A call of `Add` with the level that its node is given, if it gets one. -/
structure AddCall where
  score : Number
  member : Bytes
  level : NodeLevel

/-- The scores of members. -/
abbrev Scores := Bytes → Option Number

/-- The last added score counts, unless it equals the one that is there. -/
def Scores.put (scores : Scores) (score : Number) (member : Bytes) : Scores :=
  match scores member with
  | some old =>
      if Score.same old.val score.val then scores
      else Function.update scores member (some score)
  | none => Function.update scores member (some score)

def Scores.after (calls : List AddCall) : Scores :=
  calls.foldl (fun scores call => scores.put call.score call.member) fun _ => none

theorem Scores.put_isSome (scores : Scores) (score : Number)
    (member other : Bytes) :
    (scores.put score member other).isSome = true ↔
      (scores other).isSome = true ∨ other = member := by
  by_cases same : other = member
  · subst same
    unfold put
    cases stored : scores other with
    | none => simp
    | some old =>
        dsimp only
        split_ifs <;> simp [stored]
  · unfold put
    cases scores member with
    | none => simp [same]
    | some old =>
        dsimp only
        split_ifs <;> simp [same]

theorem Scores.after_concat (calls : List AddCall) (call : AddCall) :
    after (calls ++ [call]) = (after calls).put call.score call.member := by
  unfold after
  rw [List.foldl_append]
  rfl

theorem Scores.after_isSome (calls : List AddCall) (member : Bytes) :
    (after calls member).isSome = true ↔ member ∈ calls.map AddCall.member := by
  induction calls using List.reverseRecOn with
  | nil => simp [after]
  | append_singleton calls call induction =>
      rw [after_concat, put_isSome, induction, List.map_append, List.mem_append,
        List.map_singleton, List.mem_singleton]

theorem ZSetValue.score_add_eq_put (value : ZSetValue) (score : Number) (member : Bytes) :
    (value.add score member).2.score = Scores.put value.score score member := by
  have inserted : (fun other => (value.index.insert member score)[other]?) =
      Function.update value.score member (some score) := by
    funext other
    rw [Std.ExtTreeMap.getElem?_insert, Function.update_apply]
    by_cases same : other = member
    · simp [same]
    · have different : compare member other ≠ .eq := fun equal =>
        same (Std.LawfulEqCmp.eq_of_compare equal).symm
      simp [same, different, ZSetValue.score]
  cases found : value.index[member]? with
  | some old =>
      have stored : value.score member = some old := found
      unfold Scores.put
      rw [add_found found, stored]
      dsimp only
      split_ifs
      · rfl
      · exact inserted
  | none =>
      have stored : value.score member = none := found
      unfold Scores.put
      rw [add_missing found, stored]
      exact inserted

theorem ZSetValue.isNew_add (value : ZSetValue) (score : Number) (member : Bytes) :
    (value.add score member).1 = (value.score member).isNone := by
  unfold ZSetValue.score
  cases found : value.index[member]? with
  | some old =>
      rw [add_found found]
      split_ifs <;> rfl
  | none =>
      rw [add_missing found]
      rfl

namespace LinkedZSet

/-- The results of some calls and the set they leave. -/
def addEach : List AddCall → LinkedZSet → Option (List Bool × LinkedZSet)
  | [], set => some ([], set)
  | call :: calls, set => do
      let (isNew, set) ← set.add call.level call.score call.member
      let (rest, set) ← addEach calls set
      some (isNew :: rest, set)

theorem addEach_refines {set : LinkedZSet} {value : ZSetValue}
    (refines : Refines set value) {earlier : List AddCall}
    (scored : value.score = Scores.after earlier) (calls : List AddCall) :
    ∃ added set' value', set.addEach calls = some (added, set') ∧
      Refines set' value' ∧
      value'.score = Scores.after (earlier ++ calls) ∧
      added = calls.mapIdx fun index call =>
        decide (call.member ∉ (earlier ++ calls.take index).map AddCall.member) := by
  induction calls generalizing set value earlier with
  | nil => exact ⟨[], set, value, rfl, refines, by rw [scored, List.append_nil], rfl⟩
  | cons call calls induction =>
      obtain ⟨next, computed, nextRefines⟩ :=
        add_refines refines call.level call.score call.member
      have nextScored : (value.add call.score call.member).2.score =
          Scores.after (earlier ++ [call]) := by
        rw [ZSetValue.score_add_eq_put, scored, Scores.after_concat]
      obtain ⟨added, set', value', computed', refines', scored', results⟩ :=
        induction nextRefines nextScored
      rw [List.append_assoc, List.singleton_append] at scored'
      refine ⟨(value.add call.score call.member).1 :: added, set', value', ?_,
        refines', scored', ?_⟩
      · simp only [addEach, computed, computed', Option.bind_eq_bind,
          Option.bind_some]
      · have isNew : (value.add call.score call.member).1 =
            decide (call.member ∉ earlier.map AddCall.member) := by
          rw [ZSetValue.isNew_add, scored, ← Option.not_isSome]
          rw [Bool.eq_iff_iff, Bool.not_eq_true', decide_eq_true_iff,
            ← Scores.after_isSome, Bool.not_eq_true]
        rw [List.mapIdx_cons, List.take_zero, List.append_nil, isNew, results]
        refine congrArg (_ :: ·) (congrArg (List.mapIdx · calls) ?_)
        funext index other
        rw [List.take_succ_cons, List.append_assoc, List.singleton_append]

end LinkedZSet

theorem ZSetValue.card_eq {value : ZSetValue} {calls : List AddCall}
    (scored : value.score = Scores.after calls) :
    value.list.length = (calls.map AddCall.member).dedup.length := by
  have distinct : (value.list.map ZSetMember.member).Nodup :=
    List.pairwise_map.mpr value.pairwise_member_ne
  have same : (value.list.map ZSetMember.member).Perm
      (calls.map AddCall.member).dedup := by
    refine (List.perm_ext_iff_of_nodup distinct (List.nodup_dedup _)).mpr ?_
    intro member
    rw [List.mem_dedup, ← Scores.after_isSome, ← scored, Option.isSome_iff_exists,
      List.mem_map]
    constructor
    · rintro ⟨node, listed, rfl⟩
      exact ⟨node.score, score_of_mem listed⟩
    · rintro ⟨score, found⟩
      exact ⟨_, (value.indexed member score).mp found, rfl⟩
  have length := same.length_eq
  rwa [List.length_map] at length

/-- After any calls of `Add`, at any node levels, a sorted set is a finite map
with ordered enumeration: scores are those of the map, a call tells whether its
member is new, the cardinality is the number of different members, and a range
is the slice of the members in the order of score and member. -/
theorem LinkedZSet.refines_ordered_map (calls : List AddCall) :
    ∃ added set sorted, LinkedZSet.new.addEach calls = some (added, set) ∧
      (added = calls.mapIdx fun index call =>
        decide (call.member ∉ (calls.take index).map AddCall.member)) ∧
      (∀ member, set.score member = Scores.after calls member) ∧
      set.card = (calls.map AddCall.member).dedup.length ∧
      sorted.Pairwise (SkipList.before · · = true) ∧
      (∀ node : ZSetMember,
        node ∈ sorted ↔ Scores.after calls node.member = some node.score) ∧
      ∀ start stop : Int, minInt64 ≤ start → start ≤ maxInt64 →
        minInt64 ≤ stop → stop ≤ maxInt64 → (set.card : Int) ≤ maxInt64 →
        set.range start stop = some (SkipList.slice sorted start stop) := by
  have start : ZSetValue.empty.score = Scores.after [] := by
    funext member
    simp [ZSetValue.score, ZSetValue.empty, Scores.after]
  obtain ⟨added, set, value, computed, refines, scored, results⟩ :=
    addEach_refines refines_new start calls
  rw [List.nil_append] at scored
  refine ⟨added, set, value.list, computed, results, ?_, ?_, value.ordered, ?_, ?_⟩
  · intro member
    rw [← scored]
    exact congrArg (·[member]?) refines.index
  · exact refines.list.length.trans (ZSetValue.card_eq scored)
  · intro node
    rw [← scored]
    exact (value.indexed node.member node.score).symm
  · intro start stop startLowest _ stopLowest _ fits
    have fits : (value.list.length : Int) ≤ maxInt64 := by
      rw [← refines.list.length]
      exact fits
    rw [range_refines refines startLowest stopLowest fits, SkipList.range_eq_slice]

/-- Two members, one of them with a new score and a higher node. -/
def rescoringCalls : List AddCall :=
  [{ score := ⟨0x3FF0000000000000, by decide⟩, member := Bytes.ascii "b"
     level := ⟨3, by decide⟩ },
   { score := ⟨0x4000000000000000, by decide⟩, member := Bytes.ascii "a"
     level := ⟨1, by decide⟩ },
   { score := ⟨0x4008000000000000, by decide⟩, member := Bytes.ascii "b"
     level := ⟨32, by decide⟩ }]

theorem LinkedZSet.rescored_member_is_enumerated :
    ∃ set sorted,
      LinkedZSet.new.addEach rescoringCalls = some ([true, true, false], set) ∧
      set.card = 2 ∧
      sorted.Pairwise (SkipList.before · · = true) ∧
      (∀ node : ZSetMember, node ∈ sorted ↔
        Scores.after rescoringCalls node.member = some node.score) ∧
      set.range minInt64 maxInt64 =
        some (SkipList.slice sorted minInt64 maxInt64) := by
  obtain ⟨added, set, sorted, computed, results, -, card, ordered, listed, ranges⟩ :=
    LinkedZSet.refines_ordered_map rescoringCalls
  have two : set.card = 2 := card.trans (by decide)
  have news : added = [true, true, false] := results.trans (by decide)
  refine ⟨set, sorted, news ▸ computed, two, ordered, listed, ?_⟩
  exact ranges minInt64 maxInt64 (by decide) (by decide) (by decide) (by decide)
    (by rw [two]; decide)

/-! ### The structure of the skip list -/

namespace LinkedZSet

/-- The nodes of the bottom chain, how everything else follows them, and what
they hold. -/
structure Structured (list : Linked ZSetMember) (chain : List Nat)
    (elements : List ZSetMember) : Prop where
  wired : list.Wired skipListMaxLevel chain
  shown : chain.map list.element = elements.map some
  ordered : elements.Pairwise (SkipList.before · · = true)
  tight : list.Tight chain

/-- The skip lists that `NewSkipList`, `Insert` of absent pairs and `Delete` make. -/
inductive Made : Linked ZSetMember → Prop
  | new : Made (.new zero skipListMaxLevel)
  | insert {list list' : Linked ZSetMember} (made : Made list) (level : NodeLevel)
      (target : ZSetMember)
      (absent : ∀ chain, Path (list.forward 0) 0 chain → ∀ address ∈ chain, ∀ node,
        list.element address = some node → sameNode node target = false)
      (done : insertNode level target.score target.member list = some list') : Made list'
  | delete {list list' : Linked ZSetMember} {found : Bool} (made : Made list)
      (target : ZSetMember)
      (done : deleteNode target.score target.member list = some (found, list')) :
      Made list'

/-- What `Delete` does: it misses an absent pair, and the node of a present one
leaves every chain. -/
def Deletes (list : Linked ZSetMember) (chain : List Nat) (elements : List ZSetMember)
    (target : ZSetMember) : Prop :=
  (∀ node ∈ elements, sameNode node target = false) ∧
      deleteNode target.score target.member list = some (false, list) ∨
    ∃ early address late node list' elements', chain = early ++ address :: late ∧
      list.element address = some node ∧ sameNode node target = true ∧
      deleteNode target.score target.member list = some (true, list') ∧
      Structured list' (early ++ late) elements' ∧ list'.height = list.height

theorem sameNode_iff {node target : ZSetMember} : sameNode node target = true ↔
    Score.position node.score.val = Score.position target.score.val ∧
      node.member = target.member := by
  rw [sameNode, Bool.and_eq_true, Number.same_iff, beq_iff_eq]

namespace Structured

variable {list : Linked ZSetMember} {chain : List Nat} {elements : List ZSetMember}
  (structured : Structured list chain elements) (target : ZSetMember)

include structured

theorem insert (level : NodeLevel)
    (absent : ∀ node ∈ elements, sameNode node target = false) :
    ∃ list' chain' elements',
      insertNode level target.score target.member list = some list' ∧
      Structured list' chain' elements' := by
  obtain ⟨early, late, list', rfl, computed, inserted, shown⟩ :=
    Linked.insert_shown SkipList.before_trans structured.wired structured.shown
      structured.ordered target level.property.1 level.property.2
  refine ⟨list', _, _, computed,
    inserted.wired structured.wired level.property.1 level.property.2, shown, ?_,
    inserted.tight structured.wired structured.tight⟩
  refine OrderedChains.pairwise_insert SkipList.before_trans structured.ordered
    fun node listed => SkipList.before_or_before fun position name => ?_
  exact Bool.eq_false_iff.mp (absent node listed) (sameNode_iff.mpr ⟨position, name⟩)

theorem deletes : Deletes list chain elements target := by
  rcases Linked.delete_shown sameNode SkipList.before_trans structured.wired
    structured.shown structured.ordered target with ⟨missed, computed⟩ |
      ⟨early, address, late, node, elements', list', rfl, found, matching, hit, computed,
        removed, tight, shown⟩
  · refine .inl ⟨fun node listed => Bool.eq_false_iff.mpr fun matching => ?_, computed⟩
    obtain ⟨position, name⟩ := sameNode_iff.mp matching
    have finds := OrderedChains.delete_finds SkipList.before_asymm structured.ordered
      listed (fun other => by
        rw [Bool.eq_iff_iff, SkipList.before_iff, SkipList.before_iff, position, name])
      matching
    rw [missed] at finds
    cases finds
  · have shorter := OrderedChains.delete_sublist SkipList.before sameNode target
      elements
    rw [hit] at shorter
    exact .inr ⟨early, address, late, node, list', elements', rfl, found, matching,
      computed, ⟨removed.wired structured.wired, shown,
        structured.ordered.sublist shorter, tight⟩, funext removed.height⟩

end Structured

theorem Made.structured {list : Linked ZSetMember} (made : Made list) :
    ∃ chain elements, Structured list chain elements := by
  induction made with
  | new =>
      obtain ⟨chain, wired, shown⟩ := refines_new.list
      exact ⟨chain, [], wired, shown, .nil, .inl rfl⟩
  | insert _ level target absent done induction =>
      obtain ⟨chain, elements, structured⟩ := induction
      obtain ⟨list', chain', elements', computed, next⟩ :=
        structured.insert target level fun node listed => by
          have stored := List.mem_map_of_mem (f := some) listed
          rw [← structured.shown] at stored
          obtain ⟨address, inside, found⟩ := List.mem_map.mp stored
          exact absent chain structured.wired.bottom address inside node found
      obtain rfl := Option.some.inj (done.symm.trans computed)
      exact ⟨chain', elements', next⟩
  | delete _ target done induction =>
      obtain ⟨chain, elements, structured⟩ := induction
      rcases structured.deletes target with ⟨-, computed⟩ |
        ⟨early, address, late, node, list', elements', -, -, -, computed, next, -⟩
      · obtain ⟨-, rfl⟩ := Prod.mk.inj (Option.some.inj (done.symm.trans computed))
        exact ⟨chain, elements, structured⟩
      · obtain ⟨-, rfl⟩ := Prod.mk.inj (Option.some.inj (done.symm.trans computed))
        exact ⟨early ++ late, elements', next⟩

end LinkedZSet

/-- Every skip list that can be made is ordered and counted along its bottom chain,
linked on each level through the nodes high enough for it and back along the bottom,
and exactly as high as its highest node.  Every search ends at the last node before
its target, and so every insertion and removal succeeds. -/
theorem LinkedZSet.made_lists_are_structured {list : Linked ZSetMember}
    (made : LinkedZSet.Made list) :
    ∃ chain elements, LinkedZSet.Structured list chain elements ∧ ∀ target,
      (∃ update early late, Linked.SplitAt SkipList.before target list chain early late ∧
        list.search SkipList.before target list.level 0 =
          some (update, early.getLastD 0)) ∧
      (∀ level, ∃ list',
        LinkedZSet.insertNode level target.score target.member list = some list') ∧
      LinkedZSet.Deletes list chain elements target := by
  obtain ⟨chain, elements, structured⟩ := made.structured
  have wired := structured.wired
  refine ⟨chain, elements, structured, fun target => ⟨?_, fun level => ?_,
    structured.deletes target⟩⟩
  · obtain ⟨early, late, parts, -, -⟩ := Linked.exists_splitAt SkipList.before_trans
      structured.shown structured.ordered target
    have searched := parts.search wired wired.levels.2 List.mem_cons_self
      (wired.top ▸ wired.levels.2)
    have notZero : list.level ≠ 0 := Nat.ne_of_gt wired.levels.1
    rw [if_neg notZero, wired.lastBelow_bottom parts.split] at searched
    exact ⟨_, early, late, parts, searched⟩
  · obtain ⟨early, late, list', -, computed, -, -⟩ := Linked.insert_shown
      SkipList.before_trans wired structured.shown structured.ordered target
      level.property.1 level.property.2
    exact ⟨list', computed⟩

namespace LinkedZSet

/-- An insertion of a pair that is not found along the bottom chain. -/
theorem Made.insert_along {list list' : Linked ZSetMember} (made : Made list)
    (level : NodeLevel) (target : ZSetMember) (chain : List Nat)
    (path : Path (list.forward 0) 0 chain)
    (absent : ∀ address ∈ chain, (list.element address).any (sameNode · target) = false)
    (done : insertNode level target.score target.member list = some list') :
    Made list' := by
  refine made.insert level target (fun other along address inside node found => ?_) done
  obtain rfl := path.unique along
  simpa [found] using absent address inside

/-- A member with the score 1 or 2. -/
def scored (one : Bool) (member : String) : ZSetMember :=
  { member := .ascii member
    score := if one then ⟨0x3FF0000000000000, by decide⟩
      else ⟨0x4000000000000000, by decide⟩ }

/-- Three pairs, inserted as `c`, `a`, `b` with the heights 1, 3 and 2. -/
def towers : Option (Linked ZSetMember) := do
  let list ← insertNode ⟨1, by decide⟩ (scored false "c").score (.ascii "c")
    (.new zero skipListMaxLevel)
  let list ← insertNode ⟨3, by decide⟩ (scored true "a").score (.ascii "a") list
  insertNode ⟨2, by decide⟩ (scored false "b").score (.ascii "b") list

theorem made_towers : ∃ list, towers = some list ∧ Made list := by
  have first : Made _ := .insert_along .new ⟨1, by decide⟩ (scored false "c") [] rfl
    (by decide) rfl
  have second : Made _ := first.insert_along ⟨3, by decide⟩ (scored true "a") [1]
    ⟨rfl, rfl⟩ (by decide) rfl
  have third : Made _ := second.insert_along ⟨2, by decide⟩ (scored false "b") [2, 1]
    ⟨rfl, rfl, rfl⟩ (by decide) rfl
  exact ⟨_, rfl, third⟩

/-- Without the highest node the two lower chains close over the gap. -/
theorem higher_list_is_structured :
    ∃ list list', towers = some list ∧ list.level = 3 ∧ list.length = 3 ∧
      deleteNode (scored true "a").score (.ascii "a") list = some (true, list') ∧
      list'.level = 2 ∧ list'.length = 2 ∧
      (∃ chain elements, Structured list chain elements) ∧
      ∃ chain elements, Structured list' chain elements := by
  obtain ⟨list, built, made⟩ := made_towers
  obtain rfl : _ = list := Option.some.inj (rfl.trans built)
  obtain ⟨chain, elements, structured, -⟩ := made_lists_are_structured made
  obtain ⟨chain', elements', structured', -⟩ :=
    made_lists_are_structured (made.delete (scored true "a") rfl)
  exact ⟨_, _, built, rfl, rfl, rfl, rfl, rfl, ⟨chain, elements, structured⟩, chain',
    elements', structured'⟩

end LinkedZSet

end MnemoKV
