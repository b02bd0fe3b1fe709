import MnemoKV.LinkedChains
import MnemoKV.OrderedChains
import Mathlib.Data.List.Range

/-!
# Skip lists in memory

A skip list is a table of nodes, found by address, with the head at address
zero.  A node carries one link for each level below its height; the links of a
level chain the nodes that are high enough for it.  Following a missing link or
node fails, and so does a search that takes more steps than there are nodes.

The addresses of the bottom level are the ghost state of the invariant `Wired`.
Under it no operation fails, and each does to the elements what the operation of
the same name does to an ordered chain, whatever the heights are.
-/

namespace SkipLists

open LinkedChains

/-- An element with its links: one back, and one forward on each of its levels. -/
structure Node (α : Type) where
  element : α
  backward : Option Nat
  forward : List (Option Nat)

/-- A skip list in memory; the node at address 0 is the header. -/
structure Linked (α : Type) where
  nodes : List (Node α)
  level : Nat
  length : Nat

namespace Linked

variable {α : Type}

/-- An empty list; `zero` fills the element of the head, which nothing reads. -/
def new (zero : α) (maxLevel : Nat) : Linked α :=
  { nodes := [{ element := zero, backward := none
                forward := List.replicate maxLevel none }]
    level := 1
    length := 0 }

/-! ### Reading and writing one field of a node -/

def forward (list : Linked α) (level address : Nat) : Option (Option Nat) :=
  list.nodes[address]?.bind fun node => node.forward[level]?

def element (list : Linked α) (address : Nat) : Option α :=
  list.nodes[address]?.map Node.element

def backward (list : Linked α) (address : Nat) : Option (Option Nat) :=
  list.nodes[address]?.map Node.backward

def height (list : Linked α) (address : Nat) : Nat :=
  (list.nodes[address]?.map fun node => node.forward.length).getD 0

def setForward (list : Linked α) (level address : Nat) (link : Option Nat) :
    Option (Linked α) :=
  match list.nodes[address]? with
  | none => none
  | some node =>
      if level < node.forward.length then
        some { list with
          nodes := list.nodes.set address
            { node with forward := node.forward.set level link } }
      else none

def setBackward (list : Linked α) (address : Nat) (link : Option Nat) :
    Option (Linked α) :=
  match list.nodes[address]? with
  | none => none
  | some node =>
      some { list with
        nodes := list.nodes.set address { node with backward := link } }

/-- The same if there is a node. -/
def setBackwardOf (list : Linked α) (address : Option Nat) (link : Option Nat) :
    Option (Linked α) :=
  match address with
  | none => some list
  | some address => list.setBackward address link

/-- A new node of the given height whose links all end. -/
def allocate (list : Linked α) (element : α) (height : Nat) : Linked α :=
  { list with
    nodes := list.nodes ++
      [{ element := element, backward := none
         forward := List.replicate height none }] }

/-! ### The operations -/

variable (before same : α → α → Bool)

/-- The search loops from a level down to the bottom: the last node before the
target on each level, and the node where the search ends. -/
def search (list : Linked α) (target : α) : Nat → Nat → Option (List Nat × Nat)
  | 0, start => some ([], start)
  | level + 1, start => do
      let last ← advance (list.forward level)
        (fun address => (list.element address).map (before · target))
        list.nodes.length start
      let (update, finish) ← search list target level last
      some (update ++ [last], finish)

/-- Links a node behind the given predecessors, from a level upwards. -/
def link (node : Nat) : Nat → List Nat → Linked α → Option (Linked α)
  | _, [], list => some list
  | level, previous :: update, list => do
      let next ← list.forward level previous
      let list ← list.setForward level node next
      let list ← list.setForward level previous (some node)
      link node (level + 1) update list

/-- Passes a node over, from a level upwards, up to the first predecessor that
does not lead to it. -/
def unlink (node : Nat) : Nat → List Nat → Linked α → Option (Linked α)
  | _, [], list => some list
  | level, previous :: update, list => do
      let next ← list.forward level previous
      if next ≠ some node then some list
      else
        let onward ← list.forward level node
        let list ← list.setForward level previous onward
        unlink node (level + 1) update list

/-- The highest level above the first that has a node, looking downwards. -/
def lowerLevel (list : Linked α) : Nat → Option Nat
  | 0 => some 0
  | 1 => some 1
  | level + 2 => do
      let first ← list.forward (level + 1) 0
      if first = none then lowerLevel list (level + 1) else some (level + 2)

/-- Links a new node of some height behind the last smaller one on each level. -/
def insert (element : α) (height : Nat) (list : Linked α) :
    Option (Linked α) := do
  let (update, _) ← list.search before element list.level 0
  let update := update ++ List.replicate (height - list.level) 0
  let node := list.nodes.length
  let list ← link node 0 (update.take height)
    ({ list with level := max list.level height }.allocate element height)
  let previous ← update.head?
  let list ← list.setBackward node (if previous = 0 then none else some previous)
  let next ← list.forward 0 node
  let list ← list.setBackwardOf next (some node)
  some { list with length := list.length + 1 }

/-- Unlinks the first node that is not smaller, if it is the target. -/
def delete (target : α) (list : Linked α) : Option (Bool × Linked α) := do
  let (update, finish) ← list.search before target list.level 0
  let found ← list.forward 0 finish
  match found with
  | none => some (false, list)
  | some node =>
      let element ← list.element node
      if same element target then
        let list ← unlink node 0 update list
        let onward ← list.forward 0 node
        let previous ← list.backward node
        let list ← list.setBackwardOf onward previous
        let level ← list.lowerLevel list.level
        some (true, { list with level := level, length := list.length - 1 })
      else some (false, list)

/-- The elements of at most so many nodes along the bottom level. -/
def collect (list : Linked α) : Nat → Option Nat → Option (List α)
  | 0, _ => some []
  | _, none => some []
  | count + 1, some address => do
      let element ← list.element address
      let next ← list.forward 0 address
      let rest ← collect list count next
      some (element :: rest)

/-! ### What the writes change -/

variable {before same} {list list' : Linked α}

/-- Nothing but links has changed. -/
structure Relinked (list list' : Linked α) : Prop where
  size : list'.nodes.length = list.nodes.length
  element : ∀ address, list'.element address = list.element address
  height : ∀ address, list'.height address = list.height address
  backward : ∀ address, list'.backward address = list.backward address
  level : list'.level = list.level
  length : list'.length = list.length

theorem Relinked.refl (list : Linked α) : Relinked list list :=
  ⟨rfl, fun _ => rfl, fun _ => rfl, fun _ => rfl, rfl, rfl⟩

theorem Relinked.trans {list'' : Linked α} (first : Relinked list list')
    (second : Relinked list' list'') : Relinked list list'' where
  size := second.size.trans first.size
  element address := (second.element address).trans (first.element address)
  height address := (second.height address).trans (first.height address)
  backward address := (second.backward address).trans (first.backward address)
  level := second.level.trans first.level
  length := second.length.trans first.length

theorem exists_node_of_height {level address : Nat}
    (high : level < list.height address) :
    ∃ node, list.nodes[address]? = some node ∧ level < node.forward.length := by
  unfold height at high
  cases stored : list.nodes[address]? with
  | none => simp [stored] at high
  | some node => exact ⟨node, rfl, by simpa [stored] using high⟩

theorem exists_forward {level address : Nat} (high : level < list.height address) :
    ∃ link, list.forward level address = some link := by
  obtain ⟨node, stored, inside⟩ := exists_node_of_height high
  exact ⟨node.forward[level], by simp [forward, stored, inside]⟩

section Writing

variable {address : Nat} {node : Node α} (stored : list.nodes[address]? = some node)
  (written : Node α)

include stored

theorem getElem?_written (place : Nat) :
    (list.nodes.set address written)[place]? =
      if place = address then some written else list.nodes[place]? := by
  obtain ⟨bound, -⟩ := List.getElem?_eq_some_iff.mp stored
  rw [List.getElem?_set]
  by_cases same : address = place
  · simp [same, same ▸ bound]
  · simp [same, Ne.symm same]

/-- What the write does not change of the node is as before everywhere. -/
theorem map_written {β : Type} {field : Node α → β} (kept : field written = field node)
    (place : Nat) :
    (list.nodes.set address written)[place]?.map field =
      list.nodes[place]?.map field := by
  rw [getElem?_written stored]
  split_ifs with same
  · rw [same, stored, Option.map_some, Option.map_some, kept]
  · rfl

end Writing

theorem setForward_relinks {level address : Nat}
    (high : level < list.height address) (link : Option Nat) :
    ∃ list', list.setForward level address link = some list' ∧
      Relinked list list' ∧
      ∀ other place, list'.forward other place =
        if other = level ∧ place = address then some link
        else list.forward other place := by
  obtain ⟨node, stored, inside⟩ := exists_node_of_height high
  refine ⟨_, by simp only [setForward, stored, if_pos inside]; rfl, ?_, ?_⟩
  · refine ⟨List.length_set, map_written stored _ rfl, fun place => ?_,
      map_written stored _ rfl, rfl, rfl⟩
    unfold height
    rw [map_written stored]
    exact List.length_set
  · intro other place
    by_cases same : place = address
    · subst same
      by_cases sameLevel : other = level
      · subst sameLevel
        simp [forward, getElem?_written stored, inside]
      · have apart : level ≠ other := Ne.symm sameLevel
        simp [forward, getElem?_written stored, stored, sameLevel, apart]
    · simp [forward, getElem?_written stored, same]

/-- Nothing but pointers back has changed. -/
structure Rebacked (list list' : Linked α) : Prop where
  size : list'.nodes.length = list.nodes.length
  element : ∀ address, list'.element address = list.element address
  height : ∀ address, list'.height address = list.height address
  forward : ∀ level address, list'.forward level address = list.forward level address
  level : list'.level = list.level
  length : list'.length = list.length

theorem Rebacked.refl (list : Linked α) : Rebacked list list :=
  ⟨rfl, fun _ => rfl, fun _ => rfl, fun _ _ => rfl, rfl, rfl⟩

theorem setBackward_rebacks {address : Nat}
    (inside : address < list.nodes.length) (link : Option Nat) :
    ∃ list', list.setBackward address link = some list' ∧
      Rebacked list list' ∧
      ∀ place, list'.backward place =
        if place = address then some link else list.backward place := by
  obtain ⟨node, stored⟩ : ∃ node, list.nodes[address]? = some node :=
    ⟨_, List.getElem?_eq_getElem inside⟩
  refine ⟨_, by simp only [setBackward, stored]; rfl, ?_, fun place => ?_⟩
  · refine ⟨List.length_set, map_written stored _ rfl, fun place => ?_,
      fun level place => ?_, rfl, rfl⟩
    · unfold height
      rw [map_written stored]
      rfl
    · by_cases same : place = address
      · simp [forward, getElem?_written stored, same, stored]
      · simp [forward, getElem?_written stored, same]
  · by_cases same : place = address
    · simp [backward, getElem?_written stored, same]
    · simp [backward, getElem?_written stored, same]

theorem setBackwardOf_rebacks {address : Option Nat}
    (stored : ∀ place, address = some place → place < list.nodes.length)
    (link : Option Nat) :
    ∃ list', list.setBackwardOf address link = some list' ∧
      Rebacked list list' ∧
      ∀ place, list'.backward place =
        if address = some place then some link else list.backward place := by
  cases address with
  | none => exact ⟨list, rfl, .refl list, fun place => by simp⟩
  | some address =>
      obtain ⟨list', written, rebacked, backs⟩ :=
        setBackward_rebacks (stored address rfl) link
      refine ⟨list', written, rebacked, fun place => ?_⟩
      rw [backs]
      simp only [Option.some.injEq, eq_comm]

theorem link_relinks (node : Nat) (previous : Nat → Nat) (count level : Nat)
    (list : Linked α)
    (high : ∀ other, level ≤ other → other < level + count →
      other < list.height node ∧ other < list.height (previous other) ∧
        previous other ≠ node) :
    ∃ list', link node level ((List.range' level count).map previous) list =
        some list' ∧
      Relinked list list' ∧
      ∀ other place, list'.forward other place =
        if level ≤ other ∧ other < level + count then
          if place = previous other then some (some node)
          else if place = node then list.forward other (previous other)
          else list.forward other place
        else list.forward other place := by
  induction count generalizing level list with
  | zero =>
      refine ⟨list, rfl, .refl list, fun other place => ?_⟩
      rw [if_neg (by omega)]
  | succ count induction =>
      obtain ⟨ownHigh, previousHigh, apart⟩ := high level (by omega) (by omega)
      obtain ⟨next, read⟩ := exists_forward previousHigh
      obtain ⟨first, setFirst, relinked, links⟩ := setForward_relinks ownHigh next
      rw [← relinked.height] at previousHigh
      obtain ⟨second, setSecond, relinked', links'⟩ :=
        setForward_relinks previousHigh (some node)
      have both := relinked.trans relinked'
      obtain ⟨last, linked, relinked'', links''⟩ := induction (level + 1) second (by
        intro other above below
        rw [both.height, both.height]
        exact high other (by omega) (by omega))
      refine ⟨last, ?_, both.trans relinked'', fun other place => ?_⟩
      · rw [List.range'_succ, List.map_cons]
        simp only [link, read, setFirst, setSecond, Option.bind_eq_bind,
          Option.bind_some]
        exact linked
      · rw [links'']
        by_cases here : other = level
        · subst here
          rw [if_neg (by omega), if_pos ⟨le_refl _, by omega⟩, links', links]
          by_cases atPrevious : place = previous other
          · rw [if_pos ⟨rfl, atPrevious⟩, if_pos atPrevious]
          · rw [if_neg (fun both => atPrevious both.2), if_neg atPrevious]
            by_cases atNode : place = node
            · rw [if_pos ⟨rfl, atNode⟩, if_pos atNode, read]
            · rw [if_neg (fun both => atNode both.2), if_neg atNode]
        · have elsewhere : ∀ place, second.forward other place =
              list.forward other place := by
            intro place
            rw [links', if_neg (fun both => here both.1), links,
              if_neg (fun both => here both.1)]
          simp only [elsewhere]
          have same : (level + 1 ≤ other ∧ other < level + 1 + count) ↔
              level ≤ other ∧ other < level + (count + 1) := by omega
          simp only [same]

/-- A node passed over on the levels on which its predecessors lead to it. -/
theorem unlink_relinks (node : Nat) (previous : Nat → Nat) (count level : Nat)
    (list : Linked α)
    (high : ∀ other, level ≤ other → other < level + count →
      other < list.height (previous other) ∧ previous other ≠ node ∧
        (list.forward other (previous other) = some (some node) ↔
          other < list.height node)) :
    ∃ list', unlink node level ((List.range' level count).map previous) list =
        some list' ∧
      Relinked list list' ∧
      ∀ other place, list'.forward other place =
        if level ≤ other ∧ other < level + count ∧ other < list.height node ∧
            place = previous other then list.forward other node
        else list.forward other place := by
  induction count generalizing level list with
  | zero =>
      refine ⟨list, rfl, .refl list, fun other place => ?_⟩
      rw [if_neg (by omega)]
  | succ count induction =>
      obtain ⟨previousHigh, apart, leads⟩ := high level (by omega) (by omega)
      obtain ⟨next, read⟩ := exists_forward previousHigh
      rw [List.range'_succ, List.map_cons]
      by_cases stop : next = some node
      · have nodeHigh := leads.mp (stop ▸ read)
        obtain ⟨onward, readNode⟩ := exists_forward nodeHigh
        obtain ⟨first, setFirst, relinked, links⟩ :=
          setForward_relinks previousHigh onward
        have elsewhere : ∀ other place, other ≠ level →
            first.forward other place = list.forward other place := by
          intro other place different
          rw [links, if_neg (fun both => different both.1)]
        obtain ⟨last, unlinked, relinked', links'⟩ := induction (level + 1) first (by
          intro other above below
          rw [relinked.height, relinked.height, elsewhere _ _ (by omega)]
          exact high other (by omega) (by omega))
        refine ⟨last, ?_, relinked.trans relinked', fun other place => ?_⟩
        · simp only [unlink, read, stop, readNode, setFirst, ne_eq,
            not_true_eq_false, if_false, Option.bind_eq_bind, Option.bind_some]
          exact unlinked
        · rw [links', relinked.height]
          by_cases here : other = level
          · subst here
            rw [if_neg (by omega), links]
            by_cases atPrevious : place = previous other
            · rw [if_pos ⟨rfl, atPrevious⟩,
                if_pos ⟨le_refl _, by omega, nodeHigh, atPrevious⟩, readNode]
            · rw [if_neg (fun both => atPrevious both.2),
                if_neg (fun all => atPrevious all.2.2.2)]
          · rw [elsewhere other node here, elsewhere other place here]
            by_cases later : level + 1 ≤ other ∧ other < level + 1 + count ∧
                other < list.height node ∧ place = previous other
            · rw [if_pos later, if_pos ⟨by omega, by omega, later.2.2⟩]
            · rw [if_neg later, if_neg (by omega)]
      · -- The node ends below this level, so the loop stops for good.
        have ended : ¬ level < list.height node := by
          intro nodeHigh
          rw [leads.mpr nodeHigh] at read
          exact stop (Option.some.inj read).symm
        refine ⟨list, ?_, .refl list, fun other place => ?_⟩
        · simp only [unlink, read, stop, ne_eq, not_false_eq_true, if_true,
            Option.bind_eq_bind, Option.bind_some]
        · rw [if_neg (by omega)]

end Linked
end SkipLists
