import MnemoKV.LinkedChains
import Mathlib.Data.List.Perm.Subperm

/-!
# Doubly linked deques in memory

A deque is a table of nodes, found by address, with pointers to the first and to the
last node and a counter.  Both ends are treated alike: an operation at the front is
the one at the back with the links exchanged.  Following a missing node fails.

The addresses from one end to the other are the ghost state of the invariant `Wired`:
from either end the links visit all of them.  Under it no operation fails.
-/

namespace LinkedDeques

open LinkedChains

/-- A node with its two links, which are addresses. -/
structure Node (α : Type) where
  prev : Option Nat
  next : Option Nat
  value : α

/-- A deque in memory; a removed node stays there, out of reach. -/
structure Deque (α : Type) where
  nodes : List (Node α)
  head : Option Nat
  tail : Option Nat
  length : Nat

namespace Node

variable {α : Type}

/-- The link that leads away from the front, or away from the back. -/
def link (node : Node α) (front : Bool) : Option Nat :=
  if front then node.next else node.prev

def setLink (node : Node α) (front : Bool) (link : Option Nat) : Node α :=
  if front then { node with next := link } else { node with prev := link }

@[simp]
theorem link_setLink (node : Node α) (front : Bool) (link : Option Nat) :
    (node.setLink front link).link front = link := by
  cases front <;> rfl

@[simp]
theorem link_setLink_not (node : Node α) (front : Bool) (link : Option Nat) :
    (node.setLink (!front) link).link front = node.link front := by
  cases front <;> rfl

@[simp]
theorem link_not_setLink (node : Node α) (front : Bool) (link : Option Nat) :
    (node.setLink front link).link (!front) = node.link (!front) := by
  cases front <;> rfl

@[simp]
theorem value_setLink (node : Node α) (front : Bool) (link : Option Nat) :
    (node.setLink front link).value = node.value := by
  cases front <;> rfl

end Node

namespace Deque

variable {α : Type}

def new : Deque α := { nodes := [], head := none, tail := none, length := 0 }

/-- The first node seen from the front, or from the back. -/
def outermost (deque : Deque α) (front : Bool) : Option Nat :=
  if front then deque.head else deque.tail

def setOutermost (deque : Deque α) (front : Bool) (address : Option Nat) : Deque α :=
  if front then { deque with head := address } else { deque with tail := address }

/-- Writes a link of a node that exists. -/
def setLink (deque : Deque α) (address : Nat) (front : Bool) (link : Option Nat) :
    Option (Deque α) :=
  match deque.nodes[address]? with
  | none => none
  | some node =>
      some { deque with nodes := deque.nodes.set address (node.setLink front link) }

/-- Puts a new node at an end. -/
def push (deque : Deque α) (front : Bool) (value : α) : Option (Deque α) :=
  let address := deque.nodes.length
  let node : Node α := { prev := none, next := none, value }
  match deque.outermost front with
  | none =>
      some { nodes := deque.nodes ++ [node], head := some address, tail := some address
             length := deque.length + 1 }
  | some old => do
      let placed := { deque with
        nodes := deque.nodes ++ [node.setLink front (some old)], length := deque.length + 1 }
      let linked ← placed.setLink old (!front) (some address)
      some (linked.setOutermost front (some address))

/-- Takes the node at an end away. -/
def pop (deque : Deque α) (front : Bool) : Option (Option α × Deque α) :=
  match deque.outermost front with
  | none => some (none, deque)
  | some address => do
      let node ← deque.nodes[address]?
      let shorter := { deque with length := deque.length - 1 }
      match node.link front with
      | none => some (some node.value, { shorter with head := none, tail := none })
      | some next =>
          let unlinked ← shorter.setLink next (!front) none
          some (some node.value, unlinked.setOutermost front (some next))

/-- The values that the links visit from an address on. -/
def traverse (deque : Deque α) (front : Bool) : Nat → Option Nat → Option (List α)
  | _, none => some []
  | 0, some _ => none
  | fuel + 1, some address => do
      let node ← deque.nodes[address]?
      let rest ← deque.traverse front fuel (node.link front)
      some (node.value :: rest)

/-- All values, from the front or from the back. -/
def values (deque : Deque α) (front : Bool) : Option (List α) :=
  deque.traverse front deque.nodes.length (deque.outermost front)

/-! ### Reading after writing -/

/-- The links away from an end; the end itself is the address `none`. -/
def follow (deque : Deque α) (front : Bool) : Option Nat → Option (Option (Option Nat))
  | none => some ((deque.outermost front).map some)
  | some address => deque.nodes[address]?.map fun node => (node.link front).map some

def value (deque : Deque α) (address : Nat) : Option α :=
  deque.nodes[address]?.map Node.value

@[simp]
theorem outermost_setOutermost (deque : Deque α) (front : Bool) (address : Option Nat) :
    (deque.setOutermost front address).outermost front = address := by
  cases front <;> rfl

@[simp]
theorem outermost_not_setOutermost (deque : Deque α) (front : Bool) (address : Option Nat) :
    (deque.setOutermost front address).outermost (!front) = deque.outermost (!front) := by
  cases front <;> rfl

@[simp]
theorem nodes_setOutermost (deque : Deque α) (front : Bool) (address : Option Nat) :
    (deque.setOutermost front address).nodes = deque.nodes := by
  cases front <;> rfl

@[simp]
theorem length_setOutermost (deque : Deque α) (front : Bool) (address : Option Nat) :
    (deque.setOutermost front address).length = deque.length := by
  cases front <;> rfl

/-! ### Wired deques -/

/-- The addresses from the front to the back, or from the back to the front. -/
structure Wired (deque : Deque α) (front : Bool) (chain : List Nat) : Prop where
  distinct : chain.Nodup
  there : Path (deque.follow front) none (chain.map some)
  back : Path (deque.follow (!front)) none (chain.reverse.map some)
  length : deque.length = chain.length

variable {deque : Deque α} {front : Bool} {chain : List Nat}

theorem wired_new (front : Bool) : (new : Deque α).Wired front [] := by
  cases front <;> exact ⟨List.nodup_nil, rfl, rfl, rfl⟩

/-- What holds from one end holds from the other. -/
theorem Wired.mirror (wired : deque.Wired front chain) :
    deque.Wired (!front) chain.reverse := by
  refine ⟨List.nodup_reverse.mpr wired.distinct, wired.back, ?_, ?_⟩
  · rw [Bool.not_not, List.reverse_reverse]
    exact wired.there
  · rw [List.length_reverse]
    exact wired.length

theorem link_of_path {place link : Option Nat}
    (path : Path (deque.follow front) place (chain.map some))
    (start : deque.follow front place = some (link.map some)) : link = chain.head? := by
  have head := path.head
  rw [start, Option.some.injEq, List.head?_map] at head
  exact Option.map_injective (fun _ _ => Option.some.inj) head

theorem Wired.outermost (wired : deque.Wired front chain) :
    deque.outermost front = chain.head? :=
  link_of_path wired.there rfl

theorem nodup_places {chain : List Nat} (distinct : chain.Nodup) :
    ((none : Option Nat) :: chain.map some).Nodup := by
  refine List.nodup_cons.mpr ⟨by simp, ?_⟩
  exact distinct.map fun _ _ => Option.some.inj

theorem exists_node {start : Option Nat} {chain : List (Option Nat)}
    (path : Path (deque.follow front) start chain) {address : Nat}
    (member : some address ∈ chain) : ∃ node, deque.nodes[address]? = some node := by
  induction chain generalizing start with
  | nil => cases member
  | cons place rest induction =>
      rcases List.mem_cons.mp member with rfl | later
      · have onward := path.2.head
        obtain ⟨node, found, -⟩ := Option.map_eq_some_iff.mp onward
        exact ⟨node, found⟩
      · exact induction path.2 later

theorem Wired.node (wired : deque.Wired front chain) {address : Nat}
    (member : address ∈ chain) : ∃ node, deque.nodes[address]? = some node :=
  exists_node wired.there (List.mem_map_of_mem member)

theorem follow_some {address : Nat} {node : Node α}
    (found : deque.nodes[address]? = some node) :
    deque.follow front (some address) = some ((node.link front).map some) := by
  rw [follow, found, Option.map_some]

/-- Nothing leads on from the node at the other end. -/
theorem Wired.follow_not_head {address : Nat} {rest : List Nat}
    (wired : deque.Wired front (address :: rest)) :
    deque.follow (!front) (some address) = some none := by
  have path := wired.back
  rw [List.reverse_cons, List.map_append] at path
  exact path.drop.2

theorem getLastD_reverse_map (address : Nat) (rest : List Nat) :
    ((address :: rest).reverse.map some).getLastD none = some address := by
  rw [List.reverse_cons, List.map_append]
  exact getLastD_append_cons _ [] _ _

/-- The nodes of a chain are the same but for the backward link of one of them. -/
structure Relinked (deque deque' : Deque α) (front : Bool) (chain : List Nat)
    (address : Nat) (link : Option Nat) : Prop where
  last : deque'.outermost (!front) = deque.outermost (!front)
  node : ∃ node, deque.nodes[address]? = some node ∧
    deque'.nodes[address]? = some (node.setLink (!front) link)
  others : ∀ other ∈ chain, other ≠ address → deque'.nodes[other]? = deque.nodes[other]?

namespace Relinked

variable {deque' : Deque α} {address other : Nat} {link : Option Nat}

section

variable (relinked : Relinked deque deque' front chain address link)

include relinked

theorem follow
    (member : other ∈ chain) :
    deque'.follow front (some other) = deque.follow front (some other) := by
  by_cases same : other = address
  · obtain ⟨node, found, found'⟩ := relinked.node
    rw [same, follow_some found, follow_some found', Node.link_setLink_not]
  · simp only [Deque.follow, relinked.others other member same]

theorem value
    (member : other ∈ chain) : deque'.value other = deque.value other := by
  by_cases same : other = address
  · obtain ⟨node, found, found'⟩ := relinked.node
    rw [same, Deque.value, Deque.value, found, found', Option.map_some, Option.map_some,
      Node.value_setLink]
  · simp only [Deque.value, relinked.others other member same]

theorem follow_not :
    deque'.follow (!front) (some address) = some (link.map some) := by
  obtain ⟨node, -, found'⟩ := relinked.node
  rw [follow_some found', Node.link_setLink]

theorem follow_not_of_ne
    {place : Option Nat} (member : place ∈ none :: chain.reverse.map some)
    (different : place ≠ some address) :
    deque'.follow (!front) place = deque.follow (!front) place := by
  cases place with
  | none => simp only [Deque.follow, relinked.last]
  | some other =>
      have listed : other ∈ chain := by simpa using member
      have apart : other ≠ address := fun same => different (congrArg some same)
      simp only [Deque.follow, relinked.others other listed apart]

end

end Relinked

/-- A node is put before the node at an end. -/
theorem Wired.cons {deque' : Deque α} {address old : Nat} {rest : List Nat} {node : Node α}
    (wired : deque.Wired front (old :: rest)) (fresh : address ∉ old :: rest)
    (relinked : Relinked deque deque' front (old :: rest) old (some address))
    (first : deque'.outermost front = some address)
    (found : deque'.nodes[address]? = some node) (onward : node.link front = some old)
    (last : node.link (!front) = none) (length : deque'.length = deque.length + 1) :
    deque'.Wired front (address :: old :: rest) where
  distinct := List.nodup_cons.mpr ⟨fresh, wired.distinct⟩
  there := by
    refine ⟨?_, ?_, wired.there.2.congr fun place member => ?_⟩
    · rw [follow, first, Option.map_some]
    · rw [follow_some found, onward, Option.map_some]
    · rw [← List.map_cons] at member
      obtain ⟨other, listed, rfl⟩ := List.mem_map.mp member
      exact relinked.follow listed
  back := by
    have path := wired.back
    have distinct := nodup_places wired.mirror.distinct
    rw [← List.append_nil ((old :: rest).reverse.map some)] at path distinct
    rw [List.reverse_cons, List.map_append]
    refine path.insert distinct ?_ ?_ ?_
    · rw [getLastD_reverse_map, relinked.follow_not, Option.map_some]
    · rw [getLastD_reverse_map, wired.follow_not_head, follow_some found, last,
        Option.map_none]
    · rw [getLastD_reverse_map, List.append_nil]
      intro place member
      exact relinked.follow_not_of_ne member
  length := by
    rw [length, wired.length]
    rfl

/-- The node at an end is taken away. -/
theorem Wired.tail {deque' : Deque α} {address next : Nat} {rest : List Nat}
    (wired : deque.Wired front (address :: next :: rest))
    (relinked : Relinked deque deque' front (next :: rest) next none)
    (first : deque'.outermost front = some next)
    (length : deque'.length = deque.length - 1) :
    deque'.Wired front (next :: rest) where
  distinct := wired.distinct.of_cons
  there := by
    refine ⟨?_, wired.there.2.2.congr fun place member => ?_⟩
    · rw [follow, first, Option.map_some]
    · rw [← List.map_cons] at member
      obtain ⟨other, listed, rfl⟩ := List.mem_map.mp member
      exact relinked.follow listed
  back := by
    have path := wired.back
    have distinct := nodup_places wired.mirror.distinct
    rw [List.reverse_cons, List.map_append] at path distinct
    rw [← List.append_nil ((next :: rest).reverse.map some)]
    refine path.remove distinct ?_ ?_
    · rw [getLastD_reverse_map, relinked.follow_not, wired.follow_not_head,
        Option.map_none]
    · rw [getLastD_reverse_map, List.map_nil, List.append_nil]
      intro place member
      exact relinked.follow_not_of_ne member
  length := by
    rw [length, wired.length]
    rfl

/-! ### Pushes and pops -/

theorem Wired.lt_length (wired : deque.Wired front chain) {address : Nat}
    (member : address ∈ chain) : address < deque.nodes.length := by
  obtain ⟨node, found⟩ := wired.node member
  exact (List.getElem?_eq_some_iff.mp found).1

/-- Writing the backward link of a node and moving the end relinks that node. -/
theorem setLink_relinks {address : Nat} {node : Node α} (placed : Deque α)
    (last : placed.outermost (!front) = deque.outermost (!front))
    (kept : ∀ other ∈ address :: chain, placed.nodes[other]? = deque.nodes[other]?)
    (found : deque.nodes[address]? = some node) (link first : Option Nat) :
    ∃ linked, placed.setLink address (!front) link = some linked ∧
      Relinked deque (linked.setOutermost front first) front (address :: chain) address link ∧
      (∀ other ≠ address, linked.nodes[other]? = placed.nodes[other]?) ∧
      linked.length = placed.length := by
  have found' := (kept address List.mem_cons_self).trans found
  refine ⟨{ placed with nodes := placed.nodes.set address (node.setLink (!front) link) },
    by rw [setLink, found'], ⟨?_, ⟨node, found, ?_⟩, ?_⟩, ?_, rfl⟩
  · rw [outermost_not_setOutermost]
    exact last
  · rw [nodes_setOutermost]
    exact List.getElem?_set_self (List.getElem?_eq_some_iff.mp found').1
  · intro other member different
    rw [nodes_setOutermost]
    exact (List.getElem?_set_ne different.symm).trans (kept other member)
  · intro other different
    exact List.getElem?_set_ne different.symm

/-- A push puts its node before the others and touches no value. -/
theorem Wired.push (wired : deque.Wired front chain) (value : α) :
    ∃ deque', deque.push front value = some deque' ∧
      deque'.Wired front (deque.nodes.length :: chain) ∧
      deque'.value deque.nodes.length = some value ∧
      ∀ address ∈ chain, deque'.value address = deque.value address := by
  have first := wired.outermost
  have fresh : deque.nodes.length ∉ chain := fun member =>
    lt_irrefl _ (wired.lt_length member)
  cases chain with
  | nil =>
      refine ⟨_, by rw [Deque.push, first]; rfl, ⟨?_, ?_, ?_, ?_⟩, ?_, ?_⟩
      · exact List.nodup_singleton _
      · cases front <;> simp [LinkedChains.Path, follow, Deque.outermost, Node.link]
      · cases front <;> simp [LinkedChains.Path, follow, Deque.outermost, Node.link]
      · simp [wired.length]
      · simp [Deque.value]
      · exact fun _ member => nomatch member
  | cons old rest =>
      obtain ⟨node, found⟩ := wired.node List.mem_cons_self
      let new : Node α := { prev := none, next := none, value }
      let placed : Deque α := { deque with
        nodes := deque.nodes ++ [new.setLink front (some old)], length := deque.length + 1 }
      have kept : ∀ address ∈ old :: rest, placed.nodes[address]? = deque.nodes[address]? :=
        fun address member => List.getElem?_append_left (wired.lt_length member)
      have last : placed.outermost (!front) = deque.outermost (!front) := rfl
      obtain ⟨linked, written, relinked, others, length⟩ :=
        setLink_relinks placed last kept found (some deque.nodes.length)
          (some deque.nodes.length)
      have newest : (linked.setOutermost front (some deque.nodes.length)).nodes[
          deque.nodes.length]? = some (new.setLink front (some old)) := by
        rw [nodes_setOutermost, others _ (List.ne_of_not_mem_cons fresh)]
        exact List.getElem?_concat_length
      refine ⟨_, ?_, wired.cons fresh relinked ?_ newest ?_ ?_ ?_, ?_, ?_⟩
      · rw [Deque.push, first, List.head?_cons]
        exact Option.bind_eq_some_iff.mpr ⟨linked, written, rfl⟩
      · rw [outermost_setOutermost]
      · exact Node.link_setLink _ _ _
      · rw [Node.link_not_setLink]
        cases front <;> rfl
      · rw [length_setOutermost, length]
      · rw [Deque.value, newest, Option.map_some, Node.value_setLink]
      · exact fun address member => relinked.value member

theorem Wired.pop {address : Nat} (wired : deque.Wired front (address :: chain)) :
    ∃ node deque', deque.nodes[address]? = some node ∧
      deque.pop front = some (some node.value, deque') ∧
      deque'.Wired front chain ∧
      ∀ other ∈ chain, deque'.value other = deque.value other := by
  have first := wired.outermost
  obtain ⟨node, found⟩ := wired.node List.mem_cons_self
  have onward : node.link front = chain.head? :=
    link_of_path wired.there.2 (follow_some found)
  refine ⟨node, ?_⟩
  cases chain with
  | nil =>
      refine ⟨{ deque with head := none, tail := none, length := deque.length - 1 },
        found, ?_, ?_, fun _ member => nomatch member⟩
      · rw [Deque.pop, first, List.head?_cons]
        simp only [found, Option.bind_eq_bind, Option.bind_some, onward, List.head?_nil]
      · refine ⟨List.nodup_nil, ?_, ?_, ?_⟩
        · cases front <;> rfl
        · cases front <;> rfl
        · exact congrArg (· - 1) wired.length
  | cons next rest =>
      obtain ⟨second, found'⟩ := wired.node (List.mem_cons_of_mem _ List.mem_cons_self)
      let shorter : Deque α := { deque with length := deque.length - 1 }
      have last : shorter.outermost (!front) = deque.outermost (!front) := rfl
      have kept : ∀ other ∈ next :: rest, shorter.nodes[other]? = deque.nodes[other]? :=
        fun _ _ => rfl
      obtain ⟨linked, written, relinked, -, length⟩ :=
        setLink_relinks shorter last kept found' none (some next)
      refine ⟨_, found, ?_, wired.tail relinked ?_ ?_, fun other member =>
        relinked.value member⟩
      · rw [Deque.pop, first, List.head?_cons]
        simp only [found, Option.bind_eq_bind, Option.bind_some, onward, List.head?_cons]
        exact Option.bind_eq_some_iff.mpr ⟨linked, written, rfl⟩
      · rw [outermost_setOutermost]
      · rw [length_setOutermost, length]

/-! ### The sequence that a deque holds -/

/-- The items from the front to the back, or from the back to the front. -/
def Holds (deque : Deque α) (front : Bool) (items : List α) : Prop :=
  ∃ chain, deque.Wired front chain ∧ chain.map deque.value = items.map some

namespace Holds

variable {items : List α}

theorem mirror (holds : deque.Holds front items) : deque.Holds (!front) items.reverse := by
  obtain ⟨chain, wired, listed⟩ := holds
  refine ⟨chain.reverse, wired.mirror, ?_⟩
  rw [List.map_reverse, listed, List.map_reverse]

theorem of_mirror (holds : deque.Holds (!front) items.reverse) : deque.Holds front items := by
  have back := holds.mirror
  rwa [Bool.not_not, List.reverse_reverse] at back

section

variable (holds : deque.Holds front items)

include holds

theorem length : deque.length = items.length := by
  obtain ⟨chain, wired, listed⟩ := holds
  have same := congrArg List.length listed
  rw [List.length_map, List.length_map] at same
  rw [wired.length, same]

theorem outermost_eq_none :
    deque.outermost front = none ↔ items = [] := by
  obtain ⟨chain, wired, listed⟩ := holds
  rw [wired.outermost, List.head?_eq_none_iff, ← List.map_eq_nil_iff (f := deque.value),
    listed, List.map_eq_nil_iff]

theorem push (value : α) :
    ∃ deque', deque.push front value = some deque' ∧ deque'.Holds front (value :: items) := by
  obtain ⟨chain, wired, listed⟩ := holds
  obtain ⟨deque', pushed, wired', newest, others⟩ := wired.push value
  refine ⟨deque', pushed, _, wired', ?_⟩
  rw [List.map_cons, newest, List.map_cons, List.map_congr_left others, listed]

/-- A push at the other end. -/
theorem concat (value : α) :
    ∃ deque', deque.push (!front) value = some deque' ∧
      deque'.Holds front (items ++ [value]) := by
  obtain ⟨deque', pushed, holds'⟩ := holds.mirror.push value
  refine ⟨deque', pushed, of_mirror ?_⟩
  rw [List.reverse_append]
  exact holds'

end

theorem pop {item : α} (holds : deque.Holds front (item :: items)) :
    ∃ deque', deque.pop front = some (some item, deque') ∧ deque'.Holds front items := by
  obtain ⟨chain, wired, listed⟩ := holds
  cases chain with
  | nil => cases listed
  | cons address rest =>
      obtain ⟨head, listed'⟩ := List.cons.inj listed
      obtain ⟨node, deque', found, popped, wired', others⟩ := wired.pop
      rw [value, found, Option.map_some] at head
      obtain rfl := Option.some.inj head
      refine ⟨deque', popped, rest, wired', ?_⟩
      rw [List.map_congr_left others, listed']

theorem pop_nil (holds : deque.Holds front []) : deque.pop front = some (none, deque) := by
  rw [Deque.pop, holds.outermost_eq_none.mpr rfl]

/-- A pop at the other end. -/
theorem dropLast {item : α} (holds : deque.Holds front (items ++ [item])) :
    ∃ deque', deque.pop (!front) = some (some item, deque') ∧
      deque'.Holds front items := by
  have back := holds.mirror
  rw [List.reverse_append] at back
  obtain ⟨deque', popped, holds'⟩ := back.pop
  exact ⟨deque', popped, of_mirror holds'⟩

end Holds

theorem holds_new (front : Bool) : (new : Deque α).Holds front [] :=
  ⟨[], wired_new front, rfl⟩

theorem traverse_of_path {place : Option Nat} {link : Option Nat} {items : List α}
    {fuel : Nat} (path : Path (deque.follow front) place (chain.map some))
    (listed : chain.map deque.value = items.map some) (enough : chain.length ≤ fuel)
    (start : deque.follow front place = some (link.map some)) :
    deque.traverse front fuel link = some items := by
  induction chain generalizing place link items fuel with
  | nil =>
      obtain rfl : items = [] := List.map_eq_nil_iff.mp listed.symm
      obtain rfl := link_of_path path start
      cases fuel <;> rfl
  | cons address rest induction =>
      obtain ⟨fuel, rfl⟩ : ∃ left, fuel = left + 1 := by
        exact ⟨fuel - 1, by rw [List.length_cons] at enough; omega⟩
      cases items with
      | nil => cases listed
      | cons item items =>
          obtain ⟨head, listed'⟩ := List.cons.inj listed
          obtain ⟨node, found, rfl⟩ := Option.map_eq_some_iff.mp head
          obtain rfl := link_of_path path start
          have others := induction path.2 listed' (Nat.le_of_succ_le_succ enough)
            (follow_some found)
          simp only [List.head?_cons, traverse, found, others, Option.bind_eq_bind,
            Option.bind_some]

theorem Holds.values {items : List α} (holds : deque.Holds front items) :
    deque.values front = some items := by
  obtain ⟨chain, wired, listed⟩ := holds
  refine traverse_of_path wired.there listed ?_ rfl
  have inside : chain ⊆ List.range deque.nodes.length := fun address member =>
    List.mem_range.mpr (wired.lt_length member)
  have fits := (wired.distinct.subperm inside).length_le
  rwa [List.length_range] at fits

end Deque

end LinkedDeques
