import Mathlib.Data.List.Nodup
import Mathlib.Data.List.TakeWhile

/-!
# Chains of links

A table of links assigns an address nothing if there is no link to follow,
otherwise the next address or the end.  A path lists the addresses that the
links visit.  Rewriting the link of one predecessor puts an address into the
path or takes one out.
-/

namespace LinkedChains

variable {Address : Type*} {next next' : Address → Option (Option Address)}

/-- From `start` the links visit exactly these addresses, then end. -/
def Path (next : Address → Option (Option Address)) :
    Address → List Address → Prop
  | start, [] => next start = some none
  | start, address :: rest =>
      next start = some (some address) ∧ Path next address rest

theorem Path.congr {start : Address} {chain : List Address}
    (path : Path next start chain)
    (same : ∀ address ∈ start :: chain, next' address = next address) :
    Path next' start chain := by
  induction chain generalizing start with
  | nil => exact (same start List.mem_cons_self).trans path
  | cons address rest induction =>
      refine ⟨(same start List.mem_cons_self).trans path.1, ?_⟩
      exact induction path.2 fun other member =>
        same other (List.mem_cons_of_mem _ member)

theorem Path.unique {start : Address} {chain chain' : List Address}
    (path : Path next start chain) (other : Path next start chain') : chain = chain' := by
  induction chain generalizing start chain' with
  | nil =>
      cases chain' with
      | nil => rfl
      | cons address rest => cases path.symm.trans other.1
  | cons address rest induction =>
      cases chain' with
      | nil => cases path.1.symm.trans other
      | cons address' rest' =>
          obtain rfl := Option.some.inj (Option.some.inj (path.1.symm.trans other.1))
          rw [induction path.2 other.2]

theorem Path.drop {start : Address} {early late : List Address}
    (path : Path next start (early ++ late)) :
    Path next (early.getLastD start) late := by
  induction early generalizing start with
  | nil => exact path
  | cons address rest induction =>
      rw [List.getLastD_cons]
      exact induction path.2

theorem getLastD_append_cons (front back : List Address)
    (middle default : Address) :
    (front ++ middle :: back).getLastD default = back.getLastD middle := by
  induction front generalizing default with
  | nil => exact List.getLastD_cons
  | cons address rest induction =>
      rw [List.cons_append, List.getLastD_cons]
      exact induction address

/-- The first link of a path. -/
theorem Path.head {start : Address} {chain : List Address}
    (path : Path next start chain) : next start = some chain.head? := by
  cases chain with
  | nil => exact path
  | cons address rest => exact path.1

/-- The same addresses behind another start. -/
theorem Path.restart {start start' : Address} {chain : List Address}
    (path : Path next start chain) (onward : next' start' = next start)
    (same : ∀ address ∈ chain, next' address = next address) :
    Path next' start' chain := by
  cases chain with
  | nil => exact onward.trans path
  | cons address rest => exact ⟨onward.trans path.1, path.2.congr same⟩

/-- A path may go on differently behind its front part. -/
theorem Path.splice {start : Address} {early late late' : List Address}
    (path : Path next start (early ++ late)) (distinct : (start :: early).Nodup)
    (others : ∀ address ∈ start :: early,
      address ≠ early.getLastD start → next' address = next address)
    (joined : Path next' (early.getLastD start) late') :
    Path next' start (early ++ late') := by
  induction early generalizing start with
  | nil => exact joined
  | cons address rest induction =>
      obtain ⟨absent, distinct⟩ := List.nodup_cons.mp distinct
      rw [List.getLastD_cons] at others joined
      have ahead : start ≠ rest.getLastD address := fun same =>
        absent (same ▸ List.getLastD_mem_cons)
      refine ⟨(others start List.mem_cons_self ahead).trans path.1, ?_⟩
      exact induction path.2 distinct
        (fun other member => others other (List.mem_cons_of_mem _ member)) joined

/-- A new address between two parts of a path. -/
theorem Path.insert {start node : Address} {early late : List Address}
    (path : Path next start (early ++ late))
    (distinct : (start :: (early ++ late)).Nodup)
    (linked : next' (early.getLastD start) = some (some node))
    (onward : next' node = next (early.getLastD start))
    (others : ∀ address ∈ start :: (early ++ late),
      address ≠ early.getLastD start → next' address = next address) :
    Path next' start (early ++ node :: late) := by
  rw [← List.cons_append] at distinct others
  obtain ⟨front, -, apart⟩ := List.nodup_append.mp distinct
  refine path.splice front (fun other member =>
    others other (List.mem_append_left _ member)) ⟨linked, ?_⟩
  refine path.drop.restart onward fun other member => ?_
  exact others other (List.mem_append_right _ member)
    (apart _ List.getLastD_mem_cons other member).symm

theorem Path.remove {start node : Address} {early late : List Address}
    (path : Path next start (early ++ node :: late))
    (distinct : (start :: (early ++ node :: late)).Nodup)
    (onward : next' (early.getLastD start) = next node)
    (others : ∀ address ∈ start :: (early ++ late),
      address ≠ early.getLastD start → next' address = next address) :
    Path next' start (early ++ late) := by
  rw [← List.cons_append] at distinct others
  obtain ⟨front, -, apart⟩ := List.nodup_append.mp distinct
  refine path.splice front (fun other member =>
    others other (List.mem_append_left _ member)) ?_
  refine path.drop.2.restart onward fun other member => ?_
  exact others other (List.mem_append_right _ member)
    (apart _ List.getLastD_mem_cons other (List.mem_cons_of_mem _ member)).symm

/-! ### Following the links -/

/-- Steps forward while the next address is to be stepped over. -/
def advance (next : Address → Option (Option Address))
    (passes : Address → Option Bool) : Nat → Address → Option Address
  | 0, _ => none
  | fuel + 1, start =>
      match next start with
      | none => none
      | some none => some start
      | some (some address) =>
          match passes address with
          | none => none
          | some true => advance next passes fuel address
          | some false => some start

theorem advance_of_path {passes : Address → Option Bool} {test : Address → Bool}
    {start : Address} {chain : List Address} {fuel : Nat}
    (path : Path next start chain)
    (tested : ∀ address ∈ chain, passes address = some (test address))
    (enough : chain.length < fuel) :
    advance next passes fuel start = some ((chain.takeWhile test).getLastD start) := by
  induction chain generalizing start fuel with
  | nil =>
      obtain ⟨fuel, rfl⟩ : ∃ left, fuel = left + 1 := ⟨fuel - 1, by omega⟩
      have stop : next start = some none := path
      simp [advance, stop]
  | cons address rest induction =>
      rw [List.length_cons] at enough
      obtain ⟨fuel, rfl⟩ : ∃ left, fuel = left + 1 := ⟨fuel - 1, by omega⟩
      have verdict := tested address List.mem_cons_self
      simp only [advance, path.1, verdict]
      cases passed : test address with
      | true =>
          rw [List.takeWhile_cons_of_pos passed, List.getLastD_cons]
          exact induction path.2
            (fun other member => tested other (List.mem_cons_of_mem _ member))
            (by omega)
      | false =>
          rw [List.takeWhile_cons_of_neg (by simp [passed])]
          rfl

/-- The address a number of links away, or the end. -/
def walk (next : Address → Option (Option Address)) :
    Nat → Address → Option (Option Address)
  | 0, start => some (some start)
  | steps + 1, start =>
      match next start with
      | none => none
      | some none => some none
      | some (some address) => walk next steps address

theorem walk_of_path {start : Address} {chain : List Address}
    (path : Path next start chain) (steps : Nat) :
    walk next steps start = some (start :: chain)[steps]? := by
  induction steps generalizing start chain with
  | zero => rfl
  | succ steps induction =>
      cases chain with
      | nil =>
          have stop : next start = some none := path
          simp [walk, stop]
      | cons address rest =>
          simp only [walk, path.1]
          exact induction path.2

end LinkedChains
