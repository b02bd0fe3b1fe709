import MnemoKV.LinkedLists
import MnemoKV.StoreChanges

/-!
# List commands on mathematical sequences

What `LPUSH`, `RPUSH`, `LPOP`, `RPOP` and `LLEN` are for: every key has a sequence of
items, at first empty, and the commands work at its two ends.  Any run of them on a
store of linked lists that starts empty answers from these sequences; a key is stored
exactly while its sequence has an item.
-/

namespace MnemoKV

open LinkedDeques KeyedListings

/-- The commands on lists. -/
inductive ListCommand
  | push (left : Bool) (key first : Bytes) (rest : List Bytes)
  | pop (left : Bool) (key : Bytes)
  | len (key : Bytes)

/-- The items of every key, from left to right. -/
abbrev Sequences := Bytes → List Bytes

namespace Sequences

def empty : Sequences := fun _ => []

/-- The dataset in which exactly the keys with items are stored, without expiry. -/
def dataset (sequences : Sequences) : Dataset := fun key =>
  if sequences key = [] then none
  else some (.create key (.list (sequences key)) 0)

theorem dataset_empty : empty.dataset = fun _ => none := rfl

theorem dataset_of_ne {sequences : Sequences} {key : Bytes} (inhabited : sequences key ≠ []) :
    sequences.dataset key = some (.create key (.list (sequences key)) 0) :=
  if_neg inhabited

theorem dataset_update (sequences : Sequences) (key : Bytes) (items : List Bytes) :
    dataset (Function.update sequences key items) =
      Function.update sequences.dataset key
        (if items = [] then none else some (.create key (.list items) 0)) := by
  funext other
  by_cases same : other = key
  · subst same
    simp only [dataset, Function.update_self]
  · simp only [dataset, Function.update_of_ne same]

/-- Nothing in it expires. -/
theorem liveAt_dataset (sequences : Sequences) (now : Int) (key : Bytes) :
    liveAt now (sequences.dataset key) = sequences.dataset key := by
  unfold dataset
  split_ifs
  · rfl
  · rfl

end Sequences

namespace ListCommand

/-- The reply that the sequences give, and what becomes of them. -/
def answer : ListCommand → Sequences → Frame × Sequences
  | push left key first rest, sequences =>
      let items := pushItems left (first :: rest) (sequences key)
      (.integer items.length, Function.update sequences key items)
  | pop left key, sequences =>
      match popItem left (sequences key) with
      | none => (.nullBulk, sequences)
      | some (item, rest) => (.bulkBytes item, Function.update sequences key rest)
  | len key, sequences => (.integer (sequences key).length, sequences)

/-- The command on a store of linked lists. -/
def execute (now : Readings) : ListCommand → LinkedStore → Option (Frame × LinkedStore)
  | push left key first rest => LinkedStore.cmdPush left now (key :: first :: rest)
  | pop left key => LinkedStore.cmdPop left now [key]
  | len key => LinkedStore.cmdLLen now [key]

/-- The command on a store that keeps the items themselves. -/
def executePlain (now : Readings) : ListCommand → Store → Frame × Store
  | push left key first rest => Executor.cmdPush left now (key :: first :: rest)
  | pop left key => Executor.cmdPop left now [key]
  | len key => Executor.cmdLLen now [key]

theorem execute_agrees {linked : LinkedStore} {store : Store}
    (refines : linked.Refines store) (now : Readings) (command : ListCommand) :
    LinkedStore.Agrees (command.execute now linked) (command.executePlain now store) := by
  cases command with
  | push left key first rest => exact refines.cmdPush left now (key :: first :: rest)
  | pop left key => exact refines.cmdPop left now [key]
  | len key => exact refines.cmdLLen now [key]

theorem executePlain_changes (now : Readings) (command : ListCommand) (store : Store) :
    store.Changes (command.executePlain now store).2 := by
  cases command with
  | push left key first rest => exact (Executor.performs_cmdPush now _ left).changes store
  | pop left key => exact (Executor.performs_cmdPop now _ left).changes store
  | len key => exact (Executor.performs_cmdLLen now _).changes store

theorem pushItems_ne_nil (left : Bool) (first : Bytes) (rest items : List Bytes) :
    pushItems left (first :: rest) items ≠ [] := by
  cases left <;> simp [pushItems]

theorem popItem_nil (left : Bool) : popItem left [] = none := by
  cases left <;> rfl

theorem popItem_of_ne (left : Bool) {items : List Bytes} (inhabited : items ≠ []) :
    ∃ item rest, popItem left items = some (item, rest) := by
  cases left with
  | true =>
      obtain ⟨item, rest, rfl⟩ := List.exists_cons_of_ne_nil inhabited
      exact ⟨item, rest, rfl⟩
  | false =>
      refine ⟨items.getLast inhabited, items.dropLast, ?_⟩
      simp only [popItem, List.getLast?_eq_some_getLast inhabited]
      rfl

theorem observe_executePlain {store : Store} {sequences : Sequences}
    (stored : store.dataset = sequences.dataset) (now : Readings) (command : ListCommand) :
    Store.observe (command.executePlain now store) =
      ((command.answer sequences).1, (command.answer sequences).2.dataset) := by
  cases command with
  | push left key first rest =>
      have pushed := pushItems_ne_nil left first rest (sequences key)
      rw [executePlain, Executor.observe_cmdPush, stored]
      simp only [Command.pushAction, Action.perform, Effect.lookingAt,
        Sequences.liveAt_dataset, answer, Sequences.dataset_update, if_neg pushed]
      by_cases missing : sequences key = []
      · simp only [Sequences.dataset, missing, if_pos, Effect.push]
      · simp only [Sequences.dataset_of_ne missing, Effect.push]
        rfl
  | pop left key =>
      rw [executePlain, Executor.observe_cmdPop, stored]
      simp only [Command.popAction, Action.perform, Effect.lookingAt,
        Sequences.liveAt_dataset, answer]
      by_cases missing : sequences key = []
      · have nothing : sequences.dataset key = none := if_pos missing
        simp only [nothing, missing, popItem_nil, Effect.pop]
        rw [← nothing, Function.update_eq_self]
      · obtain ⟨item, rest, popped⟩ := popItem_of_ne left missing
        simp only [Sequences.dataset_of_ne missing, Effect.pop]
        simp only [Item.create, popped, Sequences.dataset_update, List.length_eq_zero_iff]
        rfl
  | len key =>
      rw [executePlain, Executor.observe_cmdLLen, stored]
      simp only [Command.readAction, Action.perform, Effect.lookingAt, Effect.reading,
        Sequences.liveAt_dataset, answer, Function.update_eq_self]
      by_cases missing : sequences key = []
      · have nothing : sequences.dataset key = none := if_pos missing
        simp only [nothing, missing, llenReply]
        rfl
      · simp only [Sequences.dataset_of_ne missing]
        rfl

end ListCommand

/-! ### Runs -/

/-- The replies to some commands, and the sequences they leave. -/
def Sequences.run : List ListCommand → Sequences → List Frame × Sequences
  | [], sequences => ([], sequences)
  | command :: commands, sequences =>
      let (frame, sequences) := command.answer sequences
      let (frames, sequences) := run commands sequences
      (frame :: frames, sequences)

namespace LinkedStore

/-- The replies to some commands, each with its clock, and the store they leave. -/
def run : List (Readings × ListCommand) → LinkedStore → Option (List Frame × LinkedStore)
  | [], store => some ([], store)
  | (now, command) :: calls, store => do
      let (frame, store) ← command.execute now store
      let (frames, store) ← run calls store
      some (frame :: frames, store)

/-- A sound store of linked lists for some sequences. -/
structure Shows (store : LinkedStore) (sequences : Sequences) : Prop where
  missing : ∀ key, store.entries key = none ↔ sequences key = []
  listed : ∀ key entry, store.entries key = some entry →
    ∃ list : ListValue, entry.value = .list list ∧
      list.values true = some (sequences key) ∧
      list.values false = some (sequences key).reverse ∧
      list.length = (sequences key).length ∧ (list.head = none ↔ list.tail = none)
  used : ∃ keys : List Bytes, keys.Nodup ∧ (∀ key, key ∈ keys ↔ sequences key ≠ []) ∧
    store.usedBytes = wrap64 (keys.map fun key => listEntrySize key (sequences key)).sum

/-- The store refines an accounted one with the dataset of the sequences. -/
def Represents (linked : LinkedStore) (sequences : Sequences) : Prop :=
  ∃ store : Store, linked.Refines store ∧ store.dataset = sequences.dataset ∧
    store.Accounted

namespace Represents

variable {linked : LinkedStore} {sequences : Sequences}

theorem new : LinkedStore.new.Represents .empty := by
  refine ⟨Store.new 1, ⟨fun key => ?_, rfl⟩, ?_, Store.accounted_new 1⟩
  · have missing : (Store.new 1).find key = none := by simp [Store.find, Store.new]
    rw [missing]
    exact .none
  · rw [Store.dataset_new, Sequences.dataset_empty]

theorem execute (represents : linked.Represents sequences) (now : Readings)
    (command : ListCommand) :
    ∃ linked', command.execute now linked = some ((command.answer sequences).1, linked') ∧
      linked'.Represents (command.answer sequences).2 := by
  obtain ⟨store, refines, stored, accounted⟩ := represents
  obtain ⟨linked', executed, refines'⟩ := command.execute_agrees refines now
  obtain ⟨reply, stored'⟩ := Prod.mk.inj (command.observe_executePlain stored now)
  refine ⟨linked', reply ▸ executed, _, refines', stored', ?_⟩
  exact (command.executePlain_changes now store).accounted accounted

theorem run (represents : linked.Represents sequences)
    (calls : List (Readings × ListCommand)) :
    ∃ linked', LinkedStore.run calls linked =
        some ((sequences.run (calls.map Prod.snd)).1, linked') ∧
      linked'.Represents (sequences.run (calls.map Prod.snd)).2 := by
  induction calls generalizing linked sequences with
  | nil => exact ⟨linked, rfl, represents⟩
  | cons call calls induction =>
      obtain ⟨next, executed, nextRepresents⟩ := represents.execute call.1 call.2
      obtain ⟨linked', ran, represents'⟩ := induction nextRepresents
      refine ⟨linked', ?_, represents'⟩
      simp only [LinkedStore.run, executed, ran, Option.bind_eq_bind, Option.bind_some]
      rfl

theorem stored (represents : linked.Represents sequences) (key : Bytes) :
    (linked.entries key = none ∧ sequences key = []) ∨
      ∃ entry list, linked.entries key = some entry ∧ entry.value = .list list ∧
        sequences key ≠ [] ∧ list.Holds (sequences key) := by
  obtain ⟨store, refines, stored, -⟩ := represents
  have related := refines.entries key
  have shown : (store.find key).map Entry.item = sequences.dataset key := congrFun stored key
  generalize linked.entries key = entry at related ⊢
  generalize store.find key = plain at related shown
  cases related with
  | none =>
      refine .inl ⟨rfl, ?_⟩
      by_contra inhabited
      rw [Sequences.dataset_of_ne inhabited] at shown
      cases shown
  | @some entry plain same =>
      have inhabited : sequences key ≠ [] := by
        intro empty
        rw [Sequences.dataset, if_pos empty] at shown
        cases shown
      rw [Sequences.dataset_of_ne inhabited] at shown
      have plainValue : plain.value = .list (sequences key) :=
        congrArg Item.value (Option.some.inj shown)
      have value := same.value
      rw [plainValue] at value
      generalize linkedValue : entry.value = form at value
      cases value with
      | @list list _ holds => exact .inr ⟨entry, list, rfl, linkedValue, inhabited, holds⟩

theorem used (represents : linked.Represents sequences) :
    ∃ keys : List Bytes, keys.Nodup ∧ (∀ key, key ∈ keys ↔ sequences key ≠ []) ∧
      linked.usedBytes =
        wrap64 (keys.map fun key => listEntrySize key (sequences key)).sum := by
  obtain ⟨store, refines, stored, accounted⟩ := represents
  have lists : Lists sequences.dataset store.rows := stored ▸ store.lists_rows
  have row : ∀ key item, (key, item) ∈ store.rows →
      sequences key ≠ [] ∧ item = .create key (.list (sequences key)) 0 := by
    intro key item member
    have shown := (lists.complete key item).mp member
    unfold Sequences.dataset at shown
    split_ifs at shown with missing
    exact ⟨missing, (Option.some.inj shown).symm⟩
  refine ⟨store.rows.map Prod.fst, lists.distinct, fun key => ⟨?_, fun inhabited => ?_⟩, ?_⟩
  · intro member
    obtain ⟨⟨own, item⟩, listed, rfl⟩ := List.mem_map.mp member
    exact (row own item listed).1
  · exact List.mem_map_of_mem ((lists.complete key _).mpr
      (Sequences.dataset_of_ne inhabited))
  · rw [refines.usedBytes, accounted, Store.totalBytes_eq_total, total, List.map_map]
    refine congrArg (fun sizes => wrap64 (List.sum sizes))
      (List.map_congr_left fun listed member => ?_)
    have shown := (row listed.1 listed.2 member).2
    simp only [Store.rowBytes, shown, Function.comp_apply]
    rfl

end Represents

/-- List commands on linked lists, from an empty store: the replies are those of the
sequences, and the store that is left is sound for them. -/
theorem list_commands_refine_sequences (calls : List (Readings × ListCommand)) :
    ∃ store, run calls new = some ((Sequences.empty.run (calls.map Prod.snd)).1, store) ∧
      store.Shows (Sequences.empty.run (calls.map Prod.snd)).2 := by
  obtain ⟨store, ran, represents⟩ := Represents.new.run calls
  refine ⟨store, ran, fun key => ?_, fun key entry found => ?_, represents.used⟩
  · rcases represents.stored key with ⟨missing, empty⟩ | ⟨entry, list, found, -, inhabited, -⟩
    · exact iff_of_true missing empty
    · exact iff_of_false (by simp [found]) inhabited
  · rcases represents.stored key with ⟨missing, -⟩ | ⟨own, list, stored, value, inhabited, holds⟩
    · rw [missing] at found
      cases found
    · obtain rfl := Option.some.inj (stored.symm.trans found)
      have back := Deque.Holds.mirror holds
      have heads := Deque.Holds.outermost_eq_none holds
      have tails := Deque.Holds.outermost_eq_none back
      rw [List.reverse_eq_nil_iff] at tails
      exact ⟨list, value, Deque.Holds.values holds, Deque.Holds.values back,
        Deque.Holds.length holds, heads.trans tails.symm⟩

end LinkedStore
end MnemoKV
