import MnemoKV.CommandExecutor
import MnemoKV.LinkedDeques

/-!
# Lists as linked nodes

`ListValue` as the source lays it out, and the store operations that work on it.
A list command on a store of linked lists never follows a missing node, and it answers
and acts as the command on a store that keeps the items themselves.

Stripes are left out here: the entries form one map.
-/

namespace MnemoKV

open LinkedDeques

abbrev ListValue := Deque Bytes

namespace ListValue

/-- `LPush` and `RPush`: the values one after the other. -/
def push (list : ListValue) (left : Bool) (values : List Bytes) : Option ListValue :=
  values.foldlM (fun list value => Deque.push list left value) list

/-- `listEntrySize`: a walk from the head along the next nodes. -/
def entrySize (key : Bytes) (list : ListValue) : Option Nat :=
  (list.values true).map (listEntrySize key)

/-- The items of a list, from its head. -/
def Holds (list : ListValue) (items : List Bytes) : Prop := Deque.Holds list true items

variable {list : ListValue} {items : List Bytes}

theorem Holds.entrySize (holds : list.Holds items) (key : Bytes) :
    list.entrySize key = some (listEntrySize key items) := by
  rw [ListValue.entrySize, Deque.Holds.values holds, Option.map_some]

theorem Holds.push (holds : list.Holds items) (left : Bool) (values : List Bytes) :
    ∃ list', list.push left values = some list' ∧ list'.Holds (pushItems left values items) := by
  induction values generalizing list items with
  | nil =>
      refine ⟨list, rfl, ?_⟩
      cases left
      · rw [pushItems, if_neg Bool.false_ne_true, List.append_nil]
        exact holds
      · exact holds
  | cons value values induction =>
      cases left with
      | true =>
          obtain ⟨next, pushed, nextHolds⟩ := Deque.Holds.push holds value
          obtain ⟨list', rest, holds'⟩ := induction nextHolds
          refine ⟨list', ?_, ?_⟩
          · rw [ListValue.push, List.foldlM_cons, pushed]
            exact rest
          · rw [pushItems, if_pos rfl] at holds' ⊢
            rwa [List.reverse_cons, List.append_assoc]
      | false =>
          obtain ⟨next, pushed, nextHolds⟩ := Deque.Holds.concat holds value
          obtain ⟨list', rest, holds'⟩ := induction nextHolds
          refine ⟨list', ?_, ?_⟩
          · rw [ListValue.push, List.foldlM_cons]
            exact Option.bind_eq_some_iff.mpr ⟨next, pushed, rest⟩
          · rw [pushItems, if_neg Bool.false_ne_true] at holds' ⊢
            rwa [List.append_assoc] at holds'

theorem Holds.pop {left : Bool} {item : Bytes} {rest : List Bytes} (holds : list.Holds items)
    (popped : popItem left items = some (item, rest)) :
    ∃ list' : ListValue, Deque.pop list left = some (some item, list') ∧ list'.Holds rest := by
  cases left with
  | true =>
      obtain ⟨first, head, result⟩ := Option.map_eq_some_iff.mp popped
      obtain ⟨rfl, rfl⟩ := Prod.mk.inj result
      obtain ⟨tail, rfl⟩ := List.head?_eq_some_iff.mp head
      exact Deque.Holds.pop holds
  | false =>
      obtain ⟨last, final, result⟩ := Option.map_eq_some_iff.mp popped
      obtain ⟨rfl, rfl⟩ := Prod.mk.inj result
      obtain ⟨front, rfl⟩ := List.getLast?_eq_some_iff.mp final
      rw [List.dropLast_concat]
      exact Deque.Holds.dropLast holds

theorem Holds.pop_none {left : Bool} (holds : list.Holds items)
    (nothing : popItem left items = none) : Deque.pop list left = some (none, list) := by
  have empty : items = [] := by
    cases left <;> simpa [popItem] using nothing
  subst empty
  cases left with
  | true => exact Deque.Holds.pop_nil holds
  | false => exact Deque.Holds.pop_nil (Deque.Holds.mirror holds)

end ListValue

/-! ### Entries and stores -/

/-- A value whose lists are linked. -/
inductive LinkedValue
  | string (data : Bytes)
  | list (items : ListValue)
  | zset (members : ZSetValue)

/-- An entry with a linked value. -/
structure LinkedEntry where
  key : Bytes
  value : LinkedValue
  sizeBytes : Nat
  expiresAtNs : Int
  createdAtNs : Int
  updatedAtNs : Int
  lastAccessNs : Int
  accessCount : Nat
  version : Nat

namespace LinkedEntry

def isExpired (entry : LinkedEntry) (now : Int) : Bool :=
  decide (entry.expiresAtNs ≠ 0) && decide (entry.expiresAtNs ≤ now)

def touchWrite (entry : LinkedEntry) (now : Int) : LinkedEntry :=
  { entry with
    updatedAtNs := now, lastAccessNs := now
    accessCount := (entry.accessCount + 1) % 2 ^ 32
    version := wrap64 (entry.version + 1) }

end LinkedEntry

/-- A store of linked values with its counter. -/
structure LinkedStore where
  entries : Bytes → Option LinkedEntry
  usedBytes : Nat

namespace LinkedStore

def new : LinkedStore := { entries := fun _ => none, usedBytes := 0 }

def addUsed (store : LinkedStore) (bytes : Nat) : LinkedStore :=
  { store with usedBytes := wrap64 (store.usedBytes + bytes) }

def subUsed (store : LinkedStore) (bytes : Nat) : LinkedStore :=
  { store with usedBytes := wrap64 (store.usedBytes + (2 ^ 64 - wrap64 bytes)) }

def adjustUsed (store : LinkedStore) (oldSize newSize : Nat) : LinkedStore :=
  if newSize ≥ oldSize then store.addUsed (newSize - oldSize)
  else store.subUsed (oldSize - newSize)

def assign (store : LinkedStore) (entry : LinkedEntry) : LinkedStore :=
  { store with entries := Function.update store.entries entry.key (some entry) }

def unassign (store : LinkedStore) (key : Bytes) : LinkedStore :=
  { store with entries := Function.update store.entries key none }

/-- The expiry check at the start of every operation. -/
def expire (store : LinkedStore) (now : Int) (key : Bytes) : LinkedStore :=
  match store.entries key with
  | some entry =>
      if entry.isExpired now then (store.unassign key).subUsed entry.sizeBytes
      else store
  | none => store

/-- Accounts a changed list and writes its entry. -/
def rewrite (store : LinkedStore) (entry : LinkedEntry) (list : ListValue) (now : Int) :
    Option LinkedStore := do
  let size ← list.entrySize entry.key
  some ((store.adjustUsed entry.sizeBytes size).assign
    ({ entry with value := .list list, sizeBytes := size }.touchWrite now))

/-- Accounts a new list and writes its entry. -/
def insertNew (store : LinkedStore) (key : Bytes) (list : ListValue) (now : Int) :
    Option LinkedStore := do
  let size ← list.entrySize key
  some ((store.addUsed size).assign
    { key, value := .list list, sizeBytes := size, expiresAtNs := 0, createdAtNs := now
      updatedAtNs := now, lastAccessNs := now, accessCount := 1, version := 1 })

/-- Pushes the items one by one, onto a new list if there is none. -/
def listPush (store : LinkedStore) (now : Int) (key : Bytes) (values : List Bytes)
    (left : Bool) : Option (Except Store.StoreError Nat × LinkedStore) :=
  let store := store.expire now key
  match store.entries key with
  | some entry =>
      match entry.value with
      | .list list => do
          let list ← list.push left values
          let store ← store.rewrite entry list now
          some (.ok list.length, store)
      | _ => some (.error .wrongType, store)
  | none => do
      let list ← ListValue.push .new left values
      let store ← store.insertNew key list now
      some (.ok list.length, store)

def listPop (store : LinkedStore) (now : Int) (key : Bytes) (left : Bool) :
    Option (Except Store.StoreError (Option Bytes) × LinkedStore) :=
  let store := store.expire now key
  match store.entries key with
  | none => some (.ok none, store)
  | some entry =>
      match entry.value with
      | .list list => do
          match ← Deque.pop list left with
          | (none, _) => some (.ok none, store)
          | (some item, list) =>
              if list.length = 0 then
                some (.ok (some item), (store.unassign key).subUsed entry.sizeBytes)
              else do
                let store ← store.rewrite entry list now
                some (.ok (some item), store)
      | _ => some (.error .wrongType, store)

/-- `cmdLPush` and `cmdRPush`. -/
def cmdPush (left : Bool) (now : Readings) (args : List Bytes) (store : LinkedStore) :
    Option (Frame × LinkedStore) :=
  match args with
  | key :: first :: rest => do
      match ← store.listPush (now 0) key (first :: rest) left with
      | (.ok length, store) => some (.integer length, store)
      | (.error _, store) => some (wrongTypeError, store)
  | _ => some (wrongArgs (if left then "lpush" else "rpush"), store)

/-- `cmdLPop` and `cmdRPop`. -/
def cmdPop (left : Bool) (now : Readings) (args : List Bytes) (store : LinkedStore) :
    Option (Frame × LinkedStore) :=
  match args with
  | [key] => do
      match ← store.listPop (now 0) key left with
      | (.ok (some item), store) => some (.bulkBytes item, store)
      | (.ok none, store) => some (.nullBulk, store)
      | (.error _, store) => some (wrongTypeError, store)
  | _ => some (wrongArgs (if left then "lpop" else "rpop"), store)

def cmdLLen (now : Readings) (args : List Bytes) (store : LinkedStore) :
    Option (Frame × LinkedStore) :=
  match args with
  | [key] =>
      let store := store.expire (now 0) key
      match store.entries key with
      | none => some (.integer 0, store)
      | some entry =>
          match entry.value with
          | .list list => some (.integer list.length, store)
          | _ => some (wrongTypeError, store)
  | _ => some (wrongArgs "llen", store)

end LinkedStore

/-! ### Refinement -/

/-- A linked value stands for a value. -/
inductive LinkedValue.Refines : LinkedValue → Value → Prop
  | string (data : Bytes) : Refines (.string data) (.string data)
  | list {list : ListValue} {items : List Bytes} (holds : list.Holds items) :
      Refines (.list list) (.list items)
  | zset (members : ZSetValue) : Refines (.zset members) (.zset members)

/-- Equal but for the representation of the value. -/
structure LinkedEntry.Refines (linked : LinkedEntry) (entry : Entry) : Prop where
  key : linked.key = entry.key
  value : linked.value.Refines entry.value
  sizeBytes : linked.sizeBytes = entry.sizeBytes
  expiresAtNs : linked.expiresAtNs = entry.expiresAtNs
  createdAtNs : linked.createdAtNs = entry.createdAtNs
  updatedAtNs : linked.updatedAtNs = entry.updatedAtNs
  lastAccessNs : linked.lastAccessNs = entry.lastAccessNs
  accessCount : linked.accessCount = entry.accessCount
  version : linked.version = entry.version

namespace LinkedStore

/-- Key by key, and with one counter. -/
structure Refines (linked : LinkedStore) (store : Store) : Prop where
  entries : ∀ key, Option.Rel LinkedEntry.Refines (linked.entries key) (store.find key)
  usedBytes : linked.usedBytes = store.usedBytes

namespace Refines

variable {linked : LinkedStore} {store : Store}

theorem adjustUsed (refines : Refines linked store) (oldSize newSize : Nat) :
    Refines (linked.adjustUsed oldSize newSize) (store.adjustUsed oldSize newSize) := by
  unfold LinkedStore.adjustUsed Store.adjustUsed
  split_ifs
  · exact ⟨refines.entries, congrArg (fun used => wrap64 (used + _)) refines.usedBytes⟩
  · exact ⟨refines.entries, congrArg (fun used => wrap64 (used + _)) refines.usedBytes⟩

theorem assign (refines : Refines linked store) {entry : LinkedEntry} {plain : Entry}
    (same : entry.Refines plain) : Refines (linked.assign entry) (store.assign plain) := by
  refine ⟨fun key => ?_, refines.usedBytes⟩
  rw [Store.find_assign, ← same.key]
  by_cases own : entry.key = key
  · subst own
    simp only [LinkedStore.assign, Function.update_self, if_pos]
    exact .some same
  · simp only [LinkedStore.assign, Function.update_of_ne (Ne.symm own), if_neg own]
    exact refines.entries key

/-- Removing an entry and its size. -/
theorem drop (refines : Refines linked store) (key : Bytes) (bytes : Nat) :
    Refines ((linked.unassign key).subUsed bytes) ((store.unassign key).subUsed bytes) := by
  refine ⟨fun other => ?_, congrArg (fun used => wrap64 (used + _)) refines.usedBytes⟩
  rw [Store.find_subUsed, Store.find_unassign]
  by_cases own : key = other
  · subst own
    simp only [LinkedStore.subUsed, LinkedStore.unassign, Function.update_self, if_pos]
    exact .none
  · simp only [LinkedStore.subUsed, LinkedStore.unassign,
      Function.update_of_ne (Ne.symm own), if_neg own]
    exact refines.entries other

theorem isExpired {entry : LinkedEntry} {plain : Entry} (same : entry.Refines plain)
    (now : Int) : entry.isExpired now = plain.isExpired now := by
  rw [LinkedEntry.isExpired, Entry.isExpired, same.expiresAtNs]

theorem expire (refines : Refines linked store) (now : Int) (key : Bytes) :
    Refines (linked.expire now key) (store.expire now key) := by
  unfold LinkedStore.expire Store.expire
  have related := refines.entries key
  generalize linked.entries key = stored at related
  generalize store.find key = plain at related
  cases related with
  | none => exact refines
  | some same =>
      simp only [isExpired same, same.sizeBytes]
      split_ifs
      · exact refines.drop key _
      · exact refines

theorem rewrite (refines : Refines linked store) {entry : LinkedEntry} {plain : Entry}
    (same : entry.Refines plain) {list : ListValue} {items : List Bytes}
    (holds : list.Holds items) (now : Int) :
    ∃ linked', linked.rewrite entry list now = some linked' ∧
      Refines linked' (store.rewrite plain (.list items) now) := by
  rw [LinkedStore.rewrite, holds.entrySize, same.sizeBytes, same.key]
  refine ⟨_, rfl, (refines.adjustUsed _ _).assign ?_⟩
  refine ⟨rfl, .list holds, rfl, same.expiresAtNs, same.createdAtNs, rfl, rfl, ?_, ?_⟩
  · exact congrArg (fun count => (count + 1) % 2 ^ 32) same.accessCount
  · exact congrArg (fun version => wrap64 (version + 1)) same.version

theorem insertNew (refines : Refines linked store) {list : ListValue} {items : List Bytes}
    (holds : list.Holds items) (key : Bytes) (now : Int) :
    ∃ linked', linked.insertNew key list now = some linked' ∧
      Refines linked' (store.insertNew key (.list items) now) := by
  have added : Refines (linked.addUsed (listEntrySize key items))
      (store.addUsed (listEntrySize key items)) :=
    ⟨refines.entries, congrArg (fun used => wrap64 (used + _)) refines.usedBytes⟩
  rw [LinkedStore.insertNew, holds.entrySize]
  exact ⟨_, rfl, added.assign ⟨rfl, .list holds, rfl, rfl, rfl, rfl, rfl, rfl, rfl⟩⟩

end Refines

/-- An operation succeeds, with the result of the plain one and a store that refines
what the plain one leaves. -/
def Agrees {Result : Type} (outcome : Option (Result × LinkedStore))
    (plain : Result × Store) : Prop :=
  ∃ linked, outcome = some (plain.1, linked) ∧ Refines linked plain.2

namespace Refines

variable {linked : LinkedStore} {store : Store}

theorem listPush (refines : Refines linked store) (now : Int) (key : Bytes)
    (values : List Bytes) (left : Bool) :
    Agrees (linked.listPush now key values left) (store.listPush now key values left) := by
  have live := refines.expire now key
  have related := live.entries key
  unfold LinkedStore.listPush Store.listPush
  generalize linked.expire now key = linked at live related ⊢
  generalize store.expire now key = store at live related ⊢
  dsimp only
  generalize linked.entries key = stored at related ⊢
  generalize store.find key = plain at related ⊢
  cases related with
  | none =>
      obtain ⟨list, pushed, holds⟩ := ListValue.Holds.push (Deque.holds_new true) left values
      obtain ⟨linked', inserted, refines'⟩ := live.insertNew holds key now
      refine ⟨linked', ?_, refines'⟩
      simp only [pushed, inserted, Deque.Holds.length holds, Option.bind_eq_bind,
        Option.bind_some]
  | @some entry plain same =>
      have value := same.value
      dsimp only
      generalize entry.value = linkedValue at value ⊢
      generalize plain.value = plainValue at value ⊢
      cases value with
      | string data => exact ⟨linked, rfl, live⟩
      | zset members => exact ⟨linked, rfl, live⟩
      | list holds =>
          obtain ⟨list, pushed, holds'⟩ := holds.push left values
          obtain ⟨linked', written, refines'⟩ := live.rewrite same holds' now
          refine ⟨linked', ?_, refines'⟩
          simp only [pushed, written, Deque.Holds.length holds', Option.bind_eq_bind,
            Option.bind_some]

theorem listPop (refines : Refines linked store) (now : Int) (key : Bytes) (left : Bool) :
    Agrees (linked.listPop now key left) (store.listPop now key left) := by
  have live := refines.expire now key
  have related := live.entries key
  unfold LinkedStore.listPop Store.listPop
  generalize linked.expire now key = linked at live related ⊢
  generalize store.expire now key = store at live related ⊢
  dsimp only
  generalize linked.entries key = stored at related ⊢
  generalize store.find key = plain at related ⊢
  cases related with
  | none => exact ⟨linked, rfl, live⟩
  | @some entry plain same =>
      have value := same.value
      dsimp only
      generalize entry.value = linkedValue at value ⊢
      generalize plain.value = plainValue at value ⊢
      cases value with
      | string data => exact ⟨linked, rfl, live⟩
      | zset members => exact ⟨linked, rfl, live⟩
      | @list list items holds =>
          dsimp only
          cases popped : popItem left items with
          | none =>
              refine ⟨linked, ?_, live⟩
              rw [holds.pop_none popped]
              rfl
          | some result =>
              obtain ⟨item, rest⟩ := result
              obtain ⟨list', taken, holds'⟩ := holds.pop popped
              have length : list'.length = rest.length := Deque.Holds.length holds'
              simp only [taken, Option.bind_eq_bind, Option.bind_some, length]
              by_cases last : rest.length = 0
              · simp only [if_pos last, same.sizeBytes]
                exact ⟨_, rfl, live.drop key _⟩
              · simp only [if_neg last]
                obtain ⟨linked', written, refines'⟩ := live.rewrite same holds' now
                exact ⟨linked', by rw [written]; rfl, refines'⟩

theorem cmdPush (refines : Refines linked store) (left : Bool) (now : Readings)
    (args : List Bytes) :
    Agrees (linked.cmdPush left now args) (Executor.cmdPush left now args store) := by
  rcases args with _ | ⟨key, _ | ⟨first, rest⟩⟩
  · exact ⟨linked, rfl, refines⟩
  · exact ⟨linked, rfl, refines⟩
  · obtain ⟨linked', pushed, refines'⟩ :=
      refines.listPush (now 0) key (first :: rest) left
    unfold LinkedStore.cmdPush Executor.cmdPush
    simp only [pushed, Option.bind_eq_bind, Option.bind_some]
    cases (store.listPush (now 0) key (first :: rest) left).1 with
    | ok length => exact ⟨linked', rfl, refines'⟩
    | error failure => exact ⟨linked', rfl, refines'⟩

theorem cmdPop (refines : Refines linked store) (left : Bool) (now : Readings)
    (args : List Bytes) :
    Agrees (linked.cmdPop left now args) (Executor.cmdPop left now args store) := by
  rcases args with _ | ⟨key, _ | ⟨extra, rest⟩⟩
  · exact ⟨linked, rfl, refines⟩
  · obtain ⟨linked', popped, refines'⟩ := refines.listPop (now 0) key left
    unfold LinkedStore.cmdPop Executor.cmdPop
    simp only [popped, Option.bind_eq_bind, Option.bind_some]
    cases (store.listPop (now 0) key left).1 with
    | error failure => exact ⟨linked', rfl, refines'⟩
    | ok item =>
        cases item with
        | none => exact ⟨linked', rfl, refines'⟩
        | some item => exact ⟨linked', rfl, refines'⟩
  · exact ⟨linked, rfl, refines⟩

theorem cmdLLen (refines : Refines linked store) (now : Readings) (args : List Bytes) :
    Agrees (linked.cmdLLen now args) (Executor.cmdLLen now args store) := by
  rcases args with _ | ⟨key, _ | ⟨extra, rest⟩⟩
  · exact ⟨linked, rfl, refines⟩
  · have live := refines.expire (now 0) key
    have related := live.entries key
    unfold LinkedStore.cmdLLen Executor.cmdLLen Store.get
    dsimp only
    generalize linked.expire (now 0) key = linked at live related ⊢
    generalize store.expire (now 0) key = store at live related ⊢
    generalize linked.entries key = stored at related ⊢
    generalize store.find key = plain at related ⊢
    cases related with
    | none => exact ⟨linked, rfl, live⟩
    | @some entry plain same =>
        have value := same.value
        simp only [Bool.false_eq_true, if_false]
        generalize entry.value = linkedValue at value ⊢
        generalize plain.value = plainValue at value ⊢
        cases value with
        | string data => exact ⟨linked, rfl, live⟩
        | zset members => exact ⟨linked, rfl, live⟩
        | list holds =>
            refine ⟨linked, ?_, live⟩
            simp only [Deque.Holds.length holds]
  · exact ⟨linked, rfl, refines⟩

end Refines
end LinkedStore
end MnemoKV
