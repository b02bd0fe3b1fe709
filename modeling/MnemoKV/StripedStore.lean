import MnemoKV.StoredValues
import Mathlib.Data.Nat.Bitwise

/-!
# The striped key dictionary

A store is a fixed number of stripes, each a map from keys to entries, and a
byte counter.  A key lives in the stripe that its FNV-1a hash selects.  Every
operation takes the clock reading it makes, so that a caller decides what the
clock shows; lazy expiry is the helper `expire`, which each operation of the
source repeats inline.
-/

namespace MnemoKV

/-- 32-bit FNV-1a. -/
def fnv32a (bytes : Bytes) : Nat :=
  (bytes.foldl (fun hash byte => (hash ^^^ byte.toUInt32) * 16777619)
    (2166136261 : UInt32)).toNat

/-- `nextPowerOfTwo`: doubling from `power` until `target` is reached. -/
def doubleUntil : Nat → Nat → Nat → Nat
  | 0, power, _ => power
  | fuel + 1, power, target =>
      if power < target then doubleUntil fuel (2 * power) target else power

def nextPowerOfTwo (target : Nat) : Nat := doubleUntil target 1 target

theorem doubleUntil_power (fuel exponent target : Nat) :
    ∃ result, doubleUntil fuel (2 ^ exponent) target = 2 ^ result := by
  induction fuel generalizing exponent with
  | zero => exact ⟨exponent, rfl⟩
  | succ fuel induction =>
      unfold doubleUntil
      split_ifs with below
      · rw [show 2 * 2 ^ exponent = 2 ^ (exponent + 1) from
          (Nat.pow_succ' ..).symm]
        exact induction (exponent + 1)
      · exact ⟨exponent, rfl⟩

abbrev Stripe := Std.ExtTreeMap Bytes Entry compare

/-- The index of the stripe of a key: a mask when the count is a power of two,
a remainder otherwise. -/
def stripeIndex (count : Nat) (key : Bytes) : Nat :=
  if nextPowerOfTwo count = count then fnv32a key &&& (count - 1)
  else fnv32a key % count

theorem stripeIndex_eq_mod (count : Nat) (key : Bytes) :
    stripeIndex count key = fnv32a key % count := by
  unfold stripeIndex
  split_ifs with powerTwo
  · obtain ⟨exponent, isPower⟩ := doubleUntil_power count 0 count
    have countEq : count = 2 ^ exponent := powerTwo.symm.trans isPower
    rw [countEq, Nat.and_two_pow_sub_one_eq_mod]
  · rfl

/-- A call of `subUsed`: the bytes counted before it, the counter and the amount. -/
structure Subtraction where
  content : Int
  counter : Nat
  amount : Nat

/-- `Store`; the last two fields of its data are ghosts that no function reads: what
the counter would be without wrapping, and the subtractions made so far. -/
structure Store where
  count : Nat
  positive : 0 < count
  stripes : Fin count → Stripe
  usedBytes : Nat
  balance : Int
  subtractions : List Subtraction
  placed : ∀ stripe key entry, (stripes stripe)[key]? = some entry →
    entry.key = key ∧ stripeIndex count key = stripe

namespace Store

/-- `NewStore`; both rounding branches end with the requested count. -/
def new (stripeCount : Int) : Store :=
  { count := if stripeCount < 1 then 1 else stripeCount.toNat
    positive := by split_ifs <;> omega
    stripes := fun _ => ∅
    usedBytes := 0
    balance := 0
    subtractions := []
    placed := by simp }

def stripeFor (store : Store) (key : Bytes) : Fin store.count :=
  ⟨stripeIndex store.count key, by
    rw [stripeIndex_eq_mod]
    exact Nat.mod_lt _ store.positive⟩

/-- The entry under a key, expired or not. -/
def find (store : Store) (key : Bytes) : Option Entry :=
  (store.stripes (store.stripeFor key))[key]?

/-- `addUsed` and `subUsed` on the atomic counter. -/
def addUsed (store : Store) (bytes : Nat) : Store :=
  { store with
    usedBytes := wrap64 (store.usedBytes + bytes)
    balance := store.balance + bytes }

def subUsed (store : Store) (bytes : Nat) : Store :=
  { store with
    usedBytes := wrap64 (store.usedBytes + (2 ^ 64 - wrap64 bytes))
    balance := store.balance - bytes
    subtractions := ⟨store.balance, store.usedBytes, bytes⟩ :: store.subtractions }

def adjustUsed (store : Store) (oldSize newSize : Nat) : Store :=
  if newSize ≥ oldSize then store.addUsed (newSize - oldSize)
  else store.subUsed (oldSize - newSize)

/-- `st.entries[entry.Key] = entry`. -/
def assign (store : Store) (entry : Entry) : Store :=
  { store with
    stripes := Function.update store.stripes (store.stripeFor entry.key)
      ((store.stripes (store.stripeFor entry.key)).insert entry.key entry)
    placed := by
      intro stripe key stored present
      by_cases sameStripe : stripe = store.stripeFor entry.key
      · subst sameStripe
        rw [Function.update_self, Std.ExtTreeMap.getElem?_insert] at present
        split_ifs at present with sameKey
        · have sameKey := Std.LawfulEqCmp.eq_of_compare sameKey
          obtain rfl := Option.some.inj present
          exact ⟨sameKey, by rw [← sameKey]; rfl⟩
        · exact store.placed _ _ _ present
      · rw [Function.update_of_ne sameStripe] at present
        exact store.placed _ _ _ present }

/-- `delete(st.entries, key)`. -/
def unassign (store : Store) (key : Bytes) : Store :=
  { store with
    stripes := Function.update store.stripes (store.stripeFor key)
      ((store.stripes (store.stripeFor key)).erase key)
    placed := by
      intro stripe other stored present
      by_cases sameStripe : stripe = store.stripeFor key
      · subst sameStripe
        rw [Function.update_self, Std.ExtTreeMap.getElem?_erase] at present
        split_ifs at present
        exact store.placed _ _ _ present
      · rw [Function.update_of_ne sameStripe] at present
        exact store.placed _ _ _ present }

/-- An expired entry under the key is deleted. -/
def expire (store : Store) (now : Int) (key : Bytes) : Store :=
  match store.find key with
  | some entry =>
      if entry.isExpired now then
        (store.unassign key).subUsed entry.sizeBytes
      else store
  | none => store

/-- `Store.get`; `touch` distinguishes `Get` from `Peek`. -/
def get (store : Store) (now : Int) (key : Bytes) (touch : Bool) :
    Option Entry × Store :=
  let store := store.expire now key
  match store.find key with
  | none => (none, store)
  | some entry =>
      if touch then
        (some (entry.touchRead now), store.assign (entry.touchRead now))
      else (some entry, store)

/-- The condition of a `SET`: none, `NX` or `XX`. -/
inductive SetCondition
  | always
  | ifMissing
  | ifPresent
  deriving DecidableEq, Repr

def setString (store : Store) (now : Int) (key data : Bytes)
    (expiresAtNs : Int) (condition : SetCondition) : Bool × Store :=
  let store := store.expire now key
  let entry := Entry.create key (.string data) expiresAtNs now
  match store.find key with
  | some existing =>
      if condition = .ifMissing then (false, store)
      else (true, (store.adjustUsed existing.sizeBytes entry.sizeBytes).assign
        { entry with
          createdAtNs := existing.createdAtNs
          accessCount := (existing.accessCount + 1) % 2 ^ 32
          version := wrap64 (existing.version + 1) })
  | none =>
      if condition = .ifPresent then (false, store)
      else (true, (store.addUsed entry.sizeBytes).assign entry)

def deleteWithSize (store : Store) (key : Bytes) : Option Nat × Store :=
  match store.find key with
  | none => (none, store)
  | some entry =>
      (some entry.sizeBytes, (store.unassign key).subUsed entry.sizeBytes)

def delete (store : Store) (key : Bytes) : Bool × Store :=
  let (freed, store) := store.deleteWithSize key
  (freed.isSome, store)

/-- Everything stored, stripe by stripe. -/
def allEntries (store : Store) : List Entry :=
  (List.finRange store.count).flatMap fun stripe =>
    (store.stripes stripe).toList.map Prod.snd

/-- `st.entries = make(map[string]*Entry)` in every stripe. -/
def emptied (store : Store) : Store :=
  { store with stripes := fun _ => ∅, placed := by simp }

@[simp]
theorem find_emptied (store : Store) (key : Bytes) : store.emptied.find key = none := by
  simp [emptied, find]

def flush (store : Store) : Store :=
  store.allEntries.foldl (fun state entry => state.subUsed entry.sizeBytes)
    store.emptied

/-- The sentinel errors of `engine/errors.go` that the store returns. -/
inductive StoreError
  | wrongType
  | notInteger
  | intOverflow
  deriving DecidableEq, Repr

/-- Puts a rewritten entry back and adjusts the byte counter. -/
def rewrite (store : Store) (entry : Entry) (value : Value) (now : Int) :
    Store :=
  (store.adjustUsed entry.sizeBytes (value.size entry.key)).assign
    (({ entry with
        value := value
        sizeBytes := value.size entry.key
        sized := rfl }).touchWrite now)

def insertNew (store : Store) (key : Bytes) (value : Value) (now : Int) :
    Store :=
  (store.addUsed (value.size key)).assign (Entry.create key value 0 now)

theorem key_of_find {store : Store} {key : Bytes} {entry : Entry}
    (found : store.find key = some entry) : entry.key = key :=
  (store.placed _ _ _ found).1

/-! ### What a key finds after an update -/

@[simp]
theorem find_addUsed (store : Store) (bytes : Nat) (key : Bytes) :
    (store.addUsed bytes).find key = store.find key :=
  rfl

@[simp]
theorem find_subUsed (store : Store) (bytes : Nat) (key : Bytes) :
    (store.subUsed bytes).find key = store.find key :=
  rfl

@[simp]
theorem find_adjustUsed (store : Store) (oldSize newSize : Nat) (key : Bytes) :
    (store.adjustUsed oldSize newSize).find key = store.find key := by
  unfold adjustUsed
  split_ifs <;> rfl

theorem find_assign (store : Store) (other : Bytes) (entry : Entry) :
    (store.assign entry).find other =
      if entry.key = other then some entry else store.find other := by
  change (Function.update store.stripes (store.stripeFor entry.key)
    ((store.stripes (store.stripeFor entry.key)).insert entry.key entry)
      (store.stripeFor other))[other]? = _
  by_cases sameStripe : store.stripeFor other = store.stripeFor entry.key
  · simp [sameStripe, Std.ExtTreeMap.getElem?_insert, find]
  · have distinct : entry.key ≠ other := fun same => sameStripe (by rw [same])
    simp [Function.update_of_ne sameStripe, distinct, find]

theorem find_unassign (store : Store) (key other : Bytes) :
    (store.unassign key).find other =
      if key = other then none else store.find other := by
  change (Function.update store.stripes (store.stripeFor key)
    ((store.stripes (store.stripeFor key)).erase key)
      (store.stripeFor other))[other]? = _
  by_cases sameStripe : store.stripeFor other = store.stripeFor key
  · simp [sameStripe, Std.ExtTreeMap.getElem?_erase, find]
  · have distinct : key ≠ other := fun same => sameStripe (by rw [same])
    simp [Function.update_of_ne sameStripe, distinct, find]

end Store
end MnemoKV
