import MnemoKV.DecimalNumerals
import MnemoKV.StripedStore

/-!
# Typed operations of the store

The operations behind the write commands: increment, expiry, list push and
pop, sorted-set insertion.  Each looks its key up through `expire`, exactly
once, at the reading it is given.
-/

namespace MnemoKV

/-- Wrapping of `int64` arithmetic. -/
def wrapInt64 (value : Int) : Int := Int.bmod value (2 ^ 64)

/-- One non-zero digit followed by digits. -/
def canonicalDigits : Bytes → Bool
  | [] => false
  | first :: rest =>
      decide (49 ≤ first) && decide (first ≤ 57) &&
        rest.all DecimalNumerals.isDigit

def inInt64 (value : Int) : Option Int :=
  if minInt64 ≤ value ∧ value ≤ maxInt64 then some value else none

/-- Canonical decimal `int64` text: no plus sign, leading zero or minus zero. -/
def parseInt64 (text : Bytes) : Option Int :=
  match text with
  | [] => none
  | [48] => some 0
  | 45 :: digits =>
      if canonicalDigits digits then inInt64 (-(DecimalNumerals.value digits : Int))
      else none
  | digits =>
      if canonicalDigits digits then inInt64 (DecimalNumerals.value digits)
      else none

def formatInt64 (value : Int) : Bytes := DecimalNumerals.writeInt value

def expirationFromNow (value unitNanos now : Int) : Option Int :=
  if value ≤ 0 ∨ value > maxInt64 / unitNanos then none
  else if now > maxInt64 - value * unitNanos then none
  else some (now + value * unitNanos)

namespace Store

def incrementBy (store : Store) (now : Int) (key : Bytes) (delta : Int) :
    Except StoreError Int × Store :=
  let store := store.expire now key
  let overflows (current : Int) : Bool :=
    decide (0 < delta ∧ current > maxInt64 - delta) ||
      decide (delta < 0 ∧ current < minInt64 - delta)
  match store.find key with
  | some entry =>
      match entry.value with
      | .string data =>
          match parseInt64 data with
          | none => (.error .notInteger, store)
          | some current =>
              if overflows current then (.error .intOverflow, store)
              else (.ok (current + delta),
                store.rewrite entry (.string (formatInt64 (current + delta)))
                  now)
      | _ => (.error .wrongType, store)
  | none =>
      if overflows 0 then (.error .intOverflow, store)
      else (.ok (0 + delta),
        store.insertNew key (.string (formatInt64 (0 + delta))) now)

def setExpireAt (store : Store) (now : Int) (key : Bytes)
    (expiresAtNs : Int) : Bool × Store :=
  let store := store.expire now key
  match store.find key with
  | none => (false, store)
  | some entry =>
      (true, store.assign
        (({ entry with expiresAtNs := expiresAtNs }).touchWrite now))

def listPush (store : Store) (now : Int) (key : Bytes) (values : List Bytes)
    (left : Bool) : Except StoreError Nat × Store :=
  let store := store.expire now key
  match store.find key with
  | some entry =>
      match entry.value with
      | .list items =>
          let pushed := pushItems left values items
          (.ok pushed.length, store.rewrite entry (.list pushed) now)
      | _ => (.error .wrongType, store)
  | none =>
      let pushed := pushItems left values []
      (.ok pushed.length, store.insertNew key (.list pushed) now)

/-- Pops one item; the key goes away with its last item. -/
def listPop (store : Store) (now : Int) (key : Bytes) (left : Bool) :
    Except StoreError (Option Bytes) × Store :=
  let store := store.expire now key
  match store.find key with
  | none => (.ok none, store)
  | some entry =>
      match entry.value with
      | .list items =>
          match popItem left items with
          | none => (.ok none, store)
          | some (item, rest) =>
              if rest.length = 0 then
                (.ok (some item), (store.unassign key).subUsed entry.sizeBytes)
              else (.ok (some item), store.rewrite entry (.list rest) now)
      | _ => (.error .wrongType, store)

def zsetAdd (store : Store) (now : Int) (key : Bytes)
    (pairs : List (Number × Bytes)) : Except StoreError Nat × Store :=
  let store := store.expire now key
  match store.find key with
  | some entry =>
      match entry.value with
      | .zset members =>
          let (added, updated) := members.addAll pairs
          (.ok added, store.rewrite entry (.zset updated) now)
      | _ => (.error .wrongType, store)
  | none =>
      let (added, created) := ZSetValue.empty.addAll pairs
      (.ok added, store.insertNew key (.zset created) now)

end Store
end MnemoKV
