import MnemoKV.SortedSets

/-!
# Stored values and entries

The three value types of the engine, their accounted sizes, and the entry
record that a stripe keeps under a key.
-/

namespace MnemoKV

/-- Results of `uint64` arithmetic. -/
def wrap64 (value : Nat) : Nat := value % 2 ^ 64

def maxUint64 : Nat := 2 ^ 64 - 1

def maxInt64 : Int := 2 ^ 63 - 1

def minInt64 : Int := -(2 ^ 63)

/-- A stored value. -/
inductive Value
  | string (data : Bytes)
  | list (items : List Bytes)
  | zset (members : ZSetValue)
  deriving DecidableEq

/-- `ValueType.String` of the tag that goes with a value. -/
def Value.typeName : Value → String
  | .string _ => "string"
  | .list _ => "list"
  | .zset _ => "zset"

def stringEntrySize (key data : Bytes) : Nat :=
  wrap64 (64 + key.length + data.length)

def listEntrySize (key : Bytes) (items : List Bytes) : Nat :=
  wrap64 (64 + key.length + (items.map fun item => 48 + item.length).sum)

def zsetEntrySize (key : Bytes) (value : ZSetValue) : Nat :=
  wrap64 (80 + key.length +
    (value.index.toList.map fun row => 64 + row.1.length).sum)

def Value.size (key : Bytes) : Value → Nat
  | .string data => stringEntrySize key data
  | .list items => listEntrySize key items
  | .zset members => zsetEntrySize key members

/-- `ListValue.LPush` and `RPush`. -/
def pushItems (left : Bool) (values items : List Bytes) : List Bytes :=
  if left then values.reverse ++ items else items ++ values

/-- `ListValue.LPop` and `RPop`. -/
def popItem (left : Bool) (items : List Bytes) : Option (Bytes × List Bytes) :=
  if left then items.head?.map fun item => (item, items.tail)
  else items.getLast?.map fun item => (item, items.dropLast)

/-- The value side of one key, accounted at the size of key and value.
`expiresAtNs = 0` means no expiry. -/
structure Entry where
  key : Bytes
  value : Value
  sizeBytes : Nat
  expiresAtNs : Int
  createdAtNs : Int
  updatedAtNs : Int
  lastAccessNs : Int
  accessCount : Nat
  version : Nat
  sized : sizeBytes = value.size key
  deriving DecidableEq

namespace Entry

/-- A deadline that has come; zero is none. -/
def isExpired (entry : Entry) (now : Int) : Bool :=
  decide (entry.expiresAtNs ≠ 0) && decide (entry.expiresAtNs ≤ now)

def touchRead (entry : Entry) (now : Int) : Entry :=
  { entry with
    lastAccessNs := now, accessCount := (entry.accessCount + 1) % 2 ^ 32 }

def touchWrite (entry : Entry) (now : Int) : Entry :=
  { entry with
    updatedAtNs := now, lastAccessNs := now
    accessCount := (entry.accessCount + 1) % 2 ^ 32
    version := wrap64 (entry.version + 1) }

/-- A new entry, as every creating operation builds it. -/
def create (key : Bytes) (value : Value) (expiresAtNs now : Int) : Entry :=
  { key := key, value := value, sizeBytes := value.size key
    expiresAtNs := expiresAtNs, createdAtNs := now, updatedAtNs := now
    lastAccessNs := now, accessCount := 1, version := 1, sized := rfl }

end Entry
end MnemoKV
