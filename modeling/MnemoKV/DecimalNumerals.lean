import Mathlib.Data.Nat.Digits.Lemmas

/-!
# Decimal numerals over bytes

Writing naturals and integers as decimal text, and reading such text back.
Reading accepts what the usual base-ten library readers accept: an optional
sign followed by one or more digits, leading zeros included.
-/

namespace DecimalNumerals

def isDigit (byte : UInt8) : Bool :=
  decide (48 ≤ byte) && decide (byte ≤ 57)

def digitByte (digit : Nat) : UInt8 :=
  (48 + digit).toUInt8

def digitValue (byte : UInt8) : Nat :=
  byte.toNat - 48

/-- Shortest decimal text of a natural number. -/
def write (number : Nat) : List UInt8 :=
  if number = 0 then [48]
  else ((Nat.digits 10 number).map digitByte).reverse

/-- The number that a string of digits denotes. -/
def value (text : List UInt8) : Nat :=
  text.foldl (fun total byte => digitValue byte + 10 * total) 0

/-- The number that digits stand for. -/
def read (text : List UInt8) : Option Nat :=
  if text = [] ∨ text.all isDigit = false then none else some (value text)

def writeInt (number : Int) : List UInt8 :=
  if number < 0 then 45 :: write number.natAbs else write number.natAbs

/-- Signed numerals; a leading `+` or `-` is allowed. -/
def readInt (text : List UInt8) : Option Int :=
  match text with
  | 43 :: digits => (read digits).map fun number : Nat => (number : Int)
  | 45 :: digits => (read digits).map fun number : Nat => -(number : Int)
  | digits => (read digits).map fun number : Nat => (number : Int)

theorem toNat_digitByte {digit : Nat} (small : digit < 10) :
    (digitByte digit).toNat = 48 + digit := by
  simp [digitByte]
  omega

theorem digitValue_digitByte {digit : Nat} (small : digit < 10) :
    digitValue (digitByte digit) = digit := by
  rw [digitValue, toNat_digitByte small]
  omega

theorem isDigit_iff (byte : UInt8) :
    isDigit byte = true ↔ 48 ≤ byte.toNat ∧ byte.toNat ≤ 57 := by
  simp [isDigit, UInt8.le_iff_toNat_le]

theorem isDigit_digitByte {digit : Nat} (small : digit < 10) :
    isDigit (digitByte digit) = true := by
  rw [isDigit_iff, toNat_digitByte small]
  omega

theorem isDigit_of_mem_write {number : Nat} {byte : UInt8}
    (member : byte ∈ write number) : isDigit byte = true := by
  unfold write at member
  split_ifs at member with zero
  · obtain rfl := List.mem_singleton.mp member
    decide
  · obtain ⟨digit, present, rfl⟩ := List.mem_map.mp (List.mem_reverse.mp member)
    exact isDigit_digitByte (Nat.digits_lt_base (by decide) present)

theorem write_ne_nil (number : Nat) : write number ≠ [] := by
  unfold write
  split_ifs with zero
  · simp
  · simpa [Nat.digits_eq_nil_iff_eq_zero] using zero

theorem length_write_le {number count : Nat} (positive : 0 < count)
    (small : number < 10 ^ count) : (write number).length ≤ count := by
  unfold write
  split_ifs with zero
  · exact positive
  · rw [List.length_reverse, List.length_map]
    exact (Nat.digits_length_le_iff (by decide) number).mpr small

theorem length_writeInt_le {number : Int} {count : Nat} (positive : 0 < count)
    (small : number.natAbs < 10 ^ count) :
    (writeInt number).length ≤ count + 1 := by
  have digits := length_write_le positive small
  unfold writeInt
  split_ifs
  · exact Nat.succ_le_succ digits
  · exact Nat.le_succ_of_le digits

theorem writeInt_ne_nil (number : Int) : writeInt number ≠ [] := by
  unfold writeInt
  split_ifs
  · exact List.cons_ne_nil _ _
  · exact write_ne_nil _

/-- Reading digits least significant first agrees with `Nat.ofDigits`. -/
theorem value_map_digitByte_reverse (digits : List Nat)
    (small : ∀ digit ∈ digits, digit < 10) :
    value (digits.map digitByte).reverse = Nat.ofDigits 10 digits := by
  rw [value, List.foldl_reverse]
  induction digits with
  | nil => rfl
  | cons digit digits induction =>
      have tailSmall : ∀ other ∈ digits, other < 10 := fun other member =>
        small other (List.mem_cons_of_mem digit member)
      simp only [List.map_cons, List.foldr_cons, Nat.ofDigits_cons,
        induction tailSmall,
        digitValue_digitByte (small digit List.mem_cons_self)]

theorem value_write (number : Nat) : value (write number) = number := by
  unfold write
  split_ifs with zero
  · rw [zero]
    rfl
  · rw [value_map_digitByte_reverse _ fun digit member =>
      Nat.digits_lt_base (by decide) member]
    exact Nat.ofDigits_digits 10 number

theorem read_write (number : Nat) : read (write number) = some number := by
  have digits : (write number).all isDigit = true :=
    List.all_eq_true.mpr fun byte member => isDigit_of_mem_write member
  simp [read, write_ne_nil, digits, value_write]

theorem readInt_of_digits {text : List UInt8}
    (digits : ∀ byte ∈ text, isDigit byte = true) :
    readInt text = (read text).map fun number : Nat => (number : Int) := by
  unfold readInt
  split
  · exact absurd (digits 43 List.mem_cons_self) (by decide)
  · exact absurd (digits 45 List.mem_cons_self) (by decide)
  · rfl

theorem readInt_writeInt (number : Int) :
    readInt (writeInt number) = some number := by
  unfold writeInt
  split_ifs with negative
  · have sign : -((number.natAbs : Nat) : Int) = number := by omega
    simp only [readInt, read_write, Option.map_some, sign]
  · have sign : ((number.natAbs : Nat) : Int) = number := by omega
    rw [readInt_of_digits fun byte member => isDigit_of_mem_write member,
      read_write, Option.map_some, sign]

end DecimalNumerals
