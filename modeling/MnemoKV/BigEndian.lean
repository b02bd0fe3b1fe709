import Mathlib.Algebra.Order.Ring.Nat
import Mathlib.Tactic.Ring

/-!
# Numbers of fixed width in big-endian order

`write` gives the last `width` base-256 digits of a number, most significant
first; `read` takes as many bytes off a payload.
-/

namespace BigEndian

/-- The low bytes of a number, the highest one first. -/
def write : Nat → Nat → List UInt8
  | 0, _ => []
  | width + 1, number =>
      UInt8.ofNat (number / 256 ^ width) :: write width number

def value (bytes : List UInt8) : Nat :=
  bytes.foldl (fun total byte => total * 256 + byte.toNat) 0

/-- A number and the bytes behind it, unless the payload is too short. -/
def read (width : Nat) (payload : List UInt8) : Option (Nat × List UInt8) :=
  if payload.length < width then none
  else some (value (payload.take width), payload.drop width)

@[simp]
theorem length_write (width number : Nat) : (write width number).length = width := by
  induction width with
  | zero => rfl
  | succ width induction => simp [write, induction]

theorem foldl_write (width number total : Nat) :
    (write width number).foldl (fun total byte => total * 256 + byte.toNat) total =
      total * 256 ^ width + number % 256 ^ width := by
  induction width generalizing total with
  | zero => simp [write, Nat.mod_one]
  | succ width induction =>
      have digits : number % 256 ^ (width + 1) =
          (number / 256 ^ width % 256) * 256 ^ width + number % 256 ^ width := by
        have split := Nat.mod_mul (x := number) (a := 256 ^ width) (b := 256)
        rw [pow_succ, split, Nat.add_comm, Nat.mul_comm]
      have byte : (UInt8.ofNat (number / 256 ^ width)).toNat =
          number / 256 ^ width % 256 := by simp
      rw [write, List.foldl_cons, induction, digits, byte, pow_succ]
      ring

theorem value_write (width number : Nat) :
    value (write width number) = number % 256 ^ width := by
  rw [value, foldl_write, Nat.zero_mul, Nat.zero_add]

theorem value_lt (bytes : List UInt8) : value bytes < 256 ^ bytes.length := by
  suffices loop : ∀ (bytes : List UInt8) (total : Nat),
      bytes.foldl (fun total byte => total * 256 + byte.toNat) total <
        (total + 1) * 256 ^ bytes.length by
    simpa [value] using loop bytes 0
  intro bytes
  induction bytes with
  | nil => simp
  | cons byte bytes induction =>
      intro total
      have digit := byte.toNat_lt
      calc (byte :: bytes).foldl (fun total byte => total * 256 + byte.toNat) total
          < (total * 256 + byte.toNat + 1) * 256 ^ bytes.length := induction _
        _ ≤ ((total + 1) * 256) * 256 ^ bytes.length :=
          Nat.mul_le_mul_right _ (by omega)
        _ = (total + 1) * 256 ^ (byte :: bytes).length := by
          rw [List.length_cons, pow_succ]
          ring

theorem read_eq_some {width number : Nat} {payload rest : List UInt8}
    (parsed : read width payload = some (number, rest)) :
    payload.length = width + rest.length ∧ number < 256 ^ width := by
  unfold read at parsed
  split_ifs at parsed with short
  obtain ⟨rfl, rfl⟩ := Prod.mk.inj (Option.some.inj parsed)
  have taken : (payload.take width).length = width := by
    rw [List.length_take]
    omega
  refine ⟨by rw [List.length_drop]; omega, ?_⟩
  have small := value_lt (payload.take width)
  rwa [taken] at small

theorem read_write_mod (width number : Nat) (rest : List UInt8) :
    read width (write width number ++ rest) = some (number % 256 ^ width, rest) := by
  have long : ¬ (write width number ++ rest).length < width := by simp
  have taken : (write width number ++ rest).take width = write width number :=
    List.take_left' (length_write width number)
  have dropped : (write width number ++ rest).drop width = rest :=
    List.drop_left' (length_write width number)
  rw [read, if_neg long, taken, dropped, value_write]

theorem read_write {width number : Nat} (fits : number < 256 ^ width)
    (rest : List UInt8) :
    read width (write width number ++ rest) = some (number, rest) := by
  rw [read_write_mod, Nat.mod_eq_of_lt fits]

end BigEndian
