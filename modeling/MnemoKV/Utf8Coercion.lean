import Mathlib.Data.UInt

/-!
# Coercing bytes to UTF-8

Text encoders that only emit valid UTF-8 keep every rune of their input and
write the replacement character for each byte that starts no rune.  The result
is the input itself or longer than the input.
-/

namespace Utf8Coercion

/-- Whether a byte lies in a closed range. -/
def within (low high byte : UInt8) : Bool :=
  decide (low ≤ byte) && decide (byte ≤ high)

/-- How many of the following bytes a leading byte needs, and the range of the
first of them. -/
def leading (byte : UInt8) : Option (Nat × UInt8 × UInt8) :=
  if byte < 0x80 then some (0, 0x80, 0xBF)
  else if within 0xC2 0xDF byte then some (1, 0x80, 0xBF)
  else if byte = 0xE0 then some (2, 0xA0, 0xBF)
  else if byte = 0xED then some (2, 0x80, 0x9F)
  else if within 0xE1 0xEF byte then some (2, 0x80, 0xBF)
  else if byte = 0xF0 then some (3, 0x90, 0xBF)
  else if within 0xF1 0xF3 byte then some (3, 0x80, 0xBF)
  else if byte = 0xF4 then some (3, 0x80, 0x8F)
  else none

/-- The number of bytes that continue the rune of a leading byte, if it has
one. -/
def continuation (first : UInt8) (rest : List UInt8) : Option Nat :=
  match leading first with
  | none => none
  | some (0, _, _) => some 0
  | some (more + 1, low, high) =>
      match rest with
      | [] => none
      | second :: others =>
          if within low high second = true ∧ more ≤ others.length ∧
              (others.take more).all (within 0x80 0xBF) = true then
            some (more + 1)
          else none

/-- The encoding of U+FFFD. -/
def replacement : List UInt8 := [0xEF, 0xBF, 0xBD]

def coerceFrom : Nat → List UInt8 → List UInt8
  | _, [] => []
  | 0, text => text
  | fuel + 1, first :: rest =>
      match continuation first rest with
      | none => replacement ++ coerceFrom fuel rest
      | some more =>
          first :: rest.take more ++ coerceFrom fuel (rest.drop more)

/-- Every rune as it is, every other byte replaced. -/
def coerce (text : List UInt8) : List UInt8 :=
  coerceFrom text.length text

theorem continuation_ascii {first : UInt8} (plain : first < 0x80) (rest : List UInt8) :
    continuation first rest = some 0 := by
  simp [continuation, leading, plain]

theorem coerceFrom_ascii (fuel : Nat) {text : List UInt8}
    (plain : ∀ byte ∈ text, byte < 0x80) : coerceFrom fuel text = text := by
  induction fuel generalizing text with
  | zero => cases text <;> rfl
  | succ fuel induction =>
      cases text with
      | nil => rfl
      | cons first rest =>
          have single := continuation_ascii (plain first List.mem_cons_self) rest
          have others := induction fun byte member =>
            plain byte (List.mem_cons_of_mem first member)
          simp only [coerceFrom, single, List.take_zero, List.drop_zero, others,
            List.singleton_append]

theorem coerce_ascii {text : List UInt8} (plain : ∀ byte ∈ text, byte < 0x80) :
    coerce text = text :=
  coerceFrom_ascii text.length plain

/-- A rune of three bytes, a stray byte, and half a surrogate pair. -/
example : coerce [0xE2, 0x82, 0xAC, 0xFF] = [0xE2, 0x82, 0xAC, 0xEF, 0xBF, 0xBD] ∧
    (coerce [0xED, 0xA0, 0x80]).length = 9 := by
  decide

end Utf8Coercion
