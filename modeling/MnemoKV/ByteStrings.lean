import Mathlib.Data.List.Basic

/-!
# Byte strings

Byte slices and text on the wire are lists of bytes.  `ascii` writes a
literal; every literal it is applied to is plain ASCII, so its characters are
its bytes.
-/

/-- A Go string or byte slice. -/
abbrev Bytes := List UInt8

namespace Bytes

instance : LawfulBEq Bytes := inferInstanceAs (LawfulBEq (List UInt8))

def ascii (literal : String) : Bytes :=
  literal.toList.map fun character => character.toNat.toUInt8

/-- ASCII upper case; all other bytes pass through. -/
def upperByte (byte : UInt8) : UInt8 :=
  if 97 ≤ byte ∧ byte ≤ 122 then byte - 32 else byte

def upper (text : Bytes) : Bytes :=
  text.map upperByte

end Bytes
