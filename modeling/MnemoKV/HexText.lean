import MnemoKV.ByteStrings

/-!
# Hexadecimal text

Two digits for each byte.  Digits are written in lower case and read in either case.
-/

namespace HexText

def digit (value : Nat) : UInt8 :=
  if value < 10 then UInt8.ofNat (48 + value) else UInt8.ofNat (87 + value)

def digitValue (character : UInt8) : Option Nat :=
  let code := character.toNat
  if 48 ≤ code ∧ code ≤ 57 then some (code - 48)
  else if 97 ≤ code ∧ code ≤ 102 then some (code - 87)
  else if 65 ≤ code ∧ code ≤ 70 then some (code - 55)
  else none

/-- Two digits for each byte. -/
def encode : Bytes → Bytes
  | [] => []
  | byte :: rest => digit (byte.toNat / 16) :: digit (byte.toNat % 16) :: encode rest

def decode : Bytes → Option Bytes
  | [] => some []
  | [_] => none
  | high :: low :: rest =>
      match digitValue high, digitValue low, decode rest with
      | some upper, some lower, some bytes => some (UInt8.ofNat (upper * 16 + lower) :: bytes)
      | _, _, _ => none

theorem digitValue_digit {value : Nat} (small : value < 16) :
    digitValue (digit value) = some value := by
  have all : ∀ value : Fin 16, digitValue (digit value) = some value.val := by decide
  exact all ⟨value, small⟩

@[simp]
theorem decode_encode (bytes : Bytes) : decode (encode bytes) = some bytes := by
  induction bytes with
  | nil => rfl
  | cons byte rest induction =>
      have small : byte.toNat < 256 := byte.toNat_lt
      rw [encode, decode, digitValue_digit (by omega), digitValue_digit (by omega), induction]
      dsimp only
      rw [Nat.div_add_mod', UInt8.ofNat_toNat]

@[simp]
theorem length_encode (bytes : Bytes) : (encode bytes).length = 2 * bytes.length := by
  induction bytes with
  | nil => rfl
  | cons byte rest induction =>
      rw [encode, List.length_cons, List.length_cons, List.length_cons, induction]
      omega

theorem ascii_of_mem_encode {bytes : Bytes} {character : UInt8}
    (member : character ∈ encode bytes) : character < 0x80 := by
  have digits : ∀ value : Fin 16, digit value < 0x80 := by decide
  induction bytes with
  | nil => cases member
  | cons byte rest induction =>
      have small : byte.toNat < 256 := byte.toNat_lt
      rcases List.mem_cons.mp member with rfl | member
      · exact digits ⟨byte.toNat / 16, by omega⟩
      rcases List.mem_cons.mp member with rfl | member
      · exact digits ⟨byte.toNat % 16, by omega⟩
      · exact induction member

theorem encode_injective : Function.Injective encode := by
  intro first second same
  have decoded := congrArg decode same
  rw [decode_encode, decode_encode] at decoded
  exact Option.some.inj decoded

end HexText
