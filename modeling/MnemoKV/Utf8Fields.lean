import MnemoKV.Utf8Coercion

/-!
# Splitting text at white space

The fields of a text are the longest runs of runes that are not white space.  A
byte that starts no rune belongs to the field around it.
-/

namespace Utf8Fields

open Utf8Coercion (continuation within)

/-- Whether the bytes encode one of the white space runes. -/
def isSpace : List UInt8 → Bool
  | [byte] => within 9 13 byte || decide (byte = 32)
  | [0xC2, byte] => decide (byte = 0x85) || decide (byte = 0xA0)
  | [0xE1, 0x9A, 0x80] => true
  | [0xE2, 0x80, byte] => within 0x80 0x8A byte || decide (byte = 0xA8) ||
      decide (byte = 0xA9) || decide (byte = 0xAF)
  | [0xE2, 0x81, 0x9F] => true
  | [0xE3, 0x80, 0x80] => true
  | _ => false

theorem isSpace_singleton (byte : UInt8) :
    isSpace [byte] = (within 9 13 byte || decide (byte = 32)) := rfl

def flush (field : List UInt8) : List (List UInt8) :=
  if field = [] then [] else [field]

/-- `field` is the field that is being read. -/
def fieldsFrom : Nat → List UInt8 → List UInt8 → List (List UInt8)
  | _, field, [] => flush field
  | 0, field, text => [field ++ text]
  | fuel + 1, field, first :: rest =>
      let more := (continuation first rest).getD 0
      let rune := first :: rest.take more
      if isSpace rune then flush field ++ fieldsFrom fuel [] (rest.drop more)
      else fieldsFrom fuel (field ++ rune) (rest.drop more)

def fields (text : List UInt8) : List (List UInt8) :=
  fieldsFrom text.length [] text

/-- An ASCII byte that is not white space. -/
def isPlain (byte : UInt8) : Bool :=
  decide (byte < 0x80) && !isSpace [byte]

theorem fieldsFrom_plain {text : List UInt8}
    (plain : ∀ byte ∈ text, isPlain byte = true) (field : List UInt8)
    {fuel : Nat} (enough : text.length ≤ fuel) :
    fieldsFrom fuel field text = flush (field ++ text) := by
  induction text generalizing fuel field with
  | nil => cases fuel <;> simp [fieldsFrom]
  | cons byte text induction =>
      obtain ⟨fuel, rfl⟩ : ∃ less, fuel = less + 1 :=
        ⟨fuel - 1, by simp only [List.length_cons] at enough; omega⟩
      have here := plain byte List.mem_cons_self
      simp only [isPlain, Bool.and_eq_true, decide_eq_true_eq,
        Bool.not_eq_true'] at here
      have single := Utf8Coercion.continuation_ascii here.1 text
      have rest := induction
        (fun other member => plain other (List.mem_cons_of_mem _ member))
        (field ++ [byte]) (Nat.le_of_succ_le_succ enough)
      simp only [fieldsFrom, single, Option.getD_some, List.take_zero,
        List.drop_zero, here.2, Bool.false_eq_true, if_false, rest,
        List.append_assoc, List.singleton_append]

/-- Text without white space is one field. -/
theorem fields_plain {text : List UInt8} (nonempty : text ≠ [])
    (plain : ∀ byte ∈ text, isPlain byte = true) : fields text = [text] := by
  rw [fields, fieldsFrom_plain plain [] le_rfl, List.nil_append, flush,
    if_neg nonempty]

/-- Two blanks, an ideographic space and a stray byte. -/
example : fields [32, 97, 32, 32, 0xE3, 0x80, 0x80, 98, 0x85] = [[97], [98, 0x85]] := by
  decide

end Utf8Fields
