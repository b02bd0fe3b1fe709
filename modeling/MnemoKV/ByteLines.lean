import Mathlib.Data.List.Basic
import Mathlib.Data.UInt

/-!
# Lines in a stream of bytes

A line ends with the first line feed.  What is in front of a line feed, when it
contains none itself, is read back as one line.
-/

namespace ByteLines

/-- Carriage return and line feed. -/
def ending : List UInt8 := [13, 10]

/-- The bytes up to and including the first line feed, and those behind it. -/
def split : List UInt8 → Option (List UInt8 × List UInt8)
  | [] => none
  | byte :: rest =>
      if byte = 10 then some ([10], rest)
      else
        match split rest with
        | none => none
        | some (line, behind) => some (byte :: line, behind)

theorem split_line {text : List UInt8} (plain : 10 ∉ text) (rest : List UInt8) :
    split (text ++ 10 :: rest) = some (text ++ [10], rest) := by
  induction text with
  | nil => rfl
  | cons byte text induction =>
      rw [List.mem_cons, not_or] at plain
      simp only [List.cons_append, split, if_neg (Ne.symm plain.1),
        induction plain.2]

theorem exists_of_split {stream line rest : List UInt8}
    (found : split stream = some (line, rest)) :
    ∃ text, 10 ∉ text ∧ line = text ++ [10] ∧ stream = text ++ 10 :: rest := by
  induction stream generalizing line with
  | nil => cases found
  | cons byte stream induction =>
      unfold split at found
      split_ifs at found with lineFeed
      · obtain ⟨rfl, rfl⟩ := Prod.mk.inj (Option.some.inj found)
        exact ⟨[], List.not_mem_nil, rfl, by rw [lineFeed]; rfl⟩
      · split at found
        · cases found
        · rename_i line' rest' tail
          obtain ⟨rfl, rfl⟩ := Prod.mk.inj (Option.some.inj found)
          obtain ⟨text, plain, rfl, rfl⟩ := induction tail
          refine ⟨byte :: text, ?_, rfl, rfl⟩
          rw [List.mem_cons, not_or]
          exact ⟨Ne.symm lineFeed, plain⟩

/-- A stream has one first line. -/
theorem line_unique {text other rest behind : List UInt8} (plain : 10 ∉ text)
    (otherPlain : 10 ∉ other) (same : text ++ 10 :: rest = other ++ 10 :: behind) :
    text = other ∧ rest = behind := by
  have found := split_line plain rest
  rw [same, split_line otherPlain, Option.some.injEq, Prod.mk.injEq] at found
  exact ⟨(List.append_cancel_right found.1).symm, found.2.symm⟩

theorem split_append {text : List UInt8} (plain : 10 ∉ text)
    (rest : List UInt8) :
    split (text ++ ending ++ rest) = some (text ++ ending, rest) := by
  have whole : 10 ∉ text ++ [13] := by
    rw [List.mem_append, not_or]
    exact ⟨plain, by decide⟩
  have line := split_line whole rest
  simpa [ending] using line

theorem length_of_split {stream line rest : List UInt8}
    (found : split stream = some (line, rest)) :
    stream.length = line.length + rest.length ∧ 0 < line.length := by
  obtain ⟨text, -, rfl, rfl⟩ := exists_of_split found
  simp only [List.length_append, List.length_cons, List.length_nil]
  omega

end ByteLines
