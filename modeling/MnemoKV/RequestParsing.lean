import MnemoKV.ByteLines
import MnemoKV.DecimalNumerals
import MnemoKV.Utf8Fields
import MnemoKV.WireFrames

/-!
# Requests on the wire

A request is written as an array of length-prefixed words, and the parser takes
commands off the stream.  Within its limits the parser reads a written request
as one command, unless the first word is empty: then it gives up behind that
word, and whatever follows is still on the stream.
-/

namespace MnemoKV

/-- `strconv.Atoi` on a 64-bit machine, and `strconv.ParseInt` in base ten. -/
def atoi (text : Bytes) : Option Int :=
  match DecimalNumerals.readInt text with
  | none => none
  | some value =>
      if -(2 ^ 63) ≤ value ∧ value < 2 ^ 63 then some value else none

def writeWord (word : Bytes) : Bytes :=
  36 :: DecimalNumerals.write word.length ++ ByteLines.ending ++ word ++
    ByteLines.ending

/-- A command as a client writes it. -/
def writeRequest (words : List Bytes) : Bytes :=
  42 :: DecimalNumerals.write words.length ++ ByteLines.ending ++
    words.flatMap writeWord

/-- Why `Next` returns no command; `waiting` stands for a read that needs more
bytes than have arrived. -/
inductive ParseError
  | waiting
  | protocol
  | emptyCommand
  | emptyLine
  deriving DecidableEq

/-- A result with the bytes left on the stream. -/
abbrev Parsing (α : Type) := Except ParseError α × Bytes

namespace Parser

def maxBulkLen : Nat := 32 * 1024 * 1024
def maxArrayLen : Nat := 1024 * 1024
def maxCommandLen : Nat := 64 * 1024 * 1024

/-- The buffer of the connection's reader, in which a line has to fit. -/
def readerSize : Nat := 32 * 1024

def readLine (stream : Bytes) : Parsing Bytes :=
  match ByteLines.split stream with
  | none =>
      if stream.length < readerSize then (.error .waiting, stream)
      else (.error .protocol, stream)
  | some (line, rest) =>
      if line.length > readerSize then (.error .protocol, stream)
      else if line.dropLast.getLast? ≠ some 13 then (.error .protocol, rest)
      else (.ok line.dropLast.dropLast, rest)

def readBulk (stream : Bytes) : Parsing Bytes :=
  match readLine stream with
  | (.error failure, rest) => (.error failure, rest)
  | (.ok (36 :: digits), rest) =>
      match atoi digits with
      | none => (.error .protocol, rest)
      | some length =>
          if length < 0 ∨ length > maxBulkLen then (.error .protocol, rest)
          else if rest.length < length.toNat + 2 then (.error .waiting, rest)
          else if (rest.drop length.toNat).take 2 ≠ ByteLines.ending then
            (.error .protocol, rest)
          else (.ok (rest.take length.toNat), rest.drop (length.toNat + 2))
  | (.ok _, rest) => (.error .protocol, rest)

/-- The loop of `parseArray` behind the name; `total` bytes are read so far. -/
def parseArgs : Nat → Nat → Bytes → Parsing (List Bytes)
  | 0, _, stream => (.ok [], stream)
  | count + 1, total, stream =>
      match readBulk stream with
      | (.error failure, rest) => (.error failure, rest)
      | (.ok arg, rest) =>
          if arg.length > maxCommandLen - total then (.error .protocol, rest)
          else
            match parseArgs count (total + arg.length) rest with
            | (.error failure, rest) => (.error failure, rest)
            | (.ok args, rest) => (.ok (arg :: args), rest)

/-- An array of bulk strings; the first one is the name of the command. -/
def parseArray (stream : Bytes) : Parsing Command :=
  match readLine stream with
  | (.error failure, rest) => (.error failure, rest)
  | (.ok (42 :: digits), rest) =>
      match atoi digits with
      | none => (.error .protocol, rest)
      | some count =>
          if count < 0 ∨ count > maxArrayLen then (.error .protocol, rest)
          else if count = 0 then (.error .emptyCommand, rest)
          else
            match readBulk rest with
            | (.error failure, rest) => (.error failure, rest)
            | (.ok name, rest) =>
                if name.length > maxCommandLen then (.error .protocol, rest)
                else if name = [] then (.error .emptyCommand, rest)
                else
                  match parseArgs (count.toNat - 1) name.length rest with
                  | (.error failure, rest) => (.error failure, rest)
                  | (.ok args, rest) =>
                      (.ok { name := Bytes.upper name, args := args }, rest)
  | (.ok _, rest) => (.error .protocol, rest)

/-- `trimTrailingCRLF` makes no difference to the fields of the line. -/
def parseInline (stream : Bytes) : Parsing Command :=
  match readLine stream with
  | (.error failure, rest) => (.error failure, rest)
  | (.ok line, rest) =>
      match Utf8Fields.fields line with
      | [] => (.error .emptyLine, rest)
      | name :: args => (.ok { name := Bytes.upper name, args := args }, rest)

/-- The next command of the input, or why there is none. -/
def next : Bytes → Parsing Command
  | [] => (.error .waiting, [])
  | 42 :: rest => parseArray (42 :: rest)
  | stream => parseInline stream

end Parser

/-- Words that the parser takes as one request. -/
structure WithinLimits (words : List Bytes) : Prop where
  counted : words.length ≤ Parser.maxArrayLen
  measured : ∀ word ∈ words, word.length ≤ Parser.maxBulkLen
  summed : (words.map List.length).sum ≤ Parser.maxCommandLen

instance (words : List Bytes) : Decidable (WithinLimits words) :=
  decidable_of_iff (words.length ≤ Parser.maxArrayLen ∧
      (∀ word ∈ words, word.length ≤ Parser.maxBulkLen) ∧
      (words.map List.length).sum ≤ Parser.maxCommandLen)
    ⟨fun facts => ⟨facts.1, facts.2.1, facts.2.2⟩,
      fun limits => ⟨limits.counted, limits.measured, limits.summed⟩⟩

/-! ### Numbers and lines -/

theorem isDigit_ne_lineFeed {byte : UInt8}
    (digit : DecimalNumerals.isDigit byte = true) : byte ≠ 10 := by
  rintro rfl
  exact absurd digit (by decide)

theorem isDigit_plain {byte : UInt8}
    (digit : DecimalNumerals.isDigit byte = true) :
    Utf8Fields.isPlain byte = true ∧ Bytes.upperByte byte = byte := by
  obtain ⟨low, high⟩ := (DecimalNumerals.isDigit_iff byte).mp digit
  constructor
  · have blank : ¬ byte = 32 := by
      rintro rfl
      exact absurd low (by decide)
    simp only [Utf8Fields.isPlain, Utf8Fields.isSpace_singleton,
      Utf8Coercion.within, blank,
      UInt8.lt_iff_toNat_lt, UInt8.le_iff_toNat_le, UInt8.reduceToNat,
      Bool.and_eq_true, Bool.not_eq_true', Bool.or_eq_false_iff,
      Bool.and_eq_false_iff, decide_eq_true_eq, decide_eq_false_iff_not,
      decide_false, and_true]
    omega
  · refine if_neg ?_
    simp only [UInt8.le_iff_toNat_le, UInt8.reduceToNat]
    omega

theorem lineFeed_not_mem_write (number : Nat) :
    10 ∉ DecimalNumerals.write number := fun member =>
  isDigit_ne_lineFeed (DecimalNumerals.isDigit_of_mem_write member) rfl

theorem atoi_write {number : Nat} (small : number < 2 ^ 63) :
    atoi (DecimalNumerals.write number) = some (number : Int) := by
  have read : DecimalNumerals.readInt (DecimalNumerals.write number) =
      some (number : Int) := by
    rw [DecimalNumerals.readInt_of_digits fun byte member =>
      DecimalNumerals.isDigit_of_mem_write member, DecimalNumerals.read_write]
    rfl
  have inRange : -(2 ^ 63) ≤ (number : Int) ∧ (number : Int) < 2 ^ 63 := by
    omega
  simp only [atoi, read, if_pos inRange]

theorem Parser.readLine_append {text : Bytes} (plain : 10 ∉ text)
    (short : text.length + 2 ≤ readerSize) (rest : Bytes) :
    readLine (text ++ ByteLines.ending ++ rest) = (.ok text, rest) := by
  have within : ¬ (text ++ ByteLines.ending).length > readerSize := by
    simpa [ByteLines.ending] using short
  have whole : (text ++ ByteLines.ending).dropLast = text ++ [13] := by
    rw [ByteLines.ending, show [(13 : UInt8), 10] = [13] ++ [10] from rfl,
      ← List.append_assoc, List.dropLast_concat]
  unfold readLine
  rw [ByteLines.split_append plain]
  dsimp only
  rw [if_neg within, whole]
  simp

/-- The header in front of an array or a word. -/
theorem Parser.readLine_header (sign : UInt8) (plain : sign ≠ 10)
    {number : Nat} (small : number < 10 ^ 8) (rest : Bytes) :
    readLine (sign :: DecimalNumerals.write number ++ ByteLines.ending ++ rest) =
      (.ok (sign :: DecimalNumerals.write number), rest) := by
  have digits := DecimalNumerals.length_write_le (by decide) small
  refine readLine_append ?_ ?_ rest
  · rw [List.mem_cons, not_or]
    exact ⟨Ne.symm plain, lineFeed_not_mem_write number⟩
  · rw [List.length_cons]
    simp only [readerSize]
    omega

/-! ### A word taken for a line -/

namespace Parser

/-- A word that is left on the stream is taken for a command named after its
header. -/
theorem next_writeWord {word : Bytes} (short : word.length ≤ maxBulkLen)
    (rest : Bytes) :
    next (writeWord word ++ rest) =
      (.ok { name := 36 :: DecimalNumerals.write word.length, args := [] },
        word ++ ByteLines.ending ++ rest) := by
  have small : word.length < 10 ^ 8 := by
    simp only [maxBulkLen] at short
    omega
  have header := readLine_header 36 (by decide) small
    (word ++ ByteLines.ending ++ rest)
  have digits : ∀ byte ∈ DecimalNumerals.write word.length,
      Utf8Fields.isPlain byte = true ∧ Bytes.upperByte byte = byte :=
    fun byte member =>
      isDigit_plain (DecimalNumerals.isDigit_of_mem_write member)
  have field := Utf8Fields.fields_plain
    (List.cons_ne_nil 36 (DecimalNumerals.write word.length)) (by
      rw [List.forall_mem_cons]
      exact ⟨by decide, fun byte member => (digits byte member).1⟩)
  have upper : Bytes.upper (36 :: DecimalNumerals.write word.length) =
      36 :: DecimalNumerals.write word.length := by
    rw [Bytes.upper, List.map_cons, List.map_congr_left fun byte member =>
      (digits byte member).2, List.map_id']
    rfl
  change parseInline (writeWord word ++ rest) = _
  unfold parseInline writeWord
  rw [List.append_assoc, List.append_assoc, ← List.append_assoc word, header]
  simp only [field, upper]

/-! ### The parser makes progress -/

theorem readLine_shorter {stream line rest : Bytes}
    (parsed : readLine stream = (.ok line, rest)) :
    rest.length < stream.length := by
  unfold readLine at parsed
  split at parsed
  · split_ifs at parsed <;> cases parsed
  · rename_i whole behind found
    split_ifs at parsed
    · cases parsed
    · cases parsed
    · obtain ⟨-, rfl⟩ := Prod.mk.inj parsed
      have lengths := ByteLines.length_of_split found
      omega

theorem readBulk_shorter {stream word rest : Bytes}
    (parsed : readBulk stream = (.ok word, rest)) :
    rest.length < stream.length := by
  unfold readBulk at parsed
  split at parsed
  · cases parsed
  · rename_i digits behind header
    have shorter := readLine_shorter header
    split at parsed
    · cases parsed
    · split_ifs at parsed
      · cases parsed
      · cases parsed
      · cases parsed
      · obtain ⟨-, rfl⟩ := Prod.mk.inj parsed
        rw [List.length_drop]
        omega
  · cases parsed

theorem parseArgs_shorter {count total : Nat} {stream rest : Bytes}
    {args : List Bytes} (parsed : parseArgs count total stream = (.ok args, rest)) :
    rest.length ≤ stream.length := by
  induction count generalizing total stream args with
  | zero =>
      obtain ⟨-, rfl⟩ := Prod.mk.inj parsed
      exact le_rfl
  | succ count induction =>
      unfold parseArgs at parsed
      split at parsed
      · cases parsed
      · rename_i arg behind word
        have shorter := readBulk_shorter word
        split_ifs at parsed
        · cases parsed
        · split at parsed
          · cases parsed
          · rename_i others last tail
            obtain ⟨-, rfl⟩ := Prod.mk.inj parsed
            have later := induction tail
            omega

/-- Failures after which nothing more is read. -/
def Stops (failure : ParseError) : Prop :=
  failure = .waiting ∨ failure = .protocol

theorem readLine_stops {stream rest : Bytes} {failure : ParseError}
    (failed : readLine stream = (.error failure, rest)) : Stops failure := by
  unfold readLine at failed
  split at failed
  · split_ifs at failed
    · cases failed
      exact .inl rfl
    · cases failed
      exact .inr rfl
  · split_ifs at failed
    · cases failed
      exact .inr rfl
    · cases failed
      exact .inr rfl
    · cases failed

theorem readBulk_stops {stream rest : Bytes} {failure : ParseError}
    (failed : readBulk stream = (.error failure, rest)) : Stops failure := by
  unfold readBulk at failed
  split at failed
  · rename_i header
    cases failed
    exact readLine_stops header
  · split at failed
    · cases failed
      exact .inr rfl
    · split_ifs at failed
      · cases failed
        exact .inr rfl
      · cases failed
        exact .inl rfl
      · cases failed
        exact .inr rfl
      · cases failed
  · cases failed
    exact .inr rfl

theorem parseArgs_stops {count total : Nat} {stream rest : Bytes}
    {failure : ParseError}
    (failed : parseArgs count total stream = (.error failure, rest)) :
    Stops failure := by
  induction count generalizing total stream rest with
  | zero => cases failed
  | succ count induction =>
      unfold parseArgs at failed
      split at failed
      · rename_i word
        cases failed
        exact readBulk_stops word
      · split_ifs at failed
        · cases failed
          exact .inr rfl
        · split at failed
          · rename_i tail
            cases failed
            exact induction tail
          · cases failed

theorem parseArray_shorter {stream rest : Bytes}
    {result : Except ParseError Command}
    (parsed : parseArray stream = (result, rest))
    (continues : ∀ failure, result = .error failure → ¬ Stops failure) :
    rest.length < stream.length := by
  unfold parseArray at parsed
  split at parsed
  · rename_i header
    cases parsed
    exact absurd (readLine_stops header) (continues _ rfl)
  · rename_i digits behind header
    have shorter := readLine_shorter header
    split at parsed
    · cases parsed
      exact absurd (.inr rfl) (continues _ rfl)
    · split_ifs at parsed
      · cases parsed
        exact absurd (.inr rfl) (continues _ rfl)
      · cases parsed
        exact shorter
      · split at parsed
        · rename_i word
          cases parsed
          exact absurd (readBulk_stops word) (continues _ rfl)
        · rename_i name last word
          have named := readBulk_shorter word
          split_ifs at parsed
          · cases parsed
            exact absurd (.inr rfl) (continues _ rfl)
          · cases parsed
            omega
          · split at parsed
            · rename_i tail
              cases parsed
              exact absurd (parseArgs_stops tail) (continues _ rfl)
            · rename_i tail
              cases parsed
              have later := parseArgs_shorter tail
              omega
  · cases parsed
    exact absurd (.inr rfl) (continues _ rfl)

theorem parseInline_shorter {stream rest : Bytes}
    {result : Except ParseError Command}
    (parsed : parseInline stream = (result, rest))
    (continues : ∀ failure, result = .error failure → ¬ Stops failure) :
    rest.length < stream.length := by
  unfold parseInline at parsed
  split at parsed
  · rename_i header
    cases parsed
    exact absurd (readLine_stops header) (continues _ rfl)
  · rename_i line behind header
    have shorter := readLine_shorter header
    split at parsed
    · cases parsed
      exact shorter
    · cases parsed
      exact shorter

/-- Every result after which the connection goes on has consumed something. -/
theorem next_shorter {stream rest : Bytes} {result : Except ParseError Command}
    (parsed : next stream = (result, rest))
    (continues : ∀ failure, result = .error failure → ¬ Stops failure) :
    rest.length < stream.length := by
  unfold next at parsed
  split at parsed
  · cases parsed
    exact absurd (.inl rfl) (continues _ rfl)
  · exact parseArray_shorter parsed continues
  · exact parseInline_shorter parsed continues

end Parser
end MnemoKV
