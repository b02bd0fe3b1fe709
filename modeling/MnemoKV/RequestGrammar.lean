import MnemoKV.RequestParsing

/-!
# The grammar of requests

An array on the wire is a count and that many words, each behind its length; the
numerals may be written in any way that `strconv.Atoi` reads.  The parser accepts
exactly the arrays within its limits whose first word is not empty, and stops
behind them.  When the first word is empty it gives up in the middle of the array.
-/

namespace MnemoKV

/-- A word behind a numeral of its length. -/
structure WordText where
  digits : Bytes
  word : Bytes
  measured : atoi digits = some (word.length : Int)

/-- Words behind a numeral of their number. -/
structure ArrayText where
  digits : Bytes
  items : List WordText
  counted : atoi digits = some (items.length : Int)

/-- The command that a list of words stands for. -/
def commandOf (words : List Bytes) : Command :=
  { name := Bytes.upper (words.headD []), args := words.tail }

namespace WordText

def bytes (item : WordText) : Bytes :=
  36 :: item.digits ++ ByteLines.ending ++ item.word ++ ByteLines.ending

/-- The header fits in the reader's buffer and the word is not too long. -/
structure Readable (item : WordText) : Prop where
  header : item.digits.length + 3 ≤ Parser.readerSize
  short : item.word.length ≤ Parser.maxBulkLen

end WordText

namespace ArrayText

def bytes (array : ArrayText) : Bytes :=
  42 :: array.digits ++ ByteLines.ending ++ array.items.flatMap WordText.bytes

def words (array : ArrayText) : List Bytes := array.items.map WordText.word

/-- The header lines fit in the reader's buffer and the words are within the
limits. -/
structure Readable (array : ArrayText) : Prop where
  header : array.digits.length + 3 ≤ Parser.readerSize
  headers : ∀ item ∈ array.items, item.digits.length + 3 ≤ Parser.readerSize
  limits : WithinLimits array.words

/-- The first word is there and not empty. -/
structure Accepted (array : ArrayText) : Prop extends array.Readable where
  named : array.words.headD [] ≠ []

theorem Readable.item {array : ArrayText} (readable : array.Readable)
    {item : WordText} (listed : item ∈ array.items) : item.Readable :=
  ⟨readable.headers item listed,
    readable.limits.measured item.word (List.mem_map_of_mem listed)⟩

end ArrayText

/-! ### Numerals and lines -/

theorem lineFeed_not_mem_of_read {text : Bytes} {number : Nat}
    (read : DecimalNumerals.read text = some number) : 10 ∉ text := by
  unfold DecimalNumerals.read at read
  split_ifs at read with bad
  rw [not_or, Bool.not_eq_false, List.all_eq_true] at bad
  intro member
  exact isDigit_ne_lineFeed (bad.2 10 member) rfl

theorem lineFeed_not_mem_of_atoi {text : Bytes} {number : Int}
    (read : atoi text = some number) : 10 ∉ text := by
  have signed : ∀ (sign : UInt8) (digits : Bytes) (value : Nat → Int) (result : Int),
      sign ≠ 10 → (DecimalNumerals.read digits).map value = some result →
      10 ∉ sign :: digits := by
    intro sign digits value result plain read
    obtain ⟨number, digitsRead, -⟩ := Option.map_eq_some_iff.mp read
    rw [List.mem_cons, not_or]
    exact ⟨Ne.symm plain, lineFeed_not_mem_of_read digitsRead⟩
  unfold atoi at read
  split at read
  · cases read
  · rename_i value numeral
    unfold DecimalNumerals.readInt at numeral
    split at numeral
    · exact signed 43 _ _ value (by decide) numeral
    · exact signed 45 _ _ value (by decide) numeral
    · obtain ⟨number, digitsRead, -⟩ := Option.map_eq_some_iff.mp numeral
      exact lineFeed_not_mem_of_read digitsRead

namespace Parser

theorem readLine_ok_iff {stream text rest : Bytes} :
    readLine stream = (.ok text, rest) ↔
      10 ∉ text ∧ text.length + 2 ≤ readerSize ∧
        stream = text ++ ByteLines.ending ++ rest := by
  constructor
  · intro parsed
    unfold readLine at parsed
    split at parsed
    · split_ifs at parsed <;> cases parsed
    · rename_i line behind found
      obtain ⟨whole, plain, rfl, rfl⟩ := ByteLines.exists_of_split found
      rw [List.dropLast_concat] at parsed
      split_ifs at parsed with long ended
      · cases parsed
      · cases parsed
      · rw [not_not] at ended
        obtain ⟨inner, rfl⟩ := List.getLast?_eq_some_iff.mp ended
        rw [List.dropLast_concat] at parsed
        obtain ⟨same, rfl⟩ := Prod.mk.inj parsed
        obtain rfl := Except.ok.inj same
        rw [List.mem_append, not_or] at plain
        refine ⟨plain.1, ?_, ?_⟩
        · simp only [List.length_append, List.length_cons, List.length_nil] at long
          omega
        · simp [ByteLines.ending]
  · rintro ⟨plain, short, rfl⟩
    exact readLine_append plain short rest

/-- The word that a successful read returns stood at the front of the stream. -/
theorem readBulk_ok_iff {stream word rest : Bytes} :
    readBulk stream = (.ok word, rest) ↔
      ∃ item : WordText, item.Readable ∧ item.word = word ∧
        stream = item.bytes ++ rest := by
  constructor
  · intro parsed
    unfold readBulk at parsed
    split at parsed
    · cases parsed
    · rename_i digits behind header
      obtain ⟨-, short, rfl⟩ := readLine_ok_iff.mp header
      split at parsed
      · cases parsed
      · rename_i length numeral
        split_ifs at parsed with outside missing broken
        · cases parsed
        · cases parsed
        · cases parsed
        · obtain ⟨same, rfl⟩ := Prod.mk.inj parsed
          obtain rfl := Except.ok.inj same
          rw [not_not] at broken
          have taken : (behind.take length.toNat).length = length.toNat := by
            rw [List.length_take]
            omega
          have measured : atoi digits = some ((behind.take length.toNat).length : Int) := by
            rw [numeral, taken]
            congr 1
            omega
          refine ⟨⟨digits, behind.take length.toNat, measured⟩, ⟨short, ?_⟩, rfl, ?_⟩
          · change (behind.take length.toNat).length ≤ _
            omega
          · have tail : behind.drop length.toNat =
                ByteLines.ending ++ behind.drop (length.toNat + 2) := by
              rw [← broken, ← List.drop_drop, List.take_append_drop]
            simp only [WordText.bytes, List.append_assoc, ← tail,
              List.take_append_drop]
    · cases parsed
  · rintro ⟨item, readable, rfl, rfl⟩
    have plain : 10 ∉ 36 :: item.digits := by
      rw [List.mem_cons, not_or]
      exact ⟨by decide, lineFeed_not_mem_of_atoi item.measured⟩
    have header := readLine_append plain readable.header
      (item.word ++ ByteLines.ending ++ rest)
    have short := readable.short
    have inRange : ¬ ((item.word.length : Int) < 0 ∨
        (item.word.length : Int) > maxBulkLen) := by omega
    have long : ¬ (item.word ++ ByteLines.ending ++ rest).length <
        item.word.length + 2 := by
      simp [ByteLines.ending]
    have ended : (item.word ++ ByteLines.ending ++ rest).drop item.word.length =
        ByteLines.ending ++ rest := by
      rw [List.append_assoc, List.drop_left' rfl]
    have behind : (item.word ++ ByteLines.ending ++ rest).drop
        (item.word.length + 2) = rest := by
      rw [← List.drop_drop, ended]
      rfl
    have taken : (item.word ++ ByteLines.ending ++ rest).take item.word.length =
        item.word := by
      rw [List.append_assoc, List.take_left' rfl]
    unfold readBulk WordText.bytes
    rw [List.append_assoc, List.append_assoc (_ ++ _), ← List.append_assoc item.word,
      header]
    simp only [item.measured, if_neg inRange, Int.toNat_natCast, if_neg long, ended,
      behind, taken]
    rfl

theorem parseArgs_ok_iff {count total : Nat} {stream rest : Bytes}
    {args : List Bytes} (room : total ≤ maxCommandLen) :
    parseArgs count total stream = (.ok args, rest) ↔
      ∃ items : List WordText, items.length = count ∧
        (∀ item ∈ items, item.Readable) ∧ items.map WordText.word = args ∧
        total + (args.map List.length).sum ≤ maxCommandLen ∧
        stream = items.flatMap WordText.bytes ++ rest := by
  induction count generalizing total stream args with
  | zero =>
      constructor
      · intro parsed
        obtain ⟨same, rfl⟩ := Prod.mk.inj parsed
        obtain rfl := Except.ok.inj same
        exact ⟨[], rfl, by simp, rfl, room, rfl⟩
      · rintro ⟨items, none, -, rfl, -, rfl⟩
        obtain rfl := List.length_eq_zero_iff.mp none
        rfl
  | succ count induction =>
      constructor
      · intro parsed
        unfold parseArgs at parsed
        split at parsed
        · cases parsed
        · rename_i arg behind word
          obtain ⟨item, readable, rfl, rfl⟩ := readBulk_ok_iff.mp word
          split_ifs at parsed with long
          · cases parsed
          · split at parsed
            · cases parsed
            · rename_i others last tail
              obtain ⟨same, rfl⟩ := Prod.mk.inj parsed
              obtain rfl := Except.ok.inj same
              obtain ⟨items, counted, readables, rfl, summed, rfl⟩ :=
                (induction (by omega)).mp tail
              refine ⟨item :: items, by rw [List.length_cons, counted], ?_, rfl, ?_, ?_⟩
              · exact List.forall_mem_cons.mpr ⟨readable, readables⟩
              · rw [List.map_cons, List.sum_cons]
                omega
              · rw [List.flatMap_cons, List.append_assoc]
      · rintro ⟨items, counted, readables, rfl, summed, rfl⟩
        cases items with
        | nil => cases counted
        | cons item items =>
            rw [List.map_cons, List.map_cons, List.sum_cons] at summed
            have fits : ¬ item.word.length > maxCommandLen - total := by omega
            have word : readBulk (item.bytes ++ (items.flatMap WordText.bytes ++ rest)) =
                (.ok item.word, items.flatMap WordText.bytes ++ rest) :=
              readBulk_ok_iff.mpr ⟨item, readables item List.mem_cons_self, rfl, rfl⟩
            have tail : parseArgs count (total + item.word.length)
                (items.flatMap WordText.bytes ++ rest) =
                (.ok (items.map WordText.word), rest) :=
              (induction (by omega)).mpr ⟨items, Nat.succ.inj counted,
                fun other member => readables other (List.mem_cons_of_mem _ member), rfl,
                by omega, rfl⟩
            rw [List.flatMap_cons, List.append_assoc, parseArgs, word]
            simp only [if_neg fits, tail, List.map_cons]

/-- An array within the limits is one command, unless its first word is empty. -/
theorem parseArray_bytes {digits : Bytes} {item : WordText} {items : List WordText}
    {counted : atoi digits = some ((item :: items).length : Int)}
    (readable : ArrayText.Readable ⟨digits, item :: items, counted⟩) (rest : Bytes) :
    parseArray (ArrayText.bytes ⟨digits, item :: items, counted⟩ ++ rest) =
      if item.word = [] then
        (.error .emptyCommand, items.flatMap WordText.bytes ++ rest)
      else (.ok { name := Bytes.upper item.word, args := items.map WordText.word },
        rest) := by
  have plain : 10 ∉ 42 :: digits := by
    rw [List.mem_cons, not_or]
    exact ⟨by decide, lineFeed_not_mem_of_atoi counted⟩
  have header := readLine_append plain readable.header
    (item.bytes ++ (items.flatMap WordText.bytes ++ rest))
  have number := readable.limits.counted
  have summed := readable.limits.summed
  simp only [ArrayText.words, List.map_cons, List.sum_cons, List.length_cons,
    List.length_map] at number summed
  have inRange : ¬ (((item :: items).length : Int) < 0 ∨
      ((item :: items).length : Int) > maxArrayLen) := by
    rw [List.length_cons]
    omega
  have some : ¬ ((item :: items).length : Int) = 0 := by
    rw [List.length_cons]
    omega
  have word : readBulk (item.bytes ++ (items.flatMap WordText.bytes ++ rest)) =
      (.ok item.word, items.flatMap WordText.bytes ++ rest) :=
    readBulk_ok_iff.mpr ⟨item, readable.item List.mem_cons_self, rfl, rfl⟩
  have args : parseArgs items.length item.word.length
      (items.flatMap WordText.bytes ++ rest) = (.ok (items.map WordText.word), rest) :=
    (parseArgs_ok_iff (by omega)).mpr ⟨items, rfl,
      fun other member => readable.item (List.mem_cons_of_mem _ member), rfl, summed,
      rfl⟩
  have long : ¬ item.word.length > maxCommandLen := by omega
  have count : ((item :: items).length : Int).toNat - 1 = items.length := by simp
  unfold parseArray ArrayText.bytes
  rw [List.flatMap_cons, List.append_assoc, List.append_assoc item.bytes, header]
  simp only [counted, if_neg inRange, if_neg some, word, if_neg long, count, args]

/-- The parser takes exactly the arrays within its limits, and stops behind them. -/
theorem parseArray_ok_iff {stream rest : Bytes} {cmd : Command} :
    parseArray stream = (.ok cmd, rest) ↔
      ∃ array : ArrayText, array.Accepted ∧ commandOf array.words = cmd ∧
        stream = array.bytes ++ rest := by
  constructor
  · intro parsed
    unfold parseArray at parsed
    split at parsed
    · cases parsed
    · rename_i digits behind header
      obtain ⟨-, short, rfl⟩ := readLine_ok_iff.mp header
      split at parsed
      · cases parsed
      · rename_i count numeral
        split_ifs at parsed with outside zero
        · cases parsed
        · cases parsed
        · split at parsed
          · cases parsed
          · rename_i name last word
            obtain ⟨item, readable, rfl, rfl⟩ := readBulk_ok_iff.mp word
            split_ifs at parsed with long empty
            · cases parsed
            · cases parsed
            · split at parsed
              · cases parsed
              · rename_i args left tail
                obtain ⟨same, rfl⟩ := Prod.mk.inj parsed
                obtain rfl := Except.ok.inj same
                obtain ⟨items, length, readables, rfl, summed, rfl⟩ :=
                  (parseArgs_ok_iff (by omega)).mp tail
                have total : count = ((item :: items).length : Int) := by
                  rw [List.length_cons, length]
                  omega
                refine ⟨⟨digits, item :: items, by rw [numeral, total]⟩,
                  ⟨⟨short, ?_, ⟨?_, ?_, ?_⟩⟩, empty⟩, rfl, ?_⟩
                · exact List.forall_mem_cons.mpr ⟨readable.header,
                    fun other member => (readables other member).header⟩
                · rw [ArrayText.words, List.length_map]
                  change (item :: items).length ≤ maxArrayLen
                  omega
                · exact List.forall_mem_map.mpr (List.forall_mem_cons.mpr
                    ⟨readable.short, fun other member => (readables other member).short⟩)
                · rw [ArrayText.words, List.map_cons, List.map_cons, List.sum_cons]
                  exact summed
                · simp only [ArrayText.bytes, List.flatMap_cons, List.append_assoc]
    · cases parsed
  · rintro ⟨⟨digits, items, counted⟩, accepted, rfl, rfl⟩
    cases items with
    | nil => exact absurd rfl accepted.named
    | cons item items =>
        have named : item.word ≠ [] := accepted.named
        rw [parseArray_bytes accepted.toReadable, if_neg named]
        rfl

theorem next_ok_iff {stream rest : Bytes} {cmd : Command}
    (starred : stream.head? = some 42) :
    next stream = (.ok cmd, rest) ↔
      ∃ array : ArrayText, array.Accepted ∧ commandOf array.words = cmd ∧
        stream = array.bytes ++ rest := by
  obtain ⟨behind, rfl⟩ := List.head?_eq_some_iff.mp starred
  exact parseArray_ok_iff

end Parser

/-! ### Written requests -/

theorem length_write_lt_readerSize {number : Nat} (small : number < 10 ^ 8) :
    (DecimalNumerals.write number).length + 3 ≤ Parser.readerSize := by
  have digits := DecimalNumerals.length_write_le (by decide) small
  simp only [Parser.readerSize]
  omega

/-- `writeRequest` writes words in the grammar. -/
theorem exists_wordTexts {words : List Bytes}
    (short : ∀ word ∈ words, word.length ≤ Parser.maxBulkLen) :
    ∃ items : List WordText, items.map WordText.word = words ∧
      (∀ item ∈ items, item.digits.length + 3 ≤ Parser.readerSize) ∧
      items.map WordText.bytes = words.map writeWord := by
  induction words with
  | nil => exact ⟨[], rfl, by simp, rfl⟩
  | cons word words induction =>
      obtain ⟨items, rfl, headers, bytes⟩ := induction fun other member =>
        short other (List.mem_cons_of_mem _ member)
      have small : word.length < 10 ^ 8 := by
        have bound := short word List.mem_cons_self
        simp only [Parser.maxBulkLen] at bound
        omega
      refine ⟨⟨DecimalNumerals.write word.length, word, atoi_write (by omega)⟩ :: items,
        rfl, ?_, ?_⟩
      · exact List.forall_mem_cons.mpr ⟨length_write_lt_readerSize small, headers⟩
      · rw [List.map_cons, List.map_cons, bytes]
        rfl

theorem WithinLimits.exists_arrayText {words : List Bytes} (limits : WithinLimits words) :
    ∃ array : ArrayText, array.Readable ∧ array.words = words ∧
      array.items.map WordText.bytes = words.map writeWord ∧
      array.bytes = writeRequest words := by
  obtain ⟨items, rfl, headers, bytes⟩ := exists_wordTexts limits.measured
  have counted := limits.counted
  rw [List.length_map] at counted
  have small : items.length < 10 ^ 8 := by
    simp only [Parser.maxArrayLen] at counted
    omega
  refine ⟨⟨DecimalNumerals.write items.length, items, atoi_write (by omega)⟩,
    ⟨length_write_lt_readerSize small, headers, limits⟩, rfl, bytes, ?_⟩
  rw [ArrayText.bytes, writeRequest, List.flatMap_def, List.flatMap_def, bytes,
    List.length_map]

namespace Parser

theorem next_writeRequest {name : Bytes} {args : List Bytes}
    (limits : WithinLimits (name :: args)) (rest : Bytes) :
    next (writeRequest (name :: args) ++ rest) =
      if name = [] then (.error .emptyCommand, args.flatMap writeWord ++ rest)
      else (.ok { name := Bytes.upper name, args := args }, rest) := by
  obtain ⟨⟨digits, items, counted⟩, readable, same, bytes, whole⟩ :=
    limits.exists_arrayText
  cases items with
  | nil => cases same
  | cons item items =>
      obtain ⟨rfl, rfl⟩ := List.cons.inj same
      have tail : items.map WordText.bytes = (items.map WordText.word).map writeWord :=
        (List.cons.inj bytes).2
      rw [← whole, List.flatMap_def, ← tail, ← List.flatMap_def]
      exact parseArray_bytes readable rest

end Parser
end MnemoKV
