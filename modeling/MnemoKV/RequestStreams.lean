import MnemoKV.RequestGrammar

/-!
# Streams of requests

Requests that are written one after the other are parsed one after the other, and
a request that has not arrived completely is no command.  After an error on which
the server goes on reading, the stream stands behind the array or the line that it
began with, except when an array has an empty first word and other words behind it.
-/

namespace MnemoKV

namespace Parser

/-- What repeated calls of `Next` return up to the first error, and what is left
on the stream. -/
def commands : Nat → Bytes → List Command × Bytes
  | 0, stream => ([], stream)
  | calls + 1, stream =>
      match next stream with
      | (.error _, _) => ([], stream)
      | (.ok cmd, rest) =>
          let (others, left) := commands calls rest
          (cmd :: others, left)

theorem next_named {words : List Bytes} (limits : WithinLimits words)
    (named : words.headD [] ≠ []) (rest : Bytes) :
    next (writeRequest words ++ rest) = (.ok (commandOf words), rest) := by
  cases words with
  | nil => exact absurd rfl named
  | cons name args =>
      have named : name ≠ [] := named
      rw [next_writeRequest limits, if_neg named]
      rfl

theorem commands_nil (calls : Nat) : commands calls [] = ([], []) := by
  cases calls <;> rfl

theorem commands_writeRequest {requests : List (List Bytes)}
    (limits : ∀ words ∈ requests, WithinLimits words)
    (named : ∀ words ∈ requests, words.headD [] ≠ []) {calls : Nat}
    (enough : requests.length ≤ calls) :
    commands calls (requests.flatMap writeRequest) = (requests.map commandOf, []) := by
  induction requests generalizing calls with
  | nil => exact commands_nil calls
  | cons words requests induction =>
      rw [List.forall_mem_cons] at limits named
      obtain ⟨calls, rfl⟩ : ∃ fewer, calls = fewer + 1 :=
        ⟨calls - 1, by simp only [List.length_cons] at enough; omega⟩
      have rest := induction limits.2 named.2 (Nat.le_of_succ_le_succ enough)
      rw [List.flatMap_cons, commands, next_named limits.1 named.1]
      simp only [rest, List.map_cons]

/-- What arrives behind a complete array does not change how it is parsed. -/
theorem next_append {stream rest : Bytes} {cmd : Command}
    (starred : stream.head? = some 42) (parsed : next stream = (.ok cmd, rest))
    (more : Bytes) : next (stream ++ more) = (.ok cmd, rest ++ more) := by
  obtain ⟨array, accepted, same, rfl⟩ := (next_ok_iff starred).mp parsed
  rw [List.append_assoc]
  exact (next_ok_iff rfl).mpr ⟨array, accepted, same, rfl⟩

theorem next_truncated {words : List Bytes} (limits : WithinLimits words)
    (named : words.headD [] ≠ []) {part : Bytes} (initial : part <+: writeRequest words)
    (proper : part ≠ writeRequest words) :
    ∃ failure, (next part).1 = .error failure := by
  obtain ⟨missing, whole⟩ := initial
  cases part with
  | nil => exact ⟨.waiting, rfl⟩
  | cons first part =>
      have starred : (first :: part).head? = some 42 :=
        congrArg List.head? whole
      rcases outcome : next (first :: part) with ⟨failure | cmd, rest⟩
      · exact ⟨failure, rfl⟩
      · have longer := next_append starred outcome missing
        have complete := next_named limits named []
        rw [List.append_nil, ← whole, longer, Prod.mk.injEq, List.append_eq_nil_iff]
          at complete
        rw [complete.2.2, List.append_nil] at whole
        exact absurd whole proper

end Parser

/-- On a stream that starts with an asterisk `Next` returns a command exactly if
the stream starts with an array of the grammar, and consumes that array.  Requests
come back in the order in which they were written, and a proper part of one is no
command. -/
theorem next_accepts_exactly_the_grammar :
    (∀ (stream : Bytes) (cmd : Command) (rest : Bytes), stream.head? = some 42 →
      (Parser.next stream = (.ok cmd, rest) ↔
        ∃ array : ArrayText, array.Accepted ∧ commandOf array.words = cmd ∧
          stream = array.bytes ++ rest)) ∧
    (∀ requests : List (List Bytes), (∀ words ∈ requests, WithinLimits words) →
      (∀ words ∈ requests, words.headD [] ≠ []) → ∀ calls ≥ requests.length,
      Parser.commands calls (requests.flatMap writeRequest) =
        (requests.map commandOf, [])) ∧
    (∀ words : List Bytes, WithinLimits words → words.headD [] ≠ [] →
      ∀ part, part <+: writeRequest words → part ≠ writeRequest words →
      ∃ failure, (Parser.next part).1 = .error failure) :=
  ⟨fun _ _ _ starred => Parser.next_ok_iff starred,
    fun _ limits named _ enough => Parser.commands_writeRequest limits named enough,
    fun _ limits named _ initial proper =>
      Parser.next_truncated limits named initial proper⟩

def pipelinedRequests : List (List Bytes) :=
  [[.ascii "set", .ascii "k", [13, 10, 42]], [.ascii "PING"]]

/-- Two requests in a pipeline, the first of them with line breaks in its value. -/
theorem pipelined_requests_are_parsed :
    Parser.commands 3 (pipelinedRequests.flatMap writeRequest) =
      ([{ name := .ascii "SET", args := [.ascii "k", [13, 10, 42]] },
        { name := .ascii "PING", args := [] }], []) :=
  next_accepts_exactly_the_grammar.2.1 pipelinedRequests (by decide) (by decide) 3
    (by decide)

/-! ### Errors on which the server goes on reading -/

namespace Parser

/-- Two words at the front of a stream are the same. -/
theorem word_unique {item other : WordText} {rest behind : Bytes}
    (same : item.bytes ++ rest = other.bytes ++ behind) :
    item.word = other.word ∧ rest = behind := by
  have plain : ∀ item : WordText, 10 ∉ 36 :: item.digits ++ [13] := by
    intro item
    rw [List.mem_append, List.mem_cons, not_or, not_or]
    exact ⟨⟨by decide, lineFeed_not_mem_of_atoi item.measured⟩, by decide⟩
  have lines : ∀ (item : WordText) (rest : Bytes), item.bytes ++ rest =
      36 :: item.digits ++ [13] ++ 10 :: (item.word ++ (ByteLines.ending ++ rest)) := by
    intro item rest
    simp [WordText.bytes, ByteLines.ending]
  rw [lines, lines] at same
  obtain ⟨headers, tails⟩ := ByteLines.line_unique (plain item) (plain other) same
  have digits : item.digits = other.digits :=
    (List.cons.inj (List.append_cancel_right headers)).2
  have length : item.word.length = other.word.length := by
    have measured := item.measured
    rw [digits, other.measured, Option.some.injEq] at measured
    omega
  obtain ⟨words, rests⟩ := List.append_inj tails length
  exact ⟨words, List.append_cancel_left rests⟩

theorem not_stops_of_recoverable {failure : ParseError}
    (recoverable : failure = .emptyLine ∨ failure = .emptyCommand) : ¬ Stops failure := by
  rcases recoverable with rfl | rfl
  · simp [Stops]
  · simp [Stops]

/-- How far the parser gets in an array before it reports an empty command. -/
theorem parseArray_recoverable {stream rest : Bytes} {failure : ParseError}
    (failed : parseArray stream = (.error failure, rest)) (continues : ¬ Stops failure) :
    ∃ digits count behind, readLine stream = (.ok (42 :: digits), behind) ∧
      atoi digits = some count ∧
      (count = 0 ∧ rest = behind ∨ count ≠ 0 ∧ readBulk behind = (.ok [], rest)) := by
  unfold parseArray at failed
  split at failed
  · rename_i header
    cases failed
    exact absurd (readLine_stops header) continues
  · rename_i digits behind header
    split at failed
    · cases failed
      exact absurd (.inr rfl) continues
    · rename_i count numeral
      split_ifs at failed with outside zero
      · cases failed
        exact absurd (.inr rfl) continues
      · cases failed
        exact ⟨digits, count, _, header, numeral, .inl ⟨zero, rfl⟩⟩
      · split at failed
        · rename_i word
          cases failed
          exact absurd (readBulk_stops word) continues
        · rename_i name last word
          split_ifs at failed with long empty
          · cases failed
            exact absurd (.inr rfl) continues
          · cases failed
            exact ⟨digits, count, behind, header, numeral, .inr ⟨zero, empty ▸ word⟩⟩
          · split at failed
            · rename_i tail
              cases failed
              exact absurd (parseArgs_stops tail) continues
            · cases failed
  · cases failed
    exact absurd (.inr rfl) continues

theorem parseInline_recoverable {stream rest : Bytes} {failure : ParseError}
    (failed : parseInline stream = (.error failure, rest)) (continues : ¬ Stops failure) :
    ∃ line, readLine stream = (.ok line, rest) := by
  unfold parseInline at failed
  split at failed
  · rename_i header
    cases failed
    exact absurd (readLine_stops header) continues
  · rename_i line behind header
    split at failed
    · cases failed
      exact ⟨line, header⟩
    · cases failed

theorem next_of_unstarred {stream : Bytes} (unstarred : stream.head? ≠ some 42)
    (nonempty : stream ≠ []) : next stream = parseInline stream := by
  unfold next
  split
  · exact absurd rfl nonempty
  · exact absurd rfl unstarred
  · rfl

end Parser

/-- A complete line that does not start an array. -/
def InlineLine (frame : Bytes) : Prop :=
  ∃ text, 10 ∉ text ∧ frame = text ++ [10] ∧ frame.head? ≠ some 42

/-- An array with an empty first word and further words. -/
def UnnamedArray (frame : Bytes) : Prop :=
  ∃ array : ArrayText, array.bytes = frame ∧
    ∃ word others, array.words = [] :: word :: others

theorem emptyCommand_leaves {array : ArrayText} {behind rest : Bytes}
    {failure : ParseError} (continues : ¬ Parser.Stops failure)
    (failed : Parser.parseArray (array.bytes ++ behind) = (.error failure, rest)) :
    rest = array.items.tail.flatMap WordText.bytes ++ behind ∧
      (array.items = [] ∨ array.words.head? = some []) := by
  obtain ⟨digits, count, left, header, numeral, outcome⟩ :=
    Parser.parseArray_recoverable failed continues
  obtain ⟨plain, -, stream⟩ := Parser.readLine_ok_iff.mp header
  have arrayPlain : 10 ∉ 42 :: array.digits ++ [13] := by
    rw [List.mem_append, List.mem_cons, not_or, not_or]
    exact ⟨⟨by decide, lineFeed_not_mem_of_atoi array.counted⟩, by decide⟩
  have linePlain : 10 ∉ 42 :: digits ++ [13] := by
    rw [List.mem_append, not_or]
    exact ⟨plain, by decide⟩
  have lines : 42 :: array.digits ++ [13] ++ 10 ::
      (array.items.flatMap WordText.bytes ++ behind) =
      42 :: digits ++ [13] ++ 10 :: left := by
    simpa [ArrayText.bytes, ByteLines.ending] using stream
  obtain ⟨headers, rfl⟩ := ByteLines.line_unique arrayPlain linePlain lines
  have same : array.digits = digits := (List.cons.inj (List.append_cancel_right headers)).2
  have counted : (array.items.length : Int) = count := by
    have counted := array.counted
    rw [same, numeral] at counted
    exact (Option.some.inj counted).symm
  rcases outcome with ⟨zero, rfl⟩ | ⟨positive, word⟩
  · have none : array.items = [] := List.length_eq_zero_iff.mp (by omega)
    exact ⟨by rw [none]; rfl, .inl none⟩
  · obtain ⟨item, -, empty, stream⟩ := Parser.readBulk_ok_iff.mp word
    cases items : array.items with
    | nil =>
        rw [items] at counted
        exact absurd counted.symm positive
    | cons first others =>
        rw [items, List.flatMap_cons, List.append_assoc] at stream
        obtain ⟨words, rests⟩ := Parser.word_unique stream
        refine ⟨rests.symm, .inr ?_⟩
        rw [ArrayText.words, items, List.map_cons, List.head?_cons, words, empty]

theorem flatMap_bytes_append_ne {item : WordText} {items : List WordText}
    {behind : Bytes} :
    (item :: items).flatMap WordText.bytes ++ behind ≠ behind := by
  intro same
  have lengths := congrArg List.length same
  rw [List.flatMap_cons, List.append_assoc, List.length_append, List.length_append,
    WordText.bytes, List.cons_append, List.cons_append, List.cons_append,
    List.length_cons] at lengths
  omega

/-- After an error on which the server goes on reading, exactly the array or the
line at the front of the stream is consumed, except when it is an array with an
empty first word and further words. -/
theorem recoverable_error_consumes_frame_iff {stream rest : Bytes} {failure : ParseError}
    (parsed : Parser.next stream = (.error failure, rest))
    (recoverable : failure = .emptyLine ∨ failure = .emptyCommand)
    {frame behind : Bytes} (framed : stream = frame ++ behind)
    (complete : (∃ array : ArrayText, array.bytes = frame) ∨ InlineLine frame) :
    rest = behind ↔ ¬ UnnamedArray frame := by
  subst framed
  have continues := Parser.not_stops_of_recoverable recoverable
  rcases complete with ⟨array, rfl⟩ | ⟨text, plain, rfl, unstarred⟩
  · have parsed : Parser.parseArray (array.bytes ++ behind) = (.error failure, rest) :=
      parsed
    constructor
    · rintro rfl ⟨other, same, word, others, words⟩
      rw [← same] at parsed
      obtain ⟨left, -⟩ := emptyCommand_leaves continues parsed
      obtain ⟨first, second, items, listed⟩ :
          ∃ first second items, other.items = first :: second :: items := by
        rcases listed : other.items with _ | ⟨first, _ | ⟨second, items⟩⟩
        · simp [ArrayText.words, listed] at words
        · simp [ArrayText.words, listed] at words
        · exact ⟨first, second, items, rfl⟩
      rw [listed] at left
      exact flatMap_bytes_append_ne left.symm
    · intro whole
      obtain ⟨left, front⟩ := emptyCommand_leaves continues parsed
      rcases listed : array.items with _ | ⟨first, _ | ⟨second, items⟩⟩
      · rw [left, listed]
        rfl
      · rw [left, listed]
        rfl
      · refine absurd ⟨array, rfl, second.word, items.map WordText.word, ?_⟩ whole
        rw [ArrayText.words, listed] at front ⊢
        have empty : first.word = [] := by simpa using front
        rw [List.map_cons, List.map_cons, empty]
  · have line : (text ++ [10] ++ behind).head? ≠ some 42 := by
      cases text <;> exact unstarred
    rw [Parser.next_of_unstarred line (by simp)] at parsed
    obtain ⟨inner, header⟩ := Parser.parseInline_recoverable parsed continues
    obtain ⟨innerPlain, -, stream⟩ := Parser.readLine_ok_iff.mp header
    have same : text ++ 10 :: behind = inner ++ [13] ++ 10 :: rest := by
      simpa [ByteLines.ending] using stream
    have linePlain : 10 ∉ inner ++ [13] := by
      rw [List.mem_append, not_or]
      exact ⟨innerPlain, by decide⟩
    obtain ⟨-, rfl⟩ := ByteLines.line_unique plain linePlain same
    refine iff_of_true rfl ?_
    rintro ⟨array, same, -⟩
    rw [← same] at unstarred
    exact unstarred rfl

/-- A blank line in front of a request, and an array with nothing but an empty
name. -/
theorem blank_line_is_consumed :
    Parser.next ([32, 13, 10] ++ writeRequest [.ascii "PING"]) =
        (.error .emptyLine, writeRequest [.ascii "PING"]) ∧
      Parser.next (writeRequest [[]] ++ writeRequest [.ascii "PING"]) =
        (.error .emptyCommand, writeRequest [.ascii "PING"]) ∧
      ¬ UnnamedArray (writeRequest [[]]) := by
  have parsed : Parser.next ([32, 13, 10] ++ writeRequest [.ascii "PING"]) =
      (.error .emptyLine,
        (Parser.next ([32, 13, 10] ++ writeRequest [.ascii "PING"])).2) := rfl
  have line : InlineLine [32, 13, 10] := ⟨[32, 13], by decide, rfl, by decide⟩
  have whole : ¬ UnnamedArray [32, 13, 10] := by
    rintro ⟨array, same, -⟩
    exact absurd (List.cons.inj same).1 (by decide)
  have limits : WithinLimits [[]] := by decide
  obtain ⟨array, -, -, -, bytes⟩ := limits.exists_arrayText
  have unnamed : Parser.next (writeRequest [[]] ++ writeRequest [.ascii "PING"]) =
      (.error .emptyCommand, writeRequest [.ascii "PING"]) := rfl
  refine ⟨?_, unnamed, ?_⟩
  · rw [parsed, (recoverable_error_consumes_frame_iff parsed (.inl rfl) rfl
      (.inr line)).mpr whole]
  · exact (recoverable_error_consumes_frame_iff unnamed (.inr rfl) rfl
      (.inl ⟨array, bytes⟩)).mp rfl

/-- An array whose first word is empty and whose second word holds a line break
and the name of a command. -/
def unnamedRequest : List Bytes := [[], 13 :: 10 :: Bytes.ascii "FLUSHALL"]

/-- The payload of the second word is executed. -/
theorem payload_is_taken_for_a_command :
    (∃ array : ArrayText, array.bytes = writeRequest unnamedRequest) ∧
    ∃ first second third,
      Parser.next (writeRequest unnamedRequest) = (.error .emptyCommand, first) ∧
      first ≠ [] ∧
      Parser.next first = (.ok { name := .ascii "$10", args := [] }, second) ∧
      Parser.next second = (.error .emptyLine, third) ∧
      Parser.next third = (.ok (.make .flushall []), []) := by
  have limits : WithinLimits unnamedRequest := by decide
  obtain ⟨array, -, -, -, bytes⟩ := limits.exists_arrayText
  refine ⟨⟨array, bytes⟩, _, _, _, rfl, ?_, rfl, rfl, rfl⟩
  decide

end MnemoKV
