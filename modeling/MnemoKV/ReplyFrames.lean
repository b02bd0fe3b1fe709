import MnemoKV.RequestParsing

/-!
# Replies on the wire

The writer of a connection and the reader of a peer.  Line breaks in texts are
written as blanks and an error is split again at its first blank, so a frame is
read as its form on the wire; but every frame that is written is read as one
frame, and the reader stops exactly behind it.
-/

namespace MnemoKV

/-- `writeLineText` replaces line breaks by blanks. -/
def lineText (text : Bytes) : Bytes :=
  text.map fun byte => if byte = 13 ∨ byte = 10 then 32 else byte

def errorCode (code : Bytes) : Bytes :=
  if code = [] then .ascii "ERR" else code

def errorLine (code message : Bytes) : Bytes :=
  lineText (errorCode code) ++ 32 :: lineText message

namespace Frame

mutual

/-- `Writer.WriteFrame`. -/
def write : Frame → Bytes
  | .simple text => 43 :: lineText text ++ ByteLines.ending
  | .error code message => 45 :: errorLine code message ++ ByteLines.ending
  | .integer value => 58 :: DecimalNumerals.writeInt value ++ ByteLines.ending
  | .bulk value null =>
      if null then 36 :: DecimalNumerals.writeInt (-1) ++ ByteLines.ending
      else writeWord value
  | .array items null =>
      if null then 42 :: DecimalNumerals.writeInt (-1) ++ ByteLines.ending
      else 42 :: DecimalNumerals.write items.length ++ ByteLines.ending ++
        writeAll items

def writeAll : List Frame → Bytes
  | [] => []
  | frame :: frames => frame.write ++ writeAll frames

end

/-- The error that `strings.SplitN` finds in a line. -/
def ofErrorLine (line : Bytes) : Frame :=
  .error (line.takeWhile fun byte => byte ≠ 32)
    ((line.dropWhile fun byte => byte ≠ 32).drop 1)

mutual

/-- The frame as the reader gets it. -/
def onWire : Frame → Frame
  | .simple text => .simple (lineText text)
  | .error code message => ofErrorLine (errorLine code message)
  | .integer value => .integer value
  | .bulk value null => if null then nullBulk else .bulk value false
  | .array items null =>
      if null then .array [] true else .array (onWireAll items) false

def onWireAll : List Frame → List Frame
  | [] => []
  | frame :: frames => frame.onWire :: onWireAll frames

end

mutual

/-- The numbers and lengths of the frame are machine integers. -/
def Representable : Frame → Prop
  | .simple _ | .error _ _ => True
  | .integer value => -(2 ^ 63) ≤ value ∧ value < 2 ^ 63
  | .bulk value _ => value.length < 2 ^ 63
  | .array items _ => items.length < 2 ^ 63 ∧ AllRepresentable items

def AllRepresentable : List Frame → Prop
  | [] => True
  | frame :: frames => frame.Representable ∧ AllRepresentable frames

end

end Frame

/-- Why `readFrame` returns no frame. -/
inductive ReplyError
  | incomplete
  | shortReply
  | notANumber
  | unknownSign (sign : UInt8)
  deriving DecidableEq

/-- One reply after the other. -/
def readMany (read : Bytes → Except ReplyError (Frame × Bytes)) :
    Nat → Bytes → Except ReplyError (List Frame × Bytes)
  | 0, stream => .ok ([], stream)
  | count + 1, stream =>
      match read stream with
      | .error failure => .error failure
      | .ok (frame, rest) =>
          match readMany read count rest with
          | .error failure => .error failure
          | .ok (frames, rest) => .ok (frame :: frames, rest)

/-- The switch of `readFrame` on the sign in front of a line. -/
def readReply (readItems : Nat → Bytes → Except ReplyError (List Frame × Bytes))
    (sign : UInt8) (body rest : Bytes) : Except ReplyError (Frame × Bytes) :=
  if sign = 43 then .ok (.simple body, rest)
  else if sign = 45 then .ok (Frame.ofErrorLine body, rest)
  else if sign = 58 then
    match atoi body with
    | none => .error .notANumber
    | some value => .ok (.integer value, rest)
  else if sign = 36 then
    match atoi body with
    | none => .error .notANumber
    | some length =>
        if length < 0 then .ok (.nullBulk, rest)
        else if rest.length < length.toNat + 2 then .error .incomplete
        else .ok (.bulk (rest.take length.toNat) false,
          rest.drop (length.toNat + 2))
  else if sign = 42 then
    match atoi body with
    | none => .error .notANumber
    | some count =>
        if count < 0 then .ok (.array [] true, rest)
        else
          match readItems count.toNat rest with
          | .error failure => .error failure
          | .ok (items, rest) => .ok (.array items false, rest)
  else .error (.unknownSign sign)

/-- `readFrame` on the bytes that have arrived; the first argument bounds the
nesting of arrays. -/
def readFrame : Nat → Bytes → Except ReplyError (Frame × Bytes)
  | 0, _ => .error .incomplete
  | depth + 1, stream =>
      match ByteLines.split stream with
      | none => .error .incomplete
      | some ([], _) => .error .shortReply
      | some (sign :: behind, rest) =>
          if (sign :: behind).length < 3 then .error .shortReply
          else readReply (readMany (readFrame depth)) sign
            (behind.take (behind.length - 2)) rest

/-! ### Reading what was written -/

theorem lineFeed_not_mem_lineText (text : Bytes) : 10 ∉ lineText text := by
  intro member
  obtain ⟨byte, -, same⟩ := List.mem_map.mp member
  split_ifs at same with broken
  · exact absurd same (by decide)
  · exact broken (.inr same)

theorem lineFeed_not_mem_writeInt (value : Int) :
    10 ∉ DecimalNumerals.writeInt value := by
  unfold DecimalNumerals.writeInt
  split_ifs
  · rw [List.mem_cons, not_or]
    exact ⟨by decide, lineFeed_not_mem_write _⟩
  · exact lineFeed_not_mem_write _

theorem atoi_writeInt {value : Int} (low : -(2 ^ 63) ≤ value)
    (high : value < 2 ^ 63) : atoi (DecimalNumerals.writeInt value) = some value := by
  simp only [atoi, DecimalNumerals.readInt_writeInt, if_pos (And.intro low high)]

theorem readFrame_line (depth : Nat) (sign : UInt8) (plain : sign ≠ 10)
    {body : Bytes} (single : 10 ∉ body) (rest : Bytes) :
    readFrame (depth + 1) (sign :: body ++ ByteLines.ending ++ rest) =
      readReply (readMany (readFrame depth)) sign body rest := by
  have found : ByteLines.split (sign :: body ++ ByteLines.ending ++ rest) =
      some (sign :: (body ++ ByteLines.ending), rest) := by
    refine ByteLines.split_append ?_ rest
    rw [List.mem_cons, not_or]
    exact ⟨Ne.symm plain, single⟩
  have long : ¬ (sign :: (body ++ ByteLines.ending)).length < 3 := by
    simp [ByteLines.ending]
  have inner : (body ++ ByteLines.ending).take
      ((body ++ ByteLines.ending).length - 2) = body := by
    simp [ByteLines.ending]
  rw [readFrame, found]
  simp only [if_neg long, inner]

theorem readFrame_writeWord (depth : Nat) {word : Bytes}
    (small : word.length < 2 ^ 63) (rest : Bytes) :
    readFrame (depth + 1) (writeWord word ++ rest) =
      .ok (.bulk word false, rest) := by
  have line := readFrame_line depth 36 (by decide)
    (lineFeed_not_mem_write word.length) (word ++ ByteLines.ending ++ rest)
  have long : ¬ (word ++ ByteLines.ending ++ rest).length < word.length + 2 := by
    simp [ByteLines.ending]
  have behind : (word ++ ByteLines.ending ++ rest).drop (word.length + 2) =
      rest := by
    rw [List.append_assoc, ← List.drop_drop, List.drop_left' rfl]
    rfl
  have taken : (word ++ ByteLines.ending ++ rest).take word.length = word := by
    rw [List.append_assoc, List.take_left' rfl]
  have natural : ¬ (word.length : Int) < 0 := by omega
  unfold writeWord
  rw [List.append_assoc, List.append_assoc, ← List.append_assoc word, line,
    readReply]
  simp only [atoi_write small, if_neg natural, Int.toNat_natCast, if_neg long,
    behind, taken]
  rfl

theorem readFrame_null (depth : Nat) (rest : Bytes) :
    readFrame (depth + 1)
        (36 :: DecimalNumerals.writeInt (-1) ++ ByteLines.ending ++ rest) =
      .ok (.nullBulk, rest) ∧
    readFrame (depth + 1)
        (42 :: DecimalNumerals.writeInt (-1) ++ ByteLines.ending ++ rest) =
      .ok (.array [] true, rest) := by
  have number := atoi_writeInt (by decide : (-(2 ^ 63) : Int) ≤ -1) (by decide)
  constructor
  · rw [readFrame_line depth 36 (by decide) (lineFeed_not_mem_writeInt _),
      readReply, number]
    rfl
  · rw [readFrame_line depth 42 (by decide) (lineFeed_not_mem_writeInt _),
      readReply, number]
    rfl

theorem Frame.length_write_pos (frame : Frame) : 0 < frame.write.length := by
  cases frame with
  | simple text => simp [write]
  | error code message => simp [write]
  | integer value => simp [write]
  | bulk value null => cases null <;> simp [write, writeWord]
  | array items null => cases null <;> simp [write]

mutual

theorem readFrame_write (frame : Frame) (representable : frame.Representable)
    (depth : Nat) (deep : frame.write.length ≤ depth) (rest : Bytes) :
    readFrame depth (frame.write ++ rest) = .ok (frame.onWire, rest) := by
  obtain ⟨depth, rfl⟩ : ∃ less, depth = less + 1 :=
    ⟨depth - 1, by have := frame.length_write_pos; omega⟩
  match frame with
  | .simple text =>
      rw [Frame.write, readFrame_line depth 43 (by decide)
        (lineFeed_not_mem_lineText text)]
      rfl
  | .error code message =>
      have single : 10 ∉ errorLine code message := by
        unfold errorLine
        rw [List.mem_append, List.mem_cons, not_or, not_or]
        exact ⟨lineFeed_not_mem_lineText _, by decide,
          lineFeed_not_mem_lineText _⟩
      rw [Frame.write, readFrame_line depth 45 (by decide) single]
      rfl
  | .integer value =>
      rw [Frame.write, readFrame_line depth 58 (by decide)
        (lineFeed_not_mem_writeInt value), readReply,
        atoi_writeInt representable.1 representable.2]
      rfl
  | .bulk value true => exact (readFrame_null depth rest).1
  | .bulk value false => exact readFrame_writeWord depth representable rest
  | .array items true => exact (readFrame_null depth rest).2
  | .array items false =>
      have inside : (Frame.writeAll items).length ≤ depth := by
        simp only [Frame.write, List.length_cons, List.length_append,
          Bool.false_eq_true, if_false] at deep
        omega
      have parsed := readMany_writeAll items representable.2 depth inside rest
      have natural : ¬ (items.length : Int) < 0 := by omega
      have line := readFrame_line depth 42 (by decide)
        (lineFeed_not_mem_write items.length) (Frame.writeAll items ++ rest)
      rw [← List.append_assoc] at line
      rw [Frame.write, if_neg Bool.false_ne_true, line, readReply,
        atoi_write representable.1]
      simp only [if_neg natural, Int.toNat_natCast, parsed]
      rfl

theorem readMany_writeAll (frames : List Frame)
    (representable : Frame.AllRepresentable frames) (depth : Nat)
    (deep : (Frame.writeAll frames).length ≤ depth) (rest : Bytes) :
    readMany (readFrame depth) frames.length (Frame.writeAll frames ++ rest) =
      .ok (Frame.onWireAll frames, rest) := by
  match frames with
  | [] => rfl
  | frame :: frames =>
      rw [Frame.writeAll, List.length_append] at deep
      have first := readFrame_write frame representable.1 depth (by omega)
        (Frame.writeAll frames ++ rest)
      have others := readMany_writeAll frames representable.2 depth (by omega) rest
      rw [Frame.writeAll, List.append_assoc, List.length_cons, readMany, first]
      simp only [others]
      rfl

end

/-! ### Frames that come back unchanged -/

/-- A text without line breaks. -/
def OneLine (text : Bytes) : Prop := ∀ byte ∈ text, byte ≠ 13 ∧ byte ≠ 10

instance (text : Bytes) : Decidable (OneLine text) :=
  List.decidableBAll (fun byte => byte ≠ 13 ∧ byte ≠ 10) text

theorem lineText_of_oneLine {text : Bytes} (oneLine : OneLine text) :
    lineText text = text := by
  rw [lineText, List.map_congr_left, List.map_id']
  intro byte member
  obtain ⟨noReturn, noFeed⟩ := oneLine byte member
  simp [noReturn, noFeed]

namespace Frame

mutual

/-- The texts of the frame are lines, and its errors have a prefix without a
blank. -/
def Clean : Frame → Prop
  | .simple text => OneLine text
  | .error code message => OneLine code ∧ OneLine message ∧ code ≠ [] ∧ 32 ∉ code
  | .integer _ | .bulk _ _ => True
  | .array items _ => AllClean items

def AllClean : List Frame → Prop
  | [] => True
  | frame :: frames => frame.Clean ∧ AllClean frames

end

mutual

/-- Null frames have no payload. -/
def NullsBare : Frame → Prop
  | .simple _ | .error _ _ | .integer _ => True
  | .bulk value null => null = true → value = []
  | .array items null => (null = true → items = []) ∧ AllNullsBare items

def AllNullsBare : List Frame → Prop
  | [] => True
  | frame :: frames => frame.NullsBare ∧ AllNullsBare frames

end

theorem ofErrorLine_append {code : Bytes} (single : 32 ∉ code) (message : Bytes) :
    ofErrorLine (code ++ 32 :: message) = .error code message := by
  have before : ∀ byte ∈ code, decide (byte ≠ 32) = true := by
    intro byte member
    have apart : byte ≠ 32 := fun same => single (same ▸ member)
    simpa using apart
  rw [ofErrorLine, List.takeWhile_append_of_pos before,
    List.dropWhile_append_of_pos before]
  simp

mutual

theorem onWire_of_clean (frame : Frame) (clean : frame.Clean) (bare : frame.NullsBare) :
    frame.onWire = frame := by
  match frame with
  | .simple text => rw [onWire, lineText_of_oneLine clean]
  | .error code message =>
      obtain ⟨codeLine, messageLine, named, single⟩ := clean
      rw [onWire, errorLine, errorCode, if_neg named, lineText_of_oneLine codeLine,
        lineText_of_oneLine messageLine, ofErrorLine_append single]
  | .integer value => rfl
  | .bulk value true =>
      obtain rfl := bare rfl
      rfl
  | .bulk value false => rfl
  | .array items true =>
      obtain rfl := bare.1 rfl
      rfl
  | .array items false =>
      rw [onWire, if_neg Bool.false_ne_true, onWireAll_of_clean items clean bare.2]

theorem onWireAll_of_clean (frames : List Frame) (clean : AllClean frames)
    (bare : AllNullsBare frames) : onWireAll frames = frames := by
  match frames with
  | [] => rfl
  | frame :: frames =>
      rw [onWireAll, onWire_of_clean frame clean.1 bare.1,
        onWireAll_of_clean frames clean.2 bare.2]

end

end Frame

/-- A written frame is read as its form on the wire, up to exactly its last byte;
a frame with clean texts and without payloads in null frames is read unchanged. -/
theorem replies_round_trip (frame : Frame) (representable : frame.Representable)
    (rest : Bytes) (depth : Nat) (deep : frame.write.length ≤ depth) :
    readFrame depth (frame.write ++ rest) = .ok (frame.onWire, rest) ∧
      (frame.Clean → frame.NullsBare →
        readFrame depth (frame.write ++ rest) = .ok (frame, rest)) := by
  have read := readFrame_write frame representable depth deep rest
  refine ⟨read, fun clean bare => ?_⟩
  rw [read, frame.onWire_of_clean clean bare]

/-- An array with an error and a bulk that holds a line break. -/
def mixedReply : Frame :=
  .array [.error (.ascii "ERR") (.ascii "no such key"), .bulk [13, 10] false,
    .array [] true] false

theorem mixed_reply_is_read_back :
    readFrame 100 (mixedReply.write ++ [43]) = .ok (mixedReply, [43]) := by
  refine (replies_round_trip mixedReply ?_ [43] 100 ?_).2 ?_ ?_
  · simp [mixedReply, Frame.Representable, Frame.AllRepresentable]
  · decide
  · refine ⟨⟨?_, ?_, ?_, ?_⟩, trivial, trivial, trivial⟩ <;> decide +kernel
  · simp [mixedReply, Frame.NullsBare, Frame.AllNullsBare]

/-- The payload of a null frame is not written. -/
theorem null_payload_is_dropped :
    (Frame.bulk [120] true).Clean ∧
      readFrame 10 ((Frame.bulk [120] true).write ++ []) = .ok (.bulk [] true, []) :=
  ⟨trivial, rfl⟩

end MnemoKV
