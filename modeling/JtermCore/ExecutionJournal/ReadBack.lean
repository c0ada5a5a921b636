import JtermCore.CompactJson
import JtermCore.ExecutionJournal.Abridged

/-!
# Reading a captured output back

The line of an output event is the compact text of a JSON value.  A parser that
reads compact texts back therefore decodes the line to the event it carries.
-/

namespace JtermCore.ExecutionJournal

open Bytes Utf8

mutual

/-- The syntax tree with its strings in UTF-8. -/
def Json.ofChars : CompactJson.Json → Json
  | .null => .null
  | .bool value => .bool value
  | .integer value => .integer value
  | .float => .float
  | .string text => .string (encodeUtf8 text)
  | .array items => .array (itemsOfChars items)
  | .object members => .object (membersOfChars members)

def itemsOfChars : List CompactJson.Json → List Json
  | [] => []
  | item :: items => Json.ofChars item :: itemsOfChars items

def membersOfChars : List (List Char × CompactJson.Json) → Members
  | [] => []
  | (name, value) :: members => (encodeUtf8 name, Json.ofChars value) :: membersOfChars members

end

/-- `serde_json::from_slice` reads a compact text on a line of its own, up to
its recursion limit. -/
def ReadsCompact [Libraries] : Prop :=
  ∀ (json : CompactJson.Json) (depth : Nat), depth < 128 → json.Exact depth →
    Libraries.parseJson (encodeUtf8 json.print ++ [newline]) = some (Json.ofChars json)

variable {text : List Char}

theorem encodeUtf8_ascii (ascii : ∀ char ∈ text, char.toNat < 128) :
    encodeUtf8 text = text.map fun char => UInt8.ofNat char.toNat := by
  induction text with
  | nil => rfl
  | cons char text ih =>
    have small : char.val.toNat ≤ 0x7f := by
      have bound := ascii char List.mem_cons_self
      have same : char.toNat = char.val.toNat := rfl
      omega
    rw [encodeUtf8_cons, ih fun later member => ascii later (List.mem_cons_of_mem _ member),
      List.map_cons]
    unfold String.utf8EncodeChar
    dsimp only
    rw [if_pos small]
    rfl

theorem exists_chars_of_ascii {bytes : Bytes} (ascii : ∀ byte ∈ bytes, byte.toNat < 128) :
    ∃ text : List Char, encodeUtf8 text = bytes := by
  refine ⟨bytes.map fun byte => Char.ofNat byte.toNat, ?_⟩
  have code : ∀ byte ∈ bytes, (Char.ofNat byte.toNat).toNat = byte.toNat := by
    intro byte member
    have each : ∀ code < 128, (Char.ofNat code).toNat = code := by decide
    exact each byte.toNat (ascii byte member)
  rw [encodeUtf8_ascii, List.map_map]
  · conv_rhs => rw [← List.map_id bytes]
    refine List.map_congr_left fun byte member => ?_
    simp [code byte member]
  · intro char member
    obtain ⟨byte, inside, rfl⟩ := List.mem_map.mp member
    rw [code byte inside]
    exact ascii byte inside

theorem encodeUtf8_escapeChar (char : Char) :
    encodeUtf8 (CompactJson.escapeChar char) = (String.utf8EncodeChar char).flatMap escapeByte := by
  have ascii : ∀ code < 128, encodeUtf8 (CompactJson.escapeChar (Char.ofNat code)) =
      (String.utf8EncodeChar (Char.ofNat code)).flatMap escapeByte := by decide +kernel
  rcases Nat.lt_or_ge char.toNat 128 with small | large
  · have same := ascii char.toNat small
    rwa [Char.ofNat_toNat] at same
  · have plain : CompactJson.escapeChar char = [char] := by
      have different : ∀ other : Char, other.toNat < 128 → char ≠ other := by
        rintro other below rfl
        omega
      rw [CompactJson.escapeChar, if_neg (different _ (by decide)),
        if_neg (different _ (by decide)), if_neg (by omega), if_neg (by omega), if_neg (by omega),
        if_neg (by omega), if_neg (by omega), if_neg (by omega)]
    have bytes : ∀ byte ∈ String.utf8EncodeChar char, escapeByte byte = [byte] := by
      intro byte member
      have high : 128 ≤ byte.toNat := by
        by_contra low
        have code := (encodeChar_ascii member (by omega)).1
        omega
      have each : ∀ value < 256, 128 ≤ value →
          escapeByte (UInt8.ofNat value) = [UInt8.ofNat value] := by decide +kernel
      have same := each byte.toNat byte.toNat_lt high
      rwa [UInt8.ofNat_toNat] at same
    rw [plain, encodeUtf8_cons, encodeUtf8_nil, List.append_nil]
    have flat : ∀ bytes : Bytes, (∀ byte ∈ bytes, escapeByte byte = [byte]) →
        bytes.flatMap escapeByte = bytes := by
      intro bytes each
      induction bytes with
      | nil => rfl
      | cons byte bytes ih =>
        rw [List.flatMap_cons, each byte List.mem_cons_self,
          ih fun later member => each later (List.mem_cons_of_mem _ member)]
        rfl
    exact (flat _ bytes).symm

theorem encodeUtf8_quote (text : List Char) :
    encodeUtf8 (CompactJson.quote text) = jsonString (encodeUtf8 text) := by
  have escaped : encodeUtf8 (text.flatMap CompactJson.escapeChar) =
      (encodeUtf8 text).flatMap escapeByte := by
    induction text with
    | nil => rfl
    | cons char text ih =>
      rw [List.flatMap_cons, encodeUtf8_append, ih, encodeUtf8_escapeChar, encodeUtf8_cons,
        List.flatMap_append]
  have quoteChar : String.utf8EncodeChar '"' = [0x22] := by decide
  rw [CompactJson.quote, encodeUtf8_cons, encodeUtf8_append, escaped, encodeUtf8_cons,
    encodeUtf8_nil, quoteChar, jsonString]
  simp

theorem encodeUtf8_printInteger (value : Nat) :
    encodeUtf8 (CompactJson.printInteger value) = jsonNumber value := by
  have digits : ∀ char ∈ Nat.toDigits 10 value, char.toNat < 128 := by
    intro char member
    have digit := Nat.isDigit_of_mem_toDigits (by decide) (by decide) member
    simp only [Char.isDigit, Bool.and_eq_true, decide_eq_true_eq] at digit
    have bound : char.val.toNat ≤ 57 := UInt32.le_iff_toNat_le.mp digit.2
    have same : char.toNat = char.val.toNat := rfl
    omega
  rw [CompactJson.printInteger, if_neg (by omega), Int.toNat_natCast, encodeUtf8_ascii digits,
    jsonNumber, ofAscii, Nat.toString_eq_repr, Nat.repr_eq_ofList_toDigits, String.toList_ofList]

def OutputEvent.charMembers (event : OutputEvent) (id text : List Char) :
    List (List Char × CompactJson.Json) :=
  [("jsh_execution_version".toList, .integer executionJournalVersion),
    ("event".toList, .string "output".toList), ("id".toList, .string id),
    ("text".toList, .string text), ("truncated".toList, .bool event.truncated),
    ("total_bytes".toList, .integer event.totalBytes),
    ("captured_at_ms".toList, .integer event.capturedAtMs)]

/-- The value of an event whose strings are these. -/
def OutputEvent.charJson (event : OutputEvent) (id text : List Char) : CompactJson.Json :=
  .object (event.charMembers id text)

variable {event : OutputEvent}

theorem toVec_eq_print {id : List Char}
    (idBytes : event.id = encodeUtf8 id) (textBytes : event.text = encodeUtf8 text) :
    event.toVec = encodeUtf8 (event.charJson id text).print := by
  have opening : ofAscii "\x7b\"jsh_execution_version\":1,\"event\":\"output\",\"id\":" =
      encodeUtf8 ('\x7b' :: (CompactJson.quote "jsh_execution_version".toList ++
        ':' :: CompactJson.printInteger executionJournalVersion ++
        ',' :: (CompactJson.quote "event".toList ++ ':' :: CompactJson.quote "output".toList) ++
        ',' :: (CompactJson.quote "id".toList ++ [':']))) := by decide +kernel
  have textName : ofAscii ",\"text\":" =
      encodeUtf8 (',' :: (CompactJson.quote "text".toList ++ [':'])) := by decide +kernel
  have truncatedName : ofAscii ",\"truncated\":" =
      encodeUtf8 (',' :: (CompactJson.quote "truncated".toList ++ [':'])) := by decide +kernel
  have totalName : ofAscii ",\"total_bytes\":" =
      encodeUtf8 (',' :: (CompactJson.quote "total_bytes".toList ++ [':'])) := by decide +kernel
  have capturedName : ofAscii ",\"captured_at_ms\":" =
      encodeUtf8 (',' :: (CompactJson.quote "captured_at_ms".toList ++ [':'])) := by decide +kernel
  have closing : ofAscii "\x7d" = encodeUtf8 ['\x7d'] := by decide +kernel
  have flag : ofAscii (if event.truncated then "true" else "false") =
      encodeUtf8 (CompactJson.Json.bool event.truncated).print := by
    cases event.truncated <;> decide +kernel
  rw [OutputEvent.toVec, idBytes, textBytes, ← encodeUtf8_quote, ← encodeUtf8_quote,
    ← encodeUtf8_printInteger, ← encodeUtf8_printInteger, opening, textName, truncatedName,
    totalName, capturedName, closing, flag]
  have integerText : ∀ value, (CompactJson.Json.integer value).print =
      CompactJson.printInteger value := fun value => by rw [CompactJson.Json.print]
  have stringText : ∀ text, (CompactJson.Json.string text).print = CompactJson.quote text :=
    fun text => by rw [CompactJson.Json.print]
  have layout : (event.charJson id text).print =
      '\x7b' :: (CompactJson.separated ((event.charMembers id text).map CompactJson.memberText) ++
          ['\x7d']) := by
    rw [OutputEvent.charJson, CompactJson.Json.print, CompactJson.memberTexts_eq]
  rw [layout]
  simp only [← encodeUtf8_append]
  congr 1
  simp only [OutputEvent.charMembers, List.map_cons, List.map_nil, CompactJson.memberText,
    integerText, stringText, CompactJson.separated, List.append_assoc, List.cons_append,
    List.nil_append]

theorem charJson_exact (id text : List Char)
    (totalBytes : event.totalBytes < 2 ^ 64) (capturedAtMs : event.capturedAtMs < 2 ^ 64) :
    (event.charJson id text).Exact 1 := by
  refine .object ?_
  intro member inside
  simp only [OutputEvent.charMembers, List.mem_cons, List.not_mem_nil, or_false] at inside
  rcases inside with rfl | rfl | rfl | rfl | rfl | rfl | rfl
  · exact .integer (by decide) (by decide)
  · exact .string _
  · exact .string _
  · exact .string _
  · exact .bool _
  · exact .integer (by omega) (by omega)
  · exact .integer (by omega) (by omega)

theorem ofChars_charJson {id : List Char}
    (idBytes : event.id = encodeUtf8 id) (textBytes : event.text = encodeUtf8 text) :
    Json.ofChars (event.charJson id text) = event.json := by
  have ascii : ∀ name ∈ ["jsh_execution_version", "event", "output", "id", "text", "truncated",
      "total_bytes", "captured_at_ms"], encodeUtf8 name.toList = ofAscii name := by decide +kernel
  simp only [OutputEvent.charJson, OutputEvent.charMembers, OutputEvent.json, Json.ofChars,
    membersOfChars, idBytes, textBytes]
  rw [ascii "jsh_execution_version" (by decide), ascii "event" (by decide),
    ascii "output" (by decide), ascii "id" (by decide), ascii "text" (by decide),
    ascii "truncated" (by decide), ascii "total_bytes" (by decide),
    ascii "captured_at_ms" (by decide)]

theorem ascii_of_valid {id : Bytes} (valid : isValidJshExecutionId id = true) :
    ∀ byte ∈ id, byte.toNat < 128 := by
  simp only [isValidJshExecutionId, Bool.and_eq_true, List.all_eq_true] at valid
  intro byte member
  have allowed := valid.2 byte member
  have each : ∀ value < 256, 128 ≤ value →
      (isAsciiAlphanumeric (UInt8.ofNat value) || UInt8.ofNat value = 0x2d ||
        UInt8.ofNat value = 0x5f || UInt8.ofNat value = 0x2e) = false := by decide +kernel
  by_contra high
  have refused := each byte.toNat byte.toNat_lt (by omega)
  rw [UInt8.ofNat_toNat, allowed] at refused
  cases refused

section

variable [Libraries]

theorem persistedEvent_line (reads : ReadsCompact)
    (valid : isValidJshExecutionId event.id = true) (textBytes : event.text = encodeUtf8 text)
    (totalBytes : event.totalBytes < 2 ^ 64) (capturedAtMs : event.capturedAtMs < 2 ^ 64) :
    persistedEvent (event.toVec ++ [newline]) = some (.output event.record) := by
  obtain ⟨id, idBytes⟩ := exists_chars_of_ascii (ascii_of_valid valid)
  have parsed := reads (event.charJson id text) 1 (by decide)
    (charJson_exact id text totalBytes capturedAtMs)
  rw [← toVec_eq_print idBytes.symm textBytes, ofChars_charJson idBytes.symm textBytes] at parsed
  rw [persistedEvent, parsed, Option.bind_some, PersistedEvent.decode_json totalBytes capturedAtMs]

/-- What the journal keeps of a captured output. -/
structure Journalled (completed : CompletedExecution) (written : OutputEvent) (line : Bytes) :
    Prop where
  payload : ∃ payload, line = payload ++ [newline] ∧ newline ∉ payload ∧
    payload.length ≤ maxEventLineBytes
  decoded : persistedEvent line = some (.output written.record)
  length : written.text.length ≤ maxOutputBytes
  abridged : ∃ front dropped back, completed.output = front ++ dropped ++ back ∧
    written.text = encodeUtf8 (front ++ back)
  normal : normalizeOutputMetadata written.text.length written.truncated written.totalBytes =
    (written.truncated, written.totalBytes)
  dropped : written.text ≠ encodeUtf8 completed.output → written.truncated = true

/-- Every available output of a valid lifecycle can be journalled. -/
theorem output_journalled (reads : ReadsCompact) (completed : CompletedExecution)
    (unixTimeMs : Nat) (now : unixTimeMs < 2 ^ 64)
    (available : completed.outputAvailable = true) (valid : completed.lifecycle.isValid = true) :
    ∃ bound written line,
      OutputEvent.fromCompleted completed unixTimeMs = some bound ∧
      encodeEventWithValue bound.event = some (written, line) ∧
      Journalled completed written line := by
  obtain ⟨bound, captured, -, captures⟩ := fromCompleted_captures unixTimeMs available valid
  obtain ⟨written, line, encoded, keeps⟩ := captures.encodes valid now
  refine ⟨bound, written, line, captured, encoded, ?_⟩
  obtain ⟨kept, ⟨front, dropped, back, split, rfl⟩, textBytes⟩ := keeps.abridged
  have writtenId : isValidJshExecutionId written.id = true := by
    rw [ExecutionLifecycle.isValid, Bool.and_eq_true] at valid
    rw [keeps.id, captures.id]
    exact valid.1
  have writtenTime : written.capturedAtMs < 2 ^ 64 := by
    rw [keeps.capturedAtMs, captures.capturedAtMs]
    exact now
  refine ⟨⟨written.toVec, keeps.line, newline_not_mem_toVec written, keeps.within⟩, ?_,
    keeps.length, ⟨front, dropped, back, split, textBytes⟩, keeps.normal, keeps.dropped⟩
  rw [keeps.line]
  exact persistedEvent_line reads writtenId textBytes keeps.totalBytes writtenTime

end

@[reducible]
def compactLibraries : Libraries where
  parseJson line := (decodeUtf8 line.dropLast).bind fun text =>
    (CompactJson.read text).map Json.ofChars
  noDuplicateMembers _ := true
  isUnsafeInvisibleChar _ := false

theorem compactLibraries_reads : @ReadsCompact compactLibraries := by
  intro json depth _ exact
  have bytes : (encodeUtf8 json.print ++ [newline]).dropLast = encodeUtf8 json.print :=
    List.dropLast_concat
  show (decodeUtf8 (encodeUtf8 json.print ++ [newline]).dropLast).bind _ = _
  rw [bytes, decodeUtf8_encodeUtf8, Option.bind_some, CompactJson.read_print exact, Option.map_some]

/-- The output of a command that prints one character is journalled. -/
theorem output_journalled_of_char :
    let completed : CompletedExecution :=
      { lifecycle := startLifecycle, output := ['a'], outputAvailable := true,
        truncated := false, totalBytes := 1 }
    ∃ bound written line,
      OutputEvent.fromCompleted completed 7 = some bound ∧
      encodeEventWithValue bound.event = some (written, line) ∧
      @Journalled compactLibraries completed written line :=
  @output_journalled compactLibraries compactLibraries_reads _ 7 (by decide) rfl
    (by decide +kernel)

end JtermCore.ExecutionJournal
