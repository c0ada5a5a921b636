import JtermCore.ExecutionJournal.Agreement

/-!
# What an accepted output does to the history

The writer appends the line of an output event only after the inspection has
answered `Ready`.  Folding that line on top of the inspected ones fills the
empty output slot of the followed Start and changes no other record.
-/

namespace JtermCore.ExecutionJournal

open Bytes

theorem boundaryBefore_le (text : Bytes) (index : Nat) : boundaryBefore text index ≤ index := by
  induction index with
  | zero => exact Nat.le_refl 0
  | succ index ih =>
    unfold boundaryBefore
    split
    · exact Nat.le_refl _
    · omega

theorem length_sub_boundaryAfter (text : Bytes) (fuel : Nat) :
    text.length - boundaryAfter text fuel ≤ fuel := by
  induction fuel with
  | zero => simp [boundaryAfter]
  | succ fuel ih =>
    unfold boundaryAfter
    split <;> omega

theorem length_boundedText (value : Bytes) (maxBytes : Nat) :
    (boundedText value maxBytes).length ≤ maxBytes := by
  unfold boundedText
  split
  · assumption
  · have head := boundaryBefore_le value (maxBytes / 2)
    have tail := length_sub_boundaryAfter value (maxBytes - maxBytes / 2)
    simp only [List.length_append, List.length_take, List.length_drop]
    omega

structure EncodedAs (event written : OutputEvent) (line : Bytes) : Prop where
  id : written.id = event.id
  capturedAtMs : written.capturedAtMs = event.capturedAtMs
  text : written.text.length ≤ maxOutputBytes
  totalBytes : written.totalBytes ≤ max event.totalBytes maxOutputBytes
  line : line = written.toVec ++ [newline]
  within : written.toVec.length ≤ maxEventLineBytes
  exact : event.toVec.length ≤ maxEventLineBytes → written = event

variable {event written : OutputEvent} {line : Bytes}

theorem encodeEventWithValue_spec (small : event.text.length ≤ maxOutputBytes)
    (encoded : encodeEventWithValue event = some (written, line)) :
    EncodedAs event written line := by
  unfold encodeEventWithValue at encoded
  by_cases long : event.toVec.length > maxEventLineBytes
  · simp only [if_pos long, Option.ite_none_left_eq_some, Option.some.injEq,
      Prod.mk.injEq] at encoded
    obtain ⟨within, rfl, rfl⟩ := encoded
    have bounded := length_boundedText event.text (maxOutputBytes / 2)
    refine ⟨rfl, rfl, ?_, ?_, rfl, by omega, by omega⟩
    · simp only [maxOutputBytes] at bounded ⊢
      omega
    · simp only [maxOutputBytes] at bounded ⊢
      omega
  · simp only [if_neg long, Option.some.injEq, Prod.mk.injEq] at encoded
    obtain ⟨rfl, rfl⟩ := encoded
    exact ⟨rfl, rfl, small, by omega, rfl, by omega, fun _ => rfl⟩

def OutputEvent.record (event : OutputEvent) : OutputRecord where
  jshExecutionVersion := executionJournalVersion
  id := event.id
  text := event.text
  truncated := event.truncated
  totalBytes := event.totalBytes
  capturedAtMs := event.capturedAtMs

def OutputEvent.taggedMembers (event : OutputEvent) : Members :=
  [(ofAscii "jsh_execution_version", .integer executionJournalVersion),
    (ofAscii "event", .string (ofAscii "output")), (ofAscii "id", .string event.id),
    (ofAscii "text", .string event.text), (ofAscii "truncated", .bool event.truncated),
    (ofAscii "total_bytes", .integer event.totalBytes),
    (ofAscii "captured_at_ms", .integer event.capturedAtMs)]

/-- The members that remain when the tag has been taken. -/
def OutputEvent.members (event : OutputEvent) : Members :=
  event.taggedMembers.filter fun member => member.1 ≠ ofAscii "event"

theorem unsigned_integer {bits value : Nat} (small : value < 2 ^ bits) :
    Json.unsigned bits (.integer value) = some value := by
  have cast : (value : Int) < 2 ^ bits := by exact_mod_cast small
  simp [Json.unsigned, cast]

theorem OutputRecord.decode_members (totalBytes : event.totalBytes < 2 ^ 64)
    (capturedAtMs : event.capturedAtMs < 2 ^ 64) :
    OutputRecord.decode event.members = some event.record := by
  have known : onlyFields ("rsh_execution_version" :: outputFields) event.members = true := rfl
  have version : required versionNames (Json.unsigned 32) event.members =
      some executionJournalVersion := rfl
  have id : required ["id"] Json.text event.members = some event.id := rfl
  have text : required ["text"] Json.text event.members = some event.text := rfl
  have truncated : required ["truncated"] Json.flag event.members = some event.truncated := rfl
  have total : required ["total_bytes"] (Json.unsigned 64) event.members =
      Json.unsigned 64 (.integer event.totalBytes) := rfl
  have captured : required ["captured_at_ms"] (Json.unsigned 64) event.members =
      Json.unsigned 64 (.integer event.capturedAtMs) := rfl
  unfold OutputRecord.decode
  rw [known, version, id, text, truncated, total, captured, unsigned_integer totalBytes,
    unsigned_integer capturedAtMs]
  rfl

theorem required_event_taggedMembers (event : OutputEvent) :
    required ["event"] Json.text event.taggedMembers = some (ofAscii "output") := rfl

theorem PersistedEvent.decode_json (totalBytes : event.totalBytes < 2 ^ 64)
    (capturedAtMs : event.capturedAtMs < 2 ^ 64) :
    PersistedEvent.decode event.json = some (.output event.record) := by
  rw [show event.json = .object event.taggedMembers from rfl, PersistedEvent.decode,
    required_event_taggedMembers, Option.bind_eq_bind, Option.bind_some, decodeTagged,
    if_neg (by decide), if_neg (by decide), if_pos rfl, Option.bind_some]
  rw [← OutputEvent.members, OutputRecord.decode_members totalBytes capturedAtMs, Option.map_some]

theorem EventIdentity.decode_json (event : OutputEvent) :
    EventIdentity.decode event.json =
      some ⟨ofAscii "output", executionJournalVersion, event.id⟩ := by
  have version : required versionNames (Json.unsigned 32) event.taggedMembers =
      some executionJournalVersion := rfl
  have id : required ["id"] Json.text event.taggedMembers = some event.id := rfl
  rw [show event.json = .object event.taggedMembers from rfl, EventIdentity.decode,
    decodeMembers, required_event_taggedMembers, version, id]
  rfl

section

variable [Libraries]

theorem HistoryState.foldLine_output {history : HistoryState}
    (retained : Option Nat) (ordinal : Nat) (parsed : Libraries.parseJson line = some written.json)
    (unique : Libraries.noDuplicateMembers line = true)
    (valid : isValidJshExecutionId written.id = true) (small : written.text.length ≤ maxOutputBytes)
    (totalBytes : written.totalBytes < 2 ^ 64) (capturedAtMs : written.capturedAtMs < 2 ^ 64) :
    history.foldLine retained ordinal line =
      history.update written.id (·.output written.record) := by
  have decoded : persistedEvent line = some (.output written.record) := by
    rw [persistedEvent, parsed, Option.bind_some,
      PersistedEvent.decode_json totalBytes capturedAtMs]
  have notStart : recognizedV1StartId line = none := by
    rw [recognizedV1StartId, parsed, Option.bind_some, EventIdentity.decode_json]
    rfl
  simp only [HistoryState.foldLine, unique, HistoryState.retireRecognized, notStart, decoded]
  simp [PersistedEvent.version, OutputEvent.record, HistoryState.applyEvent, valid, small]

omit [Libraries] in
theorem FoldedExecution.output_empty {folded : FoldedExecution} (event : OutputRecord)
    (empty : folded.record.output = none) (unambiguous : folded.outputConflicted = false) :
    folded.output event =
      { folded with record := { folded.record with output := some event.persisted } } := by
  simp [FoldedExecution.output, empty, unambiguous]

theorem foldLines_output {lines : List Bytes} {maxEventLines : Nat} {before : HistoryState}
    (folds : foldLines none maxEventLines 0 .empty lines = .ok before)
    (fewer : lines.length < maxEventLines)
    (valid : isValidJshExecutionId event.id = true) (encodes : EncodedAs event written line)
    (totalBytes : event.totalBytes < 2 ^ 64) (capturedAtMs : event.capturedAtMs < 2 ^ 64)
    (parsed : Libraries.parseJson line = some written.json)
    (unique : Libraries.noDuplicateMembers line = true) :
    foldLines none maxEventLines 0 .empty (lines ++ [line]) =
      .ok (before.update event.id (·.output written.record)) := by
  have kept : readBoundedLine line = (true, line) := by
    rw [encodes.line]
    simp [readBoundedLine, payloadLength, endsWithNewline, encodes.within]
  have room : ¬ 0 + lines.length + 1 > maxEventLines := by omega
  have bounded := encodes.totalBytes
  have totalWritten : written.totalBytes < 2 ^ 64 := by
    simp only [maxOutputBytes] at bounded
    omega
  have capturedWritten : written.capturedAtMs < 2 ^ 64 := by
    rw [encodes.capturedAtMs]
    exact capturedAtMs
  have validWritten : isValidJshExecutionId written.id = true := by rw [encodes.id, valid]
  have last : before.foldLine none (0 + lines.length + 1) line =
      before.update written.id (·.output written.record) :=
    HistoryState.foldLine_output none _ parsed unique validWritten encodes.text totalWritten
      capturedWritten
  rw [foldLines_append, folds]
  simp only [Except.bind, foldLines, if_neg room, kept, last, encodes.id]

/-- When the inspection answers `Ready`, the history holds the open record of
exactly this lifecycle, and the line written for an output of the lifecycle
fills its output slot and nothing else. -/
theorem ready_output_attaches {lifecycle : ExecutionLifecycle} {lines : List Bytes}
    (journal : ∀ line ∈ lines, JournalLine line) {maxEventLines : Nat}
    (fewer : lines.length < maxEventLines) {event written : OutputEvent} {line : Bytes}
    (id : event.id = lifecycle.id) (small : event.text.length ≤ maxOutputBytes)
    (totalBytes : event.totalBytes < 2 ^ 64) (capturedAtMs : event.capturedAtMs < 2 ^ 64)
    (encoded : encodeEventWithValue event = some (written, line))
    (parsed : Libraries.parseJson line = some written.json)
    (unique : Libraries.noDuplicateMembers line = true) {expected : OutputEvent}
    (ready : inspectBoundOutputSnapshot lines.flatten lifecycle expected maxEventLines = .ready) :
    ∃ before folded after,
      foldLines none maxEventLines 0 .empty lines = .ok before ∧
      before.records.lookup lifecycle.id = some folded ∧
      folded.sessionId = some lifecycle.sessionId ∧
      folded.record.seq = lifecycle.seq ∧
      folded.record.startedAtMs = lifecycle.startedAtMs ∧
      folded.record.output = none ∧
      folded.finishConflicted = false ∧
      folded.outputConflicted = false ∧
      foldLines none maxEventLines 0 .empty (lines ++ [line]) = .ok after ∧
      after.recordOrder = before.recordOrder ∧
      after.recordPositions = before.recordPositions ∧
      after.records.lookup lifecycle.id = some
        { folded with
          record := { folded.record with output := some written.record.persisted } } ∧
      (∀ other, other ≠ lifecycle.id →
        after.records.lookup other = before.records.lookup other) ∧
      (event.toVec.length ≤ maxEventLineBytes → written = event) := by
  obtain ⟨before, folded, folds, found, valid, sessionId, seq, startedAtMs, output, finish,
    outputOpen⟩ := ready_record journal (Nat.le_of_lt fewer) ready
  have encodes := encodeEventWithValue_spec small encoded
  have appended := foldLines_output folds fewer (id ▸ valid) encodes totalBytes capturedAtMs
    parsed unique
  rw [id] at appended
  refine ⟨before, folded, _, folds, found, sessionId, seq, startedAtMs, output, finish,
    outputOpen, appended, ?_, ?_, ?_, ?_, encodes.exact⟩
  · simp [HistoryState.update, found]
  · simp [HistoryState.update, found]
  · rw [HistoryState.lookup_update, if_pos rfl, found, Option.map_some,
      FoldedExecution.output_empty _ output outputOpen]
  · intro other different
    rw [HistoryState.lookup_update, if_neg different]

end

def startText : Bytes :=
  ofAscii "\x7b\"event\":\"start\",\"jsh_execution_version\":1,\"id\":\"a\",\"session_id\":\"b\",\"seq\":1,\"command\":\"c\",\"cwd\":\"/\",\"started_at_ms\":0\x7d"

theorem startText_eq : startText =
    [123, 34, 101, 118, 101, 110, 116, 34, 58, 34, 115, 116, 97, 114, 116, 34, 44, 34, 106, 115,
      104, 95, 101, 120, 101, 99, 117, 116, 105, 111, 110, 95, 118, 101, 114, 115, 105, 111, 110,
      34, 58, 49, 44, 34, 105, 100, 34, 58, 34, 97, 34, 44, 34, 115, 101, 115, 115, 105, 111,
      110, 95, 105, 100, 34, 58, 34, 98, 34, 44, 34, 115, 101, 113, 34, 58, 49, 44, 34, 99, 111,
      109, 109, 97, 110, 100, 34, 58, 34, 99, 34, 44, 34, 99, 119, 100, 34, 58, 34, 47, 34, 44,
      34, 115, 116, 97, 114, 116, 101, 100, 95, 97, 116, 95, 109, 115, 34, 58, 48, 125] := by
  simp [startText, ofAscii]

def startLine : Bytes := startText ++ [newline]

/-- The value of `startLine`. -/
def startJson : Json :=
  .object [ (ofAscii "event", .string (ofAscii "start")),
    (ofAscii "jsh_execution_version", .integer 1), (ofAscii "id", .string (ofAscii "a")),
    (ofAscii "session_id", .string (ofAscii "b")), (ofAscii "seq", .integer 1),
    (ofAscii "command", .string (ofAscii "c")), (ofAscii "cwd", .string (ofAscii "/")),
    (ofAscii "started_at_ms", .integer 0)]

def startLifecycle : ExecutionLifecycle where
  id := ofAscii "a"
  sessionId := ofAscii "b"
  seq := 1
  startedAtMs := 0

def startEvent : StartEvent where
  jshExecutionVersion := 1
  id := ofAscii "a"
  sessionId := some (ofAscii "b")
  seq := 1
  command := ofAscii "c"
  commandTruncated := false
  cwd := ofAscii "/"
  startedAtMs := 0

@[reducible]
def oneOutputLibraries (event : OutputEvent) : Libraries where
  parseJson line :=
    if line = startLine then some startJson
    else if line = event.toVec ++ [newline] then some event.json
    else none
  noDuplicateMembers _ := true
  isUnsafeInvisibleChar _ := false

theorem startLine_bytes :
    newline ∉ startText ∧ payloadLength startLine ≤ maxEventLineBytes ∧ startLine.length ≤ 200 ∧
      ([startLine].flatten.length = 0 ||
        [startLine].flatten.length > maxJournalReadBytes : Bool) = false := by
  rw [startLine, startText_eq]
  decide +kernel

section

variable (event : OutputEvent)

theorem parseJson_startLine : (oneOutputLibraries event).parseJson startLine = some startJson :=
  if_pos rfl

theorem startLine_journal : @JournalLine (oneOutputLibraries event) startLine :=
  let _ := oneOutputLibraries event
  ⟨⟨startText, startLine_bytes.1, rfl⟩, ⟨_, parseJson_startLine event⟩, startLine_bytes.2.1⟩

theorem persistedEvent_startLine :
    @persistedEvent (oneOutputLibraries event) startLine = some (.start startEvent) := by
  unfold persistedEvent
  rw [parseJson_startLine]
  rfl

theorem recognizedV1StartId_startLine :
    @recognizedV1StartId (oneOutputLibraries event) startLine = some startLifecycle.id := by
  unfold recognizedV1StartId
  rw [parseJson_startLine]
  rfl

theorem startLine_matches :
    @startMatchesLifecycle (oneOutputLibraries event) startEvent startLifecycle = true :=
  rfl

theorem startLine_ready (expected : OutputEvent) :
    @inspectBoundOutputSnapshot (oneOutputLibraries event) [startLine].flatten startLifecycle
      expected 10 = .ready := by
  let _ := oneOutputLibraries event
  have journal : ∀ line ∈ [startLine], JournalLine line := by simp [startLine_journal event]
  have bounded : ([startLine].flatten.length = 0 ||
      [startLine].flatten.length > maxJournalReadBytes : Bool) = false := startLine_bytes.2.2.2
  have first : ¬ 0 + 1 > 10 := by decide
  rw [inspectBoundOutputSnapshot, bounded, physicalLines_flatten journal]
  simp only [inspectLines, first, (startLine_journal event).readBoundedLine,
    (startLine_journal event).endsWithNewline, SnapshotState.inspectLine,
    persistedEvent_startLine event, recognizedV1StartId_startLine event,
    startLine_matches event, Bool.not_true, Bool.false_eq_true, if_true, if_false,
    SnapshotState.verdict, SnapshotState.initial]
  rfl

end

def shortOutput : OutputEvent where
  id := ofAscii "a"
  text := ofAscii "hi"
  truncated := false
  totalBytes := 2
  capturedAtMs := 7

theorem ready_output_attaches_shortOutput :
    ∃ before folded after,
      @foldLines (oneOutputLibraries shortOutput) none 10 0 .empty [startLine] = .ok before ∧
      before.records.lookup startLifecycle.id = some folded ∧
      folded.sessionId = some startLifecycle.sessionId ∧
      folded.record.seq = startLifecycle.seq ∧
      folded.record.startedAtMs = startLifecycle.startedAtMs ∧
      folded.record.output = none ∧
      folded.finishConflicted = false ∧
      folded.outputConflicted = false ∧
      @foldLines (oneOutputLibraries shortOutput) none 10 0 .empty
        ([startLine] ++ [shortOutput.toVec ++ [newline]]) = .ok after ∧
      after.recordOrder = before.recordOrder ∧
      after.recordPositions = before.recordPositions ∧
      after.records.lookup startLifecycle.id = some
        { folded with
          record := { folded.record with output := some shortOutput.record.persisted } } ∧
      (∀ other, other ≠ startLifecycle.id →
        after.records.lookup other = before.records.lookup other) ∧
      (shortOutput.toVec.length ≤ maxEventLineBytes → shortOutput = shortOutput) := by
  let _ := oneOutputLibraries shortOutput
  have journal : ∀ line ∈ [startLine], JournalLine line := by
    simp [startLine_journal shortOutput]
  have encoded : encodeEventWithValue shortOutput =
      some (shortOutput, shortOutput.toVec ++ [newline]) := by
    decide +kernel
  have parsed : Libraries.parseJson (shortOutput.toVec ++ [newline]) = some shortOutput.json := by
    have different : ¬ shortOutput.toVec ++ [newline] = startLine := by
      rw [startLine, startText_eq]
      decide +kernel
    exact (if_neg different).trans (if_pos rfl)
  exact ready_output_attaches journal (by decide) rfl (by decide +kernel) (by decide) (by decide)
    encoded parsed rfl (startLine_ready shortOutput shortOutput)

def controlOutput (length : Nat) (truncated : Bool) : OutputEvent where
  id := ofAscii "a"
  text := List.replicate length 0x01
  truncated := truncated
  totalBytes := maxOutputBytes
  capturedAtMs := 7

theorem boundedText_replicate {byte : UInt8} (plain : Utf8.isContinuation byte = false)
    {length maxBytes : Nat} (long : 2 * maxBytes ≤ length) :
    boundedText (List.replicate length byte) maxBytes = List.replicate maxBytes byte := by
  have boundary (index : Nat) : isCharBoundary (List.replicate length byte) index =
      decide (index ≤ length) := by
    by_cases inside : index < length
    · simp [isCharBoundary, inside, plain, Nat.le_of_lt inside]
    · simp only [isCharBoundary, List.getElem?_replicate, if_neg inside, List.length_replicate]
      exact decide_eq_decide.mpr (by omega)
  have before (index : Nat) (inside : index ≤ length) :
      boundaryBefore (List.replicate length byte) index = index := by
    cases index with
    | zero => rfl
    | succ index => simp [boundaryBefore, boundary, inside]
  have after (fuel : Nat) : boundaryAfter (List.replicate length byte) fuel = length - fuel := by
    cases fuel with
    | zero => simp [boundaryAfter]
    | succ fuel => simp [boundaryAfter, boundary]
  unfold boundedText
  split
  · rename_i short
    rw [List.length_replicate] at short
    rw [show length = maxBytes by omega]
  · dsimp only
    rw [before _ (by omega), after, List.take_replicate, List.drop_replicate,
      List.replicate_append_replicate]
    congr 1
    omega

theorem length_flatMap_escapeByte (length : Nat) :
    ((List.replicate length (0x01 : UInt8)).flatMap escapeByte).length = 6 * length := by
  have escaped : (escapeByte 0x01).length = 6 := by decide +kernel
  induction length with
  | zero => rfl
  | succ length ih =>
    rw [List.replicate_succ, List.flatMap_cons, List.length_append, ih, escaped]
    omega

theorem length_toVec_controlOutput (length : Nat) (truncated : Bool) :
    (controlOutput length truncated).toVec.length =
      (controlOutput 0 truncated).toVec.length + 6 * length := by
  cases truncated <;>
    simp only [OutputEvent.toVec, controlOutput, jsonString, List.length_append,
      length_flatMap_escapeByte, Bool.false_eq_true, if_true, if_false] <;>
    omega

/-- The run whose escaped text is longer than a line may be. -/
def escapedOutput : OutputEvent := controlOutput maxOutputBytes false

/-- The event that is written for `escapedOutput`. -/
def shortenedOutput : OutputEvent := controlOutput (maxOutputBytes / 2) true

theorem length_toVec_escapedOutput : escapedOutput.toVec.length > maxEventLineBytes := by
  rw [escapedOutput, length_toVec_controlOutput]
  have large : maxEventLineBytes < 6 * maxOutputBytes := by decide
  omega

theorem length_toVec_shortenedOutput : shortenedOutput.toVec.length ≤ maxEventLineBytes := by
  rw [shortenedOutput, length_toVec_controlOutput]
  have rest : (controlOutput 0 true).toVec.length ≤ 1000 := by decide +kernel
  have large : 1000 + 6 * (maxOutputBytes / 2) ≤ maxEventLineBytes := by decide
  omega

theorem encodeEventWithValue_long {shortened : OutputEvent}
    (long : event.toVec.length > maxEventLineBytes)
    (shortens : shortened = { event with
      text := boundedText event.text (maxOutputBytes / 2)
      truncated := true
      totalBytes := max event.totalBytes (boundedText event.text (maxOutputBytes / 2)).length })
    (within : shortened.toVec.length ≤ maxEventLineBytes) :
    encodeEventWithValue event = some (shortened, shortened.toVec ++ [newline]) := by
  unfold encodeEventWithValue
  rw [if_pos long]
  dsimp only
  rw [← shortens]
  exact if_neg (Nat.not_lt.mpr within)

theorem encodeEventWithValue_escapedOutput :
    encodeEventWithValue escapedOutput =
      some (shortenedOutput, shortenedOutput.toVec ++ [newline]) := by
  have bounded : boundedText (List.replicate maxOutputBytes 0x01) (maxOutputBytes / 2) =
      List.replicate (maxOutputBytes / 2) 0x01 := boundedText_replicate (by decide) (by decide)
  have total : max maxOutputBytes (maxOutputBytes / 2) = maxOutputBytes := by decide
  apply encodeEventWithValue_long length_toVec_escapedOutput _ length_toVec_shortenedOutput
  rw [escapedOutput, shortenedOutput, controlOutput, controlOutput]
  dsimp only
  rw [bounded, List.length_replicate, total]

/-- Folding the line that is written for `escapedOutput` after its Start, which
the inspection accepts, attaches another output than the one it carries. -/
theorem escapedOutput_not_attached :
    (∀ line ∈ [startLine], @JournalLine (oneOutputLibraries shortenedOutput) line) ∧
      escapedOutput.id = startLifecycle.id ∧
      escapedOutput.text.length ≤ maxOutputBytes ∧
      encodeEventWithValue escapedOutput =
        some (shortenedOutput, shortenedOutput.toVec ++ [newline]) ∧
      @inspectBoundOutputSnapshot (oneOutputLibraries shortenedOutput) [startLine].flatten
        startLifecycle shortenedOutput 10 = .ready ∧
      ∃ after folded,
        @foldLines (oneOutputLibraries shortenedOutput) none 10 0 .empty
          ([startLine] ++ [shortenedOutput.toVec ++ [newline]]) = .ok after ∧
        after.records.lookup startLifecycle.id = some folded ∧
        folded.record.output = some shortenedOutput.record.persisted ∧
        folded.record.output ≠ some escapedOutput.record.persisted := by
  let _ := oneOutputLibraries shortenedOutput
  have journal : ∀ line ∈ [startLine], JournalLine line := by
    simp [startLine_journal shortenedOutput]
  have small : escapedOutput.text.length ≤ maxOutputBytes :=
    Nat.le_of_eq List.length_replicate
  have ready := startLine_ready shortenedOutput shortenedOutput
  have parsed : Libraries.parseJson (shortenedOutput.toVec ++ [newline]) =
      some shortenedOutput.json := by
    have different : ¬ shortenedOutput.toVec ++ [newline] = startLine := by
      intro same
      have lengths := congrArg List.length same
      rw [List.length_append, shortenedOutput, length_toVec_controlOutput] at lengths
      have short : startLine.length ≤ 200 := startLine_bytes.2.2.1
      have long : 200 < 6 * (maxOutputBytes / 2) := by decide
      omega
    exact (if_neg different).trans (if_pos rfl)
  obtain ⟨before, folded, folds, found, valid, -, -, -, output, -, outputOpen⟩ :=
    ready_record journal (by decide) ready
  have encodes := encodeEventWithValue_spec small encodeEventWithValue_escapedOutput
  have appended := foldLines_output folds (by decide) valid encodes (by decide) (by decide)
    parsed rfl
  have texts : shortenedOutput.record.persisted.text.length ≠
      escapedOutput.record.persisted.text.length := by
    rw [show shortenedOutput.record.persisted.text = List.replicate (maxOutputBytes / 2) 0x01
      from rfl, show escapedOutput.record.persisted.text = List.replicate maxOutputBytes 0x01
      from rfl, List.length_replicate, List.length_replicate]
    decide
  refine ⟨journal, rfl, small, encodeEventWithValue_escapedOutput, ready, _,
    folded.output shortenedOutput.record, appended, ?_, ?_, ?_⟩
  · exact (HistoryState.lookup_update ..).trans ((if_pos rfl).trans (congrArg _ found))
  · rw [FoldedExecution.output_empty _ output outputOpen]
  · rw [FoldedExecution.output_empty _ output outputOpen]
    intro same
    exact texts (congrArg (·.text.length) (Option.some.inj same))

end JtermCore.ExecutionJournal
