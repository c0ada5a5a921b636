import JtermCore.ExecutionJournal.Event
import Mathlib.Data.List.Lex

/-!
# The history fold

The reader of the journal folds Start, Finish, Output and Conflict events into
one record for each execution id.  Two indexes keep the records in the physical
order of their last accepted Start, so that the oldest can be evicted.
-/

namespace JtermCore

namespace ExecutionJournal

open Bytes Result

def physicalLines : Bytes → List Bytes
  | [] => []
  | byte :: rest =>
    if byte = newline then
      [byte] :: physicalLines rest
    else
      match physicalLines rest with
      | [] => [[byte]]
      | line :: lines => (byte :: line) :: lines

def endsWithNewline (line : Bytes) : Bool := line.getLast? = some newline

def payloadLength (line : Bytes) : Nat := line.length - if endsWithNewline line then 1 else 0

def readBoundedLine (line : Bytes) : Bool × Bytes :=
  if payloadLength line ≤ maxEventLineBytes then (true, line) else (false, [])

structure PersistedExecutionOutput where
  text : Bytes
  truncated : Bool
  totalBytes : Nat
  capturedAtMs : Nat
deriving DecidableEq

structure PersistedExecution where
  id : Bytes
  seq : Nat
  command : Bytes
  commandTruncated : Bool
  cwd : Bytes
  startedAtMs : Nat
  exitCode : Option Int
  durationMs : Option Nat
  cwdAfter : Option Bytes
  endedAtMs : Option Nat
  output : Option PersistedExecutionOutput
deriving DecidableEq

structure FoldedExecution where
  sessionId : Option Bytes
  record : PersistedExecution
  finishConflicted : Bool
  outputConflicted : Bool
deriving DecidableEq

/-- The containers of `read_session_history_file_with_line_limit`. -/
structure HistoryState where
  records : AList fun _ : Bytes => FoldedExecution
  /-- Ascending in the position, as a `BTreeMap` iterates. -/
  recordOrder : List (Nat × Bytes)
  recordPositions : AList fun _ : Bytes => Nat

/-- The containers before the first line. -/
def HistoryState.empty : HistoryState where
  records := ∅
  recordOrder := []
  recordPositions := ∅

def insertPosition (position : Nat) (id : Bytes) : List (Nat × Bytes) → List (Nat × Bytes)
  | [] => [(position, id)]
  | entry :: order =>
    if position < entry.1 then (position, id) :: entry :: order
    else if position = entry.1 then (position, id) :: order
    else entry :: insertPosition position id order

def removePosition (position : Nat) (order : List (Nat × Bytes)) : List (Nat × Bytes) :=
  order.filter fun entry => entry.1 ≠ position

/-- The eviction loop after an accepted Start; `retained` is the number of
records kept, or `none` to keep them all. -/
def evictOldest (retained : Option Nat) (records : AList fun _ : Bytes => FoldedExecution)
    (positions : AList fun _ : Bytes => Nat) : List (Nat × Bytes) → HistoryState
  | [] => ⟨records, [], positions⟩
  | (position, oldest) :: order =>
    if retained.any (· < records.entries.length) then
      evictOldest retained (records.erase oldest) (positions.erase oldest) order
    else
      ⟨records, (position, oldest) :: order, positions⟩

namespace HistoryState

/-- A recognized Start retires the record of its id, whatever the rest of the
line decodes to. -/
def retire (state : HistoryState) (id : Bytes) : HistoryState :=
  match state.records.lookup id with
  | none => state
  | some _ =>
    match state.recordPositions.lookup id with
    | none => { state with records := state.records.erase id }
    | some position =>
      { records := state.records.erase id
        recordOrder := removePosition position state.recordOrder
        recordPositions := state.recordPositions.erase id }

def update (state : HistoryState) (id : Bytes) (change : FoldedExecution → FoldedExecution) :
    HistoryState :=
  match state.records.lookup id with
  | none => state
  | some folded => { state with records := state.records.insert id (change folded) }

end HistoryState

def StartEvent.opened (event : StartEvent) : FoldedExecution where
  sessionId := event.sessionId
  record :=
    { id := event.id, seq := event.seq, command := event.command
      commandTruncated := event.commandTruncated, cwd := event.cwd
      startedAtMs := event.startedAtMs
      exitCode := none, durationMs := none, cwdAfter := none, endedAtMs := none
      output := none }
  finishConflicted := false
  outputConflicted := false

/-- A record whose finish slot is marked as ambiguous. -/
def FoldedExecution.conflictFinish (folded : FoldedExecution) : FoldedExecution :=
  { folded with
    record :=
      { folded.record with
        exitCode := none, durationMs := none, cwdAfter := none, endedAtMs := none }
    finishConflicted := true }

/-- A record whose output slot is marked as ambiguous. -/
def FoldedExecution.conflictOutput (folded : FoldedExecution) : FoldedExecution :=
  { folded with
    record := { folded.record with output := none }
    outputConflicted := true }

def FoldedExecution.finish (folded : FoldedExecution) (event : FinishEvent) : FoldedExecution :=
  if folded.finishConflicted then
    folded
  else if folded.record.exitCode.isNone then
    { folded with
      record :=
        { folded.record with
          exitCode := some event.exitCode
          durationMs := some event.durationMs
          cwdAfter := some event.cwdAfter
          endedAtMs := some event.endedAtMs } }
  else if folded.record.exitCode ≠ some event.exitCode ||
      folded.record.durationMs ≠ some event.durationMs ||
      folded.record.cwdAfter ≠ some event.cwdAfter ||
      folded.record.endedAtMs ≠ some event.endedAtMs then
    folded.conflictFinish
  else
    folded

def OutputRecord.persisted (event : OutputRecord) : PersistedExecutionOutput :=
  let (truncated, totalBytes) :=
    normalizeOutputMetadata event.text.length event.truncated event.totalBytes
  { text := event.text, truncated, totalBytes, capturedAtMs := event.capturedAtMs }

def FoldedExecution.output (folded : FoldedExecution) (event : OutputRecord) : FoldedExecution :=
  if folded.outputConflicted then
    folded
  else
    match folded.record.output with
    | none => { folded with record := { folded.record with output := some event.persisted } }
    | some existing => if existing = event.persisted then folded else folded.conflictOutput

/-- A Conflict applied to the record of its id. -/
def FoldedExecution.conflict (folded : FoldedExecution) : ConflictSlot → FoldedExecution
  | .finish => folded.conflictFinish
  | .output => folded.conflictOutput

section

variable [Libraries]

def StartEvent.accepted (event : StartEvent) : Bool :=
  isValidJshExecutionId event.id && event.sessionId.all isValidJshSessionId &&
    isValidJshCommand event.command && isValidJshCwd event.cwd

/-- One decoded event of the current version. -/
def HistoryState.applyEvent (retained : Option Nat) (ordinal : Nat) (state : HistoryState) :
    PersistedEvent → HistoryState
  | .start event =>
    if event.accepted then
      evictOldest retained (state.records.insert event.id event.opened)
        (state.recordPositions.insert event.id ordinal)
        (insertPosition ordinal event.id state.recordOrder)
    else
      state
  | .finish event =>
    if isValidJshExecutionId event.id && isValidJshCwd event.cwdAfter then
      state.update event.id (·.finish event)
    else
      state
  | .output event =>
    if isValidJshExecutionId event.id && event.text.length ≤ maxOutputBytes then
      state.update event.id (·.output event)
    else
      state
  | .conflict event =>
    if isValidJshExecutionId event.id then
      state.update event.id (·.conflict event.slot)
    else
      state

/-- The retirement a line asks for before its event is decoded. -/
def HistoryState.retireRecognized (state : HistoryState) (line : Bytes) : HistoryState :=
  match recognizedV1StartId line with
  | some id => state.retire id
  | none => state

def HistoryState.foldLine (retained : Option Nat) (ordinal : Nat) (state : HistoryState)
    (line : Bytes) : HistoryState :=
  if !Libraries.noDuplicateMembers line then
    state
  else
    let state := state.retireRecognized line
    match persistedEvent line with
    | none => state
    | some event =>
      if event.version ≠ executionJournalVersion then state
      else state.applyEvent retained ordinal event

/-- The reading loop, `eventLines` lines after the start of the file. -/
def foldLines (retained : Option Nat) (maxEventLines : Nat) (eventLines : Nat)
    (state : HistoryState) : List Bytes → Except String HistoryState
  | [] => .ok state
  | line :: lines =>
    let ordinal := eventLines + 1
    if ordinal > maxEventLines then
      .error "jsh execution journal exceeds its event-count limit"
    else
      match readBoundedLine line with
      | (false, _) => foldLines retained maxEventLines ordinal state lines
      | (true, kept) =>
        foldLines retained maxEventLines ordinal (state.foldLine retained ordinal kept) lines

def historyFold (retained : Option Nat) (maxEventLines : Nat) (content : Bytes) :
    Except String HistoryState :=
  if content.length > maxJournalReadBytes then
    .error "jsh execution journal exceeds its bounded size"
  else
    foldLines retained maxEventLines 0 .empty (physicalLines content)

def positionedRecords (positions : AList fun _ : Bytes => Nat) (sessionId : Bytes)
    (entries : List FoldedExecution) : Option (List (Nat × PersistedExecution)) :=
  match entries with
  | [] => some []
  | entry :: entries => do
    let position ← positions.lookup entry.record.id
    let others ← positionedRecords (positions.erase entry.record.id) sessionId entries
    return if entry.sessionId = some sessionId then (position, entry.record) :: others
      else others

/-- The order of the presented records. -/
def presentedBefore (left right : Nat × PersistedExecution) : Bool :=
  left.1 < right.1 || (left.1 = right.1 && left.2.id.map UInt8.toNat ≤ right.2.id.map UInt8.toNat)

def readSessionHistoryFile (content sessionId : Bytes) (maxEventLines : Nat) :
    Except String (List PersistedExecution) := do
  let state ← historyFold (some maxRetainedExecutions) maxEventLines content
  let ordered ← okOr "jsh execution journal retention index became inconsistent"
    (positionedRecords state.recordPositions sessionId (state.records.entries.map (·.2)))
  let records := (ordered.mergeSort presentedBefore).map Prod.snd
  return records.drop (records.length - maxRetainedExecutions)

end

end ExecutionJournal

end JtermCore

/-!
# The bound output inspection

Before the writer appends a terminal's output it inspects the locked file: the
output may be appended only while the exact Start it belongs to is still the
authoritative one and its output slot is empty.
-/

namespace JtermCore

namespace ExecutionJournal

inductive BoundOutputSnapshot where
  | ready
  | exactTerminal
  | rejected
deriving DecidableEq

/-- The loop variables of `inspect_bound_output_snapshot`. -/
structure SnapshotState where
  activeLifecycle : Bool
  lifecycleFinish : Option (Int × Nat × Bytes × Nat)
  finishConflicted : Bool
  outputSeen : Bool
  outputConflicted : Bool
  matchingOutputs : Nat
  terminalExact : Bool
deriving DecidableEq

/-- The loop variables before the first line, and after a foreign Start. -/
def SnapshotState.initial : SnapshotState where
  activeLifecycle := false
  lifecycleFinish := none
  finishConflicted := false
  outputSeen := false
  outputConflicted := false
  matchingOutputs := 0
  terminalExact := false

section

variable [Libraries]

def startMatchesLifecycle (start : StartEvent) (lifecycle : ExecutionLifecycle) : Bool :=
  start.jshExecutionVersion = executionJournalVersion &&
    start.id = lifecycle.id &&
    start.sessionId = some lifecycle.sessionId &&
    start.seq = lifecycle.seq &&
    start.startedAtMs = lifecycle.startedAtMs &&
    isValidJshExecutionId start.id &&
    start.sessionId.any isValidJshSessionId &&
    isValidJshCommand start.command && isValidJshCwd start.cwd

def outputMatchesExpected (output : OutputRecord) (expected : OutputEvent) : Bool :=
  output.jshExecutionVersion = executionJournalVersion &&
    output.id = expected.id &&
    output.text = expected.text &&
    output.truncated = expected.truncated &&
    output.totalBytes = expected.totalBytes && output.capturedAtMs = expected.capturedAtMs

/-- One event of the current version for the inspected id, after its Start. -/
def SnapshotState.applyEvent (expected : OutputEvent) (state : SnapshotState) :
    PersistedEvent → SnapshotState
  | .start _ => state
  | .finish event =>
    if isValidJshCwd event.cwdAfter then
      let finish := (event.exitCode, event.durationMs, event.cwdAfter, event.endedAtMs)
      match state.lifecycleFinish with
      | none => { state with lifecycleFinish := some finish }
      | some existing =>
        if existing = finish then state else { state with finishConflicted := true }
    else
      state
  | .output event =>
    if event.text.length ≤ maxOutputBytes then
      if state.outputSeen || state.outputConflicted then
        { state with outputConflicted := true }
      else if outputMatchesExpected event expected then
        { state with
          outputSeen := true
          matchingOutputs := state.matchingOutputs + 1
          terminalExact := true }
      else
        { state with outputSeen := true }
    else
      state
  | .conflict event =>
    match event.slot with
    | .output => { state with outputSeen := true, outputConflicted := true }
    | .finish => { state with finishConflicted := true }

def PersistedEvent.id : PersistedEvent → Bytes
  | .start event => event.id
  | .finish event => event.id
  | .output event => event.id
  | .conflict event => event.id

def SnapshotState.inspectLine (lifecycle : ExecutionLifecycle) (expected : OutputEvent)
    (state : SnapshotState) (line : Bytes) : SnapshotState :=
  let state := { state with terminalExact := false }
  if !Libraries.noDuplicateMembers line then
    state
  else
    let decoded := persistedEvent line
    if recognizedV1StartId line = some lifecycle.id then
      match decoded with
      | some (.start start) =>
        { SnapshotState.initial with
          activeLifecycle := startMatchesLifecycle start lifecycle }
      | _ => .initial
    else if !state.activeLifecycle then
      state
    else
      match decoded with
      | some event =>
        if event.version = executionJournalVersion ∧ event.id = lifecycle.id ∧
            isValidJshExecutionId event.id = true then
          state.applyEvent expected event
        else
          state
      | none => state

/-- The reading loop, `eventLines` lines after the start; `none` is an early
rejection. -/
def inspectLines (lifecycle : ExecutionLifecycle) (expected : OutputEvent)
    (maxEventLines : Nat) (eventLines : Nat) (state : SnapshotState) :
    List Bytes → Option SnapshotState
  | [] => some state
  | line :: lines =>
    let eventLines := eventLines + 1
    if eventLines > maxEventLines then
      none
    else
      match readBoundedLine line with
      | (false, _) => none
      | (true, kept) =>
        -- No unterminated physical tail is a safe boundary for an output.
        if !endsWithNewline kept then
          none
        else
          inspectLines lifecycle expected maxEventLines eventLines
            (state.inspectLine lifecycle expected kept) lines

/-- The verdict on the loop variables after the last line. -/
def SnapshotState.verdict (state : SnapshotState) : BoundOutputSnapshot :=
  if !state.activeLifecycle || state.outputConflicted || state.finishConflicted then
    .rejected
  else if state.outputSeen then
    if state.terminalExact && state.matchingOutputs = 1 && state.lifecycleFinish.isNone then
      .exactTerminal
    else
      .rejected
  else
    .ready

def inspectBoundOutputSnapshot (content : Bytes) (lifecycle : ExecutionLifecycle)
    (expected : OutputEvent) (maxEventLines : Nat) : BoundOutputSnapshot :=
  if content.length = 0 || content.length > maxJournalReadBytes then
    .rejected
  else
    match inspectLines lifecycle expected maxEventLines 0 .initial (physicalLines content) with
    | none => .rejected
    | some state => state.verdict

end

end ExecutionJournal

end JtermCore
