import JtermCore.ExecutionJournal.History

/-!
# The two readers agree

The inspection before an append and the history fold are two separate loops
over the same lines.  `Agrees` relates their loop variables line by line: while
the inspection follows a lifecycle, the history holds the record of that exact
Start, with a finish slot and an output slot that are at least as open as the
inspection says.
-/

namespace JtermCore.ExecutionJournal

open Bytes

variable {names : List String}

theorem fieldValues_withoutTag (members : Members)
    (different : ∀ name ∈ names, ofAscii name ≠ ofAscii "event") :
    fieldValues names (members.filter fun member => member.1 ≠ ofAscii "event") =
      fieldValues names members := by
  simp only [fieldValues, List.filter_filter]
  congr 1
  apply List.filter_congr
  intro member _
  by_cases named : names.any (fun name => member.1 = ofAscii name) = true
  · obtain ⟨name, member_name, equal⟩ := List.any_eq_true.mp named
    have equal : member.1 = ofAscii name := of_decide_eq_true equal
    simp [equal, different name member_name]
  · simp [named]

theorem required_withoutTag {α : Type} (decode : Json → Option α)
    (members : Members) (different : ∀ name ∈ names, ofAscii name ≠ ofAscii "event") :
    required names decode (members.filter fun member => member.1 ≠ ofAscii "event") =
      required names decode members := by
  rw [required, fieldValues_withoutTag members different, required]

variable {event : StartEvent} {members : Members}

theorem StartEvent.decode_fields (decoded : StartEvent.decode members = some event) :
    required versionNames (Json.unsigned 32) members = some event.jshExecutionVersion ∧
      required ["id"] Json.text members = some event.id := by
  simp only [StartEvent.decode, Option.bind_eq_bind, Option.bind_eq_some_iff,
    Option.pure_def, Option.some.injEq] at decoded
  obtain ⟨-, -, version, versionEq, id, idEq, -, -, -, -, -, -, -, -, -, -, -, -, rfl⟩ := decoded
  exact ⟨versionEq, idEq⟩

theorem decodeTagged_start {tag : Bytes} {fields : List String → Option Members}
    (decoded : PersistedEvent.decodeTagged tag fields = some (.start event)) :
    tag = ofAscii "start" ∧
      ∃ members, fields startFields = some members ∧ StartEvent.decode members = some event := by
  unfold PersistedEvent.decodeTagged at decoded
  split at decoded
  · rename_i start
    simp only [Option.bind_eq_some_iff, Option.map_eq_some_iff] at decoded
    obtain ⟨members, read, found, decodedStart, same⟩ := decoded
    cases same
    exact ⟨start, members, read, decodedStart⟩
  all_goals
    repeat' split at decoded
    all_goals simp [Option.bind_eq_some_iff, Option.map_eq_some_iff] at decoded

theorem decode_start_identity
    (decoded : PersistedEvent.decode (.object members) = some (.start event)) :
    EventIdentity.decode (.object members) =
      some ⟨ofAscii "start", event.jshExecutionVersion, event.id⟩ := by
  simp only [PersistedEvent.decode, Option.bind_eq_bind, Option.bind_eq_some_iff] at decoded
  obtain ⟨tag, tagEq, decodedTag⟩ := decoded
  obtain ⟨rfl, fields, read, decodedStart⟩ := decodeTagged_start decodedTag
  obtain ⟨version, id⟩ := StartEvent.decode_fields decodedStart
  cases Option.some.inj read
  rw [required_withoutTag _ _ (by decide)] at version id
  simp [EventIdentity.decode, EventIdentity.decodeMembers, tagEq, version, id]

theorem physicalLines_append_newline {body : Bytes} (rest : Bytes) (clean : newline ∉ body) :
    physicalLines (body ++ [newline] ++ rest) = (body ++ [newline]) :: physicalLines rest := by
  induction body with
  | nil => simp [physicalLines]
  | cons byte body ih =>
    simp only [List.mem_cons, not_or] at clean
    have different : ¬ byte = newline := Ne.symm clean.1
    simp only [List.cons_append, physicalLines, if_neg different, ih clean.2]

theorem HistoryState.lookup_retire (history : HistoryState) (id other : Bytes) :
    (history.retire id).records.lookup other =
      if other = id then none else history.records.lookup other := by
  unfold HistoryState.retire
  by_cases same : other = id
  · subst other
    split
    · rename_i missing
      simp [missing]
    · split <;> simp
  · split
    · simp [same]
    · split <;> simp [same, AList.lookup_erase_ne]

theorem HistoryState.lookup_update (history : HistoryState) (id other : Bytes)
    (change : FoldedExecution → FoldedExecution) : (history.update id change).records.lookup other =
      if other = id then (history.records.lookup id).map change
      else history.records.lookup other := by
  unfold HistoryState.update
  by_cases same : other = id
  · subst other
    split <;> rename_i found <;> simp [found]
  · split <;> simp [same, AList.lookup_insert_ne]

theorem evictOldest_none (records : AList fun _ : Bytes => FoldedExecution)
    (positions : AList fun _ : Bytes => Nat) (order : List (Nat × Bytes)) :
    evictOldest none records positions order = ⟨records, order, positions⟩ := by
  cases order <;> simp [evictOldest]

section

variable [Libraries]

theorem foldLines_append (retained : Option Nat) (maxEventLines eventLines : Nat)
    (state : HistoryState) (lines more : List Bytes) :
    foldLines retained maxEventLines eventLines state (lines ++ more) =
      (foldLines retained maxEventLines eventLines state lines).bind fun middle =>
        foldLines retained maxEventLines (eventLines + lines.length) middle more := by
  induction lines generalizing eventLines state with
  | nil => rfl
  | cons line lines ih =>
    simp only [List.cons_append, foldLines]
    split
    · rfl
    · split <;> rw [ih, List.length_cons, Nat.add_assoc, Nat.add_comm 1]

structure JournalLine (line : Bytes) : Prop where
  terminated : ∃ body, newline ∉ body ∧ line = body ++ [newline]
  object : ∃ members, Libraries.parseJson line = some (.object members)
  within : payloadLength line ≤ maxEventLineBytes

variable {line : Bytes}

theorem JournalLine.endsWithNewline (journal : JournalLine line) : endsWithNewline line = true := by
  obtain ⟨body, -, rfl⟩ := journal.terminated
  simp [ExecutionJournal.endsWithNewline]

theorem JournalLine.readBoundedLine (journal : JournalLine line) :
    readBoundedLine line = (true, line) := by
  rw [ExecutionJournal.readBoundedLine, if_pos journal.within]

variable {lines : List Bytes}

theorem physicalLines_flatten (journal : ∀ line ∈ lines, JournalLine line) :
    physicalLines lines.flatten = lines := by
  induction lines with
  | nil => rfl
  | cons line lines ih =>
    obtain ⟨body, clean, rfl⟩ := (journal line (by simp)).terminated
    rw [List.flatten_cons, physicalLines_append_newline _ clean,
      ih fun line member => journal line (by simp [member])]

theorem JournalLine.recognized (journal : JournalLine line)
    (decoded : persistedEvent line = some (.start event))
    (version : event.jshExecutionVersion = executionJournalVersion)
    (valid : isValidJshExecutionId event.id = true) : recognizedV1StartId line = some event.id := by
  obtain ⟨members, parsed⟩ := journal.object
  simp only [persistedEvent, parsed, Option.bind_some] at decoded
  simp [recognizedV1StartId, parsed, decode_start_identity decoded, version, valid]

theorem JournalLine.recognized_decoded (journal : JournalLine line)
    {id : Bytes} (recognized : recognizedV1StartId line = some id)
    (decoded : persistedEvent line = some (.start event)) :
    event.id = id ∧ event.jshExecutionVersion = executionJournalVersion := by
  obtain ⟨members, parsed⟩ := journal.object
  simp only [persistedEvent, parsed, Option.bind_some] at decoded
  simp only [recognizedV1StartId, parsed, Option.bind_some, decode_start_identity decoded,
    Option.bind_eq_bind, Option.bind_eq_some_iff, Option.guard_eq_some', Option.pure_def,
    Option.some.injEq, true_and, exists_const] at recognized
  exact ⟨recognized.2, recognized.1.1⟩

/-- The finish slot of a record as the inspection remembers it. -/
def FoldedExecution.finishFields (folded : FoldedExecution) :
    Option Int × Option Nat × Option Bytes × Option Nat :=
  (folded.record.exitCode, folded.record.durationMs, folded.record.cwdAfter,
    folded.record.endedAtMs)

/-- A remembered finish, spread over the four slots of a record. -/
def spreadFinish (finish : Option (Int × Nat × Bytes × Nat)) :
    Option Int × Option Nat × Option Bytes × Option Nat :=
  (finish.map (·.1), finish.map (·.2.1), finish.map (·.2.2.1), finish.map (·.2.2.2))

structure FollowedRecord (lifecycle : ExecutionLifecycle) (state : SnapshotState)
    (folded : FoldedExecution) : Prop where
  sessionId : folded.sessionId = some lifecycle.sessionId
  seq : folded.record.seq = lifecycle.seq
  startedAtMs : folded.record.startedAtMs = lifecycle.startedAtMs
  finish : state.finishConflicted = false →
    folded.finishConflicted = false ∧ folded.finishFields = spreadFinish state.lifecycleFinish
  output : state.outputSeen = false → state.outputConflicted = false →
    folded.record.output = none ∧ folded.outputConflicted = false

/-- The simulation relation between the two loops. -/
def Agrees (lifecycle : ExecutionLifecycle) (state : SnapshotState) (history : HistoryState) :
    Prop :=
  state.activeLifecycle = true →
    isValidJshExecutionId lifecycle.id = true ∧
      ∃ folded, history.records.lookup lifecycle.id = some folded ∧
        FollowedRecord lifecycle state folded

variable {event : PersistedEvent}

theorem HistoryState.lookup_applyEvent_of_ne (history : HistoryState) (ordinal : Nat)
    {id : Bytes} (different : id ≠ event.id) :
    (history.applyEvent none ordinal event).records.lookup id = history.records.lookup id := by
  cases event <;> simp only [HistoryState.applyEvent, evictOldest_none] <;> split
  all_goals first | rfl | skip
  · exact AList.lookup_insert_ne different
  all_goals exact (HistoryState.lookup_update ..).trans (if_neg different)

variable {lifecycle : ExecutionLifecycle} {state : SnapshotState}

variable {folded : FoldedExecution}

section

variable (followed : FollowedRecord lifecycle state folded)

include followed

theorem FollowedRecord.finishEvent
    (expected : OutputEvent) (event : FinishEvent) (valid : isValidJshCwd event.cwdAfter = true) :
    FollowedRecord lifecycle (state.applyEvent expected (.finish event)) (folded.finish event) := by
  have shared : (folded.finish event).sessionId = folded.sessionId ∧
      (folded.finish event).record.seq = folded.record.seq ∧
      (folded.finish event).record.startedAtMs = folded.record.startedAtMs ∧
      (folded.finish event).record.output = folded.record.output ∧
      (folded.finish event).outputConflicted = folded.outputConflicted := by
    unfold FoldedExecution.finish FoldedExecution.conflictFinish
    split
    · simp
    split
    · simp
    split <;> simp
  obtain ⟨sessionId, seq, startedAtMs, output, outputConflicted⟩ := shared
  refine ⟨sessionId.trans followed.sessionId, seq.trans followed.seq,
    startedAtMs.trans followed.startedAtMs, ?_, ?_⟩
  · simp only [SnapshotState.applyEvent, valid, if_true]
    cases remembered : state.lifecycleFinish with
    | none =>
      intro open_
      obtain ⟨openRecord, fields⟩ := followed.finish open_
      rw [remembered] at fields
      simp only [FoldedExecution.finishFields, spreadFinish, Option.map_none,
        Prod.mk.injEq] at fields
      simp [FoldedExecution.finish, openRecord, fields.1, FoldedExecution.finishFields,
        spreadFinish]
    | some existing =>
      dsimp only
      split
      · rename_i same
        subst existing
        intro open_
        obtain ⟨openRecord, fields⟩ := followed.finish open_
        rw [remembered] at fields ⊢
        have kept := fields
        simp only [FoldedExecution.finishFields, spreadFinish, Option.map_some,
          Prod.mk.injEq] at fields
        have unchanged : folded.finish event = folded := by
          simp [FoldedExecution.finish, openRecord, fields]
        rw [unchanged]
        exact ⟨openRecord, kept⟩
      · intro impossible
        simp at impossible
  · have outputs : (state.applyEvent expected (.finish event)).outputSeen = state.outputSeen ∧
        (state.applyEvent expected (.finish event)).outputConflicted = state.outputConflicted := by
      simp only [SnapshotState.applyEvent, valid, if_true]
      split
      · simp
      · split <;> simp
    rw [outputs.1, outputs.2, output, outputConflicted]
    exact followed.output

theorem FollowedRecord.outputEvent
    (expected : OutputEvent) (event : OutputRecord) (small : event.text.length ≤ maxOutputBytes) :
    FollowedRecord lifecycle (state.applyEvent expected (.output event)) (folded.output event) := by
  have shared : (folded.output event).sessionId = folded.sessionId ∧
      (folded.output event).record.seq = folded.record.seq ∧
      (folded.output event).record.startedAtMs = folded.record.startedAtMs ∧
      (folded.output event).finishConflicted = folded.finishConflicted ∧
      (folded.output event).finishFields = folded.finishFields := by
    unfold FoldedExecution.output FoldedExecution.conflictOutput FoldedExecution.finishFields
    split
    · simp
    split
    · simp
    split <;> simp
  obtain ⟨sessionId, seq, startedAtMs, finishConflicted, finishFields⟩ := shared
  have snapshot : (state.applyEvent expected (.output event)).finishConflicted =
        state.finishConflicted ∧
      (state.applyEvent expected (.output event)).lifecycleFinish = state.lifecycleFinish ∧
      ((state.applyEvent expected (.output event)).outputSeen = true ∨
        (state.applyEvent expected (.output event)).outputConflicted = true) := by
    simp only [SnapshotState.applyEvent, small, if_true]
    split
    · simp
    split <;> simp
  refine ⟨sessionId.trans followed.sessionId, seq.trans followed.seq,
    startedAtMs.trans followed.startedAtMs, ?_, ?_⟩
  · rw [snapshot.1, snapshot.2.1, finishConflicted, finishFields]
    exact followed.finish
  · intro unseen unconflicted
    rcases snapshot.2.2 with seen | conflicted
    · rw [seen] at unseen
      contradiction
    · rw [conflicted] at unconflicted
      contradiction

theorem FollowedRecord.conflictEvent (expected : OutputEvent) (event : ConflictEvent) :
    FollowedRecord lifecycle (state.applyEvent expected (.conflict event))
      (folded.conflict event.slot) := by
  cases slot : event.slot with
  | finish =>
    simp only [SnapshotState.applyEvent, slot, FoldedExecution.conflict]
    exact ⟨followed.sessionId, followed.seq, followed.startedAtMs,
      fun impossible => by simp at impossible, followed.output⟩
  | output =>
    simp only [SnapshotState.applyEvent, slot, FoldedExecution.conflict]
    exact ⟨followed.sessionId, followed.seq, followed.startedAtMs, followed.finish,
      fun impossible => by simp at impossible⟩

end

variable {history : HistoryState}

theorem Agrees.applyEvent (agrees : Agrees lifecycle state history) (expected : OutputEvent)
    (ordinal : Nat) (same : event.id = lifecycle.id)
    (valid : isValidJshExecutionId event.id = true) (notStart : ∀ start, event ≠ .start start) :
    Agrees lifecycle (state.applyEvent expected event) (history.applyEvent none ordinal event) := by
  have active : (state.applyEvent expected event).activeLifecycle = state.activeLifecycle := by
    cases event <;> simp only [SnapshotState.applyEvent] <;> repeat' split
    all_goals rfl
  intro nowActive
  rw [active] at nowActive
  obtain ⟨validId, folded, found, followed⟩ := agrees nowActive
  refine ⟨validId, ?_⟩
  cases event with
  | start start => exact absurd rfl (notStart start)
  | finish event =>
    simp only [PersistedEvent.id] at same valid
    by_cases validCwd : isValidJshCwd event.cwdAfter = true
    · simp only [HistoryState.applyEvent, same, validId, validCwd, Bool.and_self, if_true,
        HistoryState.lookup_update, found, Option.map_some]
      exact ⟨_, rfl, followed.finishEvent expected event validCwd⟩
    · simp only [HistoryState.applyEvent, validCwd, Bool.and_false, SnapshotState.applyEvent]
      exact ⟨folded, found, followed⟩
  | output event =>
    simp only [PersistedEvent.id] at same valid
    by_cases small : event.text.length ≤ maxOutputBytes
    · simp only [HistoryState.applyEvent, same, validId, small, decide_true, Bool.and_self,
        if_true, HistoryState.lookup_update, found, Option.map_some]
      exact ⟨_, rfl, followed.outputEvent expected event small⟩
    · simp only [HistoryState.applyEvent, small, decide_false, Bool.and_false,
        SnapshotState.applyEvent]
      exact ⟨folded, found, followed⟩
  | conflict event =>
    simp only [PersistedEvent.id] at same valid
    simp only [HistoryState.applyEvent, same, validId, if_true, HistoryState.lookup_update,
      found, Option.map_some]
    exact ⟨_, rfl, followed.conflictEvent expected event⟩

variable {lifecycle : ExecutionLifecycle} {state : SnapshotState}

omit [Libraries] in
theorem Agrees.clearTerminal
    {history : HistoryState} (agrees : Agrees lifecycle state history) :
    Agrees lifecycle { state with terminalExact := false } history := by
  intro active
  obtain ⟨valid, folded, found, followed⟩ := agrees active
  exact ⟨valid, folded, found, followed.sessionId, followed.seq, followed.startedAtMs,
    followed.finish, followed.output⟩

omit [Libraries] in
theorem Agrees.of_lookup
    {history after : HistoryState} (agrees : Agrees lifecycle state history)
    (same : after.records.lookup lifecycle.id = history.records.lookup lifecycle.id) :
    Agrees lifecycle state after := by
  intro active
  rw [same]
  exact agrees active

theorem Agrees.restart
    {start : StartEvent} (ordinal : Nat) :
    Agrees lifecycle
      { SnapshotState.initial with
        activeLifecycle := startMatchesLifecycle start lifecycle }
      (history.applyEvent none ordinal (.start start)) := by
  intro active
  simp only [startMatchesLifecycle, Bool.and_eq_true, decide_eq_true_eq] at active
  obtain ⟨⟨⟨⟨⟨⟨⟨⟨-, id⟩, sessionId⟩, seq⟩, startedAtMs⟩, valid⟩, validSession⟩, command⟩,
    cwd⟩ := active
  have accepted : start.accepted = true := by
    rw [sessionId] at validSession
    simp only [Option.any_some] at validSession
    simp [StartEvent.accepted, valid, sessionId, validSession, command, cwd]
  refine ⟨id ▸ valid, start.opened, ?_, sessionId, seq, startedAtMs, ?_, ?_⟩
  · simp only [HistoryState.applyEvent, accepted, if_true, evictOldest_none]
    rw [← id]
    exact AList.lookup_insert history.records
  · intro _
    exact ⟨rfl, rfl⟩
  · intro _ _
    exact ⟨rfl, rfl⟩

theorem Agrees.inspectLine (agrees : Agrees lifecycle state history) (expected : OutputEvent)
    (ordinal : Nat) (journal : JournalLine line) :
    Agrees lifecycle (state.inspectLine lifecycle expected line)
      (history.foldLine none ordinal line) := by
  have cleared := agrees.clearTerminal
  unfold SnapshotState.inspectLine HistoryState.foldLine
  dsimp only
  split
  · exact cleared
  by_cases own : recognizedV1StartId line = some lifecycle.id
  · -- The inspected execution restarts.
    simp only [own, if_true]
    cases decoded : persistedEvent line with
    | none => exact fun active => by simp [SnapshotState.initial] at active
    | some event =>
      cases event with
      | start start =>
        obtain ⟨-, version⟩ := journal.recognized_decoded own decoded
        simp only [PersistedEvent.version, version, ne_eq, not_true_eq_false, if_false]
        exact Agrees.restart ordinal
      | finish _ | output _ | conflict _ =>
        exact fun active => by simp [SnapshotState.initial] at active
  · -- Another execution may restart; the inspected record stays.
    rw [if_neg own]
    have retired : Agrees lifecycle { state with terminalExact := false }
        (history.retireRecognized line) := by
      apply cleared.of_lookup
      unfold HistoryState.retireRecognized
      cases recognized : recognizedV1StartId line with
      | none => rfl
      | some id =>
        have different : lifecycle.id ≠ id := by
          rintro rfl
          exact own recognized
        exact (history.lookup_retire id lifecycle.id).trans (if_neg different)
    generalize history.retireRecognized line = kept at retired ⊢
    split
    · rename_i inactive
      intro active
      rw [Bool.not_eq_true'] at inactive
      exact absurd (inactive.symm.trans active) (by decide)
    cases decoded : persistedEvent line with
    | none => exact retired
    | some event =>
      dsimp only
      by_cases version : event.version = executionJournalVersion
      swap
      · simp only [version, false_and, if_false, ne_eq, not_false_eq_true, if_true]
        exact retired
      simp only [version, true_and, ne_eq, not_true_eq_false, if_false]
      by_cases same : event.id = lifecycle.id
      swap
      · simp only [same, false_and, if_false]
        exact retired.of_lookup (HistoryState.lookup_applyEvent_of_ne kept ordinal (Ne.symm same))
      by_cases valid : isValidJshExecutionId event.id = true
      swap
      · simp only [valid, and_false, Bool.false_eq_true, if_false]
        -- The history drops an event whose id is invalid.
        cases event <;>
          simp only [PersistedEvent.id] at valid <;>
          simpa [HistoryState.applyEvent, StartEvent.accepted, valid] using retired
      simp only [same, true_and, same ▸ valid, if_true]
      apply retired.applyEvent expected ordinal same valid
      rintro start rfl
      exact own (same ▸ journal.recognized decoded version valid)

theorem inspectLines_agrees (journal : ∀ line ∈ lines, JournalLine line) (expected : OutputEvent)
    {maxEventLines eventLines : Nat} (fewer : eventLines + lines.length ≤ maxEventLines)
    (agrees : Agrees lifecycle state history) :
    ∃ stateAfter historyAfter,
      inspectLines lifecycle expected maxEventLines eventLines state lines = some stateAfter ∧
      foldLines none maxEventLines eventLines history lines = .ok historyAfter ∧
      Agrees lifecycle stateAfter historyAfter := by
  induction lines generalizing eventLines state history with
  | nil => exact ⟨state, history, rfl, rfl, agrees⟩
  | cons line lines ih =>
    have first := journal line (by simp)
    have room : ¬ eventLines + 1 > maxEventLines := by
      simp only [List.length_cons] at fewer
      omega
    simp only [inspectLines, foldLines, if_neg room, first.readBoundedLine,
      first.endsWithNewline, Bool.not_true, Bool.false_eq_true, if_false]
    apply ih fun line member => journal line (by simp [member])
    · simp only [List.length_cons] at fewer
      omega
    · exact agrees.inspectLine expected _ first

theorem ready_record (journal : ∀ line ∈ lines, JournalLine line) {expected : OutputEvent}
    {maxEventLines : Nat} (fewer : lines.length ≤ maxEventLines)
    (ready : inspectBoundOutputSnapshot lines.flatten lifecycle expected maxEventLines = .ready) :
    ∃ history folded, foldLines none maxEventLines 0 .empty lines = .ok history ∧
      history.records.lookup lifecycle.id = some folded ∧
      isValidJshExecutionId lifecycle.id = true ∧ folded.sessionId = some lifecycle.sessionId ∧
      folded.record.seq = lifecycle.seq ∧ folded.record.startedAtMs = lifecycle.startedAtMs ∧
      folded.record.output = none ∧ folded.finishConflicted = false ∧
      folded.outputConflicted = false := by
  have start : Agrees lifecycle .initial .empty := fun active => by
    simp [SnapshotState.initial] at active
  obtain ⟨state, history, inspected, foldedLines, agrees⟩ :=
    inspectLines_agrees journal expected (show 0 + lines.length ≤ maxEventLines by omega) start
  unfold inspectBoundOutputSnapshot at ready
  rw [physicalLines_flatten journal, inspected] at ready
  split at ready
  · simp at ready
  dsimp only [SnapshotState.verdict] at ready
  split at ready
  · simp at ready
  rename_i open_
  simp only [Bool.or_eq_true, Bool.not_eq_true', not_or, Bool.not_eq_false,
    Bool.not_eq_true] at open_
  obtain ⟨⟨active, outputConflicted⟩, finishConflicted⟩ := open_
  split at ready
  · split at ready <;> simp at ready
  rename_i unseen
  rw [Bool.not_eq_true] at unseen
  obtain ⟨valid, folded, found, followed⟩ := agrees active
  obtain ⟨finish, -⟩ := followed.finish finishConflicted
  obtain ⟨output, outputOpen⟩ := followed.output unseen outputConflicted
  exact ⟨history, folded, foldedLines, found, valid, followed.sessionId, followed.seq,
    followed.startedAtMs, output, finish, outputOpen⟩

end

end JtermCore.ExecutionJournal
