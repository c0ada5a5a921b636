import JtermCore.ExecutionJournal.OutputAppend
import JtermCore.ExecutionJournal.Append

/-!
# What an append leaves on disk

For a bound output the append either writes the whole event, or fails without
touching the file, or says that the commit state is unknown and leaves a prefix
of the event behind.  Each helper of the append gets one specification, and the
result is put together from them.
-/

namespace JtermCore.ExecutionJournal

open Bytes Result Step

def Terminated (content : Bytes) : Prop := content.getLast? = some newline

variable {content : Bytes}

theorem physicalLines_ne_nil (nonempty : content ≠ []) : physicalLines content ≠ [] := by
  cases content with
  | nil => exact absurd rfl nonempty
  | cons byte content =>
    unfold physicalLines
    split
    · simp
    · split <;> simp

theorem terminated_cons_cons {byte next : UInt8} :
    Terminated (byte :: next :: content) ↔ Terminated (next :: content) := by
  rw [Terminated, List.getLast?_cons_cons, Terminated]

theorem physicalLines_append (rest : Bytes) (terminated : Terminated content) :
    physicalLines (content ++ rest) = physicalLines content ++ physicalLines rest := by
  induction content with
  | nil => simp [Terminated] at terminated
  | cons byte content ih =>
    cases content with
    | nil =>
      simp only [Terminated, List.getLast?_singleton, Option.some.injEq] at terminated
      subst byte
      simp [physicalLines]
    | cons next content =>
      have lines := ih (terminated_cons_cons.mp terminated)
      rw [List.cons_append, physicalLines.eq_2, physicalLines.eq_2 byte, lines]
      split
      · rfl
      · cases parts : physicalLines (next :: content) with
        | nil => exact absurd parts (physicalLines_ne_nil (by simp))
        | cons line lines => rfl

theorem terminated_of_physicalLines (nonempty : content ≠ [])
    (lines : ∀ line ∈ physicalLines content, endsWithNewline line = true) : Terminated content := by
  induction content with
  | nil => exact absurd rfl nonempty
  | cons byte content ih =>
    unfold physicalLines at lines
    cases content with
    | nil =>
      split at lines
      · rename_i terminator
        simp [Terminated, terminator]
      · simpa [physicalLines, endsWithNewline, Terminated] using lines
    | cons next content =>
      rw [terminated_cons_cons]
      apply ih (by simp)
      intro line member
      split at lines
      · exact lines line (List.mem_cons_of_mem _ member)
      rename_i ordinary
      cases parts : physicalLines (next :: content) with
      | nil => simp [parts] at member
      | cons first others =>
        rw [parts] at lines member
        rcases List.mem_cons.mp member with rfl | later
        · have extended := lines (byte :: line) (by simp)
          cases line with
          | nil => simp [endsWithNewline, ordinary] at extended
          | cons head line => simpa [endsWithNewline] using extended
        · exact lines line (List.mem_cons_of_mem _ later)

section

variable [Libraries] {lifecycle : ExecutionLifecycle} {expected : OutputEvent}

theorem inspectLines_terminated
    {maxEventLines eventLines : Nat} {state after : SnapshotState} {lines : List Bytes}
    (inspected : inspectLines lifecycle expected maxEventLines eventLines state lines =
      some after) : ∀ line ∈ lines, endsWithNewline line = true := by
  induction lines generalizing eventLines state with
  | nil => simp
  | cons line lines ih =>
    simp only [inspectLines] at inspected
    split at inspected
    · simp at inspected
    split at inspected
    · simp at inspected
    rename_i kept read
    split at inspected
    · simp at inspected
    rename_i terminated
    have same : kept = line := by
      unfold readBoundedLine at read
      split at read <;> simp_all
    intro other member
    rcases List.mem_cons.mp member with rfl | later
    · simpa [same] using terminated
    · exact ih inspected other later

theorem inspectBoundOutputSnapshot_terminated {maxEventLines : Nat}
    (accepted : inspectBoundOutputSnapshot content lifecycle expected maxEventLines ≠
      .rejected) : Terminated content := by
  unfold inspectBoundOutputSnapshot at accepted
  split at accepted
  · exact absurd rfl accepted
  rename_i bounded
  split at accepted
  · exact absurd rfl accepted
  rename_i inspected
  apply terminated_of_physicalLines _ (inspectLines_terminated inspected)
  rintro rfl
  simp at bounded

end

structure EncodedEvent (encoded : Bytes) : Prop where
  terminated : endsWithNewline encoded = true
  single : newline ∉ encoded.dropLast

variable {encoded : Bytes}

theorem EncodedEvent.physicalLines (event : EncodedEvent encoded) :
    physicalLines encoded = [encoded] := by
  have last : encoded.getLast? = some newline := by simpa [endsWithNewline] using event.terminated
  have parts := List.dropLast_append_getLast? newline last
  have lines := physicalLines_append_newline [] event.single
  rw [List.append_nil, parts] at lines
  exact lines

theorem EncodedEvent.eq_of_terminated {old done rest : Bytes}
    (event : EncodedEvent encoded) (parts : encoded = done ++ rest) (nonempty : done ≠ [])
    (terminated : Terminated (old ++ done)) : done = encoded := by
  rw [Terminated, List.getLast?_append_of_ne_nil _ nonempty] at terminated
  cases rest with
  | nil => rw [parts, List.append_nil]
  | cons byte rest =>
    have inside : newline ∈ done := List.mem_of_getLast? terminated
    have single := event.single
    rw [parts, List.dropLast_append_of_ne_nil (by simp)] at single
    exact absurd (List.mem_append_left _ inside) single

def Reads {α : Type} (journal : Option Bytes) (step : AppendStep α) (answers : α → Prop) : Prop :=
  ∀ state : JournalState, state.journal = journal →
    Meets step state (fun value after => after.journal = journal ∧ answers value)
      fun error after => error.isCommitStateUnknown = false ∧ after.journal = journal

section

variable {α β : Type} {journal : Option Bytes}

variable {answers : α → Prop}

theorem Reads.pure {value : α} (holds : answers value) : Reads journal (Pure.pure value) answers :=
  fun _ same => meets_pure ⟨same, holds⟩

theorem Reads.bind {step : AppendStep β} {next : β → AppendStep α} {between : β → Prop}
    (first : Reads journal step between)
    (rest : ∀ value, between value → Reads journal (next value) answers) :
    Reads journal (step >>= next) answers := by
  intro state same
  apply meets_bind
  apply (first state same).mono
  · rintro value after ⟨kept, holds⟩
    exact rest value holds after kept
  · exact fun _ _ failed => failed

theorem Reads.mono {step : AppendStep α} {answers' : α → Prop}
    (reads : Reads journal step answers) (weaker : ∀ value, answers value → answers' value) :
    Reads journal step answers' :=
  fun state same => (reads state same).mono
    (fun value _ holds => ⟨holds.1, weaker value holds.2⟩) fun _ _ failed => failed

theorem Reads.call {outcome : Except IoError α}
    (plain : ∀ error, outcome = .error error → error.isCommitStateUnknown = false) :
    Reads journal (Step.call outcome) fun value => outcome = .ok value :=
  fun _ same => meets_call (fun _ answered => ⟨same, answered⟩)
    fun error failed => ⟨plain error failed, same⟩

theorem Reads.system (call : SystemCall) :
    Reads journal (ExecutionJournal.system call) fun _ => True :=
  fun _ same => meets_mapError (meets_call (fun _ _ => ⟨same, trivial⟩) fun _ _ => ⟨rfl, same⟩)

theorem Reads.rejectIf (condition : Prop) [Decidable condition] (kind : ErrorKind)
    (message : String) :
    Reads journal (ExecutionJournal.rejectIf condition kind message) fun _ => ¬ condition := by
  apply (Reads.call _).mono
  · exact fun _ accepted => reject_eq_ok.mp accepted
  · intro error failed
    unfold reject at failed
    split at failed
    · cases failed
      rfl
    · cases failed

theorem Reads.okOr {error : IoError} (plain : error.isCommitStateUnknown = false)
    (source : Option α) :
    Reads journal (Step.call (Result.okOr error source)) fun value => source = some value := by
  apply (Reads.call _).mono
  · exact fun _ answered => okOr_eq_ok.mp answered
  · intro other failed
    cases source with
    | none =>
      cases failed
      exact plain
    | some value => cases failed

theorem Reads.get : Reads journal Step.get fun state => state.journal = journal :=
  fun _ same => meets_get ⟨same, same⟩

theorem Reads.modify {change : JournalState → JournalState}
    (frame : ∀ state, (change state).journal = state.journal) :
    Reads journal (Step.modify change) fun _ => True :=
  fun state same => meets_modify ⟨(frame state).trans same, trivial⟩

end

section

variable {journal : Option Bytes} (environment : Environment)

theorem openExistingJournalForAppend_reads (call : SystemCall) :
    Reads journal (openExistingJournalForAppend call) fun content => journal = some content := by
  apply (Reads.system call).bind
  intro _ _
  apply Reads.get.bind
  intro state same
  rw [same]
  exact Reads.okOr rfl journal

theorem needsSeparator_reads (content : Bytes) :
    Reads journal (needsSeparator environment content) fun separator =>
      Terminated content → separator = false := by
  unfold needsSeparator
  split
  · exact Reads.pure fun _ => rfl
  · apply (Reads.system _).bind
    intro _ _
    exact Reads.pure fun terminated => by
      rw [Terminated] at terminated
      simp [endsWithNewline, terminated]

theorem countPhysicalLinesCached_reads (content : Bytes) :
    Reads journal (countPhysicalLinesCached environment content) fun _ => True := by
  apply (Reads.system _).bind
  intro _ _
  apply (Reads.rejectIf _ _ _).bind
  intro _ _
  apply Reads.get.bind
  intro state _
  apply (Reads.system _).bind
  intro _ _
  apply (Reads.okOr rfl _).bind
  intro newlineCount _
  apply Reads.bind (Reads.modify fun _ => by rfl)
  intro _ _
  exact (Reads.okOr rfl _).mono fun _ _ => trivial

theorem exactLineCount_reads (content : Bytes) (maxEventLines : Nat) :
    Reads journal (exactLineCount environment content maxEventLines) fun _ => True := by
  unfold exactLineCount
  split
  · exact Reads.pure trivial
  · apply (countPhysicalLinesCached_reads environment content).bind
    exact fun _ _ => Reads.pure trivial

theorem invalidateAppendLineCountCache_reads :
    Reads journal (invalidateAppendLineCountCache environment) fun _ => True := by
  apply (Reads.rejectIf _ _ _).bind
  exact fun _ _ => Reads.modify fun _ => rfl

variable [Libraries]

theorem inspectOpened_reads (reads : SystemCall) (content : Bytes) (output : BoundOutput)
    (maxEventLines : Nat) :
    Reads journal (inspectOpened reads content output maxEventLines) fun snapshot =>
      snapshot = inspectBoundOutputSnapshot content output.lifecycle output.event
        maxEventLines := by
  apply (Reads.system reads).bind
  exact fun _ _ => Reads.pure rfl

theorem inspectBeforeAppend_reads (content : Bytes) (maxEventLines : Nat) (output : BoundOutput) :
    Reads journal (inspectBeforeAppend environment content maxEventLines (some output)) fun _ =>
      Terminated content := by
  apply (inspectOpened_reads _ _ _ _).bind
  rintro snapshot rfl
  apply (Reads.rejectIf _ _ _).mono
  intro _ ready
  rw [ne_eq, not_not] at ready
  exact inspectBoundOutputSnapshot_terminated (by rw [ready]; decide)

theorem prepareAppend_reads (encoded : Bytes) (maxEventLines : Nat) (output : BoundOutput) :
    Reads journal (prepareAppend environment encoded maxEventLines (some output)) fun prepared =>
      (∃ content, journal = some content ∧ Terminated content) ∧
        prepared.1 = false ∧ prepared.2.1 = false := by
  have opened : Reads journal (openJournal environment (some output)) fun opened =>
      journal = some opened.1 ∧ opened.2 = false := by
    apply (openExistingJournalForAppend_reads _).bind
    exact fun _ found => Reads.pure ⟨found, rfl⟩
  apply opened.bind
  rintro ⟨content, created⟩ ⟨found, existing⟩
  apply (Reads.system _).bind
  intro _ _
  apply (inspectBeforeAppend_reads _ _ _ _).bind
  intro _ terminated
  apply (needsSeparator_reads environment content).bind
  intro separator unneeded
  apply (Reads.rejectIf _ _ _).bind
  intro _ _
  apply (exactLineCount_reads _ _ _).bind
  intro lineCount _
  apply (Reads.rejectIf _ _ _).bind
  intro _ _
  apply (Reads.system _).bind
  intro _ _
  apply (invalidateAppendLineCountCache_reads environment).bind
  intro _ _
  exact Reads.pure ⟨⟨content, found, terminated⟩, existing, unneeded terminated⟩

end

/-- A write either fails and leaves the file unchanged, or appends the prefix
of the offered bytes that it reports. -/
def JournalAppendIo.WellBehaved (io : JournalAppendIo) : Prop := ∀ call offered,
    match (io.write call offered).reported with
    | .error _ => (io.write call offered).appended = []
    | .ok count =>
      count ≤ offered.length ∧ (io.write call offered).appended = offered.take count

/-- What the loop did: it appended a prefix of the bytes, counted it, and
stopped early only with an error. -/
structure Wrote (before : JournalState) (written : Nat) (bytes : Bytes)
    (outcome : SystemCall × WriteProgress) (after : JournalState) (done rest : Bytes) : Prop where
  parts : bytes = done ++ rest
  journal : after = before.append done
  counted : outcome.2.written = 0 ↔ written = 0 ∧ done = []
  complete : outcome.1 = .ok () → rest = []
  incomplete : ∀ error, outcome.1 = .error error → rest ≠ []

theorem JournalState.append_nil (state : JournalState) : state.append [] = state := by
  simp [JournalState.append]

theorem JournalState.append_append (state : JournalState) (first second : Bytes) :
    (state.append first).append second = state.append (first ++ second) := by
  cases state with
  | mk journal cache => cases journal <;> simp [JournalState.append]

theorem saturatingAdd_eq_zero {first second : Nat} :
    saturatingAdd first second = 0 ↔ first = 0 ∧ second = 0 := by
  simp only [saturatingAdd, usizeValues]
  omega

theorem writeAllCounted_wrote {io : JournalAppendIo} (wellBehaved : io.WellBehaved) (fuel : Nat)
    (progress : WriteProgress) (bytes : Bytes) (before : JournalState) :
    Meets (writeAllCounted io fuel progress bytes) before
      (fun outcome after => ∃ done rest, Wrote before progress.written bytes outcome after done
        rest) fun _ _ => False := by
  induction fuel generalizing progress bytes before with
  | zero =>
    unfold writeAllCounted
    split
    · rename_i empty
      rw [List.isEmpty_iff] at empty
      subst bytes
      exact meets_pure ⟨[], [], rfl, before.append_nil.symm, by simp, fun _ => rfl, by simp⟩
    · exact meets_outOfFuel
  | succ fuel ih =>
    unfold writeAllCounted
    split
    · rename_i empty
      rw [List.isEmpty_iff] at empty
      subst bytes
      exact meets_pure ⟨[], [], rfl, before.append_nil.symm, by simp, fun _ => rfl, by simp⟩
    rename_i nonempty
    rw [List.isEmpty_iff] at nonempty
    have behaved := wellBehaved progress.calls bytes
    apply meets_bind
    apply meets_modify
    dsimp only
    split
    · -- A write of nothing ends the loop.
      rename_i reported
      simp only [reported, List.take_zero] at behaved
      rw [behaved.2]
      exact meets_pure ⟨[], bytes, rfl, rfl, by simp, by simp, fun _ _ => nonempty⟩
    · rename_i count positive reported
      simp only [reported] at behaved
      rw [if_pos behaved.1, behaved.2]
      apply (ih _ _ _).mono _ fun _ _ impossible => impossible
      rintro outcome after ⟨done, rest, wrote⟩
      have nonzero : count ≠ 0 := by
        rintro rfl
        exact positive rfl
      refine ⟨bytes.take count ++ done, rest, ?_, ?_, ?_, wrote.complete, wrote.incomplete⟩
      · rw [List.append_assoc, ← wrote.parts, List.take_append_drop]
      · rw [wrote.journal, JournalState.append_append]
      · rw [wrote.counted, saturatingAdd_eq_zero]
        simp [nonzero, nonempty]
    · rename_i error reported
      simp only [reported] at behaved
      rw [behaved, JournalState.append_nil]
      split
      · -- An interrupted write is offered again.
        exact ih _ _ _
      · exact meets_pure
          ⟨[], bytes, rfl, before.append_nil.symm, by simp, by simp, fun _ _ => nonempty⟩

def Settles {α : Type} (step : AppendStep α) : Prop :=
  ∀ state, Meets step state (fun _ after => after.journal = state.journal)
    fun error after => error.isCommitStateUnknown = true ∧ after.journal = state.journal

def Appended (before : Option Bytes) (encoded : Bytes) (after : Option Bytes) : Prop :=
  ∃ old, before = some old ∧ Terminated old ∧ after = some (old ++ encoded)

/-- The journal holds a non-empty part of the event behind a terminated content. -/
def PartlyAppended (before : Option Bytes) (encoded : Bytes) (after : Option Bytes) : Prop :=
  ∃ old done rest, before = some old ∧ Terminated old ∧ encoded = done ++ rest ∧ done ≠ [] ∧
    after = some (old ++ done)

/-- What an error says about the journal. -/
def Accounts (before : Option Bytes) (encoded : Bytes) (error : IoError)
    (after : Option Bytes) : Prop :=
  (error.isCommitStateUnknown = false ∧ after = before) ∨
    (error.isCommitStateUnknown = true ∧ PartlyAppended before encoded after)

section

variable (environment : Environment) {io : JournalAppendIo}

theorem finishFailedAppendWrite_meets {α : Type} (written : Nat) (error : PlainError)
    (state : JournalState) {answers : α → JournalState → Prop} :
    Meets (finishFailedAppendWrite environment false written error) state answers
      fun failed after => failed = appendWriteError error written ∧ after = state := by
  unfold finishFailedAppendWrite cleanUpCreated
  apply meets_bind
  rw [if_neg (by simp)]
  apply meets_pure
  exact meets_call (fun _ impossible => by simp at impossible) fun _ same => by
    cases same
    exact ⟨rfl, rfl⟩

variable {state : JournalState}

theorem writeEvent_meets (wellBehaved : io.WellBehaved) (fuel : Nat) (encoded : Bytes)
    {old : Bytes} (found : state.journal = some old) (terminated : Terminated old) :
    Meets (writeEvent environment io fuel false false encoded) state
      (fun _ after => Appended state.journal encoded after.journal)
      fun error after => Accounts state.journal encoded error after.journal := by
  unfold writeEvent writeSeparator
  apply meets_bind
  rw [if_neg (by simp)]
  apply meets_pure
  apply meets_bind
  apply meets_bind
  apply (writeAllCounted_wrote wellBehaved fuel ⟨0, 0⟩ encoded state).mono _
    fun _ _ impossible => impossible.elim
  rintro ⟨result, progress⟩ after ⟨done, rest, wrote⟩
  cases result with
  | ok _ =>
    have nothing := wrote.complete rfl
    apply meets_pure
    apply meets_pure
    refine ⟨old, found, terminated, ?_⟩
    rw [wrote.journal, wrote.parts, nothing, List.append_nil]
    simp [JournalState.append, found]
  | error error =>
    apply (finishFailedAppendWrite_meets environment progress.written error after).mono
    · intro _ _ impossible
      exact impossible
    rintro failed last ⟨rfl, rfl⟩
    have counted := wrote.counted
    simp only [true_and] at counted
    unfold appendWriteError
    split
    · rename_i none_
      rw [counted] at none_
      refine .inl ⟨rfl, ?_⟩
      rw [wrote.journal, none_, JournalState.append_nil]
    · rename_i some_
      rw [counted] at some_
      refine .inr ⟨rfl, old, done, rest, found, terminated, wrote.parts, some_, ?_⟩
      rw [wrote.journal]
      simp [JournalState.append, found]

theorem settleAppend_settles (lineCount : Option Nat) :
    Settles (settleAppend environment io false lineCount) := by
  intro state
  apply meets_bind
  have counted : Settles (bookkeepLineCount environment lineCount) := by
    intro state
    cases lineCount with
    | none => exact meets_pure rfl
    | some count =>
      apply meets_mapError
      apply meets_bind
      apply meets_call (fun _ _ => _) fun _ _ => ⟨rfl, rfl⟩
      intro _ _
      apply meets_bind
      apply meets_call (fun _ _ => _) fun _ _ => ⟨rfl, rfl⟩
      intro _ _
      exact meets_modify rfl
  apply (counted state).mono _ fun _ _ failed => failed
  intro _ between kept
  apply meets_bind
  apply meets_mapError
  apply meets_call
  · intro _ _
    exact meets_pure kept
  · intro _ _
    exact ⟨rfl, kept⟩

variable [Libraries]

theorem appendLocked_meets (wellBehaved : io.WellBehaved) (fuel : Nat)
    (event : EncodedEvent encoded) (maxEventLines : Nat) (output : BoundOutput)
    (state : JournalState) :
    Meets (appendLocked environment io fuel encoded maxEventLines (some output)) state
      (fun _ after => Appended state.journal encoded after.journal)
      fun error after => Accounts state.journal encoded error after.journal := by
  apply meets_bind
  apply (prepareAppend_reads environment encoded maxEventLines output state rfl).mono _
    fun _ _ failed => .inl failed
  rintro ⟨created, separator, lineCount⟩ before ⟨kept, ⟨old, found, terminated⟩, rfl, rfl⟩
  rw [← kept] at found ⊢
  apply meets_bind
  apply (writeEvent_meets environment wellBehaved fuel encoded found terminated).mono _
    fun _ _ failed => failed
  intro _ written appended
  apply (settleAppend_settles environment lineCount written).mono
  · intro _ after same
    rw [same]
    exact appended
  · rintro error after ⟨unknown, same⟩
    rw [same]
    obtain ⟨old, found, terminated, whole⟩ := appended
    refine .inr ⟨unknown, old, encoded, [], found, terminated, by simp, ?_, whole⟩
    rintro rfl
    exact absurd event.terminated (by simp [endsWithNewline])

theorem recoverExactTerminalOutputLocked_reads (output : BoundOutput) (maxEventLines : Nat)
    {journal : Option Bytes} :
    Reads journal (recoverExactTerminalOutputLocked environment output maxEventLines)
      fun recovered => recovered = true →
        ∃ content, journal = some content ∧ Terminated content := by
  apply (openExistingJournalForAppend_reads _).bind
  intro content found
  apply (Reads.system _).bind
  intro _ _
  apply (inspectOpened_reads _ _ _ _).bind
  intro snapshot inspected
  split
  · exact Reads.pure fun impossible => by simp at impossible
  · rename_i exact_
    apply (Reads.system _).bind
    intro _ _
    apply (Reads.system _).bind
    intro _ _
    rw [ne_eq, not_not] at exact_
    exact Reads.pure fun _ => ⟨content, found,
      inspectBoundOutputSnapshot_terminated (by rw [← inspected, exact_]; decide)⟩

theorem recoverUnknown_meets (event : EncodedEvent encoded)
    (maxEventLines : Nat) (output : BoundOutput) {error : IoError}
    (unknown : error.isCommitStateUnknown = true) {before : Option Bytes}
    (partly : PartlyAppended before encoded state.journal) :
    Meets (recoverUnknown environment maxEventLines output error) state
      (fun _ after => Appended before encoded after.journal)
      fun failed after => Accounts before encoded failed after.journal := by
  apply meets_bind
  apply meets_attempt
  apply (recoverExactTerminalOutputLocked_reads environment output maxEventLines state rfl).mono
  · rintro recovered after ⟨kept, found⟩
    cases recovered with
    | false =>
      exact meets_call (fun _ impossible => by simp at impossible) fun _ same => by
        cases same
        exact .inr ⟨unknown, kept ▸ partly⟩
    | true =>
      apply meets_pure
      obtain ⟨content, here, complete⟩ := found rfl
      obtain ⟨old, done, rest, was, terminated, parts, nonempty, now⟩ := partly
      rw [here, Option.some.injEq] at now
      rw [now] at complete
      have whole := event.eq_of_terminated parts nonempty complete
      refine ⟨old, was, terminated, ?_⟩
      rw [kept, here, now, whole]
  · rintro recoveryError after ⟨-, kept⟩
    exact meets_call (fun _ impossible => by simp at impossible) fun _ same => by
      cases same
      exact .inr ⟨rfl, kept ▸ partly⟩

theorem appendEncodedEventToPath_meets (wellBehaved : io.WellBehaved) (fuel : Nat)
    (encoded : Bytes) (maxEventLines : Nat) (output : BoundOutput) (state : JournalState) :
    Meets (appendEncodedEventToPath environment io fuel encoded maxEventLines (some output)) state
      (fun _ after => EncodedEvent encoded ∧ Appended state.journal encoded after.journal)
      fun error after => Accounts state.journal encoded error after.journal := by
  apply meets_bind
  apply (Reads.rejectIf _ _ _ state rfl).mono _ fun _ _ failed => .inl failed
  rintro _ checked ⟨checkedSame, wellFormed⟩
  simp only [not_or, Bool.not_eq_false] at wellFormed
  have event : EncodedEvent encoded := ⟨wellFormed.1, wellFormed.2⟩
  apply meets_bind
  apply (Reads.rejectIf _ _ _ checked checkedSame).mono _ fun _ _ failed => .inl failed
  rintro _ parented ⟨parentedSame, -⟩
  apply meets_bind
  apply (Reads.system _ parented parentedSame).mono _ fun _ _ failed => .inl failed
  rintro _ locked ⟨lockedSame, -⟩
  rw [← lockedSame]
  apply meets_bind
  apply meets_attempt
  apply (appendLocked_meets environment wellBehaved fuel event maxEventLines output locked).mono
  · intro _ after appended
    exact meets_call (fun _ _ => ⟨event, appended⟩) fun _ impossible => by simp at impossible
  · intro error after accounts
    simp only [finishAppend]
    split
    · rename_i unknown
      rcases accounts with ⟨known, -⟩ | ⟨-, partly⟩
      · rw [known] at unknown
        contradiction
      · exact (recoverUnknown_meets environment event maxEventLines output unknown partly).mono
          (fun _ _ appended => ⟨event, appended⟩) fun _ _ failed => failed
    · exact meets_call (fun _ impossible => by simp at impossible) fun _ same => by
        cases same
        exact accounts

end

/-- Appending a bound output is all, or nothing, or an explicitly unknown
non-empty prefix; the event occurs once more exactly in the first case. -/
theorem append_all_or_unknown [Libraries] {io : JournalAppendIo} (wellBehaved : io.WellBehaved)
    (environment : Environment) (fuel : Nat) (encoded : Bytes) (maxEventLines : Nat)
    (output : BoundOutput) {before after : JournalState} {result : Except IoError Unit}
    (ran : appendEncodedEventToPath environment io fuel encoded maxEventLines (some output)
      before = some (result, after)) :
    (result = .ok () → ∃ old, before.journal = some old ∧
      after.journal = some (old ++ encoded) ∧
      (physicalLines (old ++ encoded)).count encoded =
        (physicalLines old).count encoded + 1) ∧
    (∀ error, result = .error error → error.isCommitStateUnknown = false →
      after.journal = before.journal) ∧
    (∀ error, result = .error error → error.isCommitStateUnknown = true →
      ∃ old done rest, before.journal = some old ∧ encoded = done ++ rest ∧ done ≠ [] ∧
        after.journal = some (old ++ done)) := by
  have met := appendEncodedEventToPath_meets environment wellBehaved fuel encoded maxEventLines
    output before result after ran
  refine ⟨?_, ?_, ?_⟩
  · rintro rfl
    obtain ⟨event, old, found, terminated, whole⟩ := met
    refine ⟨old, found, whole, ?_⟩
    rw [physicalLines_append _ terminated, event.physicalLines, List.count_append,
      List.count_singleton_self]
  · rintro error rfl known
    rcases met with ⟨-, same⟩ | ⟨unknown, -⟩
    · exact same
    · rw [unknown] at known
      contradiction
  · rintro error rfl unknown
    rcases met with ⟨known, -⟩ | ⟨-, old, done, rest, found, -, parts, nonempty, now⟩
    · rw [known] at unknown
      contradiction
    · exact ⟨old, done, rest, found, parts, nonempty, now⟩

/-- An environment in which every call succeeds. -/
def faultlessEnvironment : Environment where
  path := ofAscii "journal.jsonl"
  device := 1
  inode := 2
  hasParent := true
  acquireLock := .ok ()
  openExisting := .ok ()
  createNew := .ok ()
  validateCreated := .ok ()
  metadata := .ok ()
  inspectReads := .ok ()
  readLastByte := .ok ()
  countMetadata := .ok ()
  countCachePoisoned := false
  countReads := .ok ()
  setPermissions := .ok ()
  invalidateCachePoisoned := false
  cleanupMetadata := .ok ()
  cleanupNamesFile := true
  cleanupNamesOpenedFile := true
  cleanupRemove := .ok ()
  completeMetadata := .ok ()
  completeCachePoisoned := false
  recoveryOpen := .ok ()
  recoveryMetadata := .ok ()
  recoveryReads := .ok ()
  recoverySyncData := .ok ()
  recoverySyncDirectory := .ok ()

/-- A device that takes one byte and then fails. -/
def tornIo : JournalAppendIo where
  write call offered :=
    if call = 0 then ⟨.ok (min 1 offered.length), offered.take 1⟩
    else ⟨.error ⟨.other 5, "Input/output error (os error 5)"⟩, []⟩
  syncData := .ok ()
  syncDirectory := .ok ()

theorem tornIo_wellBehaved : tornIo.WellBehaved := by
  intro call offered
  by_cases first : call = 0
  · simp only [tornIo, first, if_true]
    exact ⟨by omega, by simp⟩
  · simp [tornIo, first]

def tornError : IoError := appendWriteError ⟨.other 5, "Input/output error (os error 5)"⟩ 1

set_option maxRecDepth 4000 in
theorem appendEncodedEventToPath_tornIo :
    @appendEncodedEventToPath (oneOutputLibraries shortOutput) faultlessEnvironment tornIo 3
        (shortOutput.toVec ++ [newline]) 10 (some ⟨startLifecycle, shortOutput⟩)
        ⟨some startLine, none⟩ = some (.error tornError, ⟨some (startLine ++ [0x7b]), none⟩) :=
  rfl

theorem append_all_or_unknown_tornIo :
    (Except.error tornError = (.ok () : Except IoError Unit) →
      ∃ old, some startLine = some old ∧
        some (startLine ++ [0x7b]) = some (old ++ (shortOutput.toVec ++ [newline])) ∧
        (physicalLines (old ++ (shortOutput.toVec ++ [newline]))).count
            (shortOutput.toVec ++ [newline]) =
          (physicalLines old).count (shortOutput.toVec ++ [newline]) + 1) ∧
    (∀ error, Except.error tornError = (.error error : Except IoError Unit) →
      error.isCommitStateUnknown = false →
        some (startLine ++ [0x7b]) = some startLine) ∧
    (∀ error, Except.error tornError = (.error error : Except IoError Unit) →
      error.isCommitStateUnknown = true →
        ∃ old done rest, some startLine = some old ∧
          shortOutput.toVec ++ [newline] = done ++ rest ∧ done ≠ [] ∧
          some (startLine ++ [0x7b]) = some (old ++ done)) :=
  let _ := oneOutputLibraries shortOutput
  append_all_or_unknown tornIo_wellBehaved faultlessEnvironment 3
    (shortOutput.toVec ++ [newline]) 10 ⟨startLifecycle, shortOutput⟩
    appendEncodedEventToPath_tornIo

end JtermCore.ExecutionJournal
