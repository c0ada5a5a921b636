import JtermCore.ExecutionJournal.LineCount

/-!
# Appends keep the journal readable

Any append, successful or not, leaves the line-count cache sound, and one that
succeeds leaves a journal within the reader's bounds.  The append holds the
journal's lock, so other writers come between appends.
-/

namespace JtermCore.ExecutionJournal

open Bytes Result Step

section

variable {α : Type} {state : JournalState} {fails : IoError → JournalState → Prop}

variable {answers : Unit → JournalState → Prop}

theorem meets_system {call : SystemCall} (answered : answers () state)
    (failed : ∀ error : IoError, error.isCommitStateUnknown = false → fails error state) :
    Meets (system call) state answers fails :=
  meets_mapError (meets_call (fun _ _ => answered) fun _ _ => failed _ rfl)

theorem meets_rejectIf {condition : Prop} [Decidable condition] {kind : ErrorKind}
    {message : String} (answered : ¬ condition → answers () state)
    (failed : ∀ error : IoError, error.isCommitStateUnknown = false → fails error state) :
    Meets (rejectIf condition kind message) state answers fails := by
  apply meets_call
  · exact fun _ accepted => answered (reject_eq_ok.mp accepted)
  · intro error refused
    unfold reject at refused
    split at refused
    · cases refused
      exact failed _ rfl
    · cases refused

theorem meets_okOr {kind : ErrorKind} {message : String} {source : Option α}
    {answers : α → JournalState → Prop}
    (answered : ∀ value, source = some value → answers value state)
    (failed : ∀ error : IoError, error.isCommitStateUnknown = false → fails error state) :
    Meets (Step.call (okOr ⟨kind, message, false⟩ source)) state answers fails := by
  apply meets_call
  · exact fun value found => answered value (okOr_eq_ok.mp found)
  · intro error refused
    cases source with
    | none =>
      cases refused
      exact failed _ rfl
    | some value => cases refused

end

def Refused (file : JournalFile) (error : IoError) (after : JournalState) : Prop :=
  error.isCommitStateUnknown = false ∧ CacheSound file after

section

variable {environment : Environment} {state : JournalState} {content : Bytes}

theorem recount_meets (journal : state.journal = some content) {newlineCount : Nat}
    (exact_ : newlineCount = content.count newline) : Meets (do
        Step.modify fun state =>
          { state with
            cache := some {
              path := environment.path
              device := environment.device
              inode := environment.inode
              scannedBytes := content.length
              newlineCount
              endsWithNewline := endsWithNewline content } }
        Step.call (okOr ⟨.other 0, "execution journal event count overflowed", false⟩
          (checkedAdd newlineCount
            (if content.length ≠ 0 ∧ endsWithNewline content = false then 1 else 0)))) state
      (fun count after => count = (physicalLines content).length ∧
        after.journal = some content ∧ CacheSound environment.file after)
      (Refused environment.file) := by
  subst newlineCount
  have sound : CacheSound environment.file (counted environment state content) :=
    counted_sound journal
  apply meets_bind
  apply meets_modify
  apply meets_okOr
  · intro count total
    rw [checkedAdd, ← length_physicalLines, Option.ite_none_right_eq_some] at total
    exact ⟨(Option.some.inj total.2).symm, journal, sound⟩
  · exact fun error plain => ⟨plain, sound⟩

theorem countPhysicalLinesCached_meets (sound : CacheSound environment.file state)
    (journal : state.journal = some content) :
    Meets (countPhysicalLinesCached environment content) state
      (fun count after => count = (physicalLines content).length ∧
        after.journal = some content ∧ CacheSound environment.file after)
      (Refused environment.file) := by
  have failed : ∀ error : IoError, error.isCommitStateUnknown = false →
      Refused environment.file error state := fun error plain => ⟨plain, sound⟩
  apply meets_bind
  apply meets_system _ failed
  apply meets_bind
  apply meets_rejectIf _ failed
  intro _
  apply meets_bind
  apply meets_get
  cases resumed : resumableCache environment content state.cache with
  | none =>
    have ends := terminated_of_resumed [] content
    simp only [endsWithNewline_nil, List.nil_append] at ends
    simp only [List.drop_zero, ends]
    apply meets_bind
    apply meets_system _ failed
    apply meets_bind
    apply meets_okOr _ failed
    intro newlineCount sums
    rw [checkedAdd, Nat.zero_add, Option.ite_none_right_eq_some] at sums
    exact recount_meets journal (Option.some.inj sums.2).symm
  | some cached =>
    obtain ⟨front, rest, rfl, scanned, newlines, flag⟩ := resumable_counts sound journal resumed
    have ends := terminated_of_resumed front rest
    simp only [scanned, newlines, flag, List.drop_left, ends]
    apply meets_bind
    apply meets_system _ failed
    apply meets_bind
    apply meets_okOr _ failed
    intro newlineCount sums
    rw [checkedAdd, ← List.count_append, Option.ite_none_right_eq_some] at sums
    exact recount_meets journal (Option.some.inj sums.2).symm

/-- What is known before the first write. -/
structure Prepared (file : JournalFile) (before : Option Bytes) (encoded : Bytes)
    (maxEventLines : Nat) (prepared : Bool × Bool × Option Nat) (content : Bytes)
    (after : JournalState) : Prop where
  journal : after.journal = some content
  origin : content = before.getD []
  uncached : Uncached file after
  separator : (if prepared.2.1 then [newline] else []) = separatorBytes content
  bytes : content.length + (separatorBytes content ++ encoded).length ≤ maxJournalReadBytes
  lines : (physicalLines content).length < maxEventLines
  count : ∀ count, prepared.2.2 = some count → count = (physicalLines content).length

section

variable (sound : CacheSound environment.file state)

include sound

theorem openJournal_meets (boundOutput : Option BoundOutput) :
    Meets (openJournal environment boundOutput) state
      (fun opened after => after.journal = some opened.1 ∧
        opened.1 = state.journal.getD [] ∧ CacheSound environment.file after)
      (Refused environment.file) := by
  have failed : ∀ error : IoError, error.isCommitStateUnknown = false →
      Refused environment.file error state := fun error plain => ⟨plain, sound⟩
  have existing : ∀ call, Meets (openExistingJournalForAppend call) state
      (fun content after => state.journal = some content ∧ after = state)
      (Refused environment.file) := by
    intro call
    apply meets_bind
    apply meets_system _ failed
    apply meets_bind
    apply meets_get
    exact meets_okOr (fun content found => ⟨found, rfl⟩) failed
  have opened : ∀ call, Meets (do
        let content ← openExistingJournalForAppend call
        return (content, false)) state
      (fun opened after => after.journal = some opened.1 ∧
        opened.1 = state.journal.getD [] ∧ CacheSound environment.file after)
      (Refused environment.file) := by
    intro call
    apply meets_bind
    apply (existing call).mono _ fun _ _ refused => refused
    rintro content after ⟨found, rfl⟩
    exact meets_pure ⟨found, by simp [found], sound⟩
  cases boundOutput with
  | some output => exact opened _
  | none =>
    apply meets_bind
    apply meets_get
    cases journal : state.journal with
    | some content =>
      have kept := opened environment.openExisting
      rw [journal] at kept
      exact kept
    | none =>
      have created := sound.create journal
      apply meets_bind
      apply meets_system _ failed
      apply meets_bind
      apply meets_modify
      apply meets_bind
      apply meets_system _ fun error plain => ⟨plain, created⟩
      exact meets_pure ⟨rfl, rfl, created⟩

theorem separator_meets :
    Meets (needsSeparator environment content) state
      (fun separator after => after = state ∧
        (if separator then [newline] else []) = separatorBytes content)
      (Refused environment.file) := by
  unfold needsSeparator
  split
  · rename_i empty
    obtain rfl := List.eq_nil_of_length_eq_zero empty
    exact meets_pure ⟨rfl, rfl⟩
  · rename_i some_
    apply meets_bind
    apply meets_system _ fun error plain => ⟨plain, sound⟩
    apply meets_pure
    refine ⟨rfl, ?_⟩
    have nonempty : content ≠ [] := by
      rintro rfl
      exact some_ rfl
    rw [separatorBytes]
    cases endsWithNewline content <;> simp [nonempty]

theorem exactLineCount_meets (journal : state.journal = some content) (maxEventLines : Nat) :
    Meets (exactLineCount environment content maxEventLines) state
      (fun lineCount after => after.journal = some content ∧ CacheSound environment.file after ∧
        (lineCount = none → content.length < maxEventLines) ∧
        ∀ count, lineCount = some count → count = (physicalLines content).length)
      (Refused environment.file) := by
  unfold exactLineCount
  split
  · rename_i short
    exact meets_pure ⟨journal, sound, fun _ => short, fun _ impossible => by cases impossible⟩
  · apply meets_bind
    apply (countPhysicalLinesCached_meets sound journal).mono _ fun _ _ refused => refused
    rintro count after ⟨exact_, kept, soundAfter⟩
    refine meets_pure ⟨kept, soundAfter, (fun impossible => by cases impossible), ?_⟩
    rintro other same
    cases same
    exact exact_

theorem invalidate_meets :
    Meets (invalidateAppendLineCountCache environment) state
      (fun _ after => after.journal = state.journal ∧ Uncached environment.file after)
      (Refused environment.file) := by
  apply meets_bind
  apply meets_rejectIf _ fun error plain => ⟨plain, sound⟩
  intro _
  apply meets_modify
  refine ⟨rfl, ?_⟩
  intro cached found
  have kept := (Option.filter_eq_some_iff.mp found).2
  exact of_decide_eq_true kept

end

variable [Libraries]

theorem inspectBeforeAppend_meets (sound : CacheSound environment.file state)
    (maxEventLines : Nat) (boundOutput : Option BoundOutput) :
    Meets (inspectBeforeAppend environment content maxEventLines boundOutput) state
      (fun _ after => after = state) (Refused environment.file) := by
  have failed : ∀ error : IoError, error.isCommitStateUnknown = false →
      Refused environment.file error state := fun error plain => ⟨plain, sound⟩
  cases boundOutput with
  | none => exact meets_pure rfl
  | some output =>
    apply meets_bind
    apply meets_bind
    apply meets_system _ failed
    apply meets_pure
    exact meets_rejectIf (fun _ => rfl) failed

theorem prepareAppend_meets (sound : CacheSound environment.file state) (encoded : Bytes)
    (maxEventLines : Nat) (boundOutput : Option BoundOutput) :
    Meets (prepareAppend environment encoded maxEventLines boundOutput) state
      (fun prepared after => ∃ content, Prepared environment.file state.journal encoded
        maxEventLines prepared content after) (Refused environment.file) := by
  apply meets_bind
  apply (openJournal_meets sound boundOutput).mono _ fun _ _ refused => refused
  rintro ⟨content, created⟩ opened ⟨journal, origin, openedSound⟩
  have failed : ∀ error : IoError, error.isCommitStateUnknown = false →
      Refused environment.file error opened := fun error plain => ⟨plain, openedSound⟩
  apply meets_bind
  apply meets_system _ failed
  apply meets_bind
  apply (inspectBeforeAppend_meets openedSound maxEventLines boundOutput).mono _
    fun _ _ refused => refused
  rintro _ inspected rfl
  apply meets_bind
  apply (separator_meets openedSound).mono _ fun _ _ refused => refused
  rintro separator separated ⟨rfl, separatorEq⟩
  apply meets_bind
  apply meets_rejectIf _ failed
  intro within
  rw [not_not] at within
  apply meets_bind
  apply (exactLineCount_meets openedSound journal maxEventLines).mono _ fun _ _ refused => refused
  rintro lineCount counted ⟨countedJournal, countedSound, shortcut, exact_⟩
  have failedCounted : ∀ error : IoError, error.isCommitStateUnknown = false →
      Refused environment.file error counted := fun error plain => ⟨plain, countedSound⟩
  apply meets_bind
  apply meets_rejectIf _ failedCounted
  intro few
  apply meets_bind
  apply meets_system _ failedCounted
  apply meets_bind
  apply (invalidate_meets countedSound).mono _ fun _ _ refused => refused
  rintro _ invalidated ⟨sameJournal, uncached⟩
  refine meets_pure ⟨content, sameJournal.trans countedJournal, origin, uncached, separatorEq,
    ?_, ?_, exact_⟩
  · have separatorLength : (separatorBytes content).length = if separator then 1 else 0 := by
      rw [← separatorEq]
      cases separator <;> rfl
    have bound : maxJournalReadBytes < usizeValues - 1 := by decide
    have fits : min (content.length + min (encoded.length + if separator then 1 else 0)
        (usizeValues - 1)) (usizeValues - 1) ≤ maxJournalReadBytes := of_decide_eq_true within
    rw [List.length_append, separatorLength]
    omega
  · cases lineCount with
    | none =>
      have short : content.length < maxEventLines := shortcut rfl
      have lines := length_physicalLines_le content
      omega
    | some count =>
      have same : count = (physicalLines content).length := exact_ count rfl
      simp only [Option.any_some, decide_eq_true_eq, Nat.not_le] at few
      omega

end

section

variable {environment : Environment} {io : JournalAppendIo} {state : JournalState}

theorem Uncached.append {file : JournalFile} (free : Uncached file state) (bytes : Bytes) :
    Uncached file (state.append bytes) := free

variable {file : JournalFile}

theorem removeCreatedEmptyJournal_keeps (free : Uncached file state) :
    Meets (removeCreatedEmptyJournal environment) state
      (fun _ after => Uncached file after) (fun _ after => Uncached file after) := by
  apply meets_bind
  refine meets_call (fun _ _ => ?_) fun _ _ => free
  apply meets_bind
  apply meets_get
  apply meets_bind
  refine meets_call (fun _ _ => ?_) fun _ _ => free
  apply meets_bind
  refine meets_call (fun _ _ => ?_) fun _ _ => free
  apply meets_bind
  refine meets_call (fun _ _ => ?_) fun _ _ => free
  exact meets_modify free

theorem writeOrFinish_meets (wellBehaved : io.WellBehaved) (fuel : Nat) (created : Bool)
    (progress : WriteProgress) (bytes : Bytes) (free : Uncached file state) :
    Meets (writeOrFinish environment io fuel created progress bytes) state
      (fun _ after => after = state.append bytes)
      (fun error after => Uncached file after ∧ (error.isCommitStateUnknown = true →
        ∃ done rest, bytes = done ++ rest ∧ after = state.append done)) := by
  apply meets_bind
  apply (writeAllCounted_wrote wellBehaved fuel progress bytes state).mono _
    fun _ _ impossible => impossible.elim
  rintro ⟨result, written⟩ after ⟨done, rest, wrote⟩
  have freeAfter : Uncached file after := wrote.journal ▸ free.append done
  cases result with
  | ok _ =>
    apply meets_pure
    have nothing := wrote.complete rfl
    rw [wrote.journal, wrote.parts, nothing, List.append_nil]
  | error error =>
    apply meets_bind
    unfold cleanUpCreated
    split
    · rename_i removal
      apply meets_mapError
      apply (removeCreatedEmptyJournal_keeps freeAfter).mono
      · rintro _ removed freeRemoved
        refine meets_call (fun _ impossible => by cases impossible) ?_
        intro failure same
        cases same
        refine ⟨freeRemoved, fun unknown => ?_⟩
        rw [appendWriteError, if_pos removal.2] at unknown
        cases unknown
      · rintro cleanup removed freeRemoved
        exact ⟨freeRemoved, fun impossible => by cases impossible⟩
    · apply meets_pure
      apply meets_call (fun _ impossible => by cases impossible)
      intro failure same
      cases same
      exact ⟨freeAfter, fun _ => ⟨done, rest, wrote.parts, wrote.journal⟩⟩

theorem writeEvent_writes (wellBehaved : io.WellBehaved) (fuel : Nat) (created separator : Bool)
    (encoded : Bytes) (free : Uncached file state) :
    Meets (writeEvent environment io fuel created separator encoded) state
      (fun _ after => after = state.append ((if separator then [newline] else []) ++ encoded))
      (fun error after => Uncached file after ∧ (error.isCommitStateUnknown = true →
        ∃ done rest, (if separator then [newline] else []) ++ encoded = done ++ rest ∧
          after = state.append done)) := by
  apply meets_bind
  have first : Meets (writeSeparator environment io fuel created separator) state
      (fun _ after => after = state.append (if separator then [newline] else []))
      (fun error after => Uncached file after ∧ (error.isCommitStateUnknown = true →
        ∃ done rest, (if separator then [newline] else []) = done ++ rest ∧
          after = state.append done)) := by
    unfold writeSeparator
    cases separator with
    | true => exact writeOrFinish_meets wellBehaved fuel created ⟨0, 0⟩ [newline] free
    | false => exact meets_pure state.append_nil.symm
  apply first.mono
  · rintro progress between rfl
    apply meets_bind
    apply (writeOrFinish_meets wellBehaved fuel created progress encoded (free.append _)).mono
    · rintro _ after rfl
      exact meets_pure (JournalState.append_append _ _ _)
    · rintro error after ⟨freeAfter, partly⟩
      refine ⟨freeAfter, fun unknown => ?_⟩
      obtain ⟨done, rest, parts, same⟩ := partly unknown
      refine ⟨(if separator then [newline] else []) ++ done, rest, ?_, ?_⟩
      · rw [parts, List.append_assoc]
      · rw [same, JournalState.append_append]
  · rintro error after ⟨freeAfter, partly⟩
    refine ⟨freeAfter, fun unknown => ?_⟩
    obtain ⟨done, rest, parts, same⟩ := partly unknown
    exact ⟨done, rest ++ encoded, by rw [parts, List.append_assoc], same⟩

theorem settleAppend_sound {lineCount : Option Nat} {whole : Bytes} (created : Bool)
    (journal : state.journal = some whole) (free : Uncached environment.file state)
    (ends : endsWithNewline whole = true)
    (predicted : ∀ count, lineCount = some count → whole.count newline = count + 1) :
    Meets (settleAppend environment io created lineCount) state
      (fun _ after => after.journal = some whole ∧ CacheSound environment.file after)
      (fun _ after => after.journal = some whole ∧ CacheSound environment.file after) := by
  have bookkeeping : Meets (bookkeepLineCount environment lineCount) state
      (fun _ after => after.journal = some whole ∧ CacheSound environment.file after)
      (fun _ after => after.journal = some whole ∧ CacheSound environment.file after) := by
    cases lineCount with
    | none => exact meets_pure ⟨journal, free.sound⟩
    | some count =>
      apply meets_mapError
      apply meets_bind
      refine meets_call (fun _ _ => ?_) fun _ _ => ⟨journal, free.sound⟩
      apply meets_bind
      refine meets_call (fun _ _ => ?_) fun _ _ => ⟨journal, free.sound⟩
      apply meets_modify
      refine ⟨journal, ?_⟩
      intro cached found _
      cases found
      refine ⟨whole, journal, whole, [], by simp, by simp [journal], ?_, ends.symm⟩
      exact (predicted count rfl).symm
  apply meets_bind
  apply bookkeeping.mono _ fun _ _ kept => kept
  rintro _ booked kept
  apply meets_bind
  apply meets_mapError
  refine meets_call (fun _ _ => ?_) fun _ _ => kept
  unfold syncCreatedDirectory
  split
  · apply meets_mapError
    exact meets_call (fun _ _ => kept) fun _ _ => kept
  · exact meets_pure kept

end

section

variable [Libraries] {environment : Environment} {io : JournalAppendIo} {state : JournalState}

structure Grown (before : Option Bytes) (encoded : Bytes) (maxEventLines : Nat)
    (after : Option Bytes) (done rest : Bytes) : Prop where
  parts : separatorBytes (before.getD []) ++ encoded = done ++ rest
  journal : after = some (before.getD [] ++ done)
  bytes : (before.getD []).length + (done ++ rest).length ≤ maxJournalReadBytes
  lines : (physicalLines (before.getD [])).length < maxEventLines

theorem appendLocked_grows (wellBehaved : io.WellBehaved) (fuel : Nat) {encoded : Bytes}
    (event : EncodedEvent encoded) (maxEventLines : Nat) (boundOutput : Option BoundOutput)
    (sound : CacheSound environment.file state) :
    Meets (appendLocked environment io fuel encoded maxEventLines boundOutput) state
      (fun _ after => CacheSound environment.file after ∧
        ∃ done rest, Grown state.journal encoded maxEventLines after.journal done rest)
      (fun error after => CacheSound environment.file after ∧
        (error.isCommitStateUnknown = true →
          ∃ done rest, Grown state.journal encoded maxEventLines after.journal done rest)) := by
  apply meets_bind
  apply (prepareAppend_meets sound encoded maxEventLines boundOutput).mono
  · rintro ⟨created, separator, lineCount⟩ prepared ⟨content, ready⟩
    have separatorEq : (if separator then [newline] else []) = separatorBytes content :=
      ready.separator
    have origin := ready.origin
    apply meets_bind
    apply (writeEvent_writes wellBehaved fuel created separator encoded ready.uncached).mono
    · rintro _ written rfl
      rw [separatorEq]
      have journal : (prepared.append (separatorBytes content ++ encoded)).journal =
          some (content ++ (separatorBytes content ++ encoded)) := by
        simp [JournalState.append, ready.journal]
      have whole : Grown state.journal encoded maxEventLines
          (some (content ++ (separatorBytes content ++ encoded)))
          (separatorBytes content ++ encoded) [] := by
        refine ⟨by rw [← origin, List.append_nil], by rw [← origin], ?_, ?_⟩
        · rw [← origin, List.append_nil]
          exact ready.bytes
        · rw [← origin]
          exact ready.lines
      have nonempty : encoded ≠ [] := by
        rintro rfl
        exact absurd event.terminated (by simp [endsWithNewline])
      have ends : endsWithNewline (content ++ (separatorBytes content ++ encoded)) = true := by
        rw [endsWithNewline_append (by simp [nonempty]), endsWithNewline_append nonempty]
        exact event.terminated
      have predicted : ∀ count, lineCount = some count →
          (content ++ (separatorBytes content ++ encoded)).count newline = count + 1 := by
        intro count same
        rw [count_newline_append event, ready.count count same]
      apply (settleAppend_sound created journal (ready.uncached.append _) ends predicted).mono
      · rintro _ after ⟨kept, soundAfter⟩
        exact ⟨soundAfter, _, _, kept ▸ whole⟩
      · rintro error after ⟨kept, soundAfter⟩
        exact ⟨soundAfter, fun _ => ⟨_, _, kept ▸ whole⟩⟩
    · rintro error after ⟨free, partly⟩
      refine ⟨free.sound, fun unknown => ?_⟩
      obtain ⟨done, rest, parts, rfl⟩ := partly unknown
      rw [separatorEq] at parts
      refine ⟨done, rest, by rw [← origin, parts], ?_, ?_, ?_⟩
      · rw [← origin]
        simp [JournalState.append, ready.journal]
      · rw [← origin, ← parts]
        exact ready.bytes
      · rw [← origin]
        exact ready.lines
  · rintro error after ⟨plain, soundAfter⟩
    refine ⟨soundAfter, fun unknown => ?_⟩
    rw [plain] at unknown
    cases unknown

theorem recoverExactTerminalOutputLocked_keeps (output : BoundOutput) (maxEventLines : Nat) :
    Meets (recoverExactTerminalOutputLocked environment output maxEventLines) state
      (fun _ after => after = state) (fun _ after => after = state) := by
  apply meets_bind
  apply meets_bind
  refine meets_system ?_ fun _ _ => rfl
  apply meets_bind
  apply meets_get
  refine meets_okOr (fun content _ => ?_) fun _ _ => rfl
  apply meets_bind
  refine meets_system ?_ fun _ _ => rfl
  apply meets_bind
  apply meets_bind
  refine meets_system ?_ fun _ _ => rfl
  apply meets_pure
  split
  · exact meets_pure rfl
  · apply meets_bind
    refine meets_system ?_ fun _ _ => rfl
    apply meets_bind
    refine meets_system ?_ fun _ _ => rfl
    exact meets_pure rfl

theorem appendEncodedEventToPath_grows (wellBehaved : io.WellBehaved) (fuel : Nat)
    (encoded : Bytes) (maxEventLines : Nat) (boundOutput : Option BoundOutput)
    (sound : CacheSound environment.file state) :
    Meets (appendEncodedEventToPath environment io fuel encoded maxEventLines boundOutput) state
      (fun _ after => CacheSound environment.file after ∧ EncodedEvent encoded ∧
        ∃ done rest, Grown state.journal encoded maxEventLines after.journal done rest)
      (fun _ after => CacheSound environment.file after) := by
  apply meets_bind
  refine meets_rejectIf (fun wellFormed => ?_) fun _ _ => sound
  simp only [not_or, Bool.not_eq_false] at wellFormed
  have event : EncodedEvent encoded := ⟨wellFormed.1, wellFormed.2⟩
  apply meets_bind
  refine meets_rejectIf (fun _ => ?_) fun _ _ => sound
  apply meets_bind
  refine meets_system ?_ fun _ _ => sound
  apply meets_bind
  apply meets_attempt
  apply (appendLocked_grows wellBehaved fuel event maxEventLines boundOutput sound).mono
  · rintro _ after ⟨soundAfter, grown⟩
    cases boundOutput with
    | none => exact meets_call (fun _ _ => ⟨soundAfter, event, grown⟩) fun _ _ => soundAfter
    | some output => exact meets_call (fun _ _ => ⟨soundAfter, event, grown⟩) fun _ _ => soundAfter
  · rintro error after ⟨soundAfter, grown⟩
    cases boundOutput with
    | none => exact meets_call (fun _ impossible => by cases impossible) fun _ _ => soundAfter
    | some output =>
      simp only [finishAppend]
      split
      · rename_i unknown
        apply meets_bind
        apply meets_attempt
        apply (recoverExactTerminalOutputLocked_keeps output maxEventLines).mono
        · rintro recovered kept rfl
          cases recovered with
          | true => exact meets_pure ⟨soundAfter, event, grown unknown⟩
          | false =>
            exact meets_call (fun _ impossible => by cases impossible) fun _ _ => soundAfter
        · rintro recoveryError kept rfl
          exact meets_call (fun _ impossible => by cases impossible) fun _ _ => soundAfter
      · exact meets_call (fun _ impossible => by cases impossible) fun _ _ => soundAfter

end

section

variable [Libraries] {file : JournalFile} {start state : JournalState}

/-- What happens to one journal file: an append or a count of this process, or
an append by another writer. -/
inductive JournalStep (file : JournalFile) : JournalState → JournalState → Prop
  | own {environment : Environment} {io : JournalAppendIo} {fuel : Nat} {encoded : Bytes}
      {maxEventLines : Nat} {boundOutput : Option BoundOutput} {before after : JournalState}
      {result : Except IoError Unit} (identity : environment.file = file)
      (wellBehaved : io.WellBehaved)
      (ran : appendEncodedEventToPath environment io fuel encoded maxEventLines boundOutput
        before = some (result, after)) : JournalStep file before after
  | counting {environment : Environment} {content : Bytes} {before after : JournalState}
      {result : Except IoError Nat} (identity : environment.file = file)
      (journal : before.journal = some content)
      (ran : countPhysicalLinesCached environment content before = some (result, after)) :
      JournalStep file before after
  | peer (before : JournalState) (bytes : Bytes) (nonempty : bytes ≠ []) :
      JournalStep file before (before.append bytes)

theorem JournalStep.sound {before after : JournalState} (step : JournalStep file before after)
    (sound : CacheSound file before) : CacheSound file after := by
  cases step with
  | own identity wellBehaved ran =>
    rename_i environment io fuel encoded maxEventLines boundOutput result
    subst identity
    have met := appendEncodedEventToPath_grows wellBehaved fuel encoded maxEventLines boundOutput
      sound result after ran
    cases result with
    | ok _ => exact met.1
    | error _ => exact met
  | counting identity journal ran =>
    rename_i environment content result
    subst identity
    have met := countPhysicalLinesCached_meets sound journal result after ran
    cases result with
    | ok _ => exact met.2.2
    | error _ => exact met.2
  | peer _ bytes _ => exact sound.append bytes

theorem cacheSound_run (fresh : start.cache = none)
    (run : Relation.ReflTransGen (JournalStep file) start state) : CacheSound file state := by
  induction run with
  | refl =>
    intro cached found
    rw [fresh] at found
    cases found
  | tail _ step ih => exact step.sound ih

/-- The reader's bounds on a journal. -/
def Readable (maxEventLines : Nat) (journal : Option Bytes) : Prop :=
  ∀ content, journal = some content →
    content.length ≤ maxJournalReadBytes ∧ (physicalLines content).length ≤ maxEventLines

omit [Libraries] in
theorem Grown.readable {before after : Option Bytes} {encoded done rest : Bytes}
    {maxEventLines : Nat} (event : EncodedEvent encoded)
    (grown : Grown before encoded maxEventLines after done rest) :
    Readable maxEventLines after := by
  intro content found
  have more := length_physicalLines_append_le event grown.parts
  have bytes := grown.bytes
  have lines := grown.lines
  obtain rfl := Option.some.inj (found.symm.trans grown.journal)
  rw [List.length_append] at bytes ⊢
  exact ⟨by omega, by omega⟩

/-- At any point of any run, counting answers the lines of the file, and an
append that succeeds leaves the journal readable. -/
theorem line_counter_exact (fresh : start.cache = none)
    (run : Relation.ReflTransGen (JournalStep file) start state) :
    (∀ environment content, environment.file = file → state.journal = some content →
      (∀ count after,
        countPhysicalLinesCached environment content state = some (.ok count, after) →
          count = (physicalLines content).length) ∧
      (content.length < usizeValues → environment.countMetadata = .ok () →
        environment.countCachePoisoned = false → environment.countReads = .ok () →
          ∃ after, countPhysicalLinesCached environment content state =
            some (.ok (physicalLines content).length, after)) ∧
      (physicalLines content).length = content.count newline +
        if content.length ≠ 0 ∧ endsWithNewline content = false then 1 else 0) ∧
    (∀ environment io fuel encoded maxEventLines boundOutput after, environment.file = file →
      JournalAppendIo.WellBehaved io →
      appendEncodedEventToPath environment io fuel encoded maxEventLines boundOutput state =
        some (.ok (), after) →
      Readable maxEventLines after.journal) := by
  have sound := cacheSound_run fresh run
  refine ⟨?_, ?_⟩
  · rintro environment content rfl journal
    refine ⟨?_, ?_, length_physicalLines content⟩
    · intro count after ran
      exact (countPhysicalLinesCached_meets sound journal _ _ ran).1
    · intro small metadata lock reads
      exact ⟨_, countPhysicalLinesCached_answers sound journal small metadata lock reads⟩
  · rintro environment io fuel encoded maxEventLines boundOutput after rfl wellBehaved ran
    obtain ⟨-, event, done, rest, grown⟩ := appendEncodedEventToPath_grows wellBehaved fuel encoded
      maxEventLines boundOutput sound _ _ ran
    exact grown.readable event

end

/-- After a peer has added an unterminated tail, two lines are counted. -/
theorem line_counter_exact_of_tail :
    ∃ after, countPhysicalLinesCached faultlessEnvironment (startLine ++ [0x7b])
      (JournalState.append ⟨some startLine, none⟩ [0x7b]) = some (.ok 2, after) := by
  let _ := oneOutputLibraries shortOutput
  have run : Relation.ReflTransGen (JournalStep faultlessEnvironment.file) ⟨some startLine, none⟩
      (JournalState.append ⟨some startLine, none⟩ [0x7b]) :=
    .single (.peer _ _ (by decide))
  have lines : (physicalLines (startLine ++ [0x7b])).length = 2 := by decide +kernel
  have answers := ((line_counter_exact rfl run).1 faultlessEnvironment (startLine ++ [0x7b])
    rfl rfl).2.1 (by decide +kernel) rfl rfl rfl
  rwa [lines] at answers

end JtermCore.ExecutionJournal
