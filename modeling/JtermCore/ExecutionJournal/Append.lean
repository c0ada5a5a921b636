import JtermCore.Step
import JtermCore.ExecutionJournal.History

/-!
# The journal append

`append_encoded_event_to_path_with_line_limit_and_io_inner` appends one encoded
event to the locked journal file.  Every call into the operating system is a
field of `Environment` or of `JournalAppendIo`, so that any of them may fail.
-/

namespace JtermCore.ExecutionJournal

open Result

/-- The kinds of `io::Error` the append names; `other` stands for the rest. -/
inductive ErrorKind where
  | invalidInput
  | invalidData
  | fileTooLarge
  | writeZero
  | interrupted
  | notFound
  | unexpectedEof
  | other (code : Nat)
deriving DecidableEq

/-- An `io::Error` that does not carry `CommitStateUnknown`, as the operating
system reports them. -/
structure PlainError where
  kind : ErrorKind
  message : String
deriving DecidableEq

structure IoError where
  kind : ErrorKind
  message : String
  isCommitStateUnknown : Bool
deriving DecidableEq

def PlainError.pass (error : PlainError) : IoError := ⟨error.kind, error.message, false⟩

def commitStateUnknown (kind : ErrorKind) (message : String) : IoError := ⟨kind, message, true⟩

def appendWriteError (error : PlainError) (written : Nat) : IoError :=
  if written = 0 then
    ⟨error.kind,
      "execution journal append failed before writing any bytes: " ++ error.message, false⟩
  else
    commitStateUnknown error.kind
      ("execution journal append failed after writing a visible prefix; commit state is unknown: "
        ++ error.message)

def appendDurabilityError (stage : String) (error : PlainError) : IoError :=
  commitStateUnknown error.kind
    ("execution journal " ++ stage ++
      " durability barrier failed after writing; commit state is unknown: " ++ error.message)

def appendPostWriteError (stage : String) (error : PlainError) : IoError :=
  commitStateUnknown error.kind
    ("execution journal " ++ stage ++ " failed after writing; commit state is unknown: " ++
      error.message)

/-- A call into the operating system whose only answer is success. -/
abbrev SystemCall := Except PlainError Unit

/-- The calls the append makes outside `JournalAppendIo`.  The journal's path
and file identity serve the line-count cache. -/
structure Environment where
  path : Bytes
  device : Nat
  inode : Nat
  hasParent : Bool
  acquireLock : SystemCall
  openExisting : SystemCall
  createNew : SystemCall
  validateCreated : SystemCall
  metadata : SystemCall
  inspectReads : SystemCall
  readLastByte : SystemCall
  countMetadata : SystemCall
  countCachePoisoned : Bool
  countReads : SystemCall
  setPermissions : SystemCall
  invalidateCachePoisoned : Bool
  cleanupMetadata : SystemCall
  cleanupNamesFile : Bool
  cleanupNamesOpenedFile : Bool
  cleanupRemove : SystemCall
  completeMetadata : SystemCall
  completeCachePoisoned : Bool
  recoveryOpen : SystemCall
  recoveryMetadata : SystemCall
  recoveryReads : SystemCall
  recoverySyncData : SystemCall
  recoverySyncDirectory : SystemCall

structure WriteOutcome where
  reported : Except PlainError Nat
  appended : Bytes

/-- The behaviour of the numbered write calls on the bytes they are offered, and of the
two durability barriers. -/
structure JournalAppendIo where
  write : Nat → Bytes → WriteOutcome
  syncData : SystemCall
  syncDirectory : SystemCall

structure AppendLineCountCache where
  path : Bytes
  device : Nat
  inode : Nat
  scannedBytes : Nat
  newlineCount : Nat
  endsWithNewline : Bool
deriving DecidableEq

/-- The journal file, if its path names one, and the process-wide cache. -/
structure JournalState where
  journal : Option Bytes
  cache : Option AppendLineCountCache
deriving DecidableEq

/-- Appending to the open journal file. -/
def JournalState.append (state : JournalState) (bytes : Bytes) : JournalState :=
  { state with journal := state.journal.map (· ++ bytes) }

abbrev AppendStep := Step JournalState IoError

def system (call : SystemCall) : AppendStep Unit := Step.mapError PlainError.pass (Step.call call)

/-- An early `return Err(..)` of a plain error. -/
def rejectIf (condition : Prop) [Decidable condition] (kind : ErrorKind) (message : String) :
    AppendStep Unit := Step.call (reject condition ⟨kind, message, false⟩)

def openExistingJournalForAppend (call : SystemCall) : AppendStep Bytes := do
  system call
  let state ← Step.get
  Step.call (okOr ⟨.notFound, "No such file or directory (os error 2)", false⟩ state.journal)

def openOrCreateJournalForAppend (environment : Environment) : AppendStep (Bytes × Bool) := do
  let state ← Step.get
  match state.journal with
  | some _ =>
    let content ← openExistingJournalForAppend environment.openExisting
    return (content, false)
  | none =>
    system environment.createNew
    Step.modify fun state => { state with journal := some [] }
    system environment.validateCreated
    return ([], true)

def openJournal (environment : Environment) : Option BoundOutput → AppendStep (Bytes × Bool)
  | some _ => do
    let content ← openExistingJournalForAppend environment.openExisting
    return (content, false)
  | none => openOrCreateJournalForAppend environment

def journalAppendWithinBound (currentBytes eventBytes : Nat) : Bool :=
  saturatingAdd currentBytes eventBytes ≤ maxJournalReadBytes

def needsSeparator (environment : Environment) (content : Bytes) : AppendStep Bool :=
  if content.length = 0 then
    return false
  else do
    system environment.readLastByte
    return !endsWithNewline content

def resumableCache (environment : Environment) (content : Bytes) :
    Option AppendLineCountCache → Option AppendLineCountCache := Option.filter fun cached =>
    cached.path = environment.path && cached.scannedBytes ≤ content.length &&
      (cached.device = environment.device && cached.inode = environment.inode)

def countPhysicalLinesCached (environment : Environment) (content : Bytes) : AppendStep Nat := do
  system environment.countMetadata
  rejectIf (environment.countCachePoisoned = true) (.other 0) "journal line-count cache is poisoned"
  let state ← Step.get
  let (offset, newlineCount, terminated) :=
    match resumableCache environment content state.cache with
    | some cached => (cached.scannedBytes, cached.newlineCount, cached.endsWithNewline)
    | none => (0, 0, false)
  system environment.countReads
  let remaining := content.drop offset
  let terminated := if remaining.isEmpty then terminated else endsWithNewline remaining
  let newlineCount ←
    Step.call (okOr ⟨.other 0, "execution journal event count overflowed", false⟩
      (checkedAdd newlineCount (remaining.count newline)))
  Step.modify fun state =>
    { state with
      cache := some {
        path := environment.path
        device := environment.device
        inode := environment.inode
        scannedBytes := content.length
        newlineCount
        endsWithNewline := terminated } }
  Step.call (okOr ⟨.other 0, "execution journal event count overflowed", false⟩
    (checkedAdd newlineCount (if content.length ≠ 0 ∧ terminated = false then 1 else 0)))

/-- Short files cannot hold too many lines. -/
def exactLineCount (environment : Environment) (content : Bytes) (maxEventLines : Nat) :
    AppendStep (Option Nat) :=
  if content.length < maxEventLines then
    return none
  else do
    let count ← countPhysicalLinesCached environment content
    return some count

def invalidateAppendLineCountCache (environment : Environment) : AppendStep Unit := do
  rejectIf (environment.invalidateCachePoisoned = true) (.other 0)
    "journal line-count cache is poisoned"
  Step.modify fun state =>
    { state with cache := state.cache.filter fun cached => cached.path ≠ environment.path }

def cacheCompletedAppend (environment : Environment) (physicalLines : Nat) :
    Step JournalState PlainError Unit := do
  Step.call environment.completeMetadata
  Step.call (reject (environment.completeCachePoisoned = true)
    ⟨.other 0, "journal line-count cache is poisoned"⟩)
  Step.modify fun state =>
    { state with
      cache := some {
        path := environment.path
        device := environment.device
        inode := environment.inode
        scannedBytes := (state.journal.map List.length).getD 0
        newlineCount := physicalLines
        endsWithNewline := true } }

/-- The number of write calls so far and the bytes they reported. -/
structure WriteProgress where
  calls : Nat
  written : Nat
deriving DecidableEq

/-- The loop that offers the rest of the bytes until all are written. -/
def writeAllCounted (io : JournalAppendIo) :
    Nat → WriteProgress → Bytes → AppendStep (SystemCall × WriteProgress)
  | 0, progress, bytes => if bytes.isEmpty then return (.ok (), progress) else Step.outOfFuel
  | fuel + 1, progress, bytes =>
    if bytes.isEmpty then
      return (.ok (), progress)
    else do
      let outcome := io.write progress.calls bytes
      let progress := { progress with calls := progress.calls + 1 }
      Step.modify (·.append outcome.appended)
      match outcome.reported with
      | .ok 0 =>
        return (.error ⟨.writeZero, "failed to write the complete execution journal event"⟩,
          progress)
      | .ok count =>
        if count ≤ bytes.length then
          writeAllCounted io fuel { progress with written := saturatingAdd progress.written count }
            (bytes.drop count)
        else
          return (.error ⟨.invalidData, "execution journal writer reported an invalid byte count"⟩,
            progress)
      | .error error =>
        if error.kind = .interrupted then
          writeAllCounted io fuel progress bytes
        else
          return (.error error, progress)

def removeCreatedEmptyJournal (environment : Environment) : Step JournalState PlainError Unit := do
  Step.call environment.cleanupMetadata
  let state ← Step.get
  Step.call (reject (state.journal ≠ some [] ∨ environment.cleanupNamesFile = false)
    ⟨.invalidData, "new execution journal pathname no longer names the empty opened file"⟩)
  Step.call (reject (environment.cleanupNamesOpenedFile = false)
    ⟨.invalidData, "new execution journal pathname was replaced before cleanup"⟩)
  Step.call environment.cleanupRemove
  Step.modify fun state => { state with journal := none }

/-- The cleanup of a file that was created for an append that wrote nothing. -/
def cleanUpCreated (environment : Environment) (created : Bool) (written : Nat)
    (error : PlainError) : AppendStep Unit :=
  if created = true ∧ written = 0 then
    Step.mapError
      (fun cleanup => ⟨cleanup.kind,
        "execution journal append failed before writing and its empty pathname could not be removed: "
          ++ error.message ++ "; cleanup failed: " ++ cleanup.message, false⟩)
      (removeCreatedEmptyJournal environment)
  else
    return ()

def finishFailedAppendWrite {α : Type} (environment : Environment) (created : Bool)
    (written : Nat) (error : PlainError) : AppendStep α := do
  cleanUpCreated environment created written error
  Step.call (.error (appendWriteError error written))

def writeOrFinish (environment : Environment) (io : JournalAppendIo) (fuel : Nat)
    (created : Bool) (progress : WriteProgress) (bytes : Bytes) : AppendStep WriteProgress := do
  let (result, progress) ← writeAllCounted io fuel progress bytes
  match result with
  | .ok () => return progress
  | .error error => finishFailedAppendWrite environment created progress.written error

def inspectOpened [Libraries] (reads : SystemCall) (content : Bytes) (output : BoundOutput)
    (maxEventLines : Nat) : AppendStep BoundOutputSnapshot := do
  system reads
  return inspectBoundOutputSnapshot content output.lifecycle output.event maxEventLines

def inspectBeforeAppend [Libraries] (environment : Environment) (content : Bytes)
    (maxEventLines : Nat) : Option BoundOutput → AppendStep Unit
  | some output => do
    let snapshot ← inspectOpened environment.inspectReads content output maxEventLines
    rejectIf (snapshot ≠ .ready) .invalidData
      "execution output does not match the current journal lifecycle"
  | none => return ()

/-- Everything before the first write: whether the file was created, whether a
separator is needed, and the exact number of lines where it was counted. -/
def prepareAppend [Libraries] (environment : Environment) (encoded : Bytes)
    (maxEventLines : Nat) (boundOutput : Option BoundOutput) :
    AppendStep (Bool × Bool × Option Nat) := do
  let (content, created) ← openJournal environment boundOutput
  system environment.metadata
  inspectBeforeAppend environment content maxEventLines boundOutput
  let separator ← needsSeparator environment content
  rejectIf
    (¬ journalAppendWithinBound content.length
      (saturatingAdd encoded.length (if separator then 1 else 0)))
    .fileTooLarge "jsh execution journal is awaiting lifecycle compaction"
  let lineCount ← exactLineCount environment content maxEventLines
  rejectIf (lineCount.any (maxEventLines ≤ ·)) .fileTooLarge
    "jsh execution journal append exceeds its event-count limit"
  system environment.setPermissions
  invalidateAppendLineCountCache environment
  return (created, separator, lineCount)

/-- The separator after an incomplete line, written first. -/
def writeSeparator (environment : Environment) (io : JournalAppendIo) (fuel : Nat)
    (created : Bool) (separator : Bool) : AppendStep WriteProgress :=
  if separator then
    writeOrFinish environment io fuel created ⟨0, 0⟩ [newline]
  else
    return ⟨0, 0⟩

def writeEvent (environment : Environment) (io : JournalAppendIo) (fuel : Nat) (created : Bool)
    (separator : Bool) (encoded : Bytes) : AppendStep Unit := do
  let progress ← writeSeparator environment io fuel created separator
  let _ ← writeOrFinish environment io fuel created progress encoded
  return ()

def bookkeepLineCount (environment : Environment) : Option Nat → AppendStep Unit
  | some count =>
    Step.mapError (appendPostWriteError "line-count bookkeeping")
      (cacheCompletedAppend environment (count + 1))
  | none => return ()

/-- The second durability barrier, for a new file. -/
def syncCreatedDirectory (io : JournalAppendIo) (created : Bool) : AppendStep Unit :=
  if created then
    Step.mapError (appendDurabilityError "directory") (Step.call io.syncDirectory)
  else
    return ()

def settleAppend (environment : Environment) (io : JournalAppendIo) (created : Bool)
    (lineCount : Option Nat) : AppendStep Unit := do
  bookkeepLineCount environment lineCount
  Step.mapError (appendDurabilityError "data") (Step.call io.syncData)
  syncCreatedDirectory io created

/-- The closure behind `append_result`. -/
def appendLocked [Libraries] (environment : Environment) (io : JournalAppendIo) (fuel : Nat)
    (encoded : Bytes) (maxEventLines : Nat) (boundOutput : Option BoundOutput) :
    AppendStep Unit := do
  let (created, separator, lineCount) ←
    prepareAppend environment encoded maxEventLines boundOutput
  writeEvent environment io fuel created separator encoded
  settleAppend environment io created lineCount

def recoverExactTerminalOutputLocked [Libraries] (environment : Environment)
    (output : BoundOutput) (maxEventLines : Nat) : AppendStep Bool := do
  let content ← openExistingJournalForAppend environment.recoveryOpen
  system environment.recoveryMetadata
  let snapshot ← inspectOpened environment.recoveryReads content output maxEventLines
  if snapshot ≠ .exactTerminal then
    return false
  else do
    system environment.recoverySyncData
    system environment.recoverySyncDirectory
    return true

/-- What becomes of an append whose commit state is unknown. -/
def settleUnknown (error : IoError) : Except IoError Bool → AppendStep Unit
  | .ok true => return ()
  | .ok false => Step.call (.error error)
  | .error recoveryError =>
    Step.call (.error (commitStateUnknown recoveryError.kind
      ("execution journal Output recovery failed after an unknown append result: " ++
        recoveryError.message ++ "; original error: " ++ error.message)))

def recoverUnknown [Libraries] (environment : Environment) (maxEventLines : Nat)
    (output : BoundOutput) (error : IoError) : AppendStep Unit := do
  let recovered ← Step.attempt (recoverExactTerminalOutputLocked environment output maxEventLines)
  settleUnknown error recovered

/-- The match on `append_result`. -/
def finishAppend [Libraries] (environment : Environment) (maxEventLines : Nat) :
    Option BoundOutput → Except IoError Unit → AppendStep Unit
  | some output, .error error =>
    if error.isCommitStateUnknown then
      recoverUnknown environment maxEventLines output error
    else
      Step.call (.error error)
  | _, result => Step.call result

def appendEncodedEventToPath [Libraries] (environment : Environment) (io : JournalAppendIo)
    (fuel : Nat) (encoded : Bytes) (maxEventLines : Nat) (boundOutput : Option BoundOutput) :
    AppendStep Unit := do
  rejectIf (endsWithNewline encoded = false ∨ newline ∈ encoded.dropLast) .invalidInput
    "encoded journal event must contain exactly one trailing newline"
  rejectIf (environment.hasParent = false) .invalidInput "journal has no parent"
  system environment.acquireLock
  let appendResult ← Step.attempt
    (appendLocked environment io fuel encoded maxEventLines boundOutput)
  finishAppend environment maxEventLines boundOutput appendResult

end JtermCore.ExecutionJournal
