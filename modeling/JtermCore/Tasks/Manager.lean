import JtermCore.Tasks.Task

/-!
# The task manager

Every operation first checks, over a borrow of the manager, all that it may
refuse, and then changes the manager.  An error does not undo a change.
-/

namespace JtermCore.Tasks

open ExecutionJournal Result

structure NativeEventStreamState where
  stream : AgentEventStream
  nextSequence : Nat
  sessionStarted : Bool
  activeTurn : Option AgentTurnId
  reviewPointReached : Bool
deriving DecidableEq

/-- `TaskManager`; a map is a partial function, a set a predicate. -/
structure TaskManager where
  table : TaskTable
  tasksByTerminalSession : SessionId → Option TaskId
  tasksByValidationSession : SessionId → Option TaskId
  exitedTerminalSessions : SessionId → Bool
  nativeEventStreams : TaskId → Option NativeEventStreamState
  remoteNativeActive : TaskId → Bool

def TaskManager.new : TaskManager where
  table := .empty
  tasksByTerminalSession _ := none
  tasksByValidationSession _ := none
  exitedTerminalSessions _ := false
  nativeEventStreams _ := none
  remoteNativeActive _ := false

/-- A method that changes the manager; one that returns an `Option` fails
without a reason. -/
abbrev Manage (ε α : Type) : Type := ExceptT ε (StateM TaskManager) α

/-- What a method reads, and why it may refuse. -/
def borrow {ε α : Type} (check : TaskManager → Except ε α) : Manage ε α :=
  fun manager => (check manager, manager)

namespace TaskManager

def get (manager : TaskManager) (taskId : TaskId) : Option AgentTask := manager.table.get taskId

def modifyTask (manager : TaskManager) (taskId : TaskId) (change : AgentTask → AgentTask)
    (keeps : ∀ task, (change task).id = task.id) : TaskManager :=
  { manager with table := manager.table.modify taskId change keeps }

def hasActiveAgentEventStream (manager : TaskManager) (taskId : TaskId) : Bool :=
  (manager.nativeEventStreams taskId).isSome || manager.remoteNativeActive taskId

def dropValidationSession (manager : TaskManager) (session : Option SessionId)
    (taskId : TaskId) : TaskManager :=
  match session with
  | some session =>
    if manager.tasksByValidationSession session = some taskId then
      { manager with
        tasksByValidationSession := Function.update manager.tasksByValidationSession session none }
    else manager
  | none => manager

def removeValidationSession (manager : TaskManager) (session : Option SessionId) : TaskManager :=
  match session with
  | some session =>
    { manager with
      tasksByValidationSession := Function.update manager.tasksByValidationSession session none }
  | none => manager

def setStream (manager : TaskManager) (taskId : TaskId)
    (stream : Option NativeEventStreamState) : TaskManager :=
  { manager with
    nativeEventStreams := Function.update manager.nativeEventStreams taskId stream }

def noteExit (manager : TaskManager) (session : SessionId) : TaskManager :=
  { manager with
    exitedTerminalSessions := Function.update manager.exitedTerminalSessions session true }

def addTerminalSession (manager : TaskManager) (session : SessionId) (taskId : TaskId) :
    TaskManager :=
  { manager with
    tasksByTerminalSession := Function.update manager.tasksByTerminalSession session (some taskId) }

end TaskManager

open TaskManager

def taskMut {ε : Type} (unknown : ε) (taskId : TaskId) (change : AgentTask → AgentTask)
    (keeps : ∀ task, (change task).id = task.id) : Manage ε Unit := fun manager =>
    match manager.get taskId with
    | some _ => (.ok (), manager.modifyTask taskId change keeps)
    | none => (.error unknown, manager)

def newRecord (id : TaskId) (now : Nat) (task : NewTask) (brief : Option TaskBrief) :
    AgentTask where
  id := id
  title := Utf8.trimChars task.title
  provider := task.provider
  status := .created
  repoRoot := task.repoRoot
  worktreePath := task.worktreePath
  branch := task.branch
  baseCommit := task.baseCommit
  source := task.sourceContext.map fun context =>
    ⟨context.sourceSessionId, context.sourceExecutionId⟩
  sourceContext := task.sourceContext
  brief := brief
  runtimeKind := .unassigned
  terminalSessionId := none
  validation := .initial
  exitCode := none
  statusDetail := none
  createdAtMs := now
  updatedAtMs := now
  archivedFrom := none

def createInternal (id : TaskId) (now : Nat) (task : NewTask) (brief : Option TaskBrief) :
    Manage TaskError TaskId := do
  borrow fun _ => validateNewTask task
  modify fun manager => { manager with table := manager.table.push (newRecord id now task brief) }
  return id

def create (id : TaskId) (now : Nat) (task : NewTask) : Manage TaskError TaskId :=
  createInternal id now task none

def createWithBrief [Libraries] (id : TaskId) (now : Nat) (task : NewTask) (brief : TaskBrief) :
    Manage TaskError TaskId := do
  borrow fun _ => do
    reject task.sourceContext.isSome
      (.invalidBrief "a task cannot combine an authored goal with command provenance")
    brief.validate.mapError .invalidBrief
  createInternal id now task (some brief)

def TaskManager.checkStart (manager : TaskManager) (taskId : TaskId) :
    Except AgentEventError Unit := do
  reject (manager.hasActiveAgentEventStream taskId) (.streamAlreadyActive taskId)
  let task ← okOr (.unknownTask taskId) (manager.get taskId)
  reject task.status.isTerminal (.terminalState taskId task.status)
  reject (task.terminalSessionId.isSome ∨ task.runtimeKind.isTerminal)
    (.terminalSessionBound taskId)
  reject (task.validation.status = .running) (.validationActive taskId)
  reject (task.status ≠ .created) (.nativeStartRequiresCreated taskId task.status)

def TaskManager.checkInstall (manager : TaskManager) (taskId : TaskId) :
    Except AgentEventError AgentTask := do
  let task ← okOr (.unknownTask taskId) (manager.get taskId)
  reject task.status.isTerminal (.terminalState taskId task.status)
  reject (task.terminalSessionId.isSome ∨ task.runtimeKind.isTerminal)
    (.terminalSessionBound taskId)
  reject (task.validation.status = .running) (.validationActive taskId)
  return task

def AgentTask.installed (task : AgentTask) (now : Nat) : AgentTask :=
  { task with
    runtimeKind := if task.runtimeKind = .unassigned then .native else task.runtimeKind
    status := if task.runtimeKind = .unassigned then .starting else task.status
    statusDetail := if task.runtimeKind = .unassigned then none else task.statusDetail
    validation :=
      task.validation.stale "Agent work resumed; the previous validation result is stale"
    updatedAtMs := now }

@[simp]
theorem installed_id (now : Nat) (task : AgentTask) : (task.installed now).id = task.id :=
  rfl

def installAgentEventStream (taskId : TaskId) (sessionId : NativeAgentSessionId)
    (epoch : Option AgentEventEpoch) (now : Nat) : Manage AgentEventError AgentEventStream := do
  let task ← borrow (·.checkInstall taskId)
  let epoch ← borrow fun _ => okOr .epochExhausted epoch
  let stream : AgentEventStream := ⟨taskId, sessionId, epoch⟩
  modify (·.removeValidationSession task.validation.terminalSessionId)
  taskMut (.unknownTask taskId) taskId (·.installed now) (installed_id now)
  modify (·.setStream taskId (some ⟨stream, 1, false, none, task.status = .readyForReview⟩))
  return stream

def startAgentEventStream (taskId : TaskId) (sessionId : NativeAgentSessionId)
    (epoch : Option AgentEventEpoch) (now : Nat) : Manage AgentEventError AgentEventStream := do
  borrow (·.checkStart taskId)
  installAgentEventStream taskId sessionId epoch now

def TaskManager.checkResume (manager : TaskManager) (taskId : TaskId) :
    Except AgentEventError Unit := do
  reject (manager.hasActiveAgentEventStream taskId) (.streamAlreadyActive taskId)
  let task ← okOr (.unknownTask taskId) (manager.get taskId)
  reject (task.status ≠ .readyForReview ∨ task.runtimeKind ≠ .native)
    (.nativeStartRequiresCreated taskId task.status)

def resumeAgentEventStreamAfterStop (taskId : TaskId) (sessionId : NativeAgentSessionId)
    (epoch : Option AgentEventEpoch) (now : Nat) : Manage AgentEventError AgentEventStream := do
  borrow (·.checkResume taskId)
  installAgentEventStream taskId sessionId epoch now

def TaskManager.verifyAgentEventStream (manager : TaskManager) (expected : AgentEventStream) :
    Except AgentEventError NativeEventStreamState := do
  let active ← okOr (.noActiveStream expected.taskId) (manager.nativeEventStreams expected.taskId)
  reject (active.stream.epoch ≠ expected.epoch)
    (.epochMismatch expected.taskId active.stream.epoch expected.epoch)
  reject (active.stream.sessionId ≠ expected.sessionId) (.sessionMismatch expected.taskId)
  return active

def TaskManager.checkFinish (manager : TaskManager) (expected : AgentEventStream)
    (outcome : AgentSessionOutcome) : Except AgentEventError (TaskStatus × TaskStatus) := do
  let active ← manager.verifyAgentEventStream expected
  let task ← okOr (.unknownTask expected.taskId) (manager.get expected.taskId)
  reject task.status.isTerminal (.terminalState expected.taskId task.status)
  let (next, _) ← okOr (.invalidTransition expected.taskId task.status (.sessionEnded outcome))
    (statusAfterEvent task.status (.sessionEnded outcome))
  return (task.status,
    if active.reviewPointReached && outcome ≠ .clean then .readyForReview else next)

/-- A status that an event or a stop gives to a task. -/
def AgentTask.advanced (task : AgentTask) (next : TaskStatus) (detail : Option String)
    (now : Nat) : AgentTask :=
  { task with
    status := next
    statusDetail := if next ≠ task.status || detail.isSome then detail else task.statusDetail
    updatedAtMs := now }

@[simp]
theorem advanced_id (next : TaskStatus) (detail : Option String) (now : Nat) (task : AgentTask) :
    (task.advanced next detail now).id = task.id :=
  rfl

def finishAgentEventStreamAfterStop [Libraries] (expected : AgentEventStream)
    (outcome : AgentSessionOutcome) (detail : Option String) (now : Nat) :
    Manage AgentEventError TaskStatus := do
  let (_, next) ← borrow (·.checkFinish expected outcome)
  let detail := boundedEventDetail detail
  taskMut (.unknownTask expected.taskId) expected.taskId (·.advanced next detail now)
      (advanced_id next detail now)
  modify (·.setStream expected.taskId none)
  return next

def TaskManager.checkRollback (manager : TaskManager) (expected : AgentEventStream) :
    Except AgentEventError Unit := do
  let _ ← manager.verifyAgentEventStream expected
  let task ← okOr (.unknownTask expected.taskId) (manager.get expected.taskId)
  reject (task.status ≠ .starting ∨ task.runtimeKind ≠ .native)
    (.invalidTransition expected.taskId task.status (.sessionEnded .failed))

/-- What `rollback_agent_event_stream_before_spawn` makes of a task. -/
def AgentTask.rolledBack [Libraries] (task : AgentTask) (detail : String) (now : Nat) :
    AgentTask :=
  { task with
    runtimeKind := .unassigned
    status := .created
    statusDetail := boundedEventDetail (some detail)
    updatedAtMs := now }

@[simp]
theorem rolledBack_id [Libraries] (detail : String) (now : Nat) (task : AgentTask) :
    (task.rolledBack detail now).id = task.id :=
  rfl

def rollbackAgentEventStreamBeforeSpawn [Libraries] (expected : AgentEventStream)
    (detail : String) (now : Nat) : Manage AgentEventError Unit := do
  borrow (·.checkRollback expected)
  taskMut (.unknownTask expected.taskId) expected.taskId (·.rolledBack detail now)
      (rolledBack_id detail now)
  modify (·.setStream expected.taskId none)

def checkProvider (taskId : TaskId) (expected : AgentProvider) :
    AgentEventKind → Except AgentEventError Unit
  | .sessionStarted none resumed => reject resumed (.missingResumeSession taskId)
  | .sessionStarted (some session) _ =>
    reject (session.provider ≠ expected) (.providerMismatch taskId expected session.provider)
  | _ => .ok ()

def AgentEventKind.isSessionStarted : AgentEventKind → Bool
  | .sessionStarted .. => true
  | _ => false

def AgentEventKind.isTurnStarted : AgentEventKind → Bool
  | .turnStarted _ => true
  | _ => false

def AgentEventKind.turn : AgentEventKind → Option AgentTurnId
  | .approvalRequested turnId _ | .permissionRequested turnId _ | .inputRequested turnId
  | .workResumed turnId | .turnCompleted turnId => some turnId
  | _ => none

def checkTurn (taskId : TaskId) (activeTurn : Option AgentTurnId) (kind : AgentEventKind) :
    Except AgentEventError Unit :=
  match kind, kind.turn with
  | .turnStarted _, _ =>
    match activeTurn with
    | some active => .error (.turnAlreadyActive taskId active)
    | none => .ok ()
  | _, some turnId =>
    match activeTurn with
    | some active => reject (active ≠ turnId) (.turnMismatch taskId active turnId)
    | none => .error (.noActiveTurn taskId)
  | _, none => .ok ()

/-- The endings that do not take a review point back. -/
def AgentEventKind.isBadEnding : AgentEventKind → Bool
  | .cancelled | .sessionEnded .cancelled | .sessionEnded .failed | .error true => true
  | _ => false

def TaskManager.checkAgentEvent (manager : TaskManager) (event : AgentEvent) :
    Except AgentEventError (TaskStatus × Bool) := do
  let taskId := event.stream.taskId
  let task ← okOr (.unknownTask taskId) (manager.get taskId)
  reject task.status.isTerminal (.terminalState taskId task.status)
  let active ← manager.verifyAgentEventStream event.stream
  reject (active.nextSequence ≠ event.sequence)
    (.invalidSequence taskId active.nextSequence event.sequence)
  checkProvider taskId task.provider event.kind
  reject (¬ active.sessionStarted ∧ ¬ event.kind.isSessionStarted ∧ ¬ eventEndsStream event.kind)
    (.sessionNotStarted taskId)
  reject (active.sessionStarted ∧ event.kind.isSessionStarted)
    (.invalidTransition taskId task.status event.kind)
  checkTurn taskId active.activeTurn event.kind
  let (next, updatesTask) ← okOr (.invalidTransition taskId task.status event.kind)
    (statusAfterEvent task.status event.kind)
  reject (u64Max ≤ event.sequence) (.sequenceExhausted taskId)
  return (if active.reviewPointReached && event.kind.isBadEnding then .readyForReview else next,
    updatesTask)

def AgentTask.notified (task : AgentTask) (event : AgentEvent) (next : TaskStatus) (now : Nat) :
    AgentTask :=
  { task.advanced next event.detail now with
    validation :=
      if event.kind.isTurnStarted then
        task.validation.stale "Agent turn started; the previous validation result is stale"
      else task.validation }

@[simp]
theorem notified_id (event : AgentEvent) (next : TaskStatus) (now : Nat) (task : AgentTask) :
    (task.notified event next now).id = task.id :=
  rfl

/-- What an accepted event makes of the stream that goes on. -/
def NativeEventStreamState.notified (active : NativeEventStreamState) (event : AgentEvent) :
    NativeEventStreamState :=
  { active with
    nextSequence := event.sequence + 1
    sessionStarted := active.sessionStarted || event.kind.isSessionStarted
    activeTurn :=
      match event.kind with
      | .turnStarted turnId => some turnId
      | .turnCompleted _ => none
      | _ => active.activeTurn
    reviewPointReached :=
      match event.kind with
      | .turnCompleted _ => true
      | _ => active.reviewPointReached }

def TaskManager.invalidatedSession (manager : TaskManager) (taskId : TaskId)
    (kind : AgentEventKind) : Option SessionId :=
  if kind.isTurnStarted then
    ((manager.get taskId).filter (·.validation ≠ .initial)).bind (·.validation.terminalSessionId)
  else none

def applyAgentEvent (event : AgentEvent) (now : Nat) : Manage AgentEventError TaskStatus := do
  let taskId := event.stream.taskId
  let (next, updatesTask) ← borrow (·.checkAgentEvent event)
  let invalidated ← borrow fun manager => .ok (manager.invalidatedSession taskId event.kind)
  if updatesTask then
    taskMut (.unknownTask taskId) taskId (·.notified event next now) (notified_id event next now)
  modify (·.dropValidationSession invalidated taskId)
  if next.isTerminal || eventEndsStream event.kind then
    modify (·.setStream taskId none)
  else
    modify fun manager =>
      manager.setStream taskId ((manager.nativeEventStreams taskId).map (·.notified event))
  return next

def TaskManager.checkBindTerminal (manager : TaskManager) (taskId : TaskId)
    (sessionId : SessionId) : Except TaskError Bool := do
  reject (!isValidJshSessionId sessionId) .invalidTerminalSessionId
  match manager.tasksByValidationSession sessionId with
  | some existing => .error (.terminalSessionAlreadyBound sessionId existing)
  | none =>
    match manager.tasksByTerminalSession sessionId with
    | some existing =>
      if existing = taskId then return true
      else .error (.terminalSessionAlreadyBound sessionId existing)
    | none => do
      let task ← okOr (.unknownTask taskId) (manager.get taskId)
      reject (task.runtimeKind = .native) (.nativeRuntimeAlreadySelected taskId)
      reject (task.status ≠ .created ∧ task.status ≠ .starting)
        (.cannotBindTerminalInState taskId task.status)
      match task.terminalSessionId with
      | some bound => .error (.taskAlreadyBoundToTerminal taskId bound)
      | none => return false

def AgentTask.boundTo (task : AgentTask) (sessionId : SessionId) (now : Nat) : AgentTask :=
  { task with
    runtimeKind :=
      if task.runtimeKind ≠ .terminalFallback then .terminal else task.runtimeKind
    terminalSessionId := some sessionId
    status := .working
    statusDetail := none
    updatedAtMs := now }

@[simp]
theorem boundTo_id (sessionId : SessionId) (now : Nat) (task : AgentTask) :
    (task.boundTo sessionId now).id = task.id :=
  rfl

def bindTerminalSession (taskId : TaskId) (sessionId : SessionId) (now : Nat) :
    Manage TaskError Unit := do
  let already ← borrow (·.checkBindTerminal taskId sessionId)
  if already then return ()
  else
    taskMut (.unknownTask taskId) taskId (·.boundTo sessionId now) (boundTo_id sessionId now)
    modify (·.addTerminalSession sessionId taskId)

def TaskManager.terminalRetrySessionId (manager : TaskManager) (taskId : TaskId) :
    Except TaskError SessionId := do
  reject (manager.hasActiveAgentEventStream taskId) (.nativeEventStreamActive taskId)
  let task ← okOr (.unknownTask taskId) (manager.get taskId)
  let unavailable := TaskError.terminalRetryUnavailable taskId task.status
  reject (task.status ≠ .failed ∨ ¬ task.runtimeKind.isTerminal ∨
    task.validation.status = .running) unavailable
  let old ← okOr unavailable task.terminalSessionId
  reject (manager.tasksByTerminalSession old ≠ some taskId ∨
    ¬ manager.exitedTerminalSessions old) unavailable
  return old

/-- The task a session is bound to in either role. -/
def TaskManager.ownerOf (manager : TaskManager) (sessionId : SessionId) : Option TaskId :=
  (manager.tasksByValidationSession sessionId).or (manager.tasksByTerminalSession sessionId)

def TaskManager.checkUnbound (manager : TaskManager) (sessionId : SessionId) :
    Except TaskError Unit :=
  match manager.ownerOf sessionId with
  | some existing => .error (.terminalSessionAlreadyBound sessionId existing)
  | none => .ok ()

def TaskManager.checkRetry (manager : TaskManager) (taskId : TaskId)
    (expectedOld newSession : SessionId) : Except TaskError (Option SessionId) := do
  reject (!isValidJshSessionId newSession) .invalidTerminalSessionId
  manager.checkUnbound newSession
  let old ← manager.terminalRetrySessionId taskId
  reject (old ≠ expectedOld)
    (.terminalRetryUnavailable taskId ((manager.get taskId).elim .failed (·.status)))
  return (manager.get taskId).bind (·.validation.terminalSessionId)

def AgentTask.retried (task : AgentTask) (sessionId : SessionId) (now : Nat) : AgentTask :=
  { task with
    validation :=
      task.validation.stale "Terminal retry started; the previous validation result is stale"
    terminalSessionId := some sessionId
    exitCode := none
    status := .working
    statusDetail := none
    updatedAtMs := now }

@[simp]
theorem retried_id (sessionId : SessionId) (now : Nat) (task : AgentTask) :
    (task.retried sessionId now).id = task.id :=
  rfl

def bindTerminalRetrySession (taskId : TaskId) (expectedOld newSession : SessionId)
    (now : Nat) : Manage TaskError Unit := do
  let invalidated ← borrow (·.checkRetry taskId expectedOld newSession)
  taskMut (.unknownTask taskId) taskId (·.retried newSession now) (retried_id newSession now)
  modify (·.dropValidationSession invalidated taskId)
  modify fun manager =>
    { manager with
      tasksByTerminalSession := Function.update manager.tasksByTerminalSession expectedOld none
      exitedTerminalSessions := Function.update manager.exitedTerminalSessions expectedOld false }
  modify (·.addTerminalSession newSession taskId)

def TaskManager.nativeTerminalFallbackEligible (manager : TaskManager) (taskId : TaskId) :
    Except TaskError AgentTask := do
  reject (manager.hasActiveAgentEventStream taskId) (.nativeEventStreamActive taskId)
  let task ← okOr (.unknownTask taskId) (manager.get taskId)
  reject ((task.status ≠ .failed ∧ task.status ≠ .readyForReview) ∨
    task.runtimeKind ≠ .native ∨ task.terminalSessionId.isSome ∨
    task.validation.status = .running) (.terminalFallbackUnavailable taskId task.status)
  return task

def AgentTask.fellBack (task : AgentTask) (sessionId : SessionId) (now : Nat) : AgentTask :=
  { task with
    runtimeKind := .terminalFallback
    terminalSessionId := some sessionId
    exitCode := none
    status := .working
    validation :=
      task.validation.stale "Terminal continuation started; the previous validation result is stale"
    statusDetail := some "Native Codex stopped; continuing in the terminal compatibility path"
    updatedAtMs := now }

@[simp]
theorem fellBack_id (sessionId : SessionId) (now : Nat) (task : AgentTask) :
    (task.fellBack sessionId now).id = task.id :=
  rfl

def bindNativeTerminalFallbackSession (taskId : TaskId) (sessionId : SessionId) (now : Nat) :
    Manage TaskError Unit := do
  let previous ← borrow fun manager => do
    reject (!isValidJshSessionId sessionId) .invalidTerminalSessionId
    manager.checkUnbound sessionId
    manager.nativeTerminalFallbackEligible taskId
  taskMut (.unknownTask taskId) taskId (·.fellBack sessionId now) (fellBack_id sessionId now)
  modify (·.dropValidationSession previous.validation.terminalSessionId taskId)
  modify (·.addTerminalSession sessionId taskId)

def TaskManager.nextValidationAttempt (manager : TaskManager) (taskId : TaskId) :
    Except TaskError (AgentTask × Nat) := do
  reject (manager.hasActiveAgentEventStream taskId)
    (.nativeEventStreamActiveDuringValidation taskId)
  let task ← okOr (.unknownTask taskId) (manager.get taskId)
  reject (task.status ≠ .readyForReview) (.cannotBindValidationInState taskId task.status)
  reject (task.validation.status = .running)
    (.validationAlreadyRunning taskId (task.validation.terminalSessionId.getD []))
  reject (u64Max ≤ task.validation.attempt) (.validationAttemptExhausted taskId)
  return (task, task.validation.attempt + 1)

def TaskManager.checkBindValidation (manager : TaskManager) (taskId : TaskId)
    (sessionId : SessionId) : Except TaskError (Option SessionId × Nat) := do
  reject (!isValidJshSessionId sessionId) .invalidTerminalSessionId
  let (task, attempt) ← manager.nextValidationAttempt taskId
  match manager.tasksByTerminalSession sessionId with
  | some existing => .error (.terminalSessionAlreadyBound sessionId existing)
  | none =>
    match manager.tasksByValidationSession sessionId with
    | some existing => .error (.terminalSessionAlreadyBound sessionId existing)
    | none => return (task.validation.terminalSessionId, attempt)

def AgentTask.validating (task : AgentTask) (sessionId : SessionId) (attempt now : Nat) :
    AgentTask :=
  { task with
    validation := ⟨.running, attempt, some sessionId, none, none⟩
    updatedAtMs := now }

@[simp]
theorem validating_id (sessionId : SessionId) (attempt now : Nat) (task : AgentTask) :
    (task.validating sessionId attempt now).id = task.id :=
  rfl

def bindValidationSession (taskId : TaskId) (sessionId : SessionId) (now : Nat) :
    Manage TaskError Unit := do
  let (old, attempt) ← borrow (·.checkBindValidation taskId sessionId)
  modify (·.removeValidationSession old)
  taskMut (.unknownTask taskId) taskId (·.validating sessionId attempt now)
      (validating_id sessionId attempt now)
  modify fun manager =>
    { manager with
      tasksByValidationSession :=
        Function.update manager.tasksByValidationSession sessionId (some taskId) }

def TaskManager.checkUpdateStatus (manager : TaskManager) (taskId : TaskId)
    (status : TaskStatus) : Except TaskError AgentTask := do
  reject (manager.hasActiveAgentEventStream taskId) (.nativeEventStreamActive taskId)
  reject (status = .completed) (.completionRequiresValidation taskId)
  let task ← okOr (.unknownTask taskId) (manager.get taskId)
  reject (task.status.isTerminal ∧ task.status ≠ status)
    (.cannotLeaveTerminalState taskId task.status status)
  reject (task.validation.status = .running ∧ status ≠ task.status)
    (.validationAlreadyRunning taskId (task.validation.terminalSessionId.getD []))
  reject (status = .created ∧ task.runtimeKind = .native) (.nativeRuntimeAlreadySelected taskId)
  return task

def AgentTask.resumedBy (task : AgentTask) (status : TaskStatus) : Bool :=
  (status = .created || status.isRunning) &&
    !(task.validation.status = .notRun || task.validation.status = .running)

def AgentTask.withStatus [Libraries] (task : AgentTask) (status : TaskStatus)
    (detail : Option String) (now : Nat) : AgentTask :=
  { task with
    validation :=
      if task.resumedBy status then
        { TaskValidationState.initial with
          attempt := task.validation.attempt
          statusDetail := some "Task work resumed; the previous validation result is stale" }
      else task.validation
    status := status
    statusDetail := boundedEventDetail detail
    updatedAtMs := now }

@[simp]
theorem withStatus_id [Libraries] (status : TaskStatus) (detail : Option String) (now : Nat)
    (task : AgentTask) : (task.withStatus status detail now).id = task.id :=
  rfl

def updateStatus [Libraries] (taskId : TaskId) (status : TaskStatus) (detail : Option String)
    (now : Nat) : Manage TaskError Unit := do
  let task ← borrow (·.checkUpdateStatus taskId status)
  if task.resumedBy status then
    modify (·.removeValidationSession task.validation.terminalSessionId)
  taskMut (.unknownTask taskId) taskId (·.withStatus status detail now)
      (withStatus_id status detail now)
  if status.isTerminal then
    modify (·.setStream taskId none)

/-- The states that a process exit leaves alone. -/
def TaskStatus.isSettled : TaskStatus → Bool
  | .readyForReview | .completed | .failed | .cancelled | .archived => true
  | _ => false

def AgentTask.validationExited (task : AgentTask) (exitCode : Option Int) (now : Nat) :
    AgentTask :=
  { task with
    validation :=
      { task.validation with
        exitCode := exitCode
        status :=
          match exitCode with
          | some 0 => .passed
          | some _ => .failed
          | none => .inconclusive
        statusDetail :=
          match exitCode with
          | some 0 => some "Validation passed"
          | some code => some ("Validation process exited with code " ++ toString code)
          | none => some "Validation ended without an authoritative exit status" }
    updatedAtMs := now }

@[simp]
theorem validationExited_id (exitCode : Option Int) (now : Nat) (task : AgentTask) :
    (task.validationExited exitCode now).id = task.id :=
  rfl

def AgentTask.agentExited (task : AgentTask) (exitCode : Option Int) (now : Nat) : AgentTask :=
  { task with
    exitCode := exitCode
    status := if exitCode = some 0 then .readyForReview else .failed
    statusDetail :=
      match exitCode with
      | some 0 => some "Agent process finished; review its worktree changes"
      | some code => some ("Agent process exited with code " ++ toString code)
      | none => some "Agent process ended without an exit status"
    updatedAtMs := now }

@[simp]
theorem agentExited_id (exitCode : Option Int) (now : Nat) (task : AgentTask) :
    (task.agentExited exitCode now).id = task.id :=
  rfl

def handleTerminalSessionExit (sessionId : SessionId) (exitCode : Option Int) (now : Nat) :
    Manage Unit TaskId := do
  match ← borrow fun manager => .ok (manager.tasksByValidationSession sessionId) with
  | some taskId =>
    let task ← borrow fun manager => okOr () (manager.get taskId)
    if task.validation.status ≠ .running then return taskId
    else
      taskMut () taskId (·.validationExited exitCode now) (validationExited_id exitCode now)
      return taskId
  | none =>
    let taskId ← borrow fun manager => okOr () (manager.tasksByTerminalSession sessionId)
    modify (·.noteExit sessionId)
    let task ← borrow fun manager => okOr () (manager.get taskId)
    if task.status.isSettled then return taskId
    else
      taskMut () taskId (·.agentExited exitCode now) (agentExited_id exitCode now)
      return taskId

def AgentTask.validationClosed (task : AgentTask) (now : Nat) : AgentTask :=
  { task with
    validation :=
      { task.validation with
        status := .cancelled
        exitCode := none
        statusDetail := some "Validation terminal was closed" }
    updatedAtMs := now }

@[simp]
theorem validationClosed_id (now : Nat) (task : AgentTask) :
    (task.validationClosed now).id = task.id :=
  rfl

def AgentTask.agentClosed (task : AgentTask) (now : Nat) : AgentTask :=
  { task with
    status := .cancelled
    exitCode := none
    statusDetail := some "Agent terminal was closed"
    updatedAtMs := now }

@[simp]
theorem agentClosed_id (now : Nat) (task : AgentTask) : (task.agentClosed now).id = task.id :=
  rfl

def handleTerminalSessionClosed (sessionId : SessionId) (now : Nat) : Manage Unit TaskId := do
  match ← borrow fun manager => .ok (manager.tasksByValidationSession sessionId) with
  | some taskId =>
    let task ← borrow fun manager => okOr () (manager.get taskId)
    if task.validation.status ≠ .running then return taskId
    else
      taskMut () taskId (·.validationClosed now) (validationClosed_id now)
      return taskId
  | none =>
    let taskId ← borrow fun manager => okOr () (manager.tasksByTerminalSession sessionId)
    let task ← borrow fun manager => okOr () (manager.get taskId)
    if task.status.isSettled then return taskId
    else
      taskMut () taskId (·.agentClosed now) (agentClosed_id now)
      return taskId

def TaskManager.canArchive (manager : TaskManager) (taskId : TaskId) :
    Except TaskError AgentTask := do
  let task ← okOr (.unknownTask taskId) (manager.get taskId)
  reject (manager.hasActiveAgentEventStream taskId ∨ task.status.isRunning ∨
    task.validation.status = .running) (.cannotArchiveRunning taskId)
  return task

def AgentTask.hidden (task : AgentTask) (now : Nat) : AgentTask :=
  { task with
    archivedFrom := some task.status
    status := .archived
    updatedAtMs := now }

@[simp]
theorem hidden_id (now : Nat) (task : AgentTask) : (task.hidden now).id = task.id :=
  rfl

def archive (taskId : TaskId) (now : Nat) : Manage TaskError Unit := do
  let task ← borrow (·.canArchive taskId)
  if task.status = .archived then return ()
  else
    taskMut (.unknownTask taskId) taskId (·.hidden now) (hidden_id now)

def TaskManager.checkRestore (manager : TaskManager) (taskId : TaskId) :
    Except TaskError TaskStatus := do
  let task ← okOr (.unknownTask taskId) (manager.get taskId)
  reject (task.status ≠ .archived) (.notArchived taskId)
  okOr (.archivedStateUnknown taskId) (task.archivedFrom.filter (· ≠ .archived))

/-- What `restore` makes of a task. -/
def AgentTask.shown (task : AgentTask) (previous : TaskStatus) (now : Nat) : AgentTask :=
  { task with
    status := previous
    archivedFrom := none
    updatedAtMs := now }

@[simp]
theorem shown_id (previous : TaskStatus) (now : Nat) (task : AgentTask) :
    (task.shown previous now).id = task.id :=
  rfl

def restore (taskId : TaskId) (now : Nat) : Manage TaskError Unit := do
  let previous ← borrow (·.checkRestore taskId)
  taskMut (.unknownTask taskId) taskId (·.shown previous now) (shown_id previous now)

def AgentTask.invalidated (task : AgentTask) (detail : String) (now : Nat) : AgentTask :=
  if task.validation.status = .passed then
    { task with
      validation := { task.validation with status := .inconclusive, statusDetail := some detail }
      updatedAtMs := now }
  else task

@[simp]
theorem invalidated_id (detail : String) (now : Nat) (task : AgentTask) :
    (task.invalidated detail now).id = task.id := by
  unfold AgentTask.invalidated
  split <;> rfl

def invalidateValidationEvidence (taskId : TaskId) (detail : String) (now : Nat) :
    Manage TaskError Unit :=
  taskMut (.unknownTask taskId) taskId (·.invalidated detail now) (invalidated_id detail now)

def AgentTask.accepted (task : AgentTask) (detail : String) (now : Nat) : AgentTask :=
  { task with
    status := .completed
    statusDetail := some detail
    updatedAtMs := now }

@[simp]
theorem accepted_id (detail : String) (now : Nat) (task : AgentTask) :
    (task.accepted detail now).id = task.id :=
  rfl

def TaskManager.checkCompleteAfterValidation (manager : TaskManager) (taskId : TaskId) :
    Except TaskError Unit := do
  reject (manager.hasActiveAgentEventStream taskId) (.nativeEventStreamActive taskId)
  let task ← okOr (.unknownTask taskId) (manager.get taskId)
  reject (task.status ≠ .readyForReview ∨ task.validation.status ≠ .passed)
    (.cannotCompleteAfterValidation taskId task.status task.validation.status)

def completeAfterValidation (taskId : TaskId) (now : Nat) : Manage TaskError Unit := do
  borrow (·.checkCompleteAfterValidation taskId)
  taskMut (.unknownTask taskId) taskId (·.accepted "Validation passed; task accepted" now)
      (accepted_id _ now)

def TaskManager.checkCompleteAfterManualReview [Libraries] (manager : TaskManager)
    (taskId : TaskId) : Except TaskError Unit := do
  reject (manager.hasActiveAgentEventStream taskId) (.nativeEventStreamActive taskId)
  let task ← okOr (.unknownTask taskId) (manager.get taskId)
  reject (¬ task.requiresManualReview ∨ task.status ≠ .readyForReview ∨
    task.validation.status ≠ .notRun) (.cannotCompleteAfterManualReview taskId)

def completeAfterManualReview [Libraries] (taskId : TaskId) (now : Nat) :
    Manage TaskError Unit := do
  borrow (·.checkCompleteAfterManualReview taskId)
  taskMut (.unknownTask taskId) taskId
    (·.accepted "Work explicitly accepted after human review; no validation command was configured"
      now) (accepted_id _ now)

end JtermCore.Tasks
