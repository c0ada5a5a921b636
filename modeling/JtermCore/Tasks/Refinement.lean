import JtermCore.Tasks.Operation

/-!
# Every operation moves one task

The manager refines a collection of independent tasks with their streams: an
operation is refused, changes nothing, notes an exit, files a new task, or
moves one task, and the maps of sessions follow.
-/

namespace JtermCore.Tasks

open ExecutionJournal Result Index

section

variable {ε α β : Type}

theorem outcome_pure (value : α) (manager : TaskManager) :
    outcome (pure value : Manage ε α) manager = (true, manager) :=
  rfl

theorem bind_run (first : Manage ε α) (next : α → Manage ε β) (manager : TaskManager) :
    (first >>= next) manager =
      match first manager with
      | (.ok value, later) => next value later
      | (.error error, later) => (.error error, later) := by
  change (ExceptT.bindCont next (first manager).1) (first manager).2 = _
  rcases first manager with ⟨error | value, later⟩ <;> rfl

theorem outcome_borrow (check : TaskManager → Except ε α) (next : α → Manage ε β)
    (manager : TaskManager) : outcome (borrow check >>= next) manager =
      match check manager with
      | .ok value => outcome (next value) manager
      | .error _ => (false, manager) := by
  rw [outcome, bind_run, borrow]
  cases check manager <;> rfl

theorem outcome_modify (change : TaskManager → TaskManager) (next : Unit → Manage ε β)
    (manager : TaskManager) :
    outcome ((modify change : Manage ε Unit) >>= next) manager =
      outcome (next ()) (change manager) :=
  rfl

theorem outcome_modify_last (change : TaskManager → TaskManager) (manager : TaskManager) :
    outcome (modify change : Manage ε Unit) manager = (true, change manager) :=
  rfl

theorem outcome_taskMut (unknown : ε) (taskId : TaskId) (change : AgentTask → AgentTask)
    (keeps : ∀ task, (change task).id = task.id) (next : Unit → Manage ε β)
    (manager : TaskManager) : outcome (taskMut unknown taskId change keeps >>= next) manager =
      match manager.get taskId with
      | some _ => outcome (next ()) (manager.modifyTask taskId change keeps)
      | none => (false, manager) := by
  rw [outcome, bind_run, taskMut]
  cases manager.get taskId <;> rfl

theorem outcome_taskMut_last (unknown : ε) (taskId : TaskId) (change : AgentTask → AgentTask)
    (keeps : ∀ task, (change task).id = task.id) (manager : TaskManager) :
    outcome (taskMut unknown taskId change keeps) manager =
      match manager.get taskId with
      | some _ => (true, manager.modifyTask taskId change keeps)
      | none => (false, manager) := by
  rw [outcome, taskMut]
  cases manager.get taskId <;> rfl

end

namespace TaskManager

variable {manager : TaskManager} {taskId : TaskId}

theorem get_id {task : AgentTask}
    (found : manager.get taskId = some task) : task.id = taskId := TaskTable.get_id found

theorem get_modifyTask (manager : TaskManager) (taskId other : TaskId)
    (change : AgentTask → AgentTask) (keeps : ∀ task, (change task).id = task.id) :
    (manager.modifyTask taskId change keeps).get other =
      if other = taskId then (manager.get taskId).map change else manager.get other :=
  TaskTable.get_modify manager.table taskId other change keeps

theorem not_active (inactive : ¬ manager.hasActiveAgentEventStream taskId = true) :
    manager.nativeEventStreams taskId = none := by
  simp only [hasActiveAgentEventStream, Bool.or_eq_true, not_or] at inactive
  simpa using inactive.1

theorem removeValidationSession_eq (manager : TaskManager) (session : Option SessionId) :
    manager.removeValidationSession session =
      { manager with
        tasksByValidationSession := erase manager.tasksByValidationSession session } := by
  cases session <;> rfl

variable {session : Option SessionId}

section

variable (own : ∀ held, session = some held → manager.tasksByValidationSession held = some taskId)

include own

theorem dropValidationSession_eq :
    manager.dropValidationSession session taskId = manager.removeValidationSession session := by
  cases session with
  | none => rfl
  | some held => exact if_pos (own held rfl)

theorem dropValidationSession_modify
    (change : AgentTask → AgentTask) (keeps : ∀ task, (change task).id = task.id) :
    (manager.modifyTask taskId change keeps).dropValidationSession session taskId =
      { manager.modifyTask taskId change keeps with
        tasksByValidationSession := erase manager.tasksByValidationSession session } := by
  have kept : ∀ held, session = some held →
      (manager.modifyTask taskId change keeps).tasksByValidationSession held = some taskId := own
  rw [dropValidationSession_eq kept, removeValidationSession_eq]
  rfl

end

end TaskManager

def terminalKey (manager : TaskManager) (taskId : TaskId) : Option SessionId :=
  (manager.get taskId).bind (·.terminalSessionId)

def validationKey (manager : TaskManager) (taskId : TaskId) : Option SessionId :=
  (manager.get taskId).bind (·.validation.terminalSessionId)

/-- One task moved; the maps of sessions follow the sessions that it names. -/
structure Moved (manager later : TaskManager) (before after : Local) : Prop where
  found : manager.get before.task.id = some before.task
  stream : manager.nativeEventStreams before.task.id = before.stream
  same : after.task.id = before.task.id
  get : ∀ taskId, later.get taskId =
    if taskId = before.task.id then some after.task else manager.get taskId
  streams : later.nativeEventStreams =
    Function.update manager.nativeEventStreams before.task.id after.stream
  remote : later.remoteNativeActive = manager.remoteNativeActive
  terminal : later.tasksByTerminalSession = rekey manager.tasksByTerminalSession before.task.id
    before.task.terminalSessionId after.task.terminalSessionId
  terminalFree : before.task.terminalSessionId = after.task.terminalSessionId ∨
    ∀ session, after.task.terminalSessionId = some session → manager.ownerOf session = none
  validation : later.tasksByValidationSession = rekey manager.tasksByValidationSession
    before.task.id before.task.validation.terminalSessionId after.task.validation.terminalSessionId
  validationFree :
    before.task.validation.terminalSessionId = after.task.validation.terminalSessionId ∨
      ∀ session, after.task.validation.terminalSessionId = some session →
        manager.ownerOf session = none
  /-- A task gets at most one new session. -/
  single : before.task.terminalSessionId = after.task.terminalSessionId ∨
    before.task.validation.terminalSessionId = after.task.validation.terminalSessionId ∨
    after.task.validation.terminalSessionId = none
  exited : ∀ session, later.exitedTerminalSessions session = true →
    manager.exitedTerminalSessions session = true ∧
        (before.task.terminalSessionId = after.task.terminalSessionId ∨
          before.task.terminalSessionId ≠ some session) ∨
      before.task.terminalSessionId = after.task.terminalSessionId ∧
        before.task.terminalSessionId = some session

section

variable [Libraries]

inductive Outcome (manager : TaskManager) : Operation → Bool × TaskManager → Prop
  | refused {operation} : Outcome manager operation (false, manager)
  | bound {taskId session now} (own : manager.tasksByTerminalSession session = some taskId) :
      Outcome manager (.bindTerminal taskId session now) (true, manager)
  | hidden {taskId now} : Outcome manager (.archive taskId now) (true, manager)
  | closed {session now} : Outcome manager (.terminalClosed session now) (true, manager)
  | exited {session exitCode now} : Outcome manager (.terminalExit session exitCode now)
      (true, manager)
  | noted {session exitCode now taskId}
      (bound : manager.tasksByTerminalSession session = some taskId) :
      Outcome manager (.terminalExit session exitCode now) (true, manager.noteExit session)
  | created {operation} (record : AgentTask)
      (creates : (∃ now task, operation = .create record.id now task) ∨
        ∃ now task brief, operation = .createWithBrief record.id now task brief)
      (fresh : manager.get record.id = none)
      (created : record.status = .created) (unbound : record.terminalSessionId = none)
      (unvalidated : record.validation = .initial) (visible : record.archivedFrom = none)
      (unassigned : record.runtimeKind = .unassigned) :
      Outcome manager operation (true, { manager with table := manager.table.push record })
  | moved {operation later} {before after : Local} (moved : Moved manager later before after)
      (step : TaskStep operation before after) : Outcome manager operation (true, later)

variable {task : AgentTask} {manager later : TaskManager}

omit [Libraries] in
theorem Moved.of_modify
    (change : AgentTask → AgentTask) (keeps : ∀ task, (change task).id = task.id)
    (stream : Option NativeEventStreamState) (found : manager.get task.id = some task)
    (table : later.table = manager.table.modify task.id change keeps)
    (streams : later.nativeEventStreams =
      Function.update manager.nativeEventStreams task.id stream)
    (remote : later.remoteNativeActive = manager.remoteNativeActive)
    (terminal : later.tasksByTerminalSession = manager.tasksByTerminalSession)
    (terminalSame : (change task).terminalSessionId = task.terminalSessionId)
    (exited : ∀ session, later.exitedTerminalSessions session = true →
      manager.exitedTerminalSessions session = true ∨ task.terminalSessionId = some session)
    (validation : later.tasksByValidationSession = rekey manager.tasksByValidationSession task.id
      task.validation.terminalSessionId (change task).validation.terminalSessionId)
    (validationFree : task.validation.terminalSessionId =
        (change task).validation.terminalSessionId ∨
      ∀ session, (change task).validation.terminalSessionId = some session →
        manager.ownerOf session = none) :
    Moved manager later ⟨task, manager.nativeEventStreams task.id⟩ ⟨change task, stream⟩ where
  found := found
  stream := rfl
  same := keeps task
  get taskId := by
    have read := TaskTable.get_modify manager.table task.id taskId change keeps
    rw [← table] at read
    refine read.trans ?_
    rw [show manager.table.get task.id = some task from found]
    rfl
  streams := streams
  remote := remote
  terminal := by rw [terminal, terminalSame, rekey_self]
  terminalFree := Or.inl terminalSame.symm
  validation := validation
  validationFree := validationFree
  single := Or.inl terminalSame.symm
  exited session noted := by
    rcases exited session noted with before | named
    · exact Or.inl ⟨before, Or.inl terminalSame.symm⟩
    · exact Or.inr ⟨terminalSame.symm, named⟩

omit [Libraries] in
theorem Moved.of_keep (change : AgentTask → AgentTask) (keeps : ∀ task, (change task).id = task.id)
    (stream : Option NativeEventStreamState) (found : manager.get task.id = some task)
    (terminalSame : (change task).terminalSessionId = task.terminalSessionId)
    (validationSame : (change task).validation.terminalSessionId =
      task.validation.terminalSessionId)
    (moved : later = (manager.modifyTask task.id change keeps).setStream task.id stream) :
    Moved manager later ⟨task, manager.nativeEventStreams task.id⟩ ⟨change task, stream⟩ := by
  subst moved
  refine Moved.of_modify change keeps stream found rfl rfl rfl rfl terminalSame
    (fun _ noted => Or.inl noted) ?_ (Or.inl validationSame.symm)
  rw [validationSame, rekey_self]
  rfl

variable {stream : Option NativeEventStreamState}

omit [Libraries] in
theorem moved_stream {manager : TaskManager} (found : manager.get task.id = some task)
    (installed : manager.nativeEventStreams task.id = stream)
    (next : Option NativeEventStreamState) :
    Moved manager (manager.setStream task.id next) ⟨task, stream⟩ ⟨task, next⟩ where
  found := found
  stream := installed
  same := rfl
  get taskId := by
    by_cases same : taskId = task.id
    · rw [if_pos same, same]
      exact found
    · rw [if_neg same]
      rfl
  streams := rfl
  remote := rfl
  terminal := (rekey_self _ _).symm
  terminalFree := Or.inl rfl
  validation := (rekey_self _ _).symm
  validationFree := Or.inl rfl
  single := Or.inl rfl
  exited _ noted := Or.inl ⟨noted, Or.inl rfl⟩

omit [Libraries] in
theorem setStream_self (manager : TaskManager) (taskId : TaskId) :
    manager.setStream taskId (manager.nativeEventStreams taskId) = manager := by
  rw [TaskManager.setStream, Function.update_eq_self]

omit [Libraries] in
@[simp]
theorem stale_session (validation : TaskValidationState) (detail : String) :
    (validation.stale detail).terminalSessionId = none := by
  unfold TaskValidationState.stale
  split
  · rfl
  · rename_i unchanged
    rw [not_not.mp unchanged]
    rfl

section

variable {manager : TaskManager} {taskId : TaskId} {task : AgentTask}

omit [Libraries] in
theorem verified {expected : AgentEventStream} {active : NativeEventStreamState}
    (verifies : manager.verifyAgentEventStream expected = .ok active) :
    manager.nativeEventStreams expected.taskId = some active ∧
      active.stream.epoch = expected.epoch ∧ active.stream.sessionId = expected.sessionId := by
  simp only [TaskManager.verifyAgentEventStream, bind_eq_ok, okOr_eq_ok, reject_eq_ok,
    pure_eq_ok, not_not] at verifies
  obtain ⟨active', installed, -, epoch, -, session, rfl⟩ := verifies
  exact ⟨installed, epoch, session⟩

omit [Libraries] in
theorem installable (checked : manager.checkInstall taskId = .ok task) :
    manager.get taskId = some task ∧ task.terminalSessionId = none ∧
      task.runtimeKind.isTerminal = false ∧ task.validation.status ≠ .running := by
  simp only [TaskManager.checkInstall, bind_eq_ok, okOr_eq_ok, reject_eq_ok, pure_eq_ok,
    not_or, Bool.not_eq_true, Option.isSome_eq_false_iff, Option.isNone_iff_eq_none] at checked
  obtain ⟨task', found, -, -, -, ⟨unbound, nonterminal⟩, -, idle, rfl⟩ := checked
  exact ⟨found, unbound, nonterminal, idle⟩

end

section

variable {manager : TaskManager} {taskId : TaskId}

omit [Libraries] in
theorem install_outcome (sessionId : NativeAgentSessionId)
    (epoch : Option AgentEventEpoch) (now : Nat)
    (inactive : manager.nativeEventStreams taskId = none) :
    outcome (installAgentEventStream taskId sessionId epoch now) manager = (false, manager) ∨
      ∃ task allocated later, epoch = some allocated ∧ manager.checkInstall taskId = .ok task ∧
        task.id = taskId ∧
        outcome (installAgentEventStream taskId sessionId epoch now) manager = (true, later) ∧
        Moved manager later ⟨task, none⟩
          ⟨task.installed now, some (installedStream task sessionId allocated)⟩ := by
  unfold installAgentEventStream
  simp only [outcome_borrow]
  cases checked : manager.checkInstall taskId with
  | error error => exact Or.inl rfl
  | ok task =>
    cases epoch with
    | none => exact Or.inl rfl
    | some allocated =>
      obtain ⟨found, -⟩ := installable checked
      have same := TaskManager.get_id found
      subst same
      have kept : (manager.removeValidationSession task.validation.terminalSessionId).get
          task.id = some task := by
        rw [TaskManager.removeValidationSession_eq]
        exact found
      simp only [okOr, outcome_modify, outcome_taskMut, kept, outcome_pure]
      refine Or.inr ⟨task, allocated, _, rfl, rfl, rfl, rfl, ?_⟩
      rw [← inactive, TaskManager.removeValidationSession_eq]
      refine Moved.of_modify (·.installed now) (installed_id now) _ found rfl rfl rfl rfl
        rfl (fun _ noted => Or.inl noted) ?_ (Or.inr ?_)
      · simp [AgentTask.installed, rekey_none, TaskManager.modifyTask, TaskManager.setStream]
      · simp [AgentTask.installed]

theorem start_outcome (taskId : TaskId) (sessionId : NativeAgentSessionId)
    (epoch : Option AgentEventEpoch) (now : Nat) :
    Outcome manager (.start taskId sessionId epoch now)
      (outcome (startAgentEventStream taskId sessionId epoch now) manager) := by
  unfold startAgentEventStream
  simp only [outcome_borrow]
  cases checked : manager.checkStart taskId with
  | error error => exact .refused
  | ok value =>
    simp only [TaskManager.checkStart, bind_eq_ok, okOr_eq_ok, reject_eq_ok, not_not] at checked
    obtain ⟨-, inactive, task, found, -, -, -, -, -, -, created⟩ := checked
    have unstreamed := TaskManager.not_active inactive
    rcases install_outcome sessionId epoch now unstreamed with
      refused | ⟨task', allocated, later, rfl, installs, rfl, ran, moved⟩
    · rw [refused]
      exact .refused
    · obtain ⟨found', unbound, nonterminal, idle⟩ := installable installs
      have sameTask := Option.some.inj (found'.symm.trans found)
      rw [← sameTask] at created
      rw [ran]
      exact .moved moved (.started created unbound nonterminal idle)

theorem resume_outcome (taskId : TaskId) (sessionId : NativeAgentSessionId)
    (epoch : Option AgentEventEpoch) (now : Nat) :
    Outcome manager (.resume taskId sessionId epoch now)
      (outcome (resumeAgentEventStreamAfterStop taskId sessionId epoch now) manager) := by
  unfold resumeAgentEventStreamAfterStop
  simp only [outcome_borrow]
  cases checked : manager.checkResume taskId with
  | error error => exact .refused
  | ok value =>
    simp only [TaskManager.checkResume, bind_eq_ok, okOr_eq_ok, reject_eq_ok, not_or,
      not_not] at checked
    obtain ⟨-, inactive, task, found, reviewing, native⟩ := checked
    have unstreamed := TaskManager.not_active inactive
    rcases install_outcome sessionId epoch now unstreamed with
      refused | ⟨task', allocated, later, rfl, installs, rfl, ran, moved⟩
    · rw [refused]
      exact .refused
    · obtain ⟨found', unbound, nonterminal, idle⟩ := installable installs
      have sameTask := Option.some.inj (found'.symm.trans found)
      rw [← sameTask] at reviewing native
      rw [ran]
      exact .moved moved (.resumed reviewing native unbound idle)

theorem finish_outcome (expected : AgentEventStream) (ending : AgentSessionOutcome)
    (detail : Option String) (now : Nat) : Outcome manager (.finish expected ending detail now)
      (outcome (finishAgentEventStreamAfterStop expected ending detail now) manager) := by
  unfold finishAgentEventStreamAfterStop
  simp only [outcome_borrow]
  cases checked : manager.checkFinish expected ending with
  | error error => exact .refused
  | ok value =>
    obtain ⟨current, next⟩ := value
    simp only [TaskManager.checkFinish, bind_eq_ok, okOr_eq_ok, reject_eq_ok, pure_eq_ok,
      Bool.not_eq_true, Prod.exists] at checked
    obtain ⟨active, verifies, task, found, -, live, moves, updates, moving, same⟩ := checked
    obtain ⟨installed, epoch, session⟩ := verified verifies
    obtain ⟨rfl, rfl⟩ := Prod.mk.inj same
    simp only [outcome_taskMut, found, outcome_modify, outcome_pure]
    have identity := TaskManager.get_id found
    rw [← identity] at found installed
    rw [← identity]
    have moved := Moved.of_keep (·.advanced
      (if active.reviewPointReached && ending ≠ .clean then .readyForReview else moves)
      (boundedEventDetail detail) now) (advanced_id _ _ now) none found rfl rfl rfl
    rw [installed] at moved
    exact .moved moved (.finished ⟨identity.symm, epoch, session⟩ live moving rfl)

theorem rollback_outcome (expected : AgentEventStream) (detail : String) (now : Nat) :
    Outcome manager (.rollback expected detail now)
      (outcome (rollbackAgentEventStreamBeforeSpawn expected detail now) manager) := by
  unfold rollbackAgentEventStreamBeforeSpawn
  simp only [outcome_borrow]
  cases checked : manager.checkRollback expected with
  | error error => exact .refused
  | ok value =>
    simp only [TaskManager.checkRollback, bind_eq_ok, okOr_eq_ok, reject_eq_ok, not_or,
      not_not] at checked
    obtain ⟨active, verifies, task, found, starting, native⟩ := checked
    obtain ⟨installed, epoch, session⟩ := verified verifies
    simp only [outcome_taskMut, found, outcome_modify_last]
    have identity := TaskManager.get_id found
    rw [← identity] at found installed
    rw [← identity]
    have moved := Moved.of_keep (·.rolledBack detail now) (rolledBack_id detail now) none found
      rfl rfl rfl
    rw [installed] at moved
    exact .moved moved (.rolledBack ⟨identity.symm, epoch, session⟩ starting native)

omit [Libraries] in
theorem statusAfterEvent_quiet {current next : TaskStatus} {kind : AgentEventKind}
    (moves : statusAfterEvent current kind = some (next, false)) :
    kind.isProgress = true ∧ next = current := by
  unfold statusAfterEvent at moves
  split at moves <;> first | cases moves | (split at moves <;> cases moves)
  rename_i progress
  simp only [Bool.and_eq_true] at progress
  exact ⟨progress.1.1, rfl⟩

omit [Libraries] in
theorem invalidatedSession_eq (found : manager.get taskId = some task) (kind : AgentEventKind) :
    manager.invalidatedSession taskId kind =
      if kind.isTurnStarted then task.validation.terminalSessionId else none := by
  unfold TaskManager.invalidatedSession
  split
  · rw [found, Option.filter_some]
    by_cases initial : task.validation = .initial
    · simp [initial, TaskValidationState.initial]
    · simp [initial]
  · rfl

omit [Libraries] in
theorem applicable {event : AgentEvent} {next : TaskStatus} {updates : Bool}
    (checked : manager.checkAgentEvent event = .ok (next, updates)) :
    ∃ task active moved, manager.get event.stream.taskId = some task ∧
      manager.verifyAgentEventStream event.stream = .ok active ∧
      task.status.isTerminal = false ∧ active.nextSequence = event.sequence ∧
      checkTurn event.stream.taskId active.activeTurn event.kind = .ok () ∧
      statusAfterEvent task.status event.kind = some (moved, updates) ∧
      next = if active.reviewPointReached && event.kind.isBadEnding then .readyForReview
        else moved := by
  simp only [TaskManager.checkAgentEvent, bind_eq_ok, okOr_eq_ok, reject_eq_ok, pure_eq_ok,
    Bool.not_eq_true, not_not, Prod.exists, Prod.mk.injEq] at checked
  obtain ⟨task, found, -, live, active, verifies, -, inOrder, -, -, -, -, -, -, ⟨⟩, inTurn,
    moved, updates', moves, -, -, rfl, rfl⟩ := checked
  exact ⟨task, active, moved, found, verifies, live, inOrder, inTurn, moves, rfl⟩

omit [Libraries] in
theorem outcome_stream {α : Type} (ends : Bool)
    (active : NativeEventStreamState) (change : NativeEventStreamState → NativeEventStreamState)
    (value : α) (installed : manager.nativeEventStreams taskId = some active) :
    outcome (if ends = true then do
          modify (·.setStream taskId none)
          pure value
        else do
          modify fun manager =>
            manager.setStream taskId ((manager.nativeEventStreams taskId).map change)
          pure value : Manage AgentEventError α) manager =
      (true, manager.setStream taskId (if ends then none else some (change active))) := by
  cases ends with
  | true => rfl
  | false =>
    refine congrArg (fun stream => (true, manager.setStream taskId stream)) ?_
    rw [installed]
    rfl

theorem applyEvent_outcome
    (validates : Indexes manager.tasksByValidationSession (validationKey manager))
    (event : AgentEvent) (now : Nat) :
    Outcome manager (.applyEvent event now) (outcome (applyAgentEvent event now) manager) := by
  unfold applyAgentEvent
  simp only [outcome_borrow]
  cases checked : manager.checkAgentEvent event with
  | error error => exact .refused
  | ok value =>
    obtain ⟨next, updates⟩ := value
    obtain ⟨task, active, moved, found, verifies, live, inOrder, inTurn, moves, nextEq⟩ :=
      applicable checked
    obtain ⟨installed, epoch, session⟩ := verified verifies
    have identity := TaskManager.get_id found
    rw [← identity] at found installed inTurn
    have names : Names event.stream task active := ⟨identity.symm, epoch, session⟩
    have own : ∀ held, (if event.kind.isTurnStarted then task.validation.terminalSessionId
        else none) = some held → manager.tasksByValidationSession held = some task.id := by
      intro held same
      split at same
      · refine (validates held task.id).mpr ?_
        rw [validationKey, found]
        exact same
      · cases same
    simp only [← identity, invalidatedSession_eq found]
    have erased : rekey manager.tasksByValidationSession task.id task.validation.terminalSessionId
        (task.notified event next now).validation.terminalSessionId =
        erase manager.tasksByValidationSession
          (if event.kind.isTurnStarted then task.validation.terminalSessionId else none) := by
      unfold AgentTask.notified
      dsimp only
      split
      · rw [stale_session, rekey_none]
      · rw [rekey_self]
        rfl
    have free : task.validation.terminalSessionId =
          (task.notified event next now).validation.terminalSessionId ∨
        ∀ session, (task.notified event next now).validation.terminalSessionId = some session →
          manager.ownerOf session = none := by
      unfold AgentTask.notified
      dsimp only
      split
      · exact Or.inr (by simp)
      · exact Or.inl rfl
    cases updates with
    | true =>
      have step : TaskStep (.applyEvent event now) ⟨task, some active⟩
          ⟨task.notified event next now, _⟩ := .applied names live inOrder inTurn moves nextEq
      simp only [if_true, outcome_taskMut, found, outcome_modify]
      rw [TaskManager.dropValidationSession_modify own, outcome_stream _ active]
      · refine .moved ?_ step
        rw [← installed]
        exact Moved.of_modify (·.notified event next now) (notified_id event next now) _ found
          rfl rfl rfl rfl rfl (fun _ noted => Or.inl noted) erased.symm free
      · exact installed
    | false =>
      have quiet : event.kind.isTurnStarted = false := by
        obtain ⟨progress, -⟩ := statusAfterEvent_quiet moves
        cases kind : event.kind <;>
          first | rfl | simp [kind, AgentEventKind.isProgress] at progress
      have step : TaskStep (.applyEvent event now) ⟨task, some active⟩ ⟨task, _⟩ :=
        .applied names live inOrder inTurn moves nextEq
      simp only [Bool.false_eq_true, if_false, outcome_modify, quiet]
      rw [TaskManager.dropValidationSession, outcome_stream _ active _ _ installed]
      refine .moved ?_ step
      exact moved_stream found installed _

variable {session : SessionId}

omit [Libraries] in
theorem ownerOf_eq_none :
    manager.ownerOf session = none ↔ manager.tasksByValidationSession session = none ∧
        manager.tasksByTerminalSession session = none := by
  rw [TaskManager.ownerOf, Option.or_eq_none_iff]

omit [Libraries] in
theorem checkUnbound_ok {value : Unit}
    (checked : manager.checkUnbound session = .ok value) : manager.ownerOf session = none := by
  unfold TaskManager.checkUnbound at checked
  split at checked
  · cases checked
  · assumption

omit [Libraries] in
theorem Moved.of_bind {later : TaskManager}
    (change : AgentTask → AgentTask) (keeps : ∀ task, (change task).id = task.id)
    (found : manager.get task.id = some task)
    (installed : manager.nativeEventStreams task.id = stream)
    (unowned : manager.ownerOf session = none) (different : task.terminalSessionId ≠ some session)
    (binds : (change task).terminalSessionId = some session)
    (table : later.table = manager.table.modify task.id change keeps)
    (streams : later.nativeEventStreams = manager.nativeEventStreams)
    (remote : later.remoteNativeActive = manager.remoteNativeActive)
    (terminal : later.tasksByTerminalSession = Function.update
      (erase manager.tasksByTerminalSession task.terminalSessionId) session (some task.id))
    (exited : ∀ other, later.exitedTerminalSessions other = true →
      manager.exitedTerminalSessions other = true ∧ task.terminalSessionId ≠ some other)
    (validation : later.tasksByValidationSession = rekey manager.tasksByValidationSession task.id
      task.validation.terminalSessionId (change task).validation.terminalSessionId)
    (validationFree : task.validation.terminalSessionId =
        (change task).validation.terminalSessionId ∨
      (change task).validation.terminalSessionId = none) :
    Moved manager later ⟨task, stream⟩ ⟨change task, stream⟩ where
  found := found
  stream := installed
  same := keeps task
  get taskId := by
    have read := TaskTable.get_modify manager.table task.id taskId change keeps
    rw [← table] at read
    refine read.trans ?_
    rw [show manager.table.get task.id = some task from found]
    rfl
  streams := by rw [streams, ← installed, Function.update_eq_self]
  remote := remote
  terminal := by rw [terminal, binds, rekey_some _ different]
  terminalFree := Or.inr fun other same => by
    rw [binds] at same
    rwa [← Option.some.inj same]
  validation := validation
  validationFree := validationFree.imp_right fun none_ other same => by
    rw [none_] at same
    cases same
  single := Or.inr validationFree
  exited other noted := Or.inl ⟨(exited other noted).1, Or.inr (exited other noted).2⟩

theorem bindTerminal_outcome (taskId : TaskId) (sessionId : SessionId) (now : Nat) :
    Outcome manager (.bindTerminal taskId sessionId now)
      (outcome (bindTerminalSession taskId sessionId now) manager) := by
  unfold bindTerminalSession
  simp only [outcome_borrow]
  cases checked : manager.checkBindTerminal taskId sessionId with
  | error error => exact .refused
  | ok already =>
    simp only [TaskManager.checkBindTerminal, bind_eq_ok, reject_eq_ok] at checked
    obtain ⟨-, -, checked⟩ := checked
    cases unvalidated : manager.tasksByValidationSession sessionId with
    | some existing => simp [unvalidated] at checked
    | none =>
      cases bound : manager.tasksByTerminalSession sessionId with
      | some existing =>
        simp only [unvalidated, bound] at checked
        split at checked
        · rename_i own
          cases checked
          rw [own] at bound
          exact .bound bound
        · cases checked
      | none =>
        simp only [unvalidated, bound, bind_eq_ok, okOr_eq_ok, reject_eq_ok] at checked
        obtain ⟨task, found, -, foreign, -, early, rest⟩ := checked
        cases unbound : task.terminalSessionId with
        | some existing => simp [unbound] at rest
        | none =>
          simp only [unbound, pure_eq_ok] at rest
          have identity := TaskManager.get_id found
          subst identity
          subst rest
          simp only [Bool.false_eq_true, if_false, outcome_taskMut, found, outcome_modify_last]
          have early' : task.status = .created ∨ task.status = .starting := by
            by_contra late
            exact early (not_or.mp late)
          have unowned := ownerOf_eq_none.mpr ⟨unvalidated, bound⟩
          exact .moved (Moved.of_bind (·.boundTo sessionId now) (boundTo_id sessionId now)
            found rfl unowned (by simp [unbound]) rfl rfl rfl rfl (by rw [unbound]; rfl)
            (fun other noted => ⟨noted, by simp [unbound]⟩) (rekey_self _ _).symm
            (Or.inl rfl)) (.boundTerminal foreign early' unbound)

section

variable (validates : Indexes manager.tasksByValidationSession (validationKey manager))

include validates

theorem bindRetry_outcome (terminals : Indexes manager.tasksByTerminalSession (terminalKey manager))
    (taskId : TaskId) (expectedOld newSession : SessionId) (now : Nat) :
    Outcome manager (.bindRetry taskId expectedOld newSession now)
      (outcome (bindTerminalRetrySession taskId expectedOld newSession now) manager) := by
  unfold bindTerminalRetrySession
  simp only [outcome_borrow]
  cases checked : manager.checkRetry taskId expectedOld newSession with
  | error error => exact .refused
  | ok invalidated =>
    simp only [TaskManager.checkRetry, TaskManager.terminalRetrySessionId, bind_eq_ok,
      okOr_eq_ok, reject_eq_ok, pure_eq_ok, not_or, not_not, Bool.not_eq_true] at checked
    obtain ⟨-, -, ⟨⟩, unowned, old, ⟨-, inactive, task, found, -, ⟨failed, terminal, idle⟩,
      old', named, -, ⟨filed, -⟩, rfl⟩, -, rfl, rfl⟩ := checked
    have unowned := checkUnbound_ok unowned
    have unstreamed := TaskManager.not_active (ne_true_of_eq_false inactive)
    have identity := TaskManager.get_id found
    subst identity
    have own : ∀ held, task.validation.terminalSessionId = some held →
        manager.tasksByValidationSession held = some task.id := by
      intro held same
      refine (validates held task.id).mpr ?_
      rw [validationKey, found]
      exact same
    have different : task.terminalSessionId ≠ some newSession := by
      intro same
      have filed' := (terminals newSession task.id).mpr (by rw [terminalKey, found]; exact same)
      rw [(ownerOf_eq_none.mp unowned).2] at filed'
      cases filed'
    simp only [found, Option.bind_some, outcome_taskMut, outcome_modify]
    rw [TaskManager.dropValidationSession_modify own, outcome_modify_last]
    have rekeyed : rekey manager.tasksByValidationSession task.id
        task.validation.terminalSessionId
        (task.retried newSession now).validation.terminalSessionId =
        erase manager.tasksByValidationSession task.validation.terminalSessionId := by
      rw [AgentTask.retried, stale_session, rekey_none]
    refine .moved (Moved.of_bind (·.retried newSession now) (retried_id newSession now) found
      unstreamed unowned different rfl rfl rfl rfl (by rw [named]; rfl) (fun other noted => ?_)
      rekeyed.symm (Or.inr (stale_session _ _)))
      (.retried failed (by simpa using terminal) idle named)
    have noted' : Function.update manager.exitedTerminalSessions old' false other = true := noted
    by_cases same : other = old'
    · rw [same, Function.update_self] at noted'
      cases noted'
    · rw [Function.update_of_ne same] at noted'
      exact ⟨noted', by simp [named, Ne.symm same]⟩

theorem bindFallback_outcome (taskId : TaskId) (sessionId : SessionId) (now : Nat) :
    Outcome manager (.bindFallback taskId sessionId now)
      (outcome (bindNativeTerminalFallbackSession taskId sessionId now) manager) := by
  unfold bindNativeTerminalFallbackSession
  simp only [outcome_borrow]
  generalize read : (do
    reject (!isValidJshSessionId sessionId) TaskError.invalidTerminalSessionId
    manager.checkUnbound sessionId
    manager.nativeTerminalFallbackEligible taskId) = checked
  cases checked with
  | error error => exact .refused
  | ok task =>
    simp only [TaskManager.nativeTerminalFallbackEligible, bind_eq_ok, okOr_eq_ok, reject_eq_ok,
      pure_eq_ok, not_or, not_not, not_and, Bool.not_eq_true, Option.isSome_eq_false_iff,
      Option.isNone_iff_eq_none] at read
    obtain ⟨-, -, ⟨⟩, unowned, -, inactive, task', found, -, ⟨stopped, native, unbound, idle⟩,
      rfl⟩ := read
    have unowned := checkUnbound_ok unowned
    have unstreamed := TaskManager.not_active (ne_true_of_eq_false inactive)
    have identity := TaskManager.get_id found
    subst identity
    have own : ∀ held, task'.validation.terminalSessionId = some held →
        manager.tasksByValidationSession held = some task'.id := by
      intro held same
      refine (validates held task'.id).mpr ?_
      rw [validationKey, found]
      exact same
    have stopped' : task'.status = .failed ∨ task'.status = .readyForReview := by
      by_contra running
      obtain ⟨notFailed, notReview⟩ := not_or.mp running
      exact notReview (stopped notFailed)
    have rekeyed : rekey manager.tasksByValidationSession task'.id
        task'.validation.terminalSessionId
        (task'.fellBack sessionId now).validation.terminalSessionId =
        erase manager.tasksByValidationSession task'.validation.terminalSessionId := by
      rw [AgentTask.fellBack, stale_session, rekey_none]
    simp only [found, outcome_taskMut, outcome_modify]
    rw [TaskManager.dropValidationSession_modify own, outcome_modify_last]
    exact .moved (Moved.of_bind (·.fellBack sessionId now) (fellBack_id sessionId now) found
      unstreamed unowned (by simp [unbound]) rfl rfl rfl rfl (by rw [unbound]; rfl)
      (fun other noted => ⟨noted, by simp [unbound]⟩) rekeyed.symm
      (Or.inr (stale_session _ _))) (.fellBack stopped' native unbound idle)

theorem bindValidation_outcome (taskId : TaskId) (sessionId : SessionId) (now : Nat) :
    Outcome manager (.bindValidation taskId sessionId now)
      (outcome (bindValidationSession taskId sessionId now) manager) := by
  unfold bindValidationSession
  simp only [outcome_borrow]
  cases checked : manager.checkBindValidation taskId sessionId with
  | error error => exact .refused
  | ok value =>
    obtain ⟨old, attempt⟩ := value
    simp only [TaskManager.checkBindValidation, TaskManager.nextValidationAttempt, bind_eq_ok,
      okOr_eq_ok, reject_eq_ok, pure_eq_ok, not_not, Bool.not_eq_true, Prod.exists] at checked
    obtain ⟨-, -, task, next, ⟨-, inactive, task', found, -, reviewing, -, idle, -, -, same⟩,
      rest⟩ := checked
    obtain ⟨rfl, rfl⟩ := Prod.mk.inj same
    cases unbound : manager.tasksByTerminalSession sessionId with
    | some existing => simp [unbound] at rest
    | none =>
      cases unvalidated : manager.tasksByValidationSession sessionId with
      | some existing => simp [unbound, unvalidated] at rest
      | none =>
        simp only [unbound, unvalidated, pure_eq_ok, Prod.mk.injEq] at rest
        obtain ⟨rfl, rfl⟩ := rest
        have unstreamed := TaskManager.not_active (ne_true_of_eq_false inactive)
        have identity := TaskManager.get_id found
        subst identity
        have different : task'.validation.terminalSessionId ≠ some sessionId := by
          intro same
          have filed := (validates sessionId task'.id).mpr (by
            rw [validationKey, found]
            exact same)
          rw [unvalidated] at filed
          cases filed
        have kept : (manager.removeValidationSession
            task'.validation.terminalSessionId).get task'.id = some task' := by
          rw [TaskManager.removeValidationSession_eq]
          exact found
        simp only [outcome_modify, outcome_taskMut, kept, outcome_modify_last]
        rw [TaskManager.removeValidationSession_eq]
        have step : TaskStep (.bindValidation task'.id sessionId now) ⟨task', none⟩
          ⟨task'.validating sessionId (task'.validation.attempt + 1) now, none⟩ :=
          .boundValidation reviewing idle
        refine .moved ?_ step
        rw [← unstreamed]
        refine Moved.of_modify (·.validating sessionId (task'.validation.attempt + 1) now)
          (validating_id _ _ now) _ found rfl ?_ rfl rfl rfl
          (fun _ noted => Or.inl noted) ?_ (Or.inr ?_)
        · exact (Function.update_eq_self _ _).symm
        · exact (rekey_some _ different).symm
        · intro session same
          rw [← Option.some.inj same]
          exact ownerOf_eq_none.mpr ⟨unvalidated, unbound⟩

end

theorem updateStatus_outcome (taskId : TaskId) (status : TaskStatus) (detail : Option String)
    (now : Nat) : Outcome manager (.updateStatus taskId status detail now)
      (outcome (updateStatus taskId status detail now) manager) := by
  unfold updateStatus
  simp only [outcome_borrow]
  cases checked : manager.checkUpdateStatus taskId status with
  | error error => exact .refused
  | ok task =>
    simp only [TaskManager.checkUpdateStatus, bind_eq_ok, okOr_eq_ok, reject_eq_ok, pure_eq_ok,
      not_and, not_not, Bool.not_eq_true] at checked
    obtain ⟨-, inactive, -, incomplete, task', found, -, leaves, -, validating, -, consumed,
      rfl⟩ := checked
    have unstreamed := TaskManager.not_active (ne_true_of_eq_false inactive)
    have identity := TaskManager.get_id found
    subst identity
    have step : TaskStep (.updateStatus task'.id status detail now) ⟨task', none⟩
        ⟨task'.withStatus status detail now, none⟩ :=
      .statusSet incomplete leaves validating consumed
    have erased : rekey manager.tasksByValidationSession task'.id
        task'.validation.terminalSessionId
        (task'.withStatus status detail now).validation.terminalSessionId =
        erase manager.tasksByValidationSession
          (if task'.resumedBy status then task'.validation.terminalSessionId else none) := by
      unfold AgentTask.withStatus
      dsimp only
      split
      · exact rekey_none _ _
      · rw [rekey_self]
        rfl
    have free : task'.validation.terminalSessionId =
          (task'.withStatus status detail now).validation.terminalSessionId ∨
        ∀ session, (task'.withStatus status detail now).validation.terminalSessionId =
          some session → manager.ownerOf session = none := by
      unfold AgentTask.withStatus
      dsimp only
      split
      · exact Or.inr (by simp [TaskValidationState.initial])
      · exact Or.inl rfl
    -- What is left after the validation session was dropped or kept.
    have moves (later : TaskManager) (table : later.table = manager.table.modify task'.id
          (·.withStatus status detail now) (withStatus_id status detail now))
        (streams : later.nativeEventStreams =
          Function.update manager.nativeEventStreams task'.id none)
        (remote : later.remoteNativeActive = manager.remoteNativeActive)
        (terminal : later.tasksByTerminalSession = manager.tasksByTerminalSession)
        (exited : later.exitedTerminalSessions = manager.exitedTerminalSessions)
        (validation : later.tasksByValidationSession = erase manager.tasksByValidationSession
          (if task'.resumedBy status then task'.validation.terminalSessionId else none)) :
        Outcome manager (.updateStatus task'.id status detail now) (true, later) := by
      refine .moved ?_ step
      rw [← unstreamed] at streams ⊢
      exact Moved.of_modify (·.withStatus status detail now) (withStatus_id status detail now) _
        found table streams remote terminal rfl
        (fun _ noted => Or.inl (by rwa [exited] at noted)) (validation.trans erased.symm) free
    have kept : (manager.removeValidationSession task'.validation.terminalSessionId).get
        task'.id = some task' := by
      rw [TaskManager.removeValidationSession_eq]
      exact found
    have streamed : Function.update manager.nativeEventStreams task'.id none =
        manager.nativeEventStreams := by rw [← unstreamed, Function.update_eq_self]
    dsimp only
    split
    · rename_i resumed
      simp only [outcome_modify, outcome_taskMut, kept]
      rw [TaskManager.removeValidationSession_eq]
      split
      · exact moves _ rfl rfl rfl rfl rfl (by rw [resumed]; rfl)
      · exact moves _ rfl streamed.symm rfl rfl rfl (by rw [resumed]; rfl)
    · rename_i unresumed
      simp only [outcome_taskMut, found]
      split
      · exact moves _ rfl rfl rfl rfl rfl (by rw [if_neg unresumed]; rfl)
      · exact moves _ rfl streamed.symm rfl rfl rfl (by rw [if_neg unresumed]; rfl)

omit [Libraries] in
theorem moved_task (change : AgentTask → AgentTask)
    (keeps : ∀ task, (change task).id = task.id) (found : manager.get task.id = some task)
    (terminalSame : (change task).terminalSessionId = task.terminalSessionId)
    (validationSame : (change task).validation.terminalSessionId =
      task.validation.terminalSessionId) : Moved manager (manager.modifyTask task.id change keeps)
      ⟨task, manager.nativeEventStreams task.id⟩
      ⟨change task, manager.nativeEventStreams task.id⟩ := by
  refine Moved.of_keep change keeps _ found terminalSame validationSame ?_
  exact (setStream_self (manager.modifyTask task.id change keeps) task.id).symm

omit [Libraries] in
theorem filed_task {index : SessionId → Option TaskId} {key : AgentTask → Option SessionId}
    {sessionId : SessionId} (indexes : Indexes index fun taskId => (manager.get taskId).bind key)
    (filed : index sessionId = some taskId) :
    ∃ task, manager.get task.id = some task ∧ key task = some sessionId ∧ taskId = task.id := by
  have named := (indexes sessionId taskId).mp filed
  obtain ⟨task, found, bound⟩ := Option.bind_eq_some_iff.mp named
  have identity := TaskManager.get_id found
  subst identity
  exact ⟨task, found, bound, rfl⟩

section

variable (validates : Indexes manager.tasksByValidationSession (validationKey manager))

include validates

section

variable (terminals : Indexes manager.tasksByTerminalSession (terminalKey manager))

include terminals

theorem terminalExit_outcome (sessionId : SessionId) (exitCode : Option Int) (now : Nat) :
    Outcome manager (.terminalExit sessionId exitCode now)
      (outcome (handleTerminalSessionExit sessionId exitCode now) manager) := by
  unfold handleTerminalSessionExit
  simp only [outcome_borrow]
  cases validating : manager.tasksByValidationSession sessionId with
  | some taskId =>
    obtain ⟨task, found, bound, rfl⟩ := filed_task validates validating
    simp only [outcome_borrow, found, okOr]
    split
    · exact .exited
    · rename_i running
      simp only [outcome_taskMut, found, outcome_pure]
      exact .moved (moved_task (·.validationExited exitCode now)
        (validationExited_id exitCode now) found rfl rfl)
        (.validationExited bound (not_not.mp running))
  | none =>
    simp only [outcome_borrow]
    cases filed : manager.tasksByTerminalSession sessionId with
    | none => exact .refused
    | some taskId =>
      obtain ⟨task, found, bound, rfl⟩ := filed_task terminals filed
      have kept : (manager.noteExit sessionId).get task.id = some task := found
      simp only [okOr, outcome_modify, outcome_borrow, kept]
      split
      · exact .noted filed
      · rename_i unsettled
        simp only [outcome_taskMut, kept, outcome_pure]
        refine .moved (Moved.of_modify (·.agentExited exitCode now)
          (agentExited_id exitCode now) (manager.nativeEventStreams task.id) found rfl
          (Function.update_eq_self _ _).symm rfl rfl rfl (fun other noted => ?_)
          (rekey_self _ _).symm (Or.inl rfl)) (.agentExited bound (by simpa using unsettled))
        have noted' : Function.update manager.exitedTerminalSessions sessionId true other =
          true := noted
        by_cases same : other = sessionId
        · exact Or.inr (by rw [same, bound])
        · rw [Function.update_of_ne same] at noted'
          exact Or.inl noted'

theorem terminalClosed_outcome
    (sessionId : SessionId) (now : Nat) : Outcome manager (.terminalClosed sessionId now)
      (outcome (handleTerminalSessionClosed sessionId now) manager) := by
  unfold handleTerminalSessionClosed
  simp only [outcome_borrow]
  cases validating : manager.tasksByValidationSession sessionId with
  | some taskId =>
    obtain ⟨task, found, bound, rfl⟩ := filed_task validates validating
    simp only [outcome_borrow, found, okOr]
    split
    · exact .closed
    · rename_i running
      simp only [outcome_taskMut, found, outcome_pure]
      exact .moved (moved_task (·.validationClosed now) (validationClosed_id now) found rfl rfl)
        (.validationClosed bound (not_not.mp running))
  | none =>
    simp only [outcome_borrow]
    cases filed : manager.tasksByTerminalSession sessionId with
    | none => exact .refused
    | some taskId =>
      obtain ⟨task, found, bound, rfl⟩ := filed_task terminals filed
      simp only [okOr, found]
      split
      · exact .closed
      · rename_i unsettled
        simp only [outcome_taskMut, found, outcome_pure]
        exact .moved (moved_task (·.agentClosed now) (agentClosed_id now) found rfl rfl)
          (.agentClosed bound (by simpa using unsettled))

end

end

theorem archive_outcome (taskId : TaskId) (now : Nat) :
    Outcome manager (.archive taskId now) (outcome (archive taskId now) manager) := by
  unfold archive
  simp only [outcome_borrow]
  cases checked : manager.canArchive taskId with
  | error error => exact .refused
  | ok task =>
    simp only [TaskManager.canArchive, bind_eq_ok, okOr_eq_ok, reject_eq_ok, pure_eq_ok,
      not_or, Bool.not_eq_true] at checked
    obtain ⟨task', found, -, ⟨inactive, stopped, idle⟩, rfl⟩ := checked
    have unstreamed := TaskManager.not_active (ne_true_of_eq_false inactive)
    have identity := TaskManager.get_id found
    subst identity
    dsimp only
    split
    · exact .hidden
    · rename_i visible
      simp only [outcome_taskMut_last, found]
      have moved := moved_task (·.hidden now) (hidden_id now) found rfl rfl
      rw [unstreamed] at moved
      exact .moved moved (.archived idle stopped visible)

theorem restore_outcome (taskId : TaskId) (now : Nat) :
    Outcome manager (.restore taskId now) (outcome (restore taskId now) manager) := by
  unfold restore
  simp only [outcome_borrow]
  cases checked : manager.checkRestore taskId with
  | error error => exact .refused
  | ok previous =>
    simp only [TaskManager.checkRestore, bind_eq_ok, okOr_eq_ok, reject_eq_ok, not_not] at checked
    obtain ⟨task, found, -, hidden, filtered⟩ := checked
    obtain ⟨recorded, known⟩ := Option.filter_eq_some_iff.mp filtered
    have identity := TaskManager.get_id found
    subst identity
    simp only [outcome_taskMut_last, found]
    exact .moved (moved_task (·.shown previous now) (shown_id previous now) found rfl rfl)
      (.restored hidden recorded (by simpa using known))

omit [Libraries] in
theorem invalidated_sessions (detail : String) (now : Nat) (task : AgentTask) :
    (task.invalidated detail now).terminalSessionId = task.terminalSessionId ∧
      (task.invalidated detail now).validation.terminalSessionId =
        task.validation.terminalSessionId := by
  unfold AgentTask.invalidated
  split <;> exact ⟨rfl, rfl⟩

theorem invalidate_outcome (taskId : TaskId) (detail : String) (now : Nat) :
    Outcome manager (.invalidate taskId detail now)
      (outcome (invalidateValidationEvidence taskId detail now) manager) := by
  unfold invalidateValidationEvidence
  rw [outcome_taskMut_last]
  cases found : manager.get taskId with
  | none => exact .refused
  | some task =>
    have identity := TaskManager.get_id found
    subst identity
    obtain ⟨terminalSame, validationSame⟩ := invalidated_sessions detail now task
    exact .moved (moved_task (·.invalidated detail now) (invalidated_id detail now) found
      terminalSame validationSame) .invalidated

theorem completeAfterValidation_outcome (taskId : TaskId) (now : Nat) :
    Outcome manager (.completeAfterValidation taskId now)
      (outcome (completeAfterValidation taskId now) manager) := by
  unfold completeAfterValidation
  simp only [outcome_borrow]
  cases checked : manager.checkCompleteAfterValidation taskId with
  | error error => exact .refused
  | ok value =>
    simp only [TaskManager.checkCompleteAfterValidation, bind_eq_ok, okOr_eq_ok, reject_eq_ok,
      not_or, not_not, Bool.not_eq_true] at checked
    obtain ⟨-, inactive, task, found, reviewing, passed⟩ := checked
    have unstreamed := TaskManager.not_active (ne_true_of_eq_false inactive)
    have identity := TaskManager.get_id found
    subst identity
    simp only [outcome_taskMut_last, found]
    have moved := moved_task (·.accepted "Validation passed; task accepted" now)
      (accepted_id _ now) found rfl rfl
    rw [unstreamed] at moved
    exact .moved moved (.validated reviewing passed)

theorem completeAfterManualReview_outcome (taskId : TaskId) (now : Nat) :
    Outcome manager (.completeAfterManualReview taskId now)
      (outcome (completeAfterManualReview taskId now) manager) := by
  unfold completeAfterManualReview
  simp only [outcome_borrow]
  cases checked : manager.checkCompleteAfterManualReview taskId with
  | error error => exact .refused
  | ok value =>
    simp only [TaskManager.checkCompleteAfterManualReview, bind_eq_ok, okOr_eq_ok, reject_eq_ok,
      not_or, not_not, Bool.not_eq_true] at checked
    obtain ⟨-, inactive, task, found, manual, reviewing, unvalidated⟩ := checked
    have unstreamed := TaskManager.not_active (ne_true_of_eq_false inactive)
    have identity := TaskManager.get_id found
    subst identity
    simp only [outcome_taskMut_last, found]
    have moved := moved_task (·.accepted
      "Work explicitly accepted after human review; no validation command was configured" now)
      (accepted_id _ now) found rfl rfl
    rw [unstreamed] at moved
    exact .moved moved (.reviewed reviewing (by simpa using manual) unvalidated)

theorem createInternal_outcome {operation : Operation} {id : TaskId} {now : Nat} {task : NewTask}
    {brief : Option TaskBrief} (fresh : manager.get id = none)
    (creates : (∃ now task, operation = .create id now task) ∨
      ∃ now task brief, operation = .createWithBrief id now task brief) :
    Outcome manager operation (outcome (createInternal id now task brief) manager) := by
  unfold createInternal
  simp only [outcome_borrow]
  cases validateNewTask task with
  | error error => exact .refused
  | ok value =>
    simp only [outcome_modify, outcome_pure]
    exact .created (newRecord id now task brief) creates fresh rfl rfl rfl rfl rfl

theorem run_outcome (validates : Indexes manager.tasksByValidationSession (validationKey manager))
    (terminals : Indexes manager.tasksByTerminalSession (terminalKey manager))
    (operation : Operation)
    (fresh : ∀ id, (∃ now task, operation = .create id now task) ∨
      (∃ now task brief, operation = .createWithBrief id now task brief) →
        manager.get id = none) : Outcome manager operation (operation.run manager) := by
  cases operation with
  | create id now task =>
    exact createInternal_outcome (fresh id (Or.inl ⟨now, task, rfl⟩)) (Or.inl ⟨now, task, rfl⟩)
  | createWithBrief id now task brief =>
    simp only [Operation.run, createWithBrief, outcome_borrow]
    split
    · exact createInternal_outcome (fresh id (Or.inr ⟨now, task, brief, rfl⟩))
        (Or.inr ⟨now, task, brief, rfl⟩)
    · exact .refused
  | start taskId sessionId epoch now => exact start_outcome taskId sessionId epoch now
  | resume taskId sessionId epoch now => exact resume_outcome taskId sessionId epoch now
  | finish expected ending detail now => exact finish_outcome expected ending detail now
  | rollback expected detail now => exact rollback_outcome expected detail now
  | applyEvent event now => exact applyEvent_outcome validates event now
  | bindTerminal taskId sessionId now => exact bindTerminal_outcome taskId sessionId now
  | bindRetry taskId expectedOld newSession now =>
    exact bindRetry_outcome validates terminals taskId expectedOld newSession now
  | bindFallback taskId sessionId now => exact bindFallback_outcome validates taskId sessionId now
  | bindValidation taskId sessionId now =>
    exact bindValidation_outcome validates taskId sessionId now
  | updateStatus taskId status detail now => exact updateStatus_outcome taskId status detail now
  | terminalExit sessionId exitCode now =>
    exact terminalExit_outcome validates terminals sessionId exitCode now
  | terminalClosed sessionId now =>
    exact terminalClosed_outcome validates terminals sessionId now
  | archive taskId now => exact archive_outcome taskId now
  | restore taskId now => exact restore_outcome taskId now
  | invalidate taskId detail now => exact invalidate_outcome taskId detail now
  | completeAfterValidation taskId now => exact completeAfterValidation_outcome taskId now
  | completeAfterManualReview taskId now => exact completeAfterManualReview_outcome taskId now

end

end

end JtermCore.Tasks
