import JtermCore.Tasks.Manager
import JtermCore.Index

/-!
# Operations and what they do to one task

An operation is a call of a public method.  It is refused, or it changes one
task together with its event stream; the maps of sessions follow the sessions
that the task names.
-/

namespace JtermCore.Tasks

open ExecutionJournal Result

/-- A call of a method that changes the manager. -/
inductive Operation where
  | create (id : TaskId) (now : Nat) (task : NewTask)
  | createWithBrief (id : TaskId) (now : Nat) (task : NewTask) (brief : TaskBrief)
  | start (taskId : TaskId) (sessionId : NativeAgentSessionId) (epoch : Option AgentEventEpoch)
      (now : Nat)
  | resume (taskId : TaskId) (sessionId : NativeAgentSessionId) (epoch : Option AgentEventEpoch)
      (now : Nat)
  | finish (expected : AgentEventStream) (outcome : AgentSessionOutcome) (detail : Option String)
      (now : Nat)
  | rollback (expected : AgentEventStream) (detail : String) (now : Nat)
  | applyEvent (event : AgentEvent) (now : Nat)
  | bindTerminal (taskId : TaskId) (sessionId : SessionId) (now : Nat)
  | bindRetry (taskId : TaskId) (expectedOld newSession : SessionId) (now : Nat)
  | bindFallback (taskId : TaskId) (sessionId : SessionId) (now : Nat)
  | bindValidation (taskId : TaskId) (sessionId : SessionId) (now : Nat)
  | updateStatus (taskId : TaskId) (status : TaskStatus) (detail : Option String) (now : Nat)
  | terminalExit (sessionId : SessionId) (exitCode : Option Int) (now : Nat)
  | terminalClosed (sessionId : SessionId) (now : Nat)
  | archive (taskId : TaskId) (now : Nat)
  | restore (taskId : TaskId) (now : Nat)
  | invalidate (taskId : TaskId) (detail : String) (now : Nat)
  | completeAfterValidation (taskId : TaskId) (now : Nat)
  | completeAfterManualReview (taskId : TaskId) (now : Nat)
deriving DecidableEq

def outcome {ε α : Type} (method : Manage ε α) (manager : TaskManager) : Bool × TaskManager :=
  ((method manager).1.isOk, (method manager).2)

section

variable [Libraries]

/-- Call the method of an operation. -/
def Operation.run : Operation → TaskManager → Bool × TaskManager
  | create id now task => outcome (Tasks.create id now task)
  | createWithBrief id now task brief => outcome (Tasks.createWithBrief id now task brief)
  | start taskId sessionId epoch now =>
    outcome (startAgentEventStream taskId sessionId epoch now)
  | resume taskId sessionId epoch now =>
    outcome (resumeAgentEventStreamAfterStop taskId sessionId epoch now)
  | finish expected ending detail now =>
    outcome (finishAgentEventStreamAfterStop expected ending detail now)
  | rollback expected detail now =>
    outcome (rollbackAgentEventStreamBeforeSpawn expected detail now)
  | applyEvent event now => outcome (applyAgentEvent event now)
  | bindTerminal taskId sessionId now => outcome (bindTerminalSession taskId sessionId now)
  | bindRetry taskId expectedOld newSession now =>
    outcome (bindTerminalRetrySession taskId expectedOld newSession now)
  | bindFallback taskId sessionId now =>
    outcome (bindNativeTerminalFallbackSession taskId sessionId now)
  | bindValidation taskId sessionId now => outcome (bindValidationSession taskId sessionId now)
  | updateStatus taskId status detail now =>
    outcome (Tasks.updateStatus taskId status detail now)
  | terminalExit sessionId exitCode now =>
    outcome (handleTerminalSessionExit sessionId exitCode now)
  | terminalClosed sessionId now => outcome (handleTerminalSessionClosed sessionId now)
  | archive taskId now => outcome (Tasks.archive taskId now)
  | restore taskId now => outcome (Tasks.restore taskId now)
  | invalidate taskId detail now => outcome (invalidateValidationEvidence taskId detail now)
  | completeAfterValidation taskId now =>
    outcome (Tasks.completeAfterValidation taskId now)
  | completeAfterManualReview taskId now =>
    outcome (Tasks.completeAfterManualReview taskId now)

/-- The method returned `Ok` or `Some`. -/
def Operation.Accepted (operation : Operation) (manager : TaskManager) : Prop :=
  (operation.run manager).1 = true

def stateAfter (operations : List Operation) : TaskManager :=
  operations.foldl (fun manager operation => (operation.run manager).2) .new

@[simp]
theorem stateAfter_nil : stateAfter [] = .new :=
  rfl

@[simp]
theorem stateAfter_concat (operations : List Operation) (operation : Operation) :
    stateAfter (operations ++ [operation]) = (operation.run (stateAfter operations)).2 := by
  simp [stateAfter]

def Operation.epoch : Operation → Option AgentEventEpoch
  | start _ _ epoch _ | resume _ _ epoch _ => epoch
  | _ => none

/-- The identity of a created task is new, and so is an allocated epoch. -/
def Operation.IsFresh (operation : Operation) (earlier : List Operation) : Prop :=
  match operation with
  | create id .. | createWithBrief id .. => (stateAfter earlier).get id = none
  | start _ _ (some epoch) _ | resume _ _ (some epoch) _ =>
    epoch ∉ earlier.filterMap Operation.epoch
  | _ => True

/-- Identities and epochs are fresh in a whole run. -/
def Fresh (operations : List Operation) : Prop :=
  ∀ front operation back, operations = front ++ operation :: back → operation.IsFresh front

theorem Fresh.left {front back : List Operation} (fresh : Fresh (front ++ back)) : Fresh front := by
  rintro before operation after rfl
  exact fresh before operation (after ++ back) (by simp)

variable {operations : List Operation} {operation : Operation}

theorem Fresh.last
    (fresh : Fresh (operations ++ [operation])) : operation.IsFresh operations :=
  fresh operations operation [] rfl

theorem fresh_nil : Fresh [] := by
  intro front operation back empty
  simp at empty

theorem Fresh.concat (fresh : Fresh operations) (last : operation.IsFresh operations) :
    Fresh (operations ++ [operation]) := by
  intro front middle back same
  rcases List.eq_nil_or_concat back with rfl | ⟨rest, final, rfl⟩
  · obtain ⟨rfl, rfl⟩ := List.append_inj' same rfl |>.imp_right (List.cons.inj · |>.1)
    exact last
  · refine fresh front middle rest ?_
    rw [List.concat_eq_append, ← List.cons_append, ← List.append_assoc] at same
    exact (List.append_inj' same rfl).1

structure Local where
  task : AgentTask
  stream : Option NativeEventStreamState

def Names (expected : AgentEventStream) (task : AgentTask) (active : NativeEventStreamState) :
    Prop :=
  expected.taskId = task.id ∧ active.stream.epoch = expected.epoch ∧
    active.stream.sessionId = expected.sessionId

def installedStream (task : AgentTask) (sessionId : NativeAgentSessionId)
    (epoch : AgentEventEpoch) : NativeEventStreamState :=
  ⟨⟨task.id, sessionId, epoch⟩, 1, false, none, task.status = .readyForReview⟩

inductive TaskStep : Operation → Local → Local → Prop
  | started {task sessionId epoch now} (created : task.status = .created)
      (unbound : task.terminalSessionId = none) (nonterminal : task.runtimeKind.isTerminal = false)
      (idle : task.validation.status ≠ .running) :
      TaskStep (.start task.id sessionId (some epoch) now) ⟨task, none⟩
        ⟨task.installed now, some (installedStream task sessionId epoch)⟩
  | resumed {task sessionId epoch now} (reviewing : task.status = .readyForReview)
      (native : task.runtimeKind = .native) (unbound : task.terminalSessionId = none)
      (idle : task.validation.status ≠ .running) :
      TaskStep (.resume task.id sessionId (some epoch) now) ⟨task, none⟩
        ⟨task.installed now, some (installedStream task sessionId epoch)⟩
  | finished {task active expected ending detail now next updates reached}
      (names : Names expected task active) (live : task.status.isTerminal = false)
      (moves : statusAfterEvent task.status (.sessionEnded ending) = some (next, updates))
      (reaches : reached =
        if active.reviewPointReached && ending ≠ .clean then .readyForReview else next) :
      TaskStep (.finish expected ending detail now) ⟨task, some active⟩
        ⟨task.advanced reached (boundedEventDetail detail) now, none⟩
  | rolledBack {task active expected detail now} (names : Names expected task active)
      (starting : task.status = .starting) (native : task.runtimeKind = .native) :
      TaskStep (.rollback expected detail now) ⟨task, some active⟩
        ⟨task.rolledBack detail now, none⟩
  | applied {task active event now next updates reached} (names : Names event.stream task active)
      (live : task.status.isTerminal = false) (inOrder : active.nextSequence = event.sequence)
      (inTurn : checkTurn task.id active.activeTurn event.kind = .ok ())
      (moves : statusAfterEvent task.status event.kind = some (next, updates)) (reaches : reached =
        if active.reviewPointReached && event.kind.isBadEnding then .readyForReview else next) :
      TaskStep (.applyEvent event now) ⟨task, some active⟩
        ⟨if updates then task.notified event reached now else task,
          if reached.isTerminal || eventEndsStream event.kind then none
          else some (active.notified event)⟩
  | boundTerminal {task sessionId now} {stream} (foreign : task.runtimeKind ≠ .native)
      (early : task.status = .created ∨ task.status = .starting)
      (unbound : task.terminalSessionId = none) :
      TaskStep (.bindTerminal task.id sessionId now) ⟨task, stream⟩
        ⟨task.boundTo sessionId now, stream⟩
  | retried {task old sessionId now} (failed : task.status = .failed)
      (terminal : task.runtimeKind.isTerminal = true) (idle : task.validation.status ≠ .running)
      (bound : task.terminalSessionId = some old) :
      TaskStep (.bindRetry task.id old sessionId now) ⟨task, none⟩
        ⟨task.retried sessionId now, none⟩
  | fellBack {task sessionId now} (stopped : task.status = .failed ∨ task.status = .readyForReview)
      (native : task.runtimeKind = .native) (unbound : task.terminalSessionId = none)
      (idle : task.validation.status ≠ .running) :
      TaskStep (.bindFallback task.id sessionId now) ⟨task, none⟩
        ⟨task.fellBack sessionId now, none⟩
  | boundValidation {task sessionId now} (reviewing : task.status = .readyForReview)
      (idle : task.validation.status ≠ .running) :
      TaskStep (.bindValidation task.id sessionId now) ⟨task, none⟩
        ⟨task.validating sessionId (task.validation.attempt + 1) now, none⟩
  | statusSet {task status detail now} (incomplete : status ≠ .completed)
      (leaves : task.status.isTerminal = true → task.status = status)
      (validating : task.validation.status = .running → status = task.status)
      (consumed : status = .created → task.runtimeKind ≠ .native) :
      TaskStep (.updateStatus task.id status detail now) ⟨task, none⟩
        ⟨task.withStatus status detail now, none⟩
  | validationExited {task stream sessionId exitCode now}
      (bound : task.validation.terminalSessionId = some sessionId)
      (running : task.validation.status = .running) :
      TaskStep (.terminalExit sessionId exitCode now) ⟨task, stream⟩
        ⟨task.validationExited exitCode now, stream⟩
  | agentExited {task stream sessionId exitCode now}
      (bound : task.terminalSessionId = some sessionId)
      (unsettled : task.status.isSettled = false) :
      TaskStep (.terminalExit sessionId exitCode now) ⟨task, stream⟩
        ⟨task.agentExited exitCode now, stream⟩
  | validationClosed {task stream sessionId now}
      (bound : task.validation.terminalSessionId = some sessionId)
      (running : task.validation.status = .running) :
      TaskStep (.terminalClosed sessionId now) ⟨task, stream⟩ ⟨task.validationClosed now, stream⟩
  | agentClosed {task stream sessionId now} (bound : task.terminalSessionId = some sessionId)
      (unsettled : task.status.isSettled = false) :
      TaskStep (.terminalClosed sessionId now) ⟨task, stream⟩ ⟨task.agentClosed now, stream⟩
  | archived {task now} (idle : task.validation.status ≠ .running)
      (stopped : task.status.isRunning = false) (visible : task.status ≠ .archived) :
      TaskStep (.archive task.id now) ⟨task, none⟩ ⟨task.hidden now, none⟩
  | restored {task stream previous now} (hidden : task.status = .archived)
      (recorded : task.archivedFrom = some previous) (known : previous ≠ .archived) :
      TaskStep (.restore task.id now) ⟨task, stream⟩ ⟨task.shown previous now, stream⟩
  | invalidated {task stream detail now} :
      TaskStep (.invalidate task.id detail now) ⟨task, stream⟩ ⟨task.invalidated detail now, stream⟩
  | validated {task now} (reviewing : task.status = .readyForReview)
      (passed : task.validation.status = .passed) :
      TaskStep (.completeAfterValidation task.id now) ⟨task, none⟩
        ⟨task.accepted "Validation passed; task accepted" now, none⟩
  | reviewed {task now} (reviewing : task.status = .readyForReview)
      (manual : task.requiresManualReview = true) (unvalidated : task.validation.status = .notRun) :
      TaskStep (.completeAfterManualReview task.id now) ⟨task, none⟩
        ⟨task.accepted
          "Work explicitly accepted after human review; no validation command was configured" now,
          none⟩

end

end JtermCore.Tasks
