import JtermCore.Tasks.Refinement
import Mathlib.Data.List.Induction

/-!
# Who owns a session

Every session belongs to at most one task in one role, and a task with an event
stream has neither a terminal nor a running validation.
-/

namespace JtermCore.Tasks

open ExecutionJournal Index

structure Owned (task : AgentTask) (stream : Option NativeEventStreamState) : Prop where
  streaming : stream ≠ none → task.status.isTerminal = false ∧ task.runtimeKind = .native ∧
    task.terminalSessionId = none ∧ task.validation.status = .notRun
  validating : task.validation.status = .running → task.status = .readyForReview ∧
    task.validation.terminalSessionId.isSome = true ∧ stream = none
  evidence : task.validation.status ≠ .notRun → task.status.isSettled = true ∧
    ∀ status, task.archivedFrom = some status → status.isSettled = true
  visible : task.status ≠ .archived → task.archivedFrom = none
  unrun : task.validation.status = .notRun → task.validation.terminalSessionId = none ∧
    task.validation.exitCode = none

section

variable (validation : TaskValidationState)

include validation

@[simp]
theorem stale_status (detail : String) : (validation.stale detail).status = .notRun := by
  unfold TaskValidationState.stale
  split
  · rfl
  · rename_i unchanged
    rw [not_not.mp unchanged]
    rfl

@[simp]
theorem stale_exitCode (detail : String) : (validation.stale detail).exitCode = none := by
  unfold TaskValidationState.stale
  split
  · rfl
  · rename_i unchanged
    rw [not_not.mp unchanged]
    rfl

@[simp]
theorem stale_attempt (detail : String) :
    (validation.stale detail).attempt = validation.attempt := by
  unfold TaskValidationState.stale
  split <;> rfl

end

variable {task : AgentTask} {stream : Option NativeEventStreamState}

theorem Owned.of_unrun (unrun : task.validation.status = .notRun)
    (streaming : stream ≠ none → task.status.isTerminal = false ∧ task.runtimeKind = .native ∧
      task.terminalSessionId = none) (visible : task.status ≠ .archived → task.archivedFrom = none)
    (nothing : task.validation.terminalSessionId = none ∧ task.validation.exitCode = none) :
    Owned task stream where
  streaming streamed := by
    obtain ⟨live, native, unbound⟩ := streaming streamed
    exact ⟨live, native, unbound, unrun⟩
  validating running := by
    rw [unrun] at running
    cases running
  evidence evident := absurd unrun evident
  visible := visible
  unrun _ := nothing

variable {status : TaskStatus}

theorem not_terminal_archived (live : status.isTerminal = false) : status ≠ .archived := by
  rintro rfl
  cases live

theorem isSettled_of_isTerminal (terminal : status.isTerminal = true) :
    status.isSettled = true := by cases status <;> first | rfl | cases terminal

theorem isSettled_of_stopped (begun : status ≠ .created)
    (stopped : status.isRunning = false) : status.isSettled = true := by
  cases status with
  | created => exact absurd rfl begun
  | starting | working | waitingForApproval | waitingForHuman => cases stopped
  | readyForReview | completed | failed | cancelled | archived => rfl

theorem not_settled_archived (unsettled : status.isSettled = false) : status ≠ .archived := by
  rintro rfl
  cases unsettled

theorem Owned.notRun (owned : Owned task stream) (unsettled : task.status.isSettled ≠ true) :
    task.validation.status = .notRun := by
  by_contra evident
  exact unsettled (owned.evidence evident).1

theorem Owned.reviewing_visible
    (owned : Owned task stream) (reviewing : task.status = .readyForReview) :
    task.archivedFrom = none := by
  apply owned.visible
  rw [reviewing]
  simp

theorem isSettled_of_reviewing (reviewing : status = .readyForReview) :
    status.isSettled = true := by
  rw [reviewing]
  rfl

variable {session : SessionId}

theorem Owned.unstreamed_of_bound (owned : Owned task stream)
    (bound : task.terminalSessionId = some session) : stream = none := by
  by_contra streamed
  rw [(owned.streaming streamed).2.2.1] at bound
  cases bound

theorem Owned.of_evidence (unstreamed : stream = none) (idle : task.validation.status ≠ .running)
    (evident : task.validation.status ≠ .notRun) (settled : task.status.isSettled = true)
    (visible : task.archivedFrom = none) : Owned task stream where
  streaming streamed := absurd unstreamed streamed
  validating running := absurd running idle
  evidence _ := ⟨settled, fun status same => by
    rw [visible] at same
    cases same⟩
  visible _ := visible
  unrun unrun := absurd unrun evident

section

variable [Libraries]

omit [Libraries] in
theorem exited_status (task : AgentTask) (exitCode : Option Int) (now : Nat) :
    (task.validationExited exitCode now).validation.status ≠ .running ∧
      (task.validationExited exitCode now).validation.status ≠ .notRun := by
  dsimp only [AgentTask.validationExited]
  split <;> simp

theorem Owned.statusSet {task : AgentTask} {status : TaskStatus} {detail : Option String}
    {now : Nat} (owned : Owned task none)
    (leaves : task.status.isTerminal = true → task.status = status)
    (validating : task.validation.status = .running → status = task.status) :
    Owned (task.withStatus status detail now) none := by
  have visible : status ≠ .archived → task.archivedFrom = none := by
    intro shown
    apply owned.visible
    intro hidden
    exact shown ((leaves (by simp [hidden, TaskStatus.isTerminal])).symm.trans hidden)
  by_cases resumes : task.resumedBy status = true
  · refine .of_unrun ?_ (fun streamed => absurd rfl streamed) visible ?_
    · simp [AgentTask.withStatus, resumes, TaskValidationState.initial]
    · simp [AgentTask.withStatus, resumes, TaskValidationState.initial]
  · have same : (task.withStatus status detail now).validation = task.validation := by
      simp [AgentTask.withStatus, resumes]
    refine ⟨fun streamed => absurd rfl streamed, fun running => ?_, fun evident => ?_, visible,
      fun unrun => ?_⟩
    · rw [same] at running ⊢
      obtain ⟨reviewing, bound, -⟩ := owned.validating running
      exact ⟨(validating running).trans reviewing, bound, rfl⟩
    · rw [same] at evident
      refine ⟨?_, (owned.evidence evident).2⟩
      by_cases running : task.validation.status = .running
      · have unchanged := validating running
        change status.isSettled = true
        rw [unchanged]
        exact (owned.evidence evident).1
      · have stays : (status ≠ .created ∧ status.isRunning = false) := by
          simp only [AgentTask.resumedBy, evident, running, decide_false, Bool.or_self,
            Bool.not_false, Bool.and_true, Bool.or_eq_true, decide_eq_true_eq, not_or,
            Bool.not_eq_true] at resumes
          exact resumes
        exact isSettled_of_stopped stays.1 stays.2
    · rw [same] at unrun ⊢
      exact owned.unrun unrun

theorem Owned.step {operation : Operation} {before after : Local}
    (step : TaskStep operation before after) (owned : Owned before.task before.stream) :
    Owned after.task after.stream := by
  cases step with
  | started created unbound nonterminal idle =>
    rename_i task sessionId epoch now
    refine .of_unrun (stale_status _ _) (fun _ => ⟨?_, ?_, unbound⟩) (fun _ => ?_)
      ⟨stale_session _ _, stale_exitCode _ _⟩
    · dsimp only [AgentTask.installed]
      split
      · rfl
      · rw [created]
        rfl
    · dsimp only [AgentTask.installed]
      split
      · rfl
      · rename_i assigned
        cases kind : task.runtimeKind with
        | unassigned => exact absurd kind assigned
        | native => rfl
        | terminal => simp [kind, TaskRuntimeKind.isTerminal] at nonterminal
        | terminalFallback => simp [kind, TaskRuntimeKind.isTerminal] at nonterminal
    · exact owned.visible (by simp [created])
  | resumed reviewing native unbound idle =>
    refine .of_unrun (stale_status _ _) (fun _ => ⟨?_, ?_, unbound⟩) (fun _ => ?_)
      ⟨stale_session _ _, stale_exitCode _ _⟩
    · simp [AgentTask.installed, native, reviewing, TaskStatus.isTerminal]
    · simp [AgentTask.installed, native]
    · exact owned.reviewing_visible reviewing
  | finished names live moves reaches =>
    obtain ⟨-, -, -, unrun⟩ := owned.streaming (by simp)
    exact .of_unrun unrun (fun streamed => absurd rfl streamed)
      (fun _ => owned.visible (not_terminal_archived live)) (owned.unrun unrun)
  | rolledBack names starting native =>
    obtain ⟨live, -, -, unrun⟩ := owned.streaming (by simp)
    exact .of_unrun unrun (fun streamed => absurd rfl streamed)
      (fun _ => owned.visible (not_terminal_archived live)) (owned.unrun unrun)
  | applied names live inOrder inTurn moves reaches =>
    rename_i task active event now next updates reached
    obtain ⟨-, native, unbound, unrun⟩ := owned.streaming (by simp)
    have visible := owned.visible (not_terminal_archived live)
    have nothing := owned.unrun unrun
    by_cases updated : updates = true
    · simp only [updated, if_true]
      have quiet : (task.notified event reached now).validation.status = .notRun := by
        dsimp only [AgentTask.notified]
        split
        · exact stale_status _ _
        · exact unrun
      refine .of_unrun quiet (fun streamed => ⟨?_, native, unbound⟩) (fun _ => visible) ?_
      · have continues : ¬ (reached.isTerminal || eventEndsStream event.kind) = true := by
          intro ends
          simp [ends] at streamed
        simp only [Bool.or_eq_true, not_or, Bool.not_eq_true] at continues
        exact continues.1
      · dsimp only [AgentTask.notified]
        split
        · exact ⟨stale_session _ _, stale_exitCode _ _⟩
        · exact nothing
    · simp only [updated]
      exact .of_unrun unrun (fun _ => ⟨live, native, unbound⟩) (fun _ => visible) nothing
  | boundTerminal foreign early unbound =>
    rename_i task sessionId now stream
    have unstreamed : stream = none := by
      by_contra streamed
      exact foreign (owned.streaming streamed).2.1
    have unsettled : task.status.isSettled ≠ true := by
      rcases early with created | starting
      · simp [created, TaskStatus.isSettled]
      · simp [starting, TaskStatus.isSettled]
    have unrun := owned.notRun unsettled
    have visible : task.archivedFrom = none := by
      apply owned.visible
      rcases early with created | starting
      · simp [created]
      · simp [starting]
    exact .of_unrun unrun (fun streamed => absurd unstreamed streamed) (fun _ => visible)
      (owned.unrun unrun)
  | retried failed terminal idle bound =>
    exact .of_unrun (stale_status _ _) (fun streamed => absurd rfl streamed)
      (fun _ => owned.visible (by simp [failed])) ⟨stale_session _ _, stale_exitCode _ _⟩
  | fellBack stopped native unbound idle =>
    refine .of_unrun (stale_status _ _) (fun streamed => absurd rfl streamed)
      (fun _ => owned.visible ?_) ⟨stale_session _ _, stale_exitCode _ _⟩
    rcases stopped with failed | reviewing
    · simp [failed]
    · simp [reviewing]
  | boundValidation reviewing idle =>
    rename_i task sessionId now
    have visible := owned.reviewing_visible reviewing
    exact
      { streaming := fun streamed => absurd rfl streamed
        validating := fun _ => ⟨reviewing, rfl, rfl⟩
        evidence := fun _ => ⟨isSettled_of_reviewing reviewing, fun status same => by
          cases visible.symm.trans same⟩
        visible := fun _ => visible
        unrun := fun unrun => by cases unrun }
  | statusSet incomplete leaves validating consumed => exact owned.statusSet leaves validating
  | validationExited bound running =>
    obtain ⟨reviewing, -, unstreamed⟩ := owned.validating running
    have visible := owned.reviewing_visible reviewing
    exact .of_evidence unstreamed (exited_status _ _ _).1 (exited_status _ _ _).2
      (isSettled_of_reviewing reviewing) visible
  | agentExited bound unsettled =>
    have unrun := owned.notRun (by simp [unsettled])
    exact .of_unrun unrun (fun streamed => absurd (owned.unstreamed_of_bound bound) streamed)
      (fun _ => owned.visible (not_settled_archived unsettled)) (owned.unrun unrun)
  | validationClosed bound running =>
    obtain ⟨reviewing, -, unstreamed⟩ := owned.validating running
    have visible := owned.reviewing_visible reviewing
    exact .of_evidence unstreamed (by simp [AgentTask.validationClosed])
      (by simp [AgentTask.validationClosed]) (isSettled_of_reviewing reviewing) visible
  | agentClosed bound unsettled =>
    have unrun := owned.notRun (by simp [unsettled])
    exact .of_unrun unrun (fun streamed => absurd (owned.unstreamed_of_bound bound) streamed)
      (fun _ => owned.visible (not_settled_archived unsettled)) (owned.unrun unrun)
  | archived idle stopped visible =>
    exact
      { streaming := fun streamed => absurd rfl streamed
        validating := fun running => absurd running idle
        evidence := fun evident => ⟨rfl, fun status same => by
          cases same
          exact (owned.evidence evident).1⟩
        visible := fun shown => absurd rfl shown
        unrun := owned.unrun }
  | restored hidden recorded known =>
    exact
      { streaming := fun streamed => by simpa [hidden, TaskStatus.isTerminal] using
          (owned.streaming streamed).1
        validating := fun running => by simpa [hidden] using (owned.validating running).1
        evidence := fun evident => ⟨(owned.evidence evident).2 _ recorded, fun _ same => by
          cases same⟩
        visible := fun _ => rfl
        unrun := owned.unrun }
  | invalidated =>
    unfold AgentTask.invalidated
    split
    · rename_i passed
      have evident : _ ∧ _ := owned.evidence (by simp [passed])
      exact
        { streaming := fun streamed => by simpa [passed] using (owned.streaming streamed).2.2.2
          validating := fun running => by cases running
          evidence := fun _ => evident
          visible := owned.visible
          unrun := fun unrun => by cases unrun }
    · exact owned
  | validated reviewing passed =>
    exact .of_evidence rfl (by simp [AgentTask.accepted, passed])
      (by simp [AgentTask.accepted, passed]) rfl (owned.reviewing_visible reviewing)
  | reviewed reviewing manual unvalidated =>
    exact .of_unrun unvalidated (fun streamed => absurd rfl streamed)
      (fun _ => owned.reviewing_visible reviewing) (owned.unrun unvalidated)

theorem TaskStep.attempt {operation : Operation} {before after : Local}
    (step : TaskStep operation before after) :
    before.task.validation.attempt ≤ after.task.validation.attempt := by
  cases step with
  | started => exact Nat.le_of_eq (stale_attempt _ _).symm
  | resumed => exact Nat.le_of_eq (stale_attempt _ _).symm
  | finished => exact le_rfl
  | rolledBack => exact le_rfl
  | applied =>
    dsimp only
    split
    · dsimp only [AgentTask.notified]
      split
      · exact Nat.le_of_eq (stale_attempt _ _).symm
      · exact le_rfl
    · exact le_rfl
  | boundTerminal => exact le_rfl
  | retried => exact Nat.le_of_eq (stale_attempt _ _).symm
  | fellBack => exact Nat.le_of_eq (stale_attempt _ _).symm
  | boundValidation => exact Nat.le_succ _
  | statusSet =>
    dsimp only [AgentTask.withStatus]
    split <;> exact le_rfl
  | validationExited => exact le_rfl
  | agentExited => exact le_rfl
  | validationClosed => exact le_rfl
  | agentClosed => exact le_rfl
  | archived => exact le_rfl
  | restored => exact le_rfl
  | invalidated =>
    dsimp only [AgentTask.invalidated]
    split <;> exact le_rfl
  | validated => exact le_rfl
  | reviewed => exact le_rfl

end

/-- What holds in every state of a manager. -/
structure Invariant (manager : TaskManager) : Prop where
  terminal : Indexes manager.tasksByTerminalSession (terminalKey manager)
  validation : Indexes manager.tasksByValidationSession (validationKey manager)
  disjoint : ∀ session taskId other, manager.tasksByTerminalSession session = some taskId →
    manager.tasksByValidationSession session ≠ some other
  exited : ∀ session, manager.exitedTerminalSessions session = true →
    ∃ taskId, manager.tasksByTerminalSession session = some taskId
  local_streams : ∀ taskId, manager.remoteNativeActive taskId = false
  streams : ∀ taskId, manager.get taskId = none → manager.nativeEventStreams taskId = none
  owned : ∀ taskId task, manager.get taskId = some task →
    Owned task (manager.nativeEventStreams taskId)

theorem invariant_new : Invariant .new where
  terminal _ _ := iff_of_false (by rintro ⟨⟩) (by rintro ⟨⟩)
  validation _ _ := iff_of_false (by rintro ⟨⟩) (by rintro ⟨⟩)
  disjoint _ _ _ found := by cases found
  exited _ noted := by cases noted
  local_streams _ := rfl
  streams _ _ := rfl
  owned _ _ found := by cases found

theorem ownerOf_none {manager : TaskManager} (free : manager.ownerOf session = none) :
    manager.tasksByTerminalSession session = none ∧
      manager.tasksByValidationSession session = none := (Option.or_eq_none_iff.mp free).symm

section

variable {manager later : TaskManager} {before after : Local}

section

variable (moved : Moved manager later before after)

include moved

theorem Moved.terminalKey :
    terminalKey later =
      Function.update (terminalKey manager) before.task.id after.task.terminalSessionId := by
  funext taskId
  unfold Tasks.terminalKey
  rw [moved.get]
  by_cases same : taskId = before.task.id
  · simp [same]
  · simp [same]

theorem Moved.validationKey :
    validationKey later = Function.update (validationKey manager) before.task.id
      after.task.validation.terminalSessionId := by
  funext taskId
  unfold Tasks.validationKey
  rw [moved.get]
  by_cases same : taskId = before.task.id
  · simp [same]
  · simp [same]

theorem Moved.terminalKey_before :
    Tasks.terminalKey manager before.task.id = before.task.terminalSessionId := by
  rw [Tasks.terminalKey, moved.found, Option.bind_some]

theorem Moved.validationKey_before :
    Tasks.validationKey manager before.task.id = before.task.validation.terminalSessionId := by
  rw [Tasks.validationKey, moved.found, Option.bind_some]

section

variable (invariant : Invariant manager)

include invariant

theorem Moved.terminal_indexes :
    Indexes later.tasksByTerminalSession (Tasks.terminalKey later) := by
  rw [moved.terminal, moved.terminalKey, ← moved.terminalKey_before]
  apply invariant.terminal.rekey
  rw [moved.terminalKey_before]
  exact moved.terminalFree.imp_right fun free session same => (ownerOf_none (free session same)).1

theorem Moved.validation_indexes :
    Indexes later.tasksByValidationSession (Tasks.validationKey later) := by
  rw [moved.validation, moved.validationKey, ← moved.validationKey_before]
  apply invariant.validation.rekey
  rw [moved.validationKey_before]
  exact moved.validationFree.imp_right fun free session same =>
    (ownerOf_none (free session same)).2

theorem Moved.terminal_origin (named : after.task.terminalSessionId = some session) :
    before.task.terminalSessionId = after.task.terminalSessionId ∧
        manager.tasksByTerminalSession session = some before.task.id ∨
      manager.ownerOf session = none := by
  rcases moved.terminalFree with same | free
  · refine Or.inl ⟨same, (invariant.terminal session before.task.id).mpr ?_⟩
    rw [moved.terminalKey_before, same, named]
  · exact Or.inr (free session named)

theorem Moved.validation_origin (named : after.task.validation.terminalSessionId = some session) :
    before.task.validation.terminalSessionId = after.task.validation.terminalSessionId ∧
        manager.tasksByValidationSession session = some before.task.id ∨
      manager.ownerOf session = none := by
  rcases moved.validationFree with same | free
  · refine Or.inl ⟨same, (invariant.validation session before.task.id).mpr ?_⟩
    rw [moved.validationKey_before, same, named]
  · exact Or.inr (free session named)

theorem Moved.disjoint (session : SessionId) (taskId other : TaskId)
    (bound : later.tasksByTerminalSession session = some taskId) :
    later.tasksByValidationSession session ≠ some other := by
  intro validates
  have terminalNamed := (moved.terminal_indexes invariant session taskId).mp bound
  have validationNamed := (moved.validation_indexes invariant session other).mp validates
  rw [moved.terminalKey] at terminalNamed
  rw [moved.validationKey] at validationNamed
  have clash := invariant.disjoint session
  by_cases terminalOwn : taskId = before.task.id
  · rw [terminalOwn, Function.update_self] at terminalNamed
    by_cases validationOwn : other = before.task.id
    · rw [validationOwn, Function.update_self] at validationNamed
      rcases moved.terminal_origin invariant terminalNamed with ⟨kept, filed⟩ | free
      · rcases moved.validation_origin invariant validationNamed with ⟨-, filed'⟩ | free'
        · exact clash _ _ filed filed'
        · rw [(ownerOf_none free').1] at filed
          cases filed
      · rcases moved.validation_origin invariant validationNamed with ⟨-, filed'⟩ | free'
        · rw [(ownerOf_none free).2] at filed'
          cases filed'
        · -- The moved task got only one new session.
          rcases moved.single with same | same | unset
          · have filed := (invariant.terminal session before.task.id).mpr
              (by rw [moved.terminalKey_before, same, terminalNamed])
            rw [(ownerOf_none free).1] at filed
            cases filed
          · have filed' := (invariant.validation session before.task.id).mpr
              (by rw [moved.validationKey_before, same, validationNamed])
            rw [(ownerOf_none free).2] at filed'
            cases filed'
          · rw [unset] at validationNamed
            cases validationNamed
    · rw [Function.update_of_ne validationOwn] at validationNamed
      have filed' := (invariant.validation session other).mpr validationNamed
      rcases moved.terminal_origin invariant terminalNamed with ⟨-, filed⟩ | free
      · exact clash _ _ filed filed'
      · rw [(ownerOf_none free).2] at filed'
        cases filed'
  · rw [Function.update_of_ne terminalOwn] at terminalNamed
    have filed := (invariant.terminal session taskId).mpr terminalNamed
    by_cases validationOwn : other = before.task.id
    · rw [validationOwn, Function.update_self] at validationNamed
      rcases moved.validation_origin invariant validationNamed with ⟨-, filed'⟩ | free
      · exact clash _ _ filed filed'
      · rw [(ownerOf_none free).1] at filed
        cases filed
    · rw [Function.update_of_ne validationOwn] at validationNamed
      exact clash _ _ filed ((invariant.validation session other).mpr validationNamed)

theorem Moved.exited_bound (session : SessionId)
    (noted : later.exitedTerminalSessions session = true) :
    ∃ taskId, later.tasksByTerminalSession session = some taskId := by
  have files : ∀ taskId, Tasks.terminalKey later taskId = some session →
      ∃ taskId, later.tasksByTerminalSession session = some taskId :=
    fun taskId names => ⟨taskId, (moved.terminal_indexes invariant session taskId).mpr names⟩
  rcases moved.exited session noted with ⟨before', kept⟩ | ⟨same, named⟩
  · obtain ⟨taskId, filed⟩ := invariant.exited session before'
    have names := (invariant.terminal session taskId).mp filed
    by_cases own : taskId = before.task.id
    · rw [own, moved.terminalKey_before] at names
      have same := kept.resolve_right (not_not.mpr names)
      apply files before.task.id
      rw [moved.terminalKey, Function.update_self, ← same, names]
    · apply files taskId
      rw [moved.terminalKey, Function.update_of_ne own, names]
  · apply files before.task.id
    rw [moved.terminalKey, Function.update_self, ← same, named]

end

theorem Moved.invariant [Libraries] {operation : Operation}
    (step : TaskStep operation before after) (invariant : Invariant manager) : Invariant later where
  terminal := moved.terminal_indexes invariant
  validation := moved.validation_indexes invariant
  disjoint := moved.disjoint invariant
  exited := moved.exited_bound invariant
  local_streams := by rw [moved.remote]; exact invariant.local_streams
  streams taskId absent := by
    rw [moved.get] at absent
    split at absent
    · cases absent
    · rename_i other
      rw [moved.streams, Function.update_of_ne other]
      exact invariant.streams taskId absent
  owned taskId task found := by
    rw [moved.get] at found
    rw [moved.streams]
    split at found
    · rename_i same
      cases found
      rw [same, Function.update_self]
      have owned := invariant.owned _ _ moved.found
      rw [moved.stream] at owned
      exact owned.step step
    · rename_i other
      rw [Function.update_of_ne other]
      exact invariant.owned taskId task found

end

end

section

variable {manager : TaskManager}

variable {taskId : TaskId}

theorem Invariant.noteExit (invariant : Invariant manager)
    (bound : manager.tasksByTerminalSession session = some taskId) :
    Invariant (manager.noteExit session) where
  terminal := invariant.terminal
  validation := invariant.validation
  disjoint := invariant.disjoint
  exited other noted := by
    by_cases same : other = session
    · exact ⟨taskId, same ▸ bound⟩
    · apply invariant.exited other
      have noted' : Function.update manager.exitedTerminalSessions session true other = true :=
          noted
      rwa [Function.update_of_ne same] at noted'
  local_streams := invariant.local_streams
  streams := invariant.streams
  owned := invariant.owned

theorem get_created (manager : TaskManager) (record : AgentTask) (taskId : TaskId) :
    ({ manager with table := manager.table.push record } : TaskManager).get taskId =
      if taskId = record.id then some record else manager.get taskId :=
  TaskTable.get_push manager.table record taskId

theorem Invariant.created (invariant : Invariant manager) {record : AgentTask}
    (fresh : manager.get record.id = none)
    (unbound : record.terminalSessionId = none) (unvalidated : record.validation = .initial)
    (visible : record.archivedFrom = none) :
    Invariant { manager with table := manager.table.push record } := by
  have terminals : terminalKey { manager with table := manager.table.push record } =
      terminalKey manager := by
    funext taskId
    rw [terminalKey, get_created]
    split
    · rename_i same
      simp [terminalKey, same, fresh, unbound]
    · rfl
  have validations : validationKey { manager with table := manager.table.push record } =
      validationKey manager := by
    funext taskId
    rw [validationKey, get_created]
    split
    · rename_i same
      simp [validationKey, same, fresh, unvalidated, TaskValidationState.initial]
    · rfl
  refine ⟨?_, ?_, invariant.disjoint, invariant.exited, invariant.local_streams, ?_, ?_⟩
  · rw [terminals]
    exact invariant.terminal
  · rw [validations]
    exact invariant.validation
  · intro taskId absent
    rw [get_created] at absent
    split at absent
    · cases absent
    · exact invariant.streams taskId absent
  · intro taskId task found
    rw [get_created] at found
    split at found
    · rename_i same
      cases found
      subst same
      have unstreamed := invariant.streams record.id fresh
      exact .of_unrun (by simp [unvalidated, TaskValidationState.initial])
        (fun streamed => absurd unstreamed streamed) (fun _ => visible)
        (by simp [unvalidated, TaskValidationState.initial])
    · exact invariant.owned taskId task found

variable [Libraries]

variable {operation : Operation} {earlier : List Operation}

theorem Operation.IsFresh.absent (fresh : operation.IsFresh earlier) (id : TaskId)
    (creates : (∃ now task, operation = .create id now task) ∨
      ∃ now task brief, operation = .createWithBrief id now task brief) :
    (stateAfter earlier).get id = none := by
  rcases creates with ⟨now, task, rfl⟩ | ⟨now, task, brief, rfl⟩
  · exact fresh
  · exact fresh

theorem Invariant.outcome (invariant : Invariant (stateAfter earlier))
    (fresh : operation.IsFresh earlier) :
    Outcome (stateAfter earlier) operation (operation.run (stateAfter earlier)) :=
  run_outcome invariant.validation invariant.terminal operation fresh.absent

variable {result : Bool × TaskManager}

theorem Outcome.invariant
    (outcome : Outcome manager operation result) (invariant : Invariant manager) :
    Invariant result.2 := by
  cases outcome with
  | refused | bound | hidden | closed | exited => exact invariant
  | noted bound => exact invariant.noteExit bound
  | created record creates fresh created unbound unvalidated visible =>
    exact invariant.created fresh unbound unvalidated visible
  | moved moved step => exact moved.invariant step invariant

theorem invariant_stateAfter (operations : List Operation) (fresh : Fresh operations) :
    Invariant (stateAfter operations) := by
  induction operations using List.reverseRecOn with
  | nil => exact invariant_new
  | append_singleton earlier operation ih =>
    have invariant := ih fresh.left
    rw [stateAfter_concat]
    exact (invariant.outcome fresh.last).invariant invariant

theorem Outcome.attempt (outcome : Outcome manager operation result)
    (found : manager.get taskId = some task) : ∃ later, result.2.get taskId = some later ∧
      task.validation.attempt ≤ later.validation.attempt := by
  cases outcome with
  | refused | bound | hidden | closed | exited | noted => exact ⟨task, found, le_rfl⟩
  | created record creates fresh =>
    refine ⟨task, ?_, le_rfl⟩
    rw [get_created, if_neg, found]
    rintro rfl
    rw [fresh] at found
    cases found
  | moved moved step =>
    rw [moved.get]
    split
    · rename_i same
      subst same
      have grows := step.attempt
      rw [Option.some.inj (moved.found.symm.trans found)] at grows
      exact ⟨_, rfl, grows⟩
    · exact ⟨task, found, le_rfl⟩

theorem attempt_mono {front back : List Operation} (fresh : Fresh (front ++ back))
    (found : (stateAfter front).get taskId = some task) :
    ∃ later, (stateAfter (front ++ back)).get taskId = some later ∧
      task.validation.attempt ≤ later.validation.attempt := by
  induction back using List.reverseRecOn with
  | nil => exact ⟨task, by rwa [List.append_nil], le_rfl⟩
  | append_singleton earlier operation ih =>
    rw [← List.append_assoc] at fresh ⊢
    obtain ⟨middle, found', grows⟩ := ih fresh.left
    have invariant := invariant_stateAfter _ fresh.left
    obtain ⟨later, found'', grows'⟩ := (invariant.outcome fresh.last).attempt found'
    exact ⟨later, by rw [stateAfter_concat, found''], Nat.le_trans grows grows'⟩

/-- Every session belongs to one task in one role. -/
theorem ownership (operations : List Operation) (fresh : Fresh operations) :
    let manager := stateAfter operations
    (∀ session taskId, manager.tasksByTerminalSession session = some taskId ↔
      ∃ task, manager.get taskId = some task ∧ task.terminalSessionId = some session) ∧
    (∀ session taskId, manager.tasksByValidationSession session = some taskId ↔
      ∃ task, manager.get taskId = some task ∧
        task.validation.terminalSessionId = some session) ∧
    (∀ session, manager.tasksByTerminalSession session = none ∨
      manager.tasksByValidationSession session = none) ∧
    (∀ session, manager.exitedTerminalSessions session = true →
      manager.tasksByTerminalSession session ≠ none) ∧
    (∀ taskId, manager.nativeEventStreams taskId ≠ none →
      ∃ task, manager.get taskId = some task ∧ task.status.isTerminal = false ∧
        task.runtimeKind = .native ∧ task.terminalSessionId = none ∧
        task.validation.status ≠ .running) ∧
    (∀ taskId task, manager.get taskId = some task → task.validation.status = .running →
      task.status = .readyForReview ∧ task.validation.terminalSessionId ≠ none ∧
        manager.hasActiveAgentEventStream taskId = false) ∧
    ∀ front back, operations = front ++ back → ∀ taskId task,
      (stateAfter front).get taskId = some task → ∃ later, manager.get taskId = some later ∧
        task.validation.attempt ≤ later.validation.attempt := by
  intro manager
  have invariant : Invariant manager := invariant_stateAfter operations fresh
  refine ⟨fun session taskId => ?_, fun session taskId => ?_, fun session => ?_,
    fun session noted => ?_, fun taskId streamed => ?_, fun taskId task found running => ?_, ?_⟩
  · rw [invariant.terminal session taskId, terminalKey, Option.bind_eq_some_iff]
  · rw [invariant.validation session taskId, validationKey, Option.bind_eq_some_iff]
  · cases bound : manager.tasksByTerminalSession session with
    | none => exact Or.inl rfl
    | some taskId =>
      refine Or.inr (Option.eq_none_iff_forall_ne_some.mpr fun other => ?_)
      exact invariant.disjoint session taskId other bound
  · obtain ⟨taskId, bound⟩ := invariant.exited session noted
    simp [bound]
  · cases found : manager.get taskId with
    | none => exact absurd (invariant.streams taskId found) streamed
    | some task =>
      obtain ⟨live, native, unbound, unrun⟩ :=
        (invariant.owned taskId task found).streaming streamed
      exact ⟨task, rfl, live, native, unbound, by simp [unrun]⟩
  · obtain ⟨reviewing, bound, unstreamed⟩ :=
      (invariant.owned taskId task found).validating running
    refine ⟨reviewing, by simpa [Option.isSome_iff_ne_none] using bound, ?_⟩
    simp [TaskManager.hasActiveAgentEventStream, unstreamed, invariant.local_streams taskId]
  · rintro front back rfl taskId task found
    exact attempt_mono fresh found

end

@[reducible]
def quietLibraries : Libraries where
  parseJson _ := none
  noDuplicateMembers _ := true
  isUnsafeInvisibleChar _ := false

/-- A task over two directories. -/
def sampleTask : NewTask where
  title := ['t']
  provider := .codex
  repoRoot := ['/', 'r']
  worktreePath := ['/', 'w']
  branch := ['b']
  baseCommit := List.replicate 40 '0'
  sourceContext := none

def boundRun : List Operation := [.create 7 0 sampleTask] ++ [.bindTerminal 7 [0x61] 1]

theorem ownership_boundRun :
    let _ := quietLibraries
    (stateAfter boundRun).tasksByTerminalSession [0x61] = none ∨
      (stateAfter boundRun).tasksByValidationSession [0x61] = none := by
  let _ := quietLibraries
  have created : Fresh ([] ++ [Operation.create 7 0 sampleTask]) := fresh_nil.concat rfl
  have fresh : Fresh boundRun := created.concat trivial
  exact (ownership boundRun fresh).2.2.1 [0x61]

end JtermCore.Tasks
