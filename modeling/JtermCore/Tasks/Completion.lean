import JtermCore.Tasks.Ownership

/-!
# Completion needs fresh proof

A task that is validated has passed in this very run: its validation session
was bound, the process of that session exited with zero, and nothing resumed
the work since.
-/

namespace JtermCore.Tasks

open ExecutionJournal

section

variable [Libraries]

/-- An accepted operation that resumes the work of a task, or that takes its
passed result back. -/
def Operation.Undermines (operation : Operation) (taskId : TaskId) (manager : TaskManager) :
    Prop :=
  operation.Accepted manager ∧
    match operation with
    | start started .. => started = taskId
    | resume resumed .. => resumed = taskId
    | bindTerminal bound session _ =>
      bound = taskId ∧ manager.tasksByTerminalSession session ≠ some taskId
    | bindRetry retried .. => retried = taskId
    | bindFallback fallen .. => fallen = taskId
    | updateStatus updated status .. =>
      updated = taskId ∧ (status = .created ∨ status.isRunning = true)
    | invalidate invalidated .. =>
      invalidated = taskId ∧
        ∃ task, manager.get taskId = some task ∧ task.validation.status = .passed
    | _ => False

structure Undisturbed (taskId : TaskId) (front back : List Operation) : Prop where
  unstreamed : ∀ left right, back = left ++ right →
    (stateAfter (front ++ left)).hasActiveAgentEventStream taskId = false
  kept : ∀ left operation right, back = left ++ operation :: right →
    ¬ operation.Undermines taskId (stateAfter (front ++ left))

/-- A validation of the task was bound, and nothing resumed the work since. -/
def Validating (taskId : TaskId) (session : SessionId) (operations : List Operation) : Prop :=
  ∃ front now back, operations = front ++ .bindValidation taskId session now :: back ∧
    (Operation.bindValidation taskId session now).Accepted (stateAfter front) ∧
    Undisturbed taskId (front ++ [.bindValidation taskId session now]) back

/-- A validation of the task was bound, its process exited with zero, and
nothing resumed the work since the bind. -/
def Proven (taskId : TaskId) (operations : List Operation) : Prop :=
  ∃ session front bindNow middle exitNow back,
    operations = front ++ .bindValidation taskId session bindNow ::
      (middle ++ .terminalExit session (some 0) exitNow :: back) ∧
    (Operation.bindValidation taskId session bindNow).Accepted (stateAfter front) ∧
    (Operation.terminalExit session (some 0) exitNow).Accepted
      (stateAfter (front ++ .bindValidation taskId session bindNow :: middle)) ∧
    Undisturbed taskId (front ++ [.bindValidation taskId session bindNow])
      (middle ++ .terminalExit session (some 0) exitNow :: back)

def HiddenAt (taskId : TaskId) (status : TaskStatus) (operations : List Operation) : Prop :=
  ∃ front now back task, operations = front ++ .archive taskId now :: back ∧
    (Operation.archive taskId now).Accepted (stateAfter front) ∧
    (stateAfter front).get taskId = some task ∧ task.status = status ∧
    ∀ left right, back = left ++ right → ∃ hidden,
      (stateAfter (front ++ .archive taskId now :: left)).get taskId = some hidden ∧
        hidden.status = .archived

section

variable {taskId : TaskId} {front back : List Operation} {operation : Operation}

omit [Libraries] in
theorem append_concat {back left right : List Operation} {operation : Operation}
    (splits : back ++ [operation] = left ++ right) :
    right = [] ∧ left = back ++ [operation] ∨
      ∃ rest, right = rest ++ [operation] ∧ back = left ++ rest := by
  rcases List.eq_nil_or_concat right with rfl | ⟨rest, final, rfl⟩
  · exact Or.inl ⟨rfl, by simpa using splits.symm⟩
  · rw [List.concat_eq_append, ← List.append_assoc] at splits
    obtain ⟨same, final'⟩ := List.append_inj' splits rfl
    rw [List.concat_eq_append, ← final']
    exact Or.inr ⟨rest, rfl, same⟩

theorem undisturbed_nil (idle : (stateAfter front).hasActiveAgentEventStream taskId = false) :
    Undisturbed taskId front [] where
  unstreamed left right splits := by
    obtain ⟨rfl, rfl⟩ := List.append_eq_nil_iff.mp splits.symm
    rwa [List.append_nil]
  kept left operation right splits := by simp at splits

theorem Undisturbed.concat (undisturbed : Undisturbed taskId front back)
    (kept : ¬ operation.Undermines taskId (stateAfter (front ++ back)))
    (idle : (stateAfter (front ++ back ++ [operation])).hasActiveAgentEventStream taskId = false) :
    Undisturbed taskId front (back ++ [operation]) where
  unstreamed left right splits := by
    rcases append_concat splits with ⟨-, rfl⟩ | ⟨rest, -, same⟩
    · rwa [← List.append_assoc]
    · exact undisturbed.unstreamed left rest same
  kept left other right splits := by
    rcases append_concat splits with ⟨empty, -⟩ | ⟨rest, same, rfl⟩
    · cases empty
    · cases rest with
      | nil =>
        obtain ⟨rfl, rfl⟩ := List.cons.inj same
        rwa [List.append_nil] at kept
      | cons first tail =>
        obtain ⟨rfl, -⟩ := List.cons.inj same
        exact undisturbed.kept left other tail rfl

variable {operations : List Operation} {session : SessionId}

theorem Validating.concat (validating : Validating taskId session operations)
    (kept : ¬ operation.Undermines taskId (stateAfter operations))
    (idle : (stateAfter (operations ++ [operation])).hasActiveAgentEventStream taskId = false) :
    Validating taskId session (operations ++ [operation]) := by
  obtain ⟨front, now, back, rfl, accepted, undisturbed⟩ := validating
  refine ⟨front, now, back ++ [operation], by simp, accepted, undisturbed.concat ?_ ?_⟩
  · simpa using kept
  · simpa using idle

theorem Proven.concat (proven : Proven taskId operations)
    (kept : ¬ operation.Undermines taskId (stateAfter operations))
    (idle : (stateAfter (operations ++ [operation])).hasActiveAgentEventStream taskId = false) :
    Proven taskId (operations ++ [operation]) := by
  obtain ⟨session, front, bindNow, middle, exitNow, back, rfl, bound, exited, undisturbed⟩ := proven
  refine ⟨session, front, bindNow, middle, exitNow, back ++ [operation], by simp, bound, exited, ?_⟩
  have longer : Undisturbed taskId (front ++ [.bindValidation taskId session bindNow])
      (middle ++ .terminalExit session (some 0) exitNow :: back ++ [operation]) :=
    undisturbed.concat (by simpa using kept) (by simpa using idle)
  simpa using longer

theorem Validating.exited {now : Nat} (validating : Validating taskId session operations)
    (accepted : (Operation.terminalExit session (some 0) now).Accepted (stateAfter operations))
    (idle : (stateAfter (operations ++ [.terminalExit session (some 0) now])
      ).hasActiveAgentEventStream taskId = false) :
    Proven taskId (operations ++ [.terminalExit session (some 0) now]) := by
  obtain ⟨front, bindNow, back, rfl, bound, undisturbed⟩ := validating
  refine ⟨session, front, bindNow, back, now, [], by simp, bound, accepted, ?_⟩
  refine undisturbed.concat ?_ (by simpa using idle)
  rintro ⟨-, undermines⟩
  exact undermines

theorem HiddenAt.concat {status : TaskStatus}
    (hiddenAt : HiddenAt taskId status operations) {hidden : AgentTask}
    (found : (stateAfter (operations ++ [operation])).get taskId = some hidden)
    (archived : hidden.status = .archived) :
    HiddenAt taskId status (operations ++ [operation]) := by
  obtain ⟨front, now, back, task, rfl, accepted, stored, same, since⟩ := hiddenAt
  refine ⟨front, now, back ++ [operation], task, by simp, accepted, stored, same, ?_⟩
  intro left right splits
  rcases append_concat splits with ⟨-, rfl⟩ | ⟨rest, -, same'⟩
  · exact ⟨hidden, by simpa using found, archived⟩
  · exact since left rest same'

end

section

variable {manager : TaskManager} {operation : Operation} {result : Bool × TaskManager}
  {taskId : TaskId} {task : AgentTask}

theorem Outcome.at (outcome : Outcome manager operation result)
    (found : result.2.get taskId = some task) :
    manager.get taskId = some task ∨
      (manager.get taskId = none ∧ task.status = .created ∧ task.validation = .initial ∧
        task.archivedFrom = none) ∨
      ∃ before after, before.task.id = taskId ∧ manager.get taskId = some before.task ∧
        manager.nativeEventStreams taskId = before.stream ∧ after.task = task ∧
        result.1 = true ∧ TaskStep operation before after := by
  cases outcome with
  | refused | bound | hidden | closed | exited | noted => exact Or.inl found
  | created record creates fresh created unbound unvalidated visible =>
    rw [get_created] at found
    split at found
    · rename_i same
      cases found
      exact Or.inr (Or.inl ⟨same ▸ fresh, created, unvalidated, visible⟩)
    · exact Or.inl found
  | @moved operation later before after moved step =>
    rw [moved.get] at found
    split at found
    · rename_i same
      cases found
      subst same
      exact Or.inr (Or.inr ⟨before, after, rfl, moved.found, moved.stream, rfl, rfl, step⟩)
    · exact Or.inl found

variable {validation : TaskValidationState}

omit [Libraries] in
theorem running_not_stale {detail : String} :
    (validation.stale detail).status ≠ .running ∧ (validation.stale detail).status ≠ .passed := by
  simp

variable {before after : Local}

theorem TaskStep.running (step : TaskStep operation before after)
    (running : after.task.validation.status = .running) : before.task.validation.status = .running ∧
        before.task.validation.terminalSessionId = after.task.validation.terminalSessionId ∨
      ∃ session now, operation = .bindValidation before.task.id session now ∧
        after.task.validation.terminalSessionId = some session := by
  cases step with
  | finished | rolledBack | boundTerminal | agentExited | agentClosed | archived | restored
  | validated | reviewed => exact Or.inl ⟨running, rfl⟩
  | started | resumed | retried | fellBack => exact absurd running running_not_stale.1
  | applied =>
    dsimp only at running ⊢
    split at running
    · rename_i updated
      rw [if_pos updated]
      dsimp only [AgentTask.notified] at running ⊢
      split at running
      · exact absurd running running_not_stale.1
      · rename_i sameTurn
        rw [if_neg sameTurn]
        exact Or.inl ⟨running, rfl⟩
    · rename_i quiet
      rw [if_neg quiet]
      exact Or.inl ⟨running, rfl⟩
  | boundValidation => exact Or.inr ⟨_, _, rfl, rfl⟩
  | statusSet =>
    dsimp only [AgentTask.withStatus] at running ⊢
    split at running
    · cases running
    · rename_i keeps
      rw [if_neg keeps]
      exact Or.inl ⟨running, rfl⟩
  | validationExited => exact absurd running (exited_status _ _ _).1
  | validationClosed => cases running
  | invalidated =>
    dsimp only [AgentTask.invalidated] at running ⊢
    split at running
    · cases running
    · rename_i keeps
      rw [if_neg keeps]
      exact Or.inl ⟨running, rfl⟩

theorem TaskStep.passed (step : TaskStep operation before after)
    (passed : after.task.validation.status = .passed) :
    before.task.validation.status = .passed ∨
      ∃ session now, operation = .terminalExit session (some 0) now ∧
        before.task.validation.status = .running ∧
        before.task.validation.terminalSessionId = some session := by
  cases step with
  | finished | rolledBack | boundTerminal | agentExited | agentClosed | archived | restored
  | validated | reviewed => exact Or.inl passed
  | started | resumed | retried | fellBack => exact absurd passed running_not_stale.2
  | applied =>
    dsimp only at passed
    split at passed
    · dsimp only [AgentTask.notified] at passed
      split at passed
      · exact absurd passed running_not_stale.2
      · exact Or.inl passed
    · exact Or.inl passed
  | boundValidation | validationClosed => cases passed
  | statusSet =>
    dsimp only [AgentTask.withStatus] at passed
    split at passed
    · cases passed
    · exact Or.inl passed
  | @validationExited task stream session exitCode now bound running =>
    refine Or.inr ⟨session, now, ?_, running, bound⟩
    dsimp only [AgentTask.validationExited] at passed
    split at passed
    · rfl
    · cases passed
    · cases passed
  | invalidated =>
    dsimp only [AgentTask.invalidated] at passed
    split at passed
    · cases passed
    · exact Or.inl passed

variable {status : TaskStatus}

theorem TaskStep.hidden (step : TaskStep operation before after)
    (recorded : after.task.archivedFrom = some status) :
    before.task.archivedFrom = some status ∨
      ∃ now, operation = .archive before.task.id now ∧ before.task.status = status := by
  cases step with
  | started | resumed | finished | rolledBack | boundTerminal | retried | fellBack
  | boundValidation | statusSet | validationExited | agentExited | validationClosed | agentClosed
  | validated | reviewed => exact Or.inl recorded
  | applied =>
    dsimp only at recorded
    split at recorded
    · exact Or.inl recorded
    · exact Or.inl recorded
  | archived => exact Or.inr ⟨_, rfl, Option.some.inj recorded⟩
  | restored => cases recorded
  | invalidated =>
    dsimp only [AgentTask.invalidated] at recorded
    split at recorded
    · exact Or.inl recorded
    · exact Or.inl recorded

omit [Libraries] in
theorem statusAfterEvent_incomplete {current next : TaskStatus} {kind : AgentEventKind}
    {updates : Bool} (moves : statusAfterEvent current kind = some (next, updates))
    (incomplete : current ≠ .completed) : next ≠ .completed := by
  rintro rfl
  unfold statusAfterEvent at moves
  split at moves <;> first | cases moves | (split at moves <;> cases moves)
  all_goals exact incomplete rfl

omit [Libraries] in
theorem not_completed_of_live (live : status.isTerminal = false) : status ≠ .completed := by
  rintro rfl
  cases live

theorem TaskStep.completed (step : TaskStep operation before after)
    (completed : after.task.status = .completed) :
    before.task.status = .completed ∨
      (∃ now, operation = .restore before.task.id now ∧
        before.task.archivedFrom = some .completed) ∨
      (∃ now, operation = .completeAfterValidation before.task.id now) ∨
      ∃ now, operation = .completeAfterManualReview before.task.id now := by
  cases step with
  | started created =>
    dsimp only [AgentTask.installed] at completed
    split at completed
    · cases completed
    · exact Or.inl completed
  | resumed =>
    dsimp only [AgentTask.installed] at completed
    split at completed
    · cases completed
    · exact Or.inl completed
  | finished names live moves reaches =>
    have incomplete := statusAfterEvent_incomplete moves (not_completed_of_live live)
    rw [show _ = _ from reaches] at completed
    split at completed
    · cases completed
    · exact absurd completed incomplete
  | rolledBack | boundTerminal | retried | fellBack => cases completed
  | applied names live inOrder inTurn moves reaches =>
    have incomplete := statusAfterEvent_incomplete moves (not_completed_of_live live)
    dsimp only at completed
    split at completed
    · rw [show _ = _ from reaches] at completed
      split at completed
      · cases completed
      · exact absurd completed incomplete
    · exact Or.inl completed
  | boundValidation | validationExited | validationClosed => exact Or.inl completed
  | statusSet incomplete => exact absurd completed incomplete
  | agentExited =>
    dsimp only [AgentTask.agentExited] at completed
    split at completed <;> cases completed
  | agentClosed => cases completed
  | archived => cases completed
  | restored hidden recorded => exact Or.inr (Or.inl ⟨_, rfl, completed ▸ recorded⟩)
  | invalidated =>
    dsimp only [AgentTask.invalidated] at completed
    split at completed
    · exact Or.inl completed
    · exact Or.inl completed
  | validated => exact Or.inr (Or.inr (Or.inl ⟨_, rfl⟩))
  | reviewed => exact Or.inr (Or.inr (Or.inr ⟨_, rfl⟩))

variable {before after : Local} {later : TaskManager}

omit [Libraries] in
theorem Moved.get_self
    (moved : Moved manager later before after) : later.get before.task.id = some after.task := by
  rw [moved.get, if_pos rfl]

omit [Libraries] in
theorem Invariant.owned_before
    (invariant : Invariant manager) (moved : Moved manager later before after) :
    Owned before.task before.stream := by
  have owned := invariant.owned _ _ moved.found
  rwa [moved.stream] at owned

theorem withStatus_resumed {detail : Option String} {now : Nat}
    (owned : Owned task none) (resumes : status = .created ∨ status.isRunning = true)
    (validating : task.validation.status = .running → status = task.status) :
    (task.withStatus status detail now).validation.status = .notRun := by
  have idle : task.validation.status ≠ .running := by
    intro running
    have reviewing := (owned.validating running).1
    rw [validating running, reviewing] at resumes
    rcases resumes with created | runs
    · cases created
    · cases runs
  by_cases unrun : task.validation.status = .notRun
  · dsimp only [AgentTask.withStatus]
    split
    · rfl
    · exact unrun
  · have resumed : task.resumedBy status = true := by
      simpa [AgentTask.resumedBy, unrun, idle] using resumes
    dsimp only [AgentTask.withStatus]
    rw [if_pos resumed]
    rfl

omit [Libraries] in
theorem no_result (unrun : validation.status = .notRun) :
    validation.status ≠ .running ∧ validation.status ≠ .passed := by
  rw [unrun]
  simp

omit [Libraries] in
theorem invalidated_result {detail : String} {now : Nat}
    (passed : task.validation.status = .passed) :
    (task.invalidated detail now).validation.status ≠ .running ∧
      (task.invalidated detail now).validation.status ≠ .passed := by
  rw [AgentTask.invalidated, if_pos passed]
  simp

theorem Outcome.undermined (outcome : Outcome manager operation (operation.run manager))
    (invariant : Invariant manager) (undermines : operation.Undermines taskId manager)
    (found : (operation.run manager).2.get taskId = some task) :
    task.validation.status ≠ .running ∧ task.validation.status ≠ .passed := by
  obtain ⟨accepted, resumes⟩ := undermines
  unfold Operation.Accepted at accepted
  generalize operation.run manager = result at outcome accepted found
  cases outcome with
  | refused => cases accepted
  | bound own =>
    obtain ⟨rfl, unbound⟩ := resumes
    exact absurd own unbound
  | hidden | closed | exited | noted => exact resumes.elim
  | created record creates =>
    rcases creates with ⟨now, new, rfl⟩ | ⟨now, new, brief, rfl⟩
    · exact resumes.elim
    · exact resumes.elim
  | moved moved step =>
    have owned := invariant.owned_before moved
    have stored := moved.get_self
    cases step with
    | started | resumed | retried | fellBack =>
      subst resumes
      obtain rfl := Option.some.inj (stored.symm.trans found)
      exact running_not_stale
    | boundTerminal foreign early unbound =>
      obtain ⟨rfl, -⟩ := resumes
      obtain rfl := Option.some.inj (stored.symm.trans found)
      have unrun := owned.notRun (by
        rcases early with created | starting
        · simp [created, TaskStatus.isSettled]
        · simp [starting, TaskStatus.isSettled])
      exact no_result unrun
    | statusSet incomplete leaves validating consumed =>
      obtain ⟨rfl, status⟩ := resumes
      obtain rfl := Option.some.inj (stored.symm.trans found)
      exact no_result (withStatus_resumed owned status validating)
    | invalidated =>
      obtain ⟨rfl, known, known', passed⟩ := resumes
      obtain rfl := Option.some.inj (stored.symm.trans found)
      obtain rfl := Option.some.inj (moved.found.symm.trans known')
      exact invalidated_result passed
    | finished | rolledBack | applied | boundValidation | validationExited | agentExited
    | validationClosed | agentClosed | archived | restored | validated | reviewed =>
      exact resumes.elim

end

section

variable {operations : List Operation} {operation : Operation} {taskId : TaskId}
  {task : AgentTask}

section

omit [Libraries]

variable {manager : TaskManager}

theorem Invariant.unstreamed (invariant : Invariant manager)
    (stream : manager.nativeEventStreams taskId = none) :
    manager.hasActiveAgentEventStream taskId = false := by
  simp [TaskManager.hasActiveAgentEventStream, stream, invariant.local_streams taskId]

theorem Moved.inactive {later : TaskManager} {before : Local} {task : AgentTask}
    (moved : Moved manager later before ⟨task, none⟩) (invariant : Invariant manager) :
    later.hasActiveAgentEventStream before.task.id = false := by
  simp [TaskManager.hasActiveAgentEventStream, moved.streams, moved.remote,
    invariant.local_streams before.task.id]

theorem Invariant.inactive (invariant : Invariant manager)
    (found : manager.get taskId = some task) (evident : task.validation.status ≠ .notRun) :
    manager.hasActiveAgentEventStream taskId = false := by
  have unstreamed : manager.nativeEventStreams taskId = none := by
    by_contra streamed
    exact evident ((invariant.owned taskId task found).streaming streamed).2.2.2
  exact invariant.unstreamed unstreamed

end

/-- What the run says about a task that runs a validation, has passed one, or
is hidden. -/
structure Recorded (operations : List Operation) (taskId : TaskId) (task : AgentTask) : Prop where
  running : task.validation.status = .running → ∃ session,
    task.validation.terminalSessionId = some session ∧ Validating taskId session operations
  passed : task.validation.status = .passed → Proven taskId operations
  hidden : ∀ status, task.archivedFrom = some status → HiddenAt taskId status operations

theorem recorded (fresh : Fresh operations)
    (found : (stateAfter operations).get taskId = some task) : Recorded operations taskId task := by
  induction operations using List.reverseRecOn generalizing task with
  | nil => cases found
  | append_singleton earlier operation ih =>
    have invariant := invariant_stateAfter earlier fresh.left
    have later := invariant_stateAfter (earlier ++ [operation]) fresh
    have outcome := invariant.outcome fresh.last
    have found' := found
    rw [stateAfter_concat] at found'
    have kept : task.validation.status = .running ∨ task.validation.status = .passed →
        ¬ operation.Undermines taskId (stateAfter earlier) := by
      intro result undermines
      obtain ⟨idle, unpassed⟩ := outcome.undermined invariant undermines found'
      exact result.elim idle unpassed
    have idle : task.validation.status = .running ∨ task.validation.status = .passed →
        (stateAfter (earlier ++ [operation])).hasActiveAgentEventStream taskId = false := by
      intro result
      apply later.inactive found
      rcases result with running | passed
      · simp [running]
      · simp [passed]
    have archived : ∀ status, task.archivedFrom = some status → task.status = .archived := by
      intro status remembered
      by_contra shown
      rw [(later.owned taskId task found).visible shown] at remembered
      cases remembered
    rcases outcome.at found' with same | ⟨-, -, unrun, visible⟩ |
      ⟨before, after, rfl, known, stream, rfl, accepted, step⟩
    · have old := ih fresh.left same
      refine ⟨fun running => ?_, fun passed => ?_, fun status remembered => ?_⟩
      · obtain ⟨session, bound, validating⟩ := old.running running
        exact ⟨session, bound, validating.concat (kept (Or.inl running)) (idle (Or.inl running))⟩
      · exact (old.passed passed).concat (kept (Or.inr passed)) (idle (Or.inr passed))
      · exact (old.hidden status remembered).concat found (archived status remembered)
    · refine ⟨fun running => ?_, fun passed => ?_, fun status remembered => ?_⟩
      · rw [unrun] at running
        cases running
      · rw [unrun] at passed
        cases passed
      · rw [visible] at remembered
        cases remembered
    · have old := ih fresh.left known
      refine ⟨fun running => ?_, fun passed => ?_, fun status remembered => ?_⟩
      · rcases step.running running with ⟨ran, bound⟩ | ⟨session, now, rfl, bound⟩
        · obtain ⟨session, held, validating⟩ := old.running ran
          exact ⟨session, bound.symm.trans held,
            validating.concat (kept (Or.inl running)) (idle (Or.inl running))⟩
        · exact ⟨session, bound, earlier, now, [], rfl, accepted,
            undisturbed_nil (idle (Or.inl running))⟩
      · rcases step.passed passed with was | ⟨session, now, rfl, ran, bound⟩
        · exact (old.passed was).concat (kept (Or.inr passed)) (idle (Or.inr passed))
        · obtain ⟨session', held, validating⟩ := old.running ran
          obtain rfl := Option.some.inj (bound.symm.trans held)
          exact validating.exited accepted (idle (Or.inr passed))
      · rcases step.hidden remembered with was | ⟨now, rfl, same⟩
        · exact (old.hidden status was).concat found (archived status remembered)
        · refine ⟨earlier, now, [], before.task, rfl, accepted, known, same, ?_⟩
          intro left right splits
          obtain ⟨rfl, rfl⟩ := List.append_eq_nil_iff.mp splits.symm
          exact ⟨after.task, found, archived status remembered⟩

variable {result : Bool × TaskManager} {manager : TaskManager}

theorem Outcome.validated {now : Nat}
    (outcome : Outcome manager (.completeAfterValidation taskId now) result)
    (invariant : Invariant manager) (accepted : result.1 = true) :
    ∃ task, manager.get taskId = some task ∧ task.status = .readyForReview ∧
      task.validation.status = .passed ∧ manager.hasActiveAgentEventStream taskId = false ∧
      result.2.hasActiveAgentEventStream taskId = false := by
  cases outcome with
  | refused => cases accepted
  | created record creates => simp at creates
  | moved moved step =>
    cases step with
    | validated reviewing passed =>
      exact ⟨_, moved.found, reviewing, passed, invariant.unstreamed moved.stream,
        moved.inactive invariant⟩

theorem Outcome.reviewed {now : Nat}
    (outcome : Outcome manager (.completeAfterManualReview taskId now) result)
    (invariant : Invariant manager) (accepted : result.1 = true) :
    ∃ task, manager.get taskId = some task ∧ task.requiresManualReview = true ∧
      task.validation.status = .notRun ∧ manager.hasActiveAgentEventStream taskId = false ∧
      result.2.hasActiveAgentEventStream taskId = false := by
  cases outcome with
  | refused => cases accepted
  | created record creates => simp at creates
  | moved moved step =>
    cases step with
    | reviewed reviewing manual unvalidated =>
      exact ⟨_, moved.found, manual, unvalidated, invariant.unstreamed moved.stream,
        moved.inactive invariant⟩

theorem manual_brief (manual : task.requiresManualReview = true) : task.sourceContext = none ∧
      ∃ brief, task.brief = some brief ∧ brief.validation = none := by
  simp only [AgentTask.requiresManualReview, Bool.and_eq_true, Option.isNone_iff_eq_none,
    Option.any_eq_true] at manual
  obtain ⟨sourceless, brief, authored, recipeless, -⟩ := manual
  exact ⟨sourceless, brief, authored, recipeless⟩

/-- A task is completed only with proof: a restore finds it completed when it
was hidden; a validation passed in this run, and the work was not resumed
since; or a review of work for which no validation was configured. -/
theorem completion_needs_proof (operations : List Operation) (operation : Operation)
    (fresh : Fresh (operations ++ [operation])) (taskId : TaskId) :
    let manager := stateAfter operations
    let later := stateAfter (operations ++ [operation])
    ((∃ task, later.get taskId = some task ∧ task.status = .completed) →
      (¬ ∃ task, manager.get taskId = some task ∧ task.status = .completed) →
      operation.Accepted manager ∧
        ((∃ now, operation = .restore taskId now ∧ HiddenAt taskId .completed operations) ∨
          (∃ now, operation = .completeAfterValidation taskId now) ∨
          ∃ now, operation = .completeAfterManualReview taskId now)) ∧
    (∀ now, operation = .completeAfterValidation taskId now → operation.Accepted manager →
      Proven taskId operations ∧ manager.hasActiveAgentEventStream taskId = false ∧
        later.hasActiveAgentEventStream taskId = false) ∧
    ∀ now, operation = .completeAfterManualReview taskId now → operation.Accepted manager →
      (∃ task brief, manager.get taskId = some task ∧ task.brief = some brief ∧
        brief.validation = none ∧ task.sourceContext = none ∧ task.validation.status = .notRun ∧
        task.validation.terminalSessionId = none ∧ task.validation.exitCode = none) ∧
      manager.hasActiveAgentEventStream taskId = false ∧
        later.hasActiveAgentEventStream taskId = false := by
  intro manager later
  have invariant : Invariant manager := invariant_stateAfter operations fresh.left
  have outcome : Outcome manager operation (operation.run manager) := invariant.outcome fresh.last
  have ran : later = (operation.run manager).2 := stateAfter_concat operations operation
  refine ⟨?_, ?_, ?_⟩
  · rintro ⟨task, found, completed⟩ incomplete
    rw [ran] at found
    rcases outcome.at found with same | ⟨-, created, -⟩ |
      ⟨before, after, rfl, known, stream, rfl, accepted, step⟩
    · exact absurd ⟨task, same, completed⟩ incomplete
    · rw [created] at completed
      cases completed
    · refine ⟨accepted, ?_⟩
      rcases step.completed completed with was | ⟨now, rfl, remembered⟩ | validated | reviewed
      · exact absurd ⟨before.task, known, was⟩ incomplete
      · exact Or.inl ⟨now, rfl, (recorded fresh.left known).hidden _ remembered⟩
      · exact Or.inr (Or.inl validated)
      · exact Or.inr (Or.inr reviewed)
  · rintro now rfl accepted
    obtain ⟨task, found, -, passed, inactive, inactive'⟩ := outcome.validated invariant accepted
    rw [ran]
    exact ⟨(recorded fresh.left found).passed passed, inactive, inactive'⟩
  · rintro now rfl accepted
    obtain ⟨task, found, manual, unvalidated, inactive, inactive'⟩ :=
      outcome.reviewed invariant accepted
    rw [ran]
    obtain ⟨unbound, unexited⟩ := (invariant.owned taskId task found).unrun unvalidated
    obtain ⟨sourceless, brief, authored, recipeless⟩ := manual_brief manual
    exact ⟨⟨task, brief, found, authored, recipeless, sourceless, unvalidated, unbound, unexited⟩,
      inactive, inactive'⟩

def validatedRun : List Operation :=
  [.create 7 0 sampleTask] ++ [.bindTerminal 7 [0x61] 1] ++ [.terminalExit [0x61] (some 0) 2] ++
    [.bindValidation 7 [0x76] 3] ++ [.terminalExit [0x76] (some 0) 4]

end

end

theorem completion_needs_proof_validatedRun :
    let _ := quietLibraries
    Proven 7 validatedRun := by
  let _ := quietLibraries
  have created : Fresh ([] ++ [Operation.create 7 0 sampleTask]) := fresh_nil.concat rfl
  have fresh : Fresh (validatedRun ++ [.completeAfterValidation 7 5]) := by
    refine .concat (.concat (.concat (.concat (.concat created ?_) ?_) ?_) ?_) ?_ <;> trivial
  have accepted : (Operation.completeAfterValidation 7 5).Accepted (stateAfter validatedRun) := by
    unfold Operation.Accepted
    decide +kernel
  exact ((completion_needs_proof validatedRun _ fresh 7).2.1 5 rfl accepted).1

end JtermCore.Tasks
