import JtermCore.Tasks.Completion

/-!
# Hiding a task

A task that `archive` hid is shown again in the status it had, whatever happened
in between.  `update_status` hides a task as well, but notes no status to return
to.  Nothing else takes a task out of a terminal status but an archive, a
restore, and a terminal that carries the work on.
-/

namespace JtermCore.Tasks

open ExecutionJournal Result

theorem TaskTable.modify_congr {table : TaskTable} {id : TaskId} {task : AgentTask}
    (found : table.get id = some task) {first second : AgentTask → AgentTask}
    (keeps : ∀ task, (first task).id = task.id) (keeps' : ∀ task, (second task).id = task.id)
    (same : first task = second task) :
    table.modify id first keeps = table.modify id second keeps' := by
  obtain ⟨index, filed, stored⟩ := Option.bind_eq_some_iff.mp found
  simp only [modify, mk.injEq, and_true, filed]
  apply List.ext_getElem?
  intro place
  rw [List.getElem?_modify, List.getElem?_modify]
  split
  · rename_i here
    rw [← here, stored]
    exact congrArg some same
  · rfl

theorem TaskTable.modify_modify (table : TaskTable) (id : TaskId)
    {first second : AgentTask → AgentTask} (keeps : ∀ task, (first task).id = task.id)
    (keeps' : ∀ task, (second task).id = task.id) :
    (table.modify id first keeps).modify id second keeps' =
      table.modify id (second ∘ first) fun task => (keeps' _).trans (keeps task) := by
  simp only [modify, mk.injEq, and_true]
  cases table.indices id with
  | none => rfl
  | some index => exact List.modify_modify_eq first second index table.tasks

section

variable [Libraries]

section

variable {operation : Operation} {before after : Local}

omit [Libraries] in
theorem statusAfterEvent_visible {current next : TaskStatus} {kind : AgentEventKind}
    {updates : Bool} (moves : statusAfterEvent current kind = some (next, updates))
    (visible : current ≠ .archived) : next ≠ .archived := by
  rintro rfl
  unfold statusAfterEvent at moves
  split at moves <;> first | cases moves | (split at moves <;> cases moves)
  all_goals exact visible rfl

section

variable (step : TaskStep operation before after)

include step

theorem TaskStep.hides
    (visible : before.task.status ≠ .archived) (hidden : after.task.status = .archived) :
    (∃ now, operation = .archive before.task.id now ∧
        after.task.archivedFrom = some before.task.status) ∨
      ∃ detail now, operation = .updateStatus before.task.id .archived detail now ∧
        after.task.archivedFrom = before.task.archivedFrom := by
  cases step with
  | started created =>
    dsimp only [AgentTask.installed] at hidden
    split at hidden
    · cases hidden
    · exact absurd hidden visible
  | resumed =>
    dsimp only [AgentTask.installed] at hidden
    split at hidden
    · cases hidden
    · exact absurd hidden visible
  | finished names live moves reaches =>
    have shown := statusAfterEvent_visible moves visible
    rw [show _ = _ from reaches] at hidden
    split at hidden
    · cases hidden
    · exact absurd hidden shown
  | rolledBack | boundTerminal | retried | fellBack | agentClosed => cases hidden
  | applied names live inOrder inTurn moves reaches =>
    have shown := statusAfterEvent_visible moves visible
    dsimp only at hidden
    split at hidden
    · rw [show _ = _ from reaches] at hidden
      split at hidden
      · cases hidden
      · exact absurd hidden shown
    · exact absurd hidden visible
  | boundValidation | validationExited | validationClosed => exact absurd hidden visible
  | @statusSet task status detail now =>
    obtain rfl : status = .archived := hidden
    exact Or.inr ⟨detail, now, rfl, rfl⟩
  | agentExited =>
    dsimp only [AgentTask.agentExited] at hidden
    split at hidden <;> cases hidden
  | archived => exact Or.inl ⟨_, rfl, rfl⟩
  | restored archived => exact absurd archived visible
  | invalidated =>
    dsimp only [AgentTask.invalidated] at hidden
    split at hidden
    · exact absurd hidden visible
    · exact absurd hidden visible
  | validated | reviewed => cases hidden

theorem TaskStep.of_terminal
    (terminal : before.task.status.isTerminal = true) : after.task.status = before.task.status ∧
        after.task.archivedFrom = before.task.archivedFrom ∨
      (∃ now, operation = .archive before.task.id now) ∧ before.task.status ≠ .archived ∨
      (∃ now, operation = .restore before.task.id now) ∨
      (∃ old new now, operation = .bindRetry before.task.id old new now) ∧
        before.task.status = .failed ∨
      (∃ session now, operation = .bindFallback before.task.id session now) ∧
        before.task.status = .failed := by
  cases step with
  | started created =>
    rw [show _ = _ from created] at terminal
    cases terminal
  | resumed reviewing | boundValidation reviewing | validated reviewing | reviewed reviewing =>
    rw [show _ = _ from reviewing] at terminal
    cases terminal
  | finished names live | applied names live =>
    rw [show _ = _ from live] at terminal
    cases terminal
  | rolledBack names starting =>
    rw [show _ = _ from starting] at terminal
    cases terminal
  | boundTerminal foreign early =>
    rcases early with created | starting
    · rw [show _ = _ from created] at terminal
      cases terminal
    · rw [show _ = _ from starting] at terminal
      cases terminal
  | retried failed => exact Or.inr (Or.inr (Or.inr (Or.inl ⟨⟨_, _, _, rfl⟩, failed⟩)))
  | fellBack stopped =>
    rcases stopped with failed | reviewing
    · exact Or.inr (Or.inr (Or.inr (Or.inr ⟨⟨_, _, rfl⟩, failed⟩)))
    · rw [show _ = _ from reviewing] at terminal
      cases terminal
  | statusSet incomplete leaves => exact Or.inl ⟨(leaves terminal).symm, rfl⟩
  | validationExited | validationClosed => exact Or.inl ⟨rfl, rfl⟩
  | agentExited bound unsettled | agentClosed bound unsettled =>
    have settled := isSettled_of_isTerminal terminal
    rw [show _ = _ from unsettled] at settled
    cases settled
  | archived idle stopped visible => exact Or.inr (Or.inl ⟨⟨_, rfl⟩, visible⟩)
  | restored => exact Or.inr (Or.inr (Or.inl ⟨_, rfl⟩))
  | invalidated =>
    left
    dsimp only [AgentTask.invalidated]
    split
    · exact ⟨rfl, rfl⟩
    · exact ⟨rfl, rfl⟩

theorem TaskStep.keeps_hidden (hidden : before.task.status = .archived) :
    after.task.status = .archived ∧ after.task.archivedFrom = before.task.archivedFrom ∨
      ∃ now, operation = .restore before.task.id now := by
  have terminal : before.task.status.isTerminal = true := by
    rw [hidden]
    rfl
  rcases step.of_terminal terminal with ⟨same, noted⟩ | ⟨-, visible⟩ | restored | ⟨-, failed⟩ |
    ⟨-, failed⟩
  · exact Or.inl ⟨same.trans hidden, noted⟩
  · exact absurd hidden visible
  · exact Or.inr restored
  · rw [hidden] at failed
    cases failed
  · rw [hidden] at failed
    cases failed

end

theorem TaskStep.shown {now : Nat} (step : TaskStep (.restore before.task.id now) before after) :
    before.task.archivedFrom = some after.task.status ∧ after.task.status ≠ .archived := by
  generalize same : Operation.restore before.task.id now = restored at step
  cases step with
  | restored hidden recorded known => exact ⟨recorded, known⟩
  | _ => cases same

end

section

variable {operations : List Operation} {taskId : TaskId} {task : AgentTask}

/-- The operation hid a task that was visible before, and the task is hidden
ever since. -/
def HiddenBy (taskId : TaskId) (before : AgentTask) (operation : Operation)
    (operations : List Operation) : Prop := ∃ front back, operations = front ++ operation :: back ∧
    operation.Accepted (stateAfter front) ∧ (stateAfter front).get taskId = some before ∧
    before.status ≠ .archived ∧
    ∀ left right, back = left ++ right → ∃ hidden,
      (stateAfter (front ++ operation :: left)).get taskId = some hidden ∧ hidden.status = .archived

variable {operation : Operation}

theorem HiddenBy.concat {before : AgentTask}
    (hiddenBy : HiddenBy taskId before operation operations) {last : Operation}
    {hidden : AgentTask} (found : (stateAfter (operations ++ [last])).get taskId = some hidden)
    (archived : hidden.status = .archived) :
    HiddenBy taskId before operation (operations ++ [last]) := by
  obtain ⟨front, back, rfl, accepted, known, visible, since⟩ := hiddenBy
  refine ⟨front, back ++ [last], by simp, accepted, known, visible, ?_⟩
  intro left right splits
  rcases append_concat splits with ⟨-, rfl⟩ | ⟨rest, -, same⟩
  · exact ⟨hidden, by simpa using found, archived⟩
  · exact since left rest same

theorem hidden_by (fresh : Fresh operations)
    (found : (stateAfter operations).get taskId = some task) (hidden : task.status = .archived) :
    ∃ before operation, HiddenBy taskId before operation operations ∧
      ((∃ now, operation = .archive taskId now) ∧ task.archivedFrom = some before.status ∨
        (∃ detail now, operation = .updateStatus taskId .archived detail now) ∧
          task.archivedFrom = none) := by
  induction operations using List.reverseRecOn generalizing task with
  | nil => cases found
  | append_singleton earlier operation ih =>
    have invariant := invariant_stateAfter earlier fresh.left
    have found' := found
    rw [stateAfter_concat] at found'
    rcases (invariant.outcome fresh.last).at found' with same | ⟨-, created, -⟩ |
      ⟨before, after, rfl, known, stream, rfl, accepted, step⟩
    · obtain ⟨before, hides, hiddenBy, noted⟩ := ih fresh.left same hidden
      exact ⟨before, hides, hiddenBy.concat found hidden, noted⟩
    · rw [created] at hidden
      cases hidden
    · by_cases already : before.task.status = .archived
      · rcases step.keeps_hidden already with ⟨-, same⟩ | ⟨now, rfl⟩
        · obtain ⟨visible, hides, hiddenBy, noted⟩ := ih fresh.left known already
          rw [same]
          exact ⟨visible, hides, hiddenBy.concat found hidden, noted⟩
        · exact absurd hidden step.shown.2
      · refine ⟨before.task, operation, ⟨earlier, [], rfl, accepted, known, already, ?_⟩, ?_⟩
        · intro left right splits
          obtain ⟨rfl, rfl⟩ := List.append_eq_nil_iff.mp splits.symm
          exact ⟨after.task, found, hidden⟩
        · rcases step.hides already hidden with ⟨now, same, noted⟩ | ⟨detail, now, same, noted⟩
          · exact Or.inl ⟨⟨now, same⟩, noted⟩
          · have unnoted := (invariant.owned _ _ known).visible already
            exact Or.inr ⟨⟨detail, now, same⟩, noted.trans unnoted⟩

def Restores (taskId : TaskId) (status : TaskStatus) (manager : TaskManager) : Prop :=
  ∀ now, (Operation.restore taskId now).Accepted manager ∧
    ∃ task, ((Operation.restore taskId now).run manager).2.get taskId = some task ∧
      task.status = status

variable {manager : TaskManager} {status : TaskStatus}

omit [Libraries] in
theorem checkRestore_eq_ok (found : manager.get taskId = some task) :
    manager.checkRestore taskId = .ok status ↔
      task.status = .archived ∧ task.archivedFrom = some status ∧ status ≠ .archived := by
  simp [TaskManager.checkRestore, found, Option.filter_eq_some_iff]

section

variable (found : manager.get taskId = some task)

include found

theorem restore_run (hidden : task.status = .archived) (noted : task.archivedFrom = some status)
    (visible : status ≠ .archived) (now : Nat) :
    (Operation.restore taskId now).run manager =
      (true, manager.modifyTask taskId (·.shown status now) (shown_id status now)) := by
  have checked := (checkRestore_eq_ok found).mpr ⟨hidden, noted, visible⟩
  simp only [Operation.run, restore, outcome_borrow, checked, outcome_taskMut_last, found]

theorem restores_iff (hidden : task.status = .archived) (visible : status ≠ .archived) :
    Restores taskId status manager ↔ task.archivedFrom = some status := by
  constructor
  · intro restores
    obtain ⟨accepted, shown, stored, rfl⟩ := restores 0
    cases checked : manager.checkRestore taskId with
    | error error =>
      simp only [Operation.Accepted, Operation.run, restore, outcome_borrow, checked,
        Bool.false_eq_true] at accepted
    | ok noted =>
      obtain ⟨-, recorded, known⟩ := (checkRestore_eq_ok found).mp checked
      rw [restore_run found hidden recorded known, TaskManager.get_modifyTask, if_pos rfl,
        found] at stored
      rw [recorded, ← Option.some.inj stored]
      rfl
  · intro noted now
    rw [Operation.Accepted, restore_run found hidden noted visible]
    refine ⟨rfl, task.shown status now, ?_, rfl⟩
    rw [TaskManager.get_modifyTask, if_pos rfl, found]
    rfl

theorem archive_run (visible : task.status ≠ .archived)
    (now : Nat) (accepted : (Operation.archive taskId now).Accepted manager) :
    (Operation.archive taskId now).run manager =
      (true, manager.modifyTask taskId (·.hidden now) (hidden_id now)) := by
  rw [Operation.Accepted] at accepted
  simp only [Operation.run, archive, outcome_borrow] at accepted ⊢
  cases checked : manager.canArchive taskId with
  | error error =>
    rw [checked] at accepted
    cases accepted
  | ok same =>
    have stored : manager.get taskId = some same := by
      simp only [TaskManager.canArchive, bind_eq_ok, okOr_eq_ok, reject_eq_ok,
        pure_eq_ok] at checked
      obtain ⟨other, stored, -, -, rfl⟩ := checked
      exact stored
    obtain rfl := Option.some.inj (stored.symm.trans found)
    simp only [if_neg visible, outcome_taskMut_last, found]

theorem archive_restore
    (visible : task.status ≠ .archived) (unnoted : task.archivedFrom = none) {hideNow : Nat}
    (accepted : (Operation.archive taskId hideNow).Accepted manager) (now : Nat) :
    (Operation.restore taskId now).run ((Operation.archive taskId hideNow).run manager).2 =
      (true, manager.modifyTask taskId (fun task => { task with updatedAtMs := now })
        fun _ => rfl) := by
  have hidden : (manager.modifyTask taskId (·.hidden hideNow) (hidden_id hideNow)).get taskId =
      some (task.hidden hideNow) := by
    rw [TaskManager.get_modifyTask, if_pos rfl, found]
    rfl
  rw [archive_run found visible hideNow accepted, restore_run hidden rfl rfl visible]
  unfold TaskManager.modifyTask
  rw [TaskTable.modify_modify]
  have same : ((·.shown task.status now) ∘ (·.hidden hideNow)) task =
      { task with updatedAtMs := now } := by simp [AgentTask.shown, AgentTask.hidden, ← unnoted]
  rw [@TaskTable.modify_congr _ _ _ found _ (fun task => { task with updatedAtMs := now }) _
    (fun _ => rfl) same]

end

omit [Libraries] in
theorem canArchive_eq_ok :
    manager.canArchive taskId = .ok task ↔
      manager.get taskId = some task ∧ manager.hasActiveAgentEventStream taskId = false ∧
        task.status.isRunning = false ∧ task.validation.status ≠ .running := by
  simp only [TaskManager.canArchive, bind_eq_ok, okOr_eq_ok, reject_eq_ok, pure_eq_ok, not_or,
    Bool.not_eq_true]
  constructor
  · rintro ⟨same, found, -, idle, rfl⟩
    exact ⟨found, idle⟩
  · rintro ⟨found, idle⟩
    exact ⟨task, found, (), idle, rfl⟩

theorem archive_archive (manager : TaskManager) (taskId : TaskId) (first second : Nat) :
    (Operation.archive taskId second).run ((Operation.archive taskId first).run manager).2 =
      (Operation.archive taskId first).run manager := by
  simp only [Operation.run, archive, outcome_borrow]
  cases checked : manager.canArchive taskId with
  | error error => simp only [checked]
  | ok task =>
    obtain ⟨found, inactive, stopped, idle⟩ := canArchive_eq_ok.mp checked
    by_cases already : task.status = .archived
    · simp only [if_pos already, outcome_pure, checked]
    · have again : (manager.modifyTask taskId (·.hidden first) (hidden_id first)).canArchive
          taskId = .ok (task.hidden first) := by
        refine canArchive_eq_ok.mpr ⟨?_, inactive, rfl, idle⟩
        rw [TaskManager.get_modifyTask, if_pos rfl, found]
        rfl
      have hidden : (task.hidden first).status = .archived := rfl
      simp only [if_neg already, outcome_taskMut_last, found, again, if_pos hidden, outcome_pure]

/-- What takes a task out of a terminal status. -/
def Operation.Reopens (operation : Operation) (taskId : TaskId) : Prop :=
  (∃ now, operation = .archive taskId now) ∨ (∃ now, operation = .restore taskId now) ∨
    (∃ old new now, operation = .bindRetry taskId old new now) ∨
      ∃ session now, operation = .bindFallback taskId session now

theorem Outcome.of_terminal {result : Bool × TaskManager}
    (outcome : Outcome manager operation result) (found : manager.get taskId = some task)
    (terminal : task.status.isTerminal = true) : ∃ later, result.2.get taskId = some later ∧
      (later.status = task.status ∨ result.1 = true ∧ operation.Reopens taskId) := by
  cases outcome with
  | refused | bound | hidden | closed | exited | noted => exact ⟨task, found, Or.inl rfl⟩
  | created record creates fresh =>
    refine ⟨task, ?_, Or.inl rfl⟩
    rw [get_created, if_neg ?_]
    · exact found
    · rintro rfl
      rw [fresh] at found
      cases found
  | @moved operation later before after moved step =>
    rw [moved.get]
    split
    · rename_i here
      subst here
      obtain rfl := Option.some.inj (moved.found.symm.trans found)
      refine ⟨after.task, rfl, ?_⟩
      rcases step.of_terminal terminal with ⟨same, -⟩ | ⟨archived, -⟩ | restored | ⟨retried, -⟩ |
        ⟨fellBack, -⟩
      · exact Or.inl same
      · exact Or.inr ⟨rfl, Or.inl archived⟩
      · exact Or.inr ⟨rfl, Or.inr (Or.inl restored)⟩
      · exact Or.inr ⟨rfl, Or.inr (Or.inr (Or.inl retried))⟩
      · exact Or.inr ⟨rfl, Or.inr (Or.inr (Or.inr fellBack))⟩
    · exact ⟨task, found, Or.inl rfl⟩

/-- A hidden task can be restored to the status it was hidden in exactly if
`archive` hid it.  To hide a task and show it again changes only the time of the
change, to hide it twice is to hide it once, and a task leaves a terminal status
only when it is hidden, shown, or continued in a new terminal. -/
theorem restorable_iff_archived (operations : List Operation) (fresh : Fresh operations)
    (taskId : TaskId) (task : AgentTask)
    (found : (stateAfter operations).get taskId = some task) :
    (task.status = .archived → ∃ before operation, HiddenBy taskId before operation operations ∧
      (Restores taskId before.status (stateAfter operations) ↔
        ∃ now, operation = .archive taskId now)) ∧
    (task.status ≠ .archived → ∀ hideNow now,
      (Operation.archive taskId hideNow).Accepted (stateAfter operations) →
      (Operation.restore taskId now).run
          ((Operation.archive taskId hideNow).run (stateAfter operations)).2 =
        (true, (stateAfter operations).modifyTask taskId
          (fun task => { task with updatedAtMs := now }) fun _ => rfl)) ∧
    (∀ first second,
      (Operation.archive taskId second).run
          ((Operation.archive taskId first).run (stateAfter operations)).2 =
        (Operation.archive taskId first).run (stateAfter operations)) ∧
    (task.status.isTerminal = true → ∀ operation : Operation, operation.IsFresh operations →
      ∃ later, (operation.run (stateAfter operations)).2.get taskId = some later ∧
        (later.status = task.status ∨
          operation.Accepted (stateAfter operations) ∧ operation.Reopens taskId)) := by
  have invariant := invariant_stateAfter operations fresh
  refine ⟨?_, ?_, archive_archive _ taskId, ?_⟩
  · intro hidden
    obtain ⟨before, operation, hiddenBy, how⟩ := hidden_by fresh found hidden
    have visible : before.status ≠ .archived := by
      obtain ⟨-, -, -, -, -, visible, -⟩ := hiddenBy
      exact visible
    refine ⟨before, operation, hiddenBy, ?_⟩
    rw [restores_iff found hidden visible]
    rcases how with ⟨archived, noted⟩ | ⟨⟨detail, now, rfl⟩, unnoted⟩
    · exact iff_of_true noted archived
    · refine iff_of_false ?_ ?_
      · rw [unnoted]
        exact Option.some_ne_none _ ∘ Eq.symm
      · rintro ⟨now, same⟩
        cases same
  · intro visible hideNow now accepted
    exact archive_restore found visible ((invariant.owned taskId task found).visible visible)
      accepted now
  · intro terminal operation last
    exact (invariant.outcome last).of_terminal found terminal

end

end

/-- A task that its status hides cannot be shown again. -/
theorem archived_by_status_stays :
    let _ := quietLibraries
    let operations : List Operation := [.create 7 0 sampleTask, .updateStatus 7 .archived none 1]
    Fresh operations ∧
      ((stateAfter operations).get 7).map (·.status) = some .archived ∧
      ¬ ∃ before operation, HiddenBy 7 before operation operations ∧
        Restores 7 before.status (stateAfter operations) := by
  intro libraries operations
  refine ⟨?_, by decide +kernel, ?_⟩
  · have created : Fresh ([] ++ [Operation.create 7 0 sampleTask]) := fresh_nil.concat rfl
    exact created.concat trivial
  · rintro ⟨before, operation, -, restores⟩
    have refused : ((Operation.restore 7 2).run (stateAfter operations)).1 = false := by
      decide +kernel
    have accepted : ((Operation.restore 7 2).run (stateAfter operations)).1 = true :=
      (restores 2).1
    rw [refused] at accepted
    cases accepted

theorem restorable_iff_archived_validatedRun :
    let _ := quietLibraries
    ∃ before operation, HiddenBy 7 before operation (validatedRun ++ [.archive 7 5]) ∧
      (Restores 7 before.status (stateAfter (validatedRun ++ [.archive 7 5])) ↔
        ∃ now, operation = .archive 7 now) := by
  intro libraries
  have created : Fresh ([] ++ [Operation.create 7 0 sampleTask]) := fresh_nil.concat rfl
  have fresh : Fresh (validatedRun ++ [.archive 7 5]) := by
    refine .concat (.concat (.concat (.concat (.concat created ?_) ?_) ?_) ?_) ?_ <;> trivial
  have stored : ((stateAfter (validatedRun ++ [.archive 7 5])).get 7).map (·.status) =
      some .archived := by
    decide +kernel
  obtain ⟨task, found, hidden⟩ := Option.map_eq_some_iff.mp stored
  exact (restorable_iff_archived _ fresh 7 task found).1 hidden

end JtermCore.Tasks
