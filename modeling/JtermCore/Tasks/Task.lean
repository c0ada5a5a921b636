import JtermCore.Tasks.Event

/-!
# Agent tasks

A task owns a worktree, the runtime it was started with, and its latest
validation attempt.  What a user may enter for a new task is checked first.
-/

namespace JtermCore

namespace Tasks

open ExecutionJournal Result Utf8

inductive TaskValidationStatus where
  | notRun
  | running
  | passed
  | failed
  | inconclusive
  | cancelled
deriving DecidableEq

/-- A stable terminal session identity. -/
abbrev SessionId := Bytes

structure TaskValidationState where
  status : TaskValidationStatus
  attempt : Nat
  terminalSessionId : Option SessionId
  exitCode : Option Int
  statusDetail : Option String
deriving DecidableEq

def TaskValidationState.initial : TaskValidationState where
  status := .notRun
  attempt := 0
  terminalSessionId := none
  exitCode := none
  statusDetail := none

/-- A new validation state after work was resumed: only the attempt remains. -/
def TaskValidationState.stale (validation : TaskValidationState) (detail : String) :
    TaskValidationState :=
  if validation ≠ .initial then
    { TaskValidationState.initial with
      attempt := validation.attempt
      statusDetail := some detail }
  else validation

inductive TaskRuntimeKind where
  | unassigned
  | terminal
  | native
  | terminalFallback
deriving DecidableEq

def TaskRuntimeKind.isTerminal : TaskRuntimeKind → Bool
  | .terminal | .terminalFallback => true
  | _ => false

/-- What the manager reads of a `SemanticCommandContext`. -/
structure SemanticCommandContext where
  sourceSessionId : SessionId
  sourceExecutionId : List Char
deriving DecidableEq

structure TaskSource where
  sessionId : SessionId
  executionId : List Char
deriving DecidableEq

structure TaskValidationRecipe where
  command : List Char
  shell : List Char
deriving DecidableEq

structure TaskBrief where
  goal : List Char
  validation : Option TaskValidationRecipe
deriving DecidableEq

structure NewTask where
  title : List Char
  provider : AgentProvider
  repoRoot : List Char
  worktreePath : List Char
  branch : List Char
  baseCommit : List Char
  sourceContext : Option SemanticCommandContext
deriving DecidableEq

structure AgentTask where
  id : TaskId
  title : List Char
  provider : AgentProvider
  status : TaskStatus
  repoRoot : List Char
  worktreePath : List Char
  branch : List Char
  baseCommit : List Char
  source : Option TaskSource
  sourceContext : Option SemanticCommandContext
  brief : Option TaskBrief
  runtimeKind : TaskRuntimeKind
  terminalSessionId : Option SessionId
  validation : TaskValidationState
  exitCode : Option Int
  statusDetail : Option String
  createdAtMs : Nat
  updatedAtMs : Nat
  archivedFrom : Option TaskStatus
deriving DecidableEq

inductive TaskError where
  | invalidTitle
  | invalidBranch
  | invalidBaseCommit
  | repoRootMustBeAbsolute
  | worktreePathMustBeAbsolute
  | worktreeMatchesRepoRoot
  | invalidSourceContext
  | invalidBrief (reason : String)
  | cannotCompleteAfterManualReview (taskId : TaskId)
  | invalidTerminalSessionId
  | nativeRuntimeAlreadySelected (taskId : TaskId)
  | nativeEventStreamActive (taskId : TaskId)
  | cannotBindTerminalInState (taskId : TaskId) (status : TaskStatus)
  | cannotBindValidationInState (taskId : TaskId) (status : TaskStatus)
  | validationAlreadyRunning (taskId : TaskId) (sessionId : SessionId)
  | validationAttemptExhausted (taskId : TaskId)
  | nativeEventStreamActiveDuringValidation (taskId : TaskId)
  | completionRequiresValidation (taskId : TaskId)
  | cannotCompleteAfterValidation (taskId : TaskId) (status : TaskStatus)
      (validationStatus : TaskValidationStatus)
  | cannotLeaveTerminalState (taskId : TaskId) (current requested : TaskStatus)
  | unknownTask (taskId : TaskId)
  | terminalSessionAlreadyBound (sessionId : SessionId) (taskId : TaskId)
  | taskAlreadyBoundToTerminal (taskId : TaskId) (sessionId : SessionId)
  | terminalFallbackUnavailable (taskId : TaskId) (status : TaskStatus)
  | terminalRetryUnavailable (taskId : TaskId) (status : TaskStatus)
  | cannotArchiveRunning (taskId : TaskId)
  | notArchived (taskId : TaskId)
  | archivedStateUnknown (taskId : TaskId)
deriving DecidableEq

def utf8Length (text : List Char) : Nat := (encodeUtf8 text).length

def isAbsolute (path : List Char) : Bool := path.head? = some '/'

/-- What two paths are compared by: whether they are rooted, and their parts
without empty ones and without `.` behind the first. -/
def pathComponents (path : List Char) : Bool × List (List Char) :=
  let parts := path.splitOn '/'
  if isAbsolute path then (true, parts.filter fun part => part ≠ [] && part ≠ ['.'])
  else
    match parts with
    | ['.'] :: rest => (false, ['.'] :: rest.filter fun part => part ≠ [] && part ≠ ['.'])
    | _ => (false, parts.filter fun part => part ≠ [] && part ≠ ['.'])

def maxTaskTitleBytes : Nat := 256

def maxBranchBytes : Nat := 512

def taskGoalMaxBytes : Nat := 16 * 1024

def isAsciiHexdigit (char : Char) : Bool :=
  ('0' ≤ char && char ≤ '9') || ('a' ≤ char && char ≤ 'f') || ('A' ≤ char && char ≤ 'F')

def validateNewTask (task : NewTask) : Except TaskError Unit := do
  let title := trimChars task.title
  reject (title = [] ∨ maxTaskTitleBytes < utf8Length title ∨ title.any isControl) .invalidTitle
  reject (task.branch = [] ∨ maxBranchBytes < utf8Length task.branch ∨
    task.branch.any isControl) .invalidBranch
  reject (¬ (utf8Length task.baseCommit = 40 ∨ utf8Length task.baseCommit = 64) ∨
    ¬ task.baseCommit.all isAsciiHexdigit) .invalidBaseCommit
  reject (!isAbsolute task.repoRoot) .repoRootMustBeAbsolute
  reject (!isAbsolute task.worktreePath) .worktreePathMustBeAbsolute
  reject (pathComponents task.repoRoot = pathComponents task.worktreePath) .worktreeMatchesRepoRoot
  reject (task.sourceContext.any fun context =>
    !isValidJshSessionId context.sourceSessionId || context.sourceExecutionId.isEmpty ||
      256 < utf8Length context.sourceExecutionId || context.sourceExecutionId.any isControl)
    .invalidSourceContext

section

variable [Libraries]

inductive ReplayTextError where
  | empty
  | tooLarge (limit : Nat)
  | visualSpoof
deriving DecidableEq

/-- `fmt` of a `ReplayTextError`. -/
def ReplayTextError.text : ReplayTextError → String
  | .empty => "the command is empty"
  | .tooLarge limit => "the command exceeds the " ++ toString limit ++ "-byte replay limit"
  | .visualSpoof =>
    "the command contains an invisible or bidirectional formatting character"

def maxReplayCommandBytes : Nat := maxCommandBytes

def sanitizeLoop : List Char → Except ReplayTextError (List Char)
  | [] => .ok []
  | '\r' :: '\n' :: rest => (sanitizeLoop rest).map ('\n' :: ·)
  | char :: rest =>
    if char = '\r' then (sanitizeLoop rest).map ('\n' :: ·)
    else if char = '\n' || char = '\t' then (sanitizeLoop rest).map (char :: ·)
    else if isControl char then sanitizeLoop rest
    else if Libraries.isUnsafeInvisibleChar char then .error .visualSpoof
    else (sanitizeLoop rest).map (char :: ·)

def sanitizeHistoryReplay (text : List Char) (maxBytes : Nat) :
    Except ReplayTextError (List Char) := do
  reject (maxBytes < utf8Length text) (.tooLarge maxBytes)
  let sanitized ← sanitizeLoop text
  reject (sanitized.all fun char => char = ' ' || char = '\n' || char = '\t') .empty
  return sanitized

def TaskValidationRecipe.validate (recipe : TaskValidationRecipe) : Except String Unit := do
  let sanitized ← (sanitizeHistoryReplay recipe.command maxReplayCommandBytes).mapError
    fun error => "Invalid validation command: " ++ error.text
  reject (sanitized ≠ recipe.command ∨ '\n' ∈ recipe.command ∨ '\r' ∈ recipe.command)
    "Validation requires one exact, single-line command without control characters."
  reject (4096 < utf8Length recipe.shell ∨ ¬ isAbsolute recipe.shell ∨
    recipe.shell.any isControl ∨ recipe.shell.any Libraries.isUnsafeInvisibleChar)
    "Choose an absolute, bounded shell path for validation."

def TaskBrief.validate (brief : TaskBrief) : Except String Unit := do
  reject (trimChars brief.goal = [] ∨ taskGoalMaxBytes < utf8Length brief.goal)
    "Describe the task goal in 1 to 16,384 UTF-8 bytes."
  reject (brief.goal.any (fun char => isControl char && !(char = '\n' || char = '\t')) ∨
    brief.goal.any fun char => !isControl char && Libraries.isUnsafeInvisibleChar char)
    "The task goal contains unsupported control or invisible formatting characters."
  match brief.validation with
  | some recipe => recipe.validate
  | none => return ()

def AgentTask.requiresManualReview (task : AgentTask) : Bool :=
  task.sourceContext.isNone &&
    task.brief.any fun brief => brief.validation.isNone && brief.validate.isOk

end

end Tasks

end JtermCore

/-!
# The table of tasks

The tasks stand in a vector in the order in which they were created; a map
finds the index of each identity.
-/

namespace JtermCore

namespace Tasks

structure TaskTable where
  tasks : List AgentTask
  indices : TaskId → Option Nat
  indexed : ∀ id index, indices id = some index → ∃ task, tasks[index]? = some task ∧ task.id = id

namespace TaskTable

def empty : TaskTable where
  tasks := []
  indices _ := none
  indexed _ _ found := by cases found

def get (table : TaskTable) (id : TaskId) : Option AgentTask :=
  (table.indices id).bind (table.tasks[·]?)

/-- File a task under its identity. -/
def push (table : TaskTable) (task : AgentTask) : TaskTable where
  tasks := table.tasks ++ [task]
  indices := Function.update table.indices task.id (some table.tasks.length)
  indexed id index found := by
    by_cases same : id = task.id
    · subst same
      rw [Function.update_self] at found
      exact ⟨task, by simp [← Option.some.inj found], rfl⟩
    · rw [Function.update_of_ne same] at found
      obtain ⟨other, stored, rfl⟩ := table.indexed id index found
      have inside := (List.getElem?_eq_some_iff.mp stored).1
      exact ⟨other, by rw [List.getElem?_append_left inside, stored], rfl⟩

/-- Change a task in place; its identity stays. -/
def modify (table : TaskTable) (id : TaskId) (change : AgentTask → AgentTask)
    (keeps : ∀ task, (change task).id = task.id) : TaskTable where
  tasks :=
    match table.indices id with
    | some index => table.tasks.modify index change
    | none => table.tasks
  indices := table.indices
  indexed other index found := by
    obtain ⟨task, stored, rfl⟩ := table.indexed other index found
    cases table.indices id with
    | none => exact ⟨task, stored, rfl⟩
    | some changed =>
      by_cases same : changed = index
      · exact ⟨change task, by simp [same, stored], keeps task⟩
      · exact ⟨task, by simp [same, stored], rfl⟩

@[simp]
theorem get_empty (id : TaskId) : empty.get id = none :=
  rfl

theorem get_id {table : TaskTable} {id : TaskId} {task : AgentTask}
    (found : table.get id = some task) : task.id = id := by
  obtain ⟨index, filed, stored⟩ := Option.bind_eq_some_iff.mp found
  obtain ⟨other, stored', rfl⟩ := table.indexed id index filed
  rw [Option.some.inj (stored.symm.trans stored')]

theorem get_push (table : TaskTable) (task : AgentTask) (id : TaskId) :
    (table.push task).get id = if id = task.id then some task else table.get id := by
  unfold push get
  by_cases same : id = task.id
  · simp [same]
  · dsimp only
    rw [if_neg same, Function.update_of_ne same]
    cases found : table.indices id with
    | none => rfl
    | some index =>
      obtain ⟨other, stored, -⟩ := table.indexed id index found
      have inside := (List.getElem?_eq_some_iff.mp stored).1
      exact List.getElem?_append_left inside

theorem get_modify (table : TaskTable) (id other : TaskId) (change : AgentTask → AgentTask)
    (keeps : ∀ task, (change task).id = task.id) : (table.modify id change keeps).get other =
      if other = id then (table.get id).map change else table.get other := by
  unfold modify get
  dsimp only
  cases filed : table.indices id with
  | none =>
    by_cases same : other = id
    · simp [same, filed]
    · rw [if_neg same]
  | some index =>
    by_cases same : other = id
    · simp [same, filed]
    · rw [if_neg same]
      cases found : table.indices other with
      | none => rfl
      | some place =>
        -- Two identities never share an index.
        have apart : index ≠ place := by
          rintro rfl
          obtain ⟨task, stored, rfl⟩ := table.indexed id index filed
          obtain ⟨task', stored', rfl⟩ := table.indexed other index found
          exact same (congrArg AgentTask.id (Option.some.inj (stored'.symm.trans stored)))
        simp [apart]

end TaskTable

end Tasks

end JtermCore
