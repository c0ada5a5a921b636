import Mathlib.Data.List.Dedup
import JtermCore.DepthFirst
import JtermCore.Keyed
import JtermCore.Workflows.Render

/-!
# The work queue

The queue holds an intent for each task, with the tasks that it waits for.  A
change is made on a copy of the entries, which takes their place when there are
not too many and no task waits for itself.
-/

namespace JtermCore.Workspace

open Bytes ExecutionJournal Relation Result Workflows

def workspaceQueueLimit : Nat := 256

def workspaceQueueDependencies : Nat := 32

abbrev ConversationId := Bytes

inductive WorkspaceExecutionLocation where
  | «local»
  | ssh (host : Bytes)
  | dlc (job : Bytes)
deriving DecidableEq

structure WorkspaceQueueIntent where
  id : ConversationId
  dependencies : List ConversationId
  location : WorkspaceExecutionLocation
deriving DecidableEq

structure WorkspaceQueuedIntent where
  intent : WorkspaceQueueIntent
  queuedAtMs : Nat
deriving DecidableEq

def WorkspaceQueuedIntent.id (entry : WorkspaceQueuedIntent) : ConversationId := entry.intent.id

structure WorkspaceQueueSnapshot where
  revision : Nat
  entries : List WorkspaceQueuedIntent
deriving DecidableEq

inductive WorkspaceQueueChange where
  | upsert (intent : WorkspaceQueueIntent)
  | remove (id : ConversationId)
deriving DecidableEq

/-- The start of a task identity. -/
def taskPrefix : Bytes := ofAscii "jterm:task:v1:"

section

variable [Libraries]

def taskParts (id : ConversationId) : Option (Bytes × Bytes × Bytes) :=
  if taskPrefix.isPrefixOf id then
    match Libraries.parseJson (id.drop taskPrefix.length) with
    | some (.array [.string host, .string name, .string task]) => some (host, name, task)
    | _ => none
  else
    none

def validTaskId (id : ConversationId) : Except Bytes Unit := do
  reject (taskPrefix.isPrefixOf id = false ∨ 32768 < id.length ∨ 0 ∈ id)
    (ofAscii "The queue requires a source-qualified task identity")
  reject ((taskParts id).any (fun (host, name, task) =>
      !host.isEmpty && !name.isEmpty && !task.isEmpty) = false)
    (ofAscii "The queue requires an exact host, namespace and task identity")

def WorkspaceExecutionLocation.validate : WorkspaceExecutionLocation → Except Bytes Unit
  | .local => .ok ()
  | .ssh value | .dlc value =>
    reject (value.isEmpty = true ∨ 512 < value.length ∨
        (validateReviewInput value).toOption.isNone = true)
      (ofAscii "Execution location requires a bounded, visible identity")

def validateDependency (id : ConversationId) (seen : List ConversationId)
    (dependency : ConversationId) : Except Bytes (List ConversationId) := do
  validTaskId dependency
  reject (dependency = id) (ofAscii "A task cannot depend on itself")
  reject (dependency ∈ seen) (ofAscii "Task dependencies must be unique")
  return dependency :: seen

def WorkspaceQueueIntent.validate (intent : WorkspaceQueueIntent) : Except Bytes Unit := do
  validTaskId intent.id
  intent.location.validate
  reject (workspaceQueueDependencies < intent.dependencies.length)
    (ofAscii "Use at most " ++ decimalText workspaceQueueDependencies ++
      ofAscii " task dependencies")
  let _ ← intent.dependencies.foldlM (validateDependency intent.id) []

end

def graphKeys (entries : List WorkspaceQueuedIntent) : List ConversationId :=
  (entries.map WorkspaceQueuedIntent.id).dedup.mergeSort fun first second => decide (first ≤ second)

/-- The map in `validate_graph`, in which a later entry takes the place of an
earlier one. -/
def graphOf (entries : List WorkspaceQueuedIntent) (id : ConversationId) :
    Option (List ConversationId) :=
  (Keyed.get WorkspaceQueuedIntent.id id entries.reverse).map fun entry => entry.intent.dependencies

def cycleMessage : Bytes := ofAscii "Task dependency cycle rejected; the queue was not changed"

def validateGraph (entries : List WorkspaceQueuedIntent) : Option (Except Bytes Unit) :=
  DepthFirst.search (graphOf entries) cycleMessage ((graphKeys entries).length + 1)
    (graphKeys entries) []

def candidate (entries : List WorkspaceQueuedIntent) (change : WorkspaceQueueChange) (now : Nat) :
    List WorkspaceQueuedIntent :=
  match change with
  | .remove id => Keyed.remove WorkspaceQueuedIntent.id id entries
  | .upsert intent =>
    match Keyed.get WorkspaceQueuedIntent.id intent.id entries with
    | some _ =>
      Keyed.modify WorkspaceQueuedIntent.id intent.id (fun entry => { entry with intent }) entries
    | none => entries ++ [{ intent, queuedAtMs := now }]

section

variable [Libraries]

def WorkspaceQueueChange.check : WorkspaceQueueChange → Except Bytes Unit
  | .remove id => validTaskId id
  | .upsert intent => intent.validate

def WorkspaceQueueSnapshot.applyChange (queue : WorkspaceQueueSnapshot)
    (change : WorkspaceQueueChange) (now : Nat) :
    Option (Except Bytes Unit × WorkspaceQueueSnapshot) :=
  match change.check with
  | .error error => some (.error error, queue)
  | .ok () =>
    let changed := candidate queue.entries change now
    if workspaceQueueLimit < changed.length then
      some (.error (ofAscii "The queue holds at most " ++ decimalText workspaceQueueLimit ++
        ofAscii " tasks"), queue)
    else
      (validateGraph changed).map fun result =>
        match result with
        | .error error => (.error error, queue)
        | .ok () => (.ok (), { queue with entries := changed })

end

variable {entries : List WorkspaceQueuedIntent} {id : ConversationId}

/-- A task waits for another one that is queued. -/
def DependsOn (entries : List WorkspaceQueuedIntent) (first second : ConversationId) : Prop :=
  ∃ entry ∈ entries, entry.id = first ∧ second ∈ entry.intent.dependencies ∧
    second ∈ entries.map WorkspaceQueuedIntent.id

variable {intent : WorkspaceQueueIntent}

section

variable [Libraries]

structure ValidQueue (entries : List WorkspaceQueuedIntent) : Prop where
  unique : (entries.map WorkspaceQueuedIntent.id).Nodup
  bounded : entries.length ≤ workspaceQueueLimit
  intents : ∀ entry ∈ entries, entry.intent.validate = .ok ()
  acyclic : ∀ id, ¬ TransGen (DependsOn entries) id id

theorem ValidQueue.nil : ValidQueue [] where
  unique := List.nodup_nil
  bounded := Nat.zero_le _
  intents := fun _ member => (List.not_mem_nil member).elim
  acyclic := by
    intro id circle
    obtain ⟨_, ⟨_, member, -⟩, -⟩ := TransGen.head'_iff.mp circle
    exact (List.not_mem_nil member).elim

end

end JtermCore.Workspace
