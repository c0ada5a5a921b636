import JtermCore.Workspace.Queue
import JtermCore.Workspace.Store

/-!
# Revisioned objects of the workspace

The queue, the context of a conversation and a mission each have a revision.  A
writer names the revision that it has read, and a write is refused when another
one came first.  This file embeds `store/queue.rs`, `store/context.rs` and
`store/mission.rs`.
-/

namespace JtermCore.Workspace

open Bytes ExecutionJournal Result Utf8 Workflows

def u64Max : Nat := 2 ^ 64 - 1

def workspaceContextBytes : Nat := 64 * 1024

def workspaceMaterialLimit : Nat := 16

inductive MaterialKind where
  | note
  | fileExcerpt
  | diff
  | log
  | conversationExcerpt
deriving DecidableEq

structure WorkspaceMaterialSource where
  conversation : ConversationId
  eventId : Bytes
  revision : Bytes
deriving DecidableEq

structure WorkspaceMaterial where
  id : Bytes
  label : Bytes
  kind : MaterialKind
  text : Bytes
  source : Option WorkspaceMaterialSource
  truncated : Bool
deriving DecidableEq

structure WorkspaceContext where
  conversation : ConversationId
  revision : Nat
  goal : Bytes
  completed : Bytes
  remaining : Bytes
  constraints : Bytes
  materials : List WorkspaceMaterial
deriving DecidableEq

def WorkspaceContext.empty (conversation : ConversationId) : WorkspaceContext :=
  { conversation, revision := 0, goal := [], completed := [], remaining := [], constraints := []
    materials := [] }

/-- The functions outside this repository that the writers call. -/
class RevisionLibraries extends Libraries where
  redactSecrets : Bytes → Bytes

section

variable [RevisionLibraries]

def validateMaterialText (text : Bytes) : Except Bytes Unit := reject ((chars text).any fun char =>
      (isControl char && !(char = '\n' || char = '\t')) ||
        (!isControl char && isVisualSpoofingCharacter char))
    (ofAscii "Materials contain unsupported control or invisible formatting characters")

def validateMaterial (identifiers : List Bytes) (material : WorkspaceMaterial) :
    Except Bytes (List Bytes) := do
  reject (material.id.isEmpty ∨ 128 < material.id.length ∨ 256 < material.label.length ∨
      material.id ∈ identifiers) (ofAscii "Each material needs a unique bounded identity and label")
  validateMaterialText material.id
  validateMaterialText material.label
  validateMaterialText material.text
  return material.id :: identifiers

def WorkspaceContext.validate (context : WorkspaceContext) : Except Bytes Unit := do
  let texts := [context.goal, context.completed, context.remaining, context.constraints]
  reject (workspaceMaterialLimit < context.materials.length)
    (ofAscii "A context packet supports at most 16 selected materials")
  texts.forM validateMaterialText
  let _ ← context.materials.foldlM validateMaterial []
  reject (workspaceContextBytes < (texts.map List.length).sum +
      (context.materials.map fun material => material.text.length + material.label.length).sum)
    (ofAscii "Selected materials exceed the 64 KiB context budget; remove or shorten an excerpt")

/-- The redaction of a context that is saved. -/
def WorkspaceContext.redacted (context : WorkspaceContext) : WorkspaceContext :=
  let redact := RevisionLibraries.redactSecrets
  { context with
    goal := redact context.goal
    completed := redact context.completed
    remaining := redact context.remaining
    constraints := redact context.constraints
    materials := context.materials.map fun material =>
      { material with text := redact material.text, label := redact material.label } }

end

def missionLimit : Nat := 64

def planBytes : Nat := 128 * 1024

def reportBytes : Nat := 512 * 1024

structure WorkspaceMissionRepositoryIdentity where
  fullName : Bytes
  githubId : Nat
deriving DecidableEq

structure WorkspaceMissionTaskRef where
  conversation : ConversationId
  taskId : Bytes
  runId : Bytes
  sourceSequence : Nat
deriving DecidableEq

structure WorkspaceMissionRepository where
  identity : WorkspaceMissionRepositoryIdentity
  path : Bytes
  baseline : Bytes
  candidate : Option Bytes
  targetRef : Bytes
  requiredCorePin : Option Bytes
  tasks : List WorkspaceMissionTaskRef
  requiredChecks : List Bytes
deriving DecidableEq

inductive WorkspaceMissionPreset where
  | custom
  | fourTerminals
deriving DecidableEq

structure WorkspaceMission where
  id : Bytes
  revision : Nat
  title : Bytes
  goal : Bytes
  requiredEnvironment : Bytes
  updatedAtMs : Nat
  evidenceAfterMs : Nat
  preset : WorkspaceMissionPreset
  repositories : List WorkspaceMissionRepository
deriving DecidableEq

/-- The part of a mission that evidence is collected for is not the same. -/
def WorkspaceMission.contractChanged (previous mission : WorkspaceMission) : Prop :=
  previous.goal ≠ mission.goal ∨ previous.requiredEnvironment ≠ mission.requiredEnvironment ∨
    previous.repositories ≠ mission.repositories ∨ previous.preset ≠ mission.preset

instance (previous mission : WorkspaceMission) : Decidable (previous.contractChanged mission) :=
  inferInstanceAs (Decidable (_ ∨ _))

/-- How missions and their reports are checked and written: the checks of a plan,
which bound its identity, the lengths of the JSON texts, and
`require_reinspection`. -/
structure MissionRules (β : Type) where
  validate : WorkspaceMission → Except Bytes Unit
  id_bounded : ∀ mission, validate mission = .ok () → mission.id.length ≤ 128 ∧ 0 ∉ mission.id
  planLength : WorkspaceMission → Nat
  reportLength : Bytes → Nat → β → Nat
  requireReinspection : β → β

structure WorkspaceMissionReport (β : Type) where
  id : Bytes
  revision : Nat
  observed : β
deriving DecidableEq

structure MissionRow (β : Type) where
  plan : WorkspaceMission
  report : Option (WorkspaceMissionReport β)
deriving DecidableEq

def MissionRow.id {β : Type} (row : MissionRow β) : Bytes := row.plan.id

structure CatalogRow where
  id : ConversationId
  kind : ConversationKind
  active : Bool
deriving DecidableEq

structure HostedRun where
  conversation : ConversationId
  taskId : Bytes
  incarnation : Bytes
deriving DecidableEq

/-- The tables behind the revisioned objects. -/
structure RevisedStore (β : Type) where
  rows : List CatalogRow
  hosted : List HostedRun
  queueRevision : Nat
  queue : List WorkspaceQueuedIntent
  contexts : List WorkspaceContext
  missions : List (MissionRow β)

/-- What a command finds outside the tables: two readings of the clock, and
whether the index has a document. -/
structure Moment where
  now : Nat
  later : Nat
  indexed : WorkspaceMaterialSource → Except Bytes Unit
  now_le : now ≤ u64Max

def storedNumber (number : Nat) : Except Bytes Unit :=
  reject (2 ^ 63 ≤ number) (ofAscii "Revision/ID exceeds the supported range")

def nextRevision (revision : Nat) (error : Bytes) : Except Bytes Nat := do
  reject (u64Max ≤ revision) error
  return revision + 1

section

variable {β : Type} (store : RevisedStore β)

def RevisedStore.row (id : ConversationId) : Option CatalogRow :=
  Keyed.get CatalogRow.id id store.rows

def queuedBefore (first second : WorkspaceQueuedIntent) : Bool :=
  first.queuedAtMs < second.queuedAtMs ||
    (first.queuedAtMs = second.queuedAtMs && first.id ≤ second.id)

section

variable [Libraries]

def RevisedStore.queueValue : Except Bytes WorkspaceQueueSnapshot := do
  let entries := store.queue.mergeSort queuedBefore
  entries.forM fun entry => entry.intent.validate
  reject (workspaceQueueLimit < entries.length)
    (ofAscii "Stored queue exceeds its supported capacity")
  return { revision := store.queueRevision, entries }

def RevisedStore.checkTasks : WorkspaceQueueChange → Except Bytes Unit
  | .remove _ => .ok ()
  | .upsert intent => do
    intent.validate
    (intent.id :: intent.dependencies).forM fun id => do
      let row ← okOr (ofAscii "The exact task is no longer in the workspace catalog") (store.row id)
      reject (row.kind ≠ .task) (ofAscii "Only engineering tasks can enter the dependency queue")

def RevisedStore.writeEntries (snapshot : WorkspaceQueueSnapshot) :
    WorkspaceQueueChange → Except Bytes (List WorkspaceQueuedIntent)
  | .upsert intent => do
    let entry ← okOr (ofAscii "Queue entry disappeared during validation")
      (Keyed.get WorkspaceQueuedIntent.id intent.id snapshot.entries)
    storedNumber entry.queuedAtMs
    return if intent.id ∈ store.queue.map WorkspaceQueuedIntent.id then
      Keyed.modify WorkspaceQueuedIntent.id intent.id (fun old => { old with intent }) store.queue
    else store.queue ++ [{ intent, queuedAtMs := entry.queuedAtMs }]
  | .remove id => .ok (Keyed.remove WorkspaceQueuedIntent.id id store.queue)

/-- The writes of a change: the trigger and the update both move the revision,
and the update comes last. -/
def RevisedStore.writeQueue (snapshot : WorkspaceQueueSnapshot) (change : WorkspaceQueueChange) :
    Except Bytes (RevisedStore β × WorkspaceQueueSnapshot) := do
  let queue ← store.writeEntries snapshot change
  let revision ← nextRevision snapshot.revision (ofAscii "Queue revision exhausted")
  storedNumber revision
  return ({ store with queue, queueRevision := revision }, { snapshot with revision })

def RevisedStore.queueUpdate (moment : Moment) (expected : Nat) (change : WorkspaceQueueChange) :
    Option (Except Bytes (RevisedStore β × WorkspaceQueueSnapshot)) :=
  match store.queueValue with
  | .error error => some (.error error)
  | .ok snapshot =>
    if snapshot.revision ≠ expected then
      some (.error (ofAscii "The task queue changed in another view; refresh before retrying"))
    else
      match store.checkTasks change with
      | .error error => some (.error error)
      | .ok () =>
        (snapshot.applyChange change moment.now).map fun (result, snapshot) => do
          result
          store.writeQueue snapshot change

end

def RevisedStore.delete (id : ConversationId) : Except Bytes (RevisedStore β) := do
  let row ← okOr (ofAscii "Query returned no rows") (store.row id)
  reject row.active (ofAscii "Conversation has a request in flight")
  return { store with
    rows := Keyed.remove CatalogRow.id id store.rows
    hosted := Keyed.remove HostedRun.conversation id store.hosted
    contexts := Keyed.remove WorkspaceContext.conversation id store.contexts
    queue := Keyed.remove WorkspaceQueuedIntent.id id store.queue
    queueRevision := store.queueRevision +
      if id ∈ store.queue.map WorkspaceQueuedIntent.id then 1 else 0 }

def RevisedStore.readContext (id : ConversationId) : Except Bytes WorkspaceContext := do
  let _ ← okOr (ofAscii "Source conversation no longer exists") (store.row id)
  return (Keyed.get WorkspaceContext.conversation id store.contexts).getD (.empty id)

def RevisedStore.saveContext [RevisionLibraries] (moment : Moment) (id : ConversationId)
    (expected : Nat) (context : WorkspaceContext) :
    Except Bytes (RevisedStore β × WorkspaceContext) := do
  reject (context.conversation ≠ id ∨ context.revision ≠ expected)
    (ofAscii "Context identity or revision changed; reload before saving")
  context.validate
  let stored ← store.readContext id
  reject (stored.revision ≠ expected)
    (ofAscii "Materials changed in another window; reload before saving your local edits")
  (context.materials.filterMap WorkspaceMaterial.source).forM moment.indexed
  let revision ← nextRevision expected (ofAscii "Context revision is exhausted")
  storedNumber revision
  let saved := { context.redacted with revision }
  let contexts :=
    if id ∈ store.contexts.map WorkspaceContext.conversation then
      Keyed.modify WorkspaceContext.conversation id (fun _ => saved) store.contexts
    else store.contexts ++ [saved]
  return ({ store with contexts }, saved)

def RevisedStore.readMission (id : Bytes) : Except Bytes WorkspaceMission := do
  reject (128 < id.length ∨ 0 ∈ id) (ofAscii "Invalid or oversized Mission identity")
  let row ← okOr (ofAscii "Mission no longer exists") (Keyed.get MissionRow.id id store.missions)
  return row.plan

variable (rules : MissionRules β)

def RevisedStore.readMissionReply (id : Bytes) :
    Except Bytes (WorkspaceMission × Option (WorkspaceMissionReport β)) := do
  let mission ← store.readMission id
  return (mission, (Keyed.get MissionRow.id id store.missions).bind fun row =>
    row.report.map fun report =>
      { report with observed := rules.requireReinspection report.observed })

def RevisedStore.checkLinked (task : WorkspaceMissionTaskRef) : Except Bytes Unit := do
  let run ← okOr (ofAscii "Linked task is not hosted; inspect the task before linking it")
    (Keyed.get HostedRun.conversation task.conversation store.hosted)
  reject (run.taskId ≠ task.taskId ∨ run.incarnation ≠ task.runId)
    (ofAscii "Linked task run changed; inspect and link the current run")

def RevisedStore.evidenceAfter (now expected : Nat) (mission : WorkspaceMission) :
    Except Bytes Nat :=
  if expected = 0 then .ok now
  else do
    let previous ← store.readMission mission.id
    return if previous.contractChanged mission then
      max now (min (previous.evidenceAfterMs + 1) u64Max)
    else previous.evidenceAfterMs

def RevisedStore.writeMission (expected : Nat) (mission : WorkspaceMission) :
    Except Bytes (RevisedStore β) := do
  let changed := ofAscii
    "Mission changed in another view; reload before retrying. Your draft was not applied."
  if expected = 0 then do
    reject (missionLimit ≤ store.missions.length)
      (ofAscii "The workspace supports up to 64 saved Missions")
    storedNumber mission.revision
    reject (mission.id ∈ store.missions.map MissionRow.id) changed
    return { store with missions := store.missions ++ [{ plan := mission, report := none }] }
  else do
    storedNumber mission.revision
    let row ← okOr changed (Keyed.get MissionRow.id mission.id store.missions)
    reject (row.plan.revision ≠ expected) changed
    return { store with
      missions := Keyed.modify MissionRow.id mission.id
        (fun _ => { plan := mission, report := none }) store.missions }

def RevisedStore.saveMission [RevisionLibraries] (moment : Moment) (expected : Nat)
    (mission : WorkspaceMission) : Except Bytes (RevisedStore β × WorkspaceMission) := do
  rules.validate mission
  reject (mission.revision ≠ expected) (ofAscii "Mission revision changed; reload before saving")
  reject (planBytes < rules.planLength mission) (ofAscii "Mission plan exceeds its 128 KiB budget")
  (mission.repositories.flatMap WorkspaceMissionRepository.tasks).forM store.checkLinked
  let mission := { mission with
    title := RevisionLibraries.redactSecrets mission.title
    goal := RevisionLibraries.redactSecrets mission.goal }
  let evidenceAfterMs ← store.evidenceAfter moment.now expected mission
  let revision ← nextRevision expected (ofAscii "Mission revision exhausted")
  let mission := { mission with evidenceAfterMs, revision, updatedAtMs := moment.later }
  let behind ← store.writeMission expected mission
  return (behind, mission)

def RevisedStore.recordMissionReport (mission : WorkspaceMission)
    (report : WorkspaceMissionReport β) : Except Bytes (RevisedStore β) := do
  reject (report.id ≠ mission.id ∨ report.revision ≠ mission.revision)
    (ofAscii "Inspection belongs to another Mission revision")
  reject (reportBytes < rules.reportLength report.id report.revision report.observed)
    (ofAscii "Mission inspection exceeds its evidence budget")
  storedNumber mission.revision
  let changed := ofAscii "Mission changed during inspection; inspect the current revision"
  let row ← okOr changed (Keyed.get MissionRow.id mission.id store.missions)
  reject (row.plan.revision ≠ mission.revision) changed
  return { store with
    missions := Keyed.modify MissionRow.id mission.id
      (fun row => { row with report := some report }) store.missions }

/-- The commands that write revisioned objects, and the writes of the host to
the catalog behind them. -/
inductive RevisedOperation (β : Type) where
  | queueUpdate (expected : Nat) (change : WorkspaceQueueChange)
  | delete (id : ConversationId)
  | saveContext (id : ConversationId) (expected : Nat) (context : WorkspaceContext)
  | saveMission (expected : Nat) (mission : WorkspaceMission)
  | recordMissionReport (mission : WorkspaceMission) (report : WorkspaceMissionReport β)
  | catalog (rows : List CatalogRow) (hosted : List HostedRun)

/-- `WorkspaceReply`, as these commands give it. -/
inductive RevisedReply (β : Type) where
  | ack
  | queue (snapshot : WorkspaceQueueSnapshot)
  | context (context : WorkspaceContext)
  | mission (mission : WorkspaceMission) (report : Option (WorkspaceMissionReport β))

def RevisedStore.attempt [RevisionLibraries] (moment : Moment) :
    RevisedOperation β → Option (Except Bytes (RevisedStore β × RevisedReply β))
  | .queueUpdate expected change =>
    (store.queueUpdate moment expected change).map fun result =>
      result.map fun (behind, snapshot) => (behind, .queue snapshot)
  | .delete id => some ((store.delete id).map fun behind => (behind, .ack))
  | .saveContext id expected context =>
    some ((store.saveContext moment id expected context).map fun (behind, saved) =>
      (behind, .context saved))
  | .saveMission expected mission =>
    some ((store.saveMission rules moment expected mission).map fun (behind, saved) =>
      (behind, .mission saved none))
  | .recordMissionReport mission report =>
    some ((store.recordMissionReport rules mission report).map fun behind =>
      (behind, .mission mission (some report)))
  | .catalog rows hosted => some (.ok ({ store with rows, hosted }, .ack))

/-- The store behind an operation: what fails is rolled back. -/
def RevisedStore.next [RevisionLibraries] (moment : Moment) (operation : RevisedOperation β) :
    RevisedStore β :=
  match store.attempt rules moment operation with
  | some (.ok (behind, _)) => behind
  | _ => store

end

end JtermCore.Workspace
