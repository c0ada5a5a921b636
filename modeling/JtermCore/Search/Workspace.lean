import JtermCore.Search.Dashboard
import JtermCore.Workspace.Store

/-!
# The search of the workspace

The sidebar shows conversations of every kind.  A row of a task is projected from
the task and from the facts that are known of its processes.
-/

namespace JtermCore.Search

open ExecutionJournal Result Tasks Utf8
open Workspace (ApiState ConversationKind)

inductive SessionStatus where
  | working
  | waiting
  | idle
  | unknown
  | archived
deriving DecidableEq

inductive RuntimeState where
  | idle
  | starting
  | running
  | attached
  | stopping
  | exited
  | failed
  | conflict
deriving DecidableEq

def RuntimeState.isLive : RuntimeState → Bool
  | .starting | .running | .attached | .stopping => true
  | _ => false

inductive WorkspaceAttention where
  | approval
  | reply
  | validation
  | review
  | failed
  | interrupted
  | conflict
deriving DecidableEq

namespace WorkspaceAttention

def all : List WorkspaceAttention :=
  [.approval, .reply, .validation, .review, .failed, .interrupted, .conflict]

def queryValue : WorkspaceAttention → String
  | .approval => "approval"
  | .reply => "input"
  | .validation => "validation"
  | .review => "review"
  | .failed => "failed"
  | .interrupted => "interrupted"
  | .conflict => "conflict"

def fromDashboard : DashboardAttentionKind → WorkspaceAttention
  | .approval => .approval
  | .input => .reply
  | .validation => .validation
  | .review => .review
  | .failed => .failed

end WorkspaceAttention

/-- What a search reads of `WorkspaceFacts`. -/
structure WorkspaceFacts where
  branch : Option (List Char)
  recordedStatus : Option SessionStatus
  taskStatus : Option TaskStatus
  taskRuntime : Option TaskRuntimeKind
  validationStatus : Option TaskValidationStatus
  apiState : Option ApiState
  attention : Option WorkspaceAttention
  interrupted : Bool
  preparing : Bool
  agentStream : Bool
deriving DecidableEq

/-- `WorkspaceRow` with the runtime and the facts that views overlay. -/
structure WorkspaceRow extends Workspace.WorkspaceRow where
  runtime : RuntimeState
  facts : WorkspaceFacts
deriving DecidableEq

def WorkspaceRow.attention (row : WorkspaceRow) : Option WorkspaceAttention :=
  if row.archived then none
  else if row.facts.interrupted then some .interrupted
  else if row.runtime = .conflict then some .conflict
  else row.facts.attention

section

variable [SearchLibraries]

def WorkspaceFacts.fromTask (task : AgentTask) (activity : DashboardActivity) : WorkspaceFacts where
  branch := some task.branch
  recordedStatus := none
  taskStatus := some task.status
  taskRuntime := some task.runtimeKind
  validationStatus := some task.validation.status
  apiState := none
  attention := (DashboardRow.fromTask task activity).attentionKind.map .fromDashboard
  interrupted := false
  preparing := activity.nativePreparing
  agentStream := activity.hasActiveAgentStream

def taskId (nspace nativeId : List Char) : Except String (List Char) :=
  if nspace.isEmpty || decide (8192 < utf8Length nspace) || nativeId.isEmpty ||
      decide (256 < utf8Length nativeId) || nspace.contains (Char.ofNat 0) ||
      nativeId.contains (Char.ofNat 0) then
    .error "Invalid task source namespace"
  else
    .ok ("jterm:task:v1:".toList ++
      (CompactJson.Json.array [.string SearchLibraries.localHostId, .string nspace,
        .string nativeId]).print)

/-- Whether a task has a process that is known to live. -/
def DashboardActivity.isLive (activity : DashboardActivity) : Bool :=
  activity.hasAgentTerminal || activity.hasValidationTerminal || activity.hasActiveAgentStream ||
    activity.nativePreparing

def WorkspaceRow.fromTask (nspace : List Char) (task : AgentTask) (activity : DashboardActivity) :
    Except String WorkspaceRow := do
  let dashboard := DashboardRow.fromTask task activity
  let id ← taskId nspace (SearchLibraries.uuidText task.id)
  return {
    id := id
    kind := .task
    title := dashboard.title
    provider := (displayName task.provider).toList
    cwd := task.repoRoot
    preview := (statusLabel task.status).toList
    updatedAtMs := task.updatedAtMs
    archived := task.status = .archived
    pinned := false
    tags := []
    runtime := if activity.isLive then .running else .idle
    facts := .fromTask task activity }

def workspaceAttention (value : List Char) : Option WorkspaceAttention :=
  if value = "reply".toList then some .reply
  else WorkspaceAttention.all.find? fun kind => kind.queryValue.toList = value

def runtimeState : List Char → Option RuntimeState :=
  named [("idle", .idle), ("starting", .starting), ("running", .running),
    ("detached", .running), ("attached", .attached), ("stopping", .stopping),
    ("exited", .exited), ("failed", .failed), ("conflict", .conflict)]

def among (names : List String) (value : List Char) : Bool :=
  names.any fun name => name.toList = value

/-- What `status:` calls the state of an API conversation. -/
def apiStateNames : ApiState → List String
  | .starting => ["starting"]
  | .running => ["running", "working"]
  | .stopping => ["stopping"]
  | .completed => ["completed", "done", "idle"]
  | .cancelled => ["cancelled", "canceled"]
  | .failed => ["failed"]
  | .interrupted => ["interrupted"]

/-- What `status:` calls the recorded state of a session. -/
def sessionStatusNames : SessionStatus → List String
  | .working => ["working"]
  | .waiting => ["waiting", "input", "waiting-for-human"]
  | .idle => ["idle"]
  | .unknown => ["unknown"]
  | .archived => ["archived"]

def WorkspaceRow.matchesStatus (row : WorkspaceRow) (value : List Char) : Bool :=
  match row.facts.taskStatus with
  | some taskStatus => status value = some taskStatus
  | none =>
    match row.facts.apiState with
    | some state => among (apiStateNames state) value
    | none => row.facts.recordedStatus.any fun recorded => among (sessionStatusNames recorded) value

inductive WorkspaceField where
  | text
  | body
  | title
  | project
  | branch
  | id
  | provider
  | kind
  | tag
  | status
  | runtime
  | validation
  | attention
  | is
deriving DecidableEq

namespace WorkspaceField

def parse (name : List Char) : Option WorkspaceField :=
  named [("title", .title), ("name", .title), ("project", .project), ("cwd", .project),
    ("repo", .project), ("workspace", .project), ("branch", .branch), ("id", .id),
    ("provider", .provider), ("kind", .kind), ("type", .kind), ("tag", .tag),
    ("status", .status), ("state", .status), ("runtime", .runtime),
    ("validation", .validation), ("attention", .attention), ("is", .is), ("body", .body),
    ("content", .body)] (name.map toAsciiLowercase)

def alternatives : WorkspaceField → Bool
  | .provider | .kind | .status | .runtime | .validation | .attention | .is => true
  | _ => false

/-- What `is:` accepts. -/
def isValues : List String :=
  ["live", "running", "pinned", "archived", "attention", "needs-you", "interrupted", "preparing",
    "agent-stream", "validation-running", "not-started", "review", "finished"]

def accepts (field : WorkspaceField) (value : List Char) : Bool :=
  match field with
  | .kind => among ["api", "chat", "cli", "terminal", "task", "native"] value
  | .status =>
    (Search.status value).isSome ||
      among ["waiting", "idle", "unknown", "running", "stopping", "interrupted"] value
  | .runtime => (Search.runtime value).isSome || (runtimeState value).isSome
  | .validation => (Search.validation value).isSome
  | .attention => (workspaceAttention value).isSome || decide (value = "none".toList)
  | .is => among isValues value
  | _ => !value.isEmpty

end WorkspaceField

def workspaceQueryMaxBytes : Nat := 4096

def unknownWorkspaceFilter (name : List Char) : String :=
  "Unknown workspace filter '" ++ String.ofList name ++ "'. Use title:, project:, branch:, id:, " ++
    "provider:, kind:, tag:, status:, runtime:, validation:, attention:, is: or body:. Quote " ++
    "literal text containing a colon."

def workspaceLanguage : Language WorkspaceField where
  maxBytes := workspaceQueryMaxBytes
  maxTerms := 64
  tooLong := "Workspace search is limited to " ++ toString workspaceQueryMaxBytes ++ " bytes."
  parseField := WorkspaceField.parse
  text := .text
  unknown := unknownWorkspaceFilter
  alternatives := WorkspaceField.alternatives
  accepts := WorkspaceField.accepts
  invalid _ value := "Invalid or empty workspace filter '" ++ String.ofList value ++ "'."
  text_alternatives := rfl
  accepts_text := filled_accepted
  maxTerms_pos := by decide

def normalizedAbsolute (path : List Char) : Option (List (List Char)) :=
  if isAbsolute path then
    some ((pathComponents path).2.foldl (fun result component =>
      if component = ['.', '.'] then result.dropLast else result ++ [component]) [])
  else none

structure WorkspaceTerm where
  field : WorkspaceField
  values : List (List Char)
  absoluteProject : Option (List (List Char))
  negated : Bool
deriving DecidableEq

def WorkspaceTerm.ofConstraint (constraint : Constraint WorkspaceField) : WorkspaceTerm where
  field := constraint.field
  values := constraint.values
  absoluteProject :=
    if constraint.field = .project then normalizedAbsolute constraint.value else none
  negated := constraint.negated

structure WorkspaceQuery where
  terms : List WorkspaceTerm
deriving DecidableEq

def WorkspaceQuery.parse (text : List Char) : Except String WorkspaceQuery :=
  (parseTerms workspaceLanguage text).map fun constraints => ⟨constraints.map .ofConstraint⟩

structure WorkspaceRowText where
  id : List Char
  title : List Char
  provider : List Char
  cwd : List Char
  directory : Option (List (List Char))
  branch : List Char
  preview : List Char
  tags : List (List Char)

def WorkspaceRowText.new (row : WorkspaceRow) : WorkspaceRowText where
  id := SearchLibraries.lowercase row.id
  title := SearchLibraries.lowercase row.title
  provider := SearchLibraries.lowercase row.provider
  cwd := SearchLibraries.lowercase row.cwd
  directory := normalizedAbsolute row.cwd
  branch := SearchLibraries.lowercase (row.facts.branch.getD [])
  preview := SearchLibraries.lowercase row.preview
  tags := row.tags.map SearchLibraries.lowercase

def WorkspaceRowText.fields (text : WorkspaceRowText) : List (List Char) :=
  [text.id, text.title, text.provider, text.cwd, text.branch, text.preview] ++ text.tags

def WorkspaceRow.isKind (row : WorkspaceRow) (value : List Char) : Bool :=
  (named [("api", ConversationKind.api), ("chat", .api), ("cli", .cli), ("terminal", .cli),
    ("task", .task), ("native", .task)] value).any fun kind => row.kind = kind

def WorkspaceRow.isFinished (row : WorkspaceRow) : Bool := (row.facts.taskStatus.any fun status =>
      status = .completed || status = .failed || status = .cancelled) ||
    (row.facts.apiState.any fun state =>
      state = .completed || state = .cancelled || state = .failed) ||
    row.runtime = .exited

def WorkspaceRow.is (row : WorkspaceRow) (value : List Char) : Bool :=
  (named [("live", row.runtime.isLive), ("running", row.runtime.isLive), ("pinned", row.pinned),
    ("archived", row.archived), ("attention", row.attention.isSome),
    ("needs-you", row.attention.isSome), ("interrupted", row.facts.interrupted),
    ("preparing", row.facts.preparing || row.runtime = .starting),
    ("agent-stream", row.facts.agentStream),
    ("validation-running", row.facts.validationStatus = some .running),
    ("not-started", row.facts.taskStatus = some .created),
    ("review", row.facts.taskStatus = some .readyForReview), ("finished", row.isFinished)]
    value).getD false

def WorkspaceRow.has (row : WorkspaceRow) (text : WorkspaceRowText) (body : Option (List Char))
    (term : WorkspaceTerm) (value : List Char) : Bool :=
  match term.field with
  | .text =>
    (text.fields.any fun field => contains field value) || body.any fun body => contains body value
  | .body => body.any fun body => contains body value
  | .title => contains text.title value
  | .project =>
    match term.absoluteProject with
    | some path => text.directory.any fun directory => path.isPrefixOf directory
    | none => contains text.cwd value
  | .branch => contains text.branch value
  | .id => contains text.id value
  | .provider =>
    decide (text.provider = value) ||
      (decide (value = "open-code".toList) && decide (text.provider = "opencode".toList))
  | .kind => row.isKind value
  | .tag => text.tags.any fun tag => tag = value
  | .status => row.matchesStatus value
  | .runtime =>
    decide (runtimeState value = some row.runtime) ||
      (row.facts.taskRuntime.isSome && decide (Search.runtime value = row.facts.taskRuntime))
  | .validation =>
    row.facts.validationStatus.isSome && decide (Search.validation value = row.facts.validationStatus)
  | .attention =>
    if value = "none".toList then row.attention.isNone
    else (workspaceAttention value).any fun kind => row.attention = some kind
  | .is => row.is value

def WorkspaceRow.meets (row : WorkspaceRow) (text : WorkspaceRowText)
    (body : Option (List Char)) (term : WorkspaceTerm) : Bool :=
  (term.values.any fun value => row.has text body term value) != term.negated

def WorkspaceQuery.matchesText (query : WorkspaceQuery) (row : WorkspaceRow)
    (text : WorkspaceRowText) (body : Option (List Char)) : Bool :=
  query.terms.all (row.meets text body)

def WorkspaceQuery.matches (query : WorkspaceQuery) (row : WorkspaceRow) : Bool :=
  query.matchesText row (.new row) none

end

end JtermCore.Search
