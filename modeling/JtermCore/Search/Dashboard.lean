import JtermCore.Search.Query

/-!
# The search of the task dashboard

The dashboard shows a task by a bounded display of its texts, its lifecycle, and
the facts that are known of its processes.
-/

namespace JtermCore.Search

open ExecutionJournal Tasks Utf8

def displayName : AgentProvider → String
  | .codex => "Codex"
  | .claude => "Claude"
  | .openCode => "OpenCode"
  | .kimi => "Kimi"

def statusLabel : TaskStatus → String
  | .created => "Created"
  | .starting => "Starting"
  | .working => "Working"
  | .waitingForApproval => "Waiting for approval"
  | .waitingForHuman => "Waiting for you"
  | .readyForReview => "Ready for review"
  | .completed => "Completed"
  | .failed => "Failed"
  | .cancelled => "Cancelled"
  | .archived => "Archived"

def runtimeLabel : TaskRuntimeKind → String
  | .unassigned => "Not started"
  | .terminal => "Terminal Agent"
  | .native => "Native Agent"
  | .terminalFallback => "Terminal fallback after native attempt"

def validationLabel : TaskValidationStatus → String
  | .notRun => "Not run"
  | .running => "Running"
  | .passed => "Passed"
  | .failed => "Failed"
  | .inconclusive => "Needs review"
  | .cancelled => "Cancelled"

def fromConfigValue (value : List Char) : Option AgentProvider :=
  named [("codex", .codex), ("claude", .claude), ("opencode", .openCode),
    ("open_code", .openCode), ("kimi", .kimi)] ((trimChars value).map toAsciiLowercase)

def status : List Char → Option TaskStatus :=
  named [("created", .created), ("not-started", .created), ("starting", .starting),
    ("working", .working), ("approval", .waitingForApproval),
    ("waiting-for-approval", .waitingForApproval), ("input", .waitingForHuman),
    ("waiting-for-human", .waitingForHuman), ("waiting-for-you", .waitingForHuman),
    ("review", .readyForReview), ("ready-for-review", .readyForReview),
    ("completed", .completed), ("done", .completed), ("failed", .failed),
    ("cancelled", .cancelled), ("canceled", .cancelled), ("archived", .archived)]

def provider (value : List Char) : Option AgentProvider :=
  if value = "open-code".toList then some .openCode else fromConfigValue value

def runtime : List Char → Option TaskRuntimeKind :=
  named [("unassigned", .unassigned), ("not-started", .unassigned), ("terminal", .terminal),
    ("pty", .terminal), ("native", .native), ("fallback", .terminalFallback),
    ("terminal-fallback", .terminalFallback)]

def validation : List Char → Option TaskValidationStatus :=
  named [("not-run", .notRun), ("none", .notRun), ("running", .running), ("passed", .passed),
    ("failed", .failed), ("inconclusive", .inconclusive), ("needs-review", .inconclusive),
    ("cancelled", .cancelled), ("canceled", .cancelled)]

inductive DashboardAttentionKind where
  | approval
  | input
  | validation
  | review
  | failed
deriving DecidableEq

def DashboardAttentionKind.all : List DashboardAttentionKind :=
  [.approval, .input, .validation, .review, .failed]

def DashboardAttentionKind.queryValue : DashboardAttentionKind → String
  | .approval => "approval"
  | .input => "input"
  | .validation => "validation"
  | .review => "review"
  | .failed => "failed"

def attention (value : List Char) : Option DashboardAttentionKind :=
  DashboardAttentionKind.all.find? fun kind => kind.queryValue.toList = value

def validationNeedsAttention : TaskValidationStatus → Bool
  | .failed | .inconclusive | .cancelled => true
  | _ => false

def statusNeedsAttention : TaskStatus → Bool
  | .waitingForApproval | .waitingForHuman | .readyForReview | .failed => true
  | _ => false

def needsAttention (task : AgentTask) : Bool :=
  if task.validation.status = .running then false
  else statusNeedsAttention task.status || validationNeedsAttention task.validation.status

def attentionKind (status : TaskStatus) (validationStatus : TaskValidationStatus)
    (needsAttention : Bool) : Option DashboardAttentionKind :=
  if !needsAttention || status = .archived || validationStatus = .running then none
  else
    match status with
    | .waitingForApproval => some .approval
    | .waitingForHuman => some .input
    | .failed => some .failed
    | status =>
      if validationNeedsAttention validationStatus then some .validation
      else if status = .readyForReview then some .review
      else none

theorem filled_accepted (value : List Char) (filled : value ≠ []) : (!value.isEmpty) = true := by
  simp [filled]

section

variable [SearchLibraries]

def safeDisplayLoop (maxBytes : Nat) (multiline : Bool) : List Char → List Char → List Char × Bool
  | output, [] => (output, false)
  | output, ch :: rest =>
    let rendered :=
      if multiline && (ch = '\n' || ch = '\t') then ch
      else if isControl ch || Libraries.isUnsafeInvisibleChar ch then Char.ofNat 0xfffd
      else ch
    if maxBytes < utf8Length output + utf8Length [rendered] then (output, true)
    else safeDisplayLoop maxBytes multiline (output ++ [rendered]) rest

/-- The loop of `safe_display` that makes room for an ellipsis; the output stands
in reverse. -/
def makeRoom (maxBytes : Nat) : List Char → List Char
  | [] => []
  | last :: front =>
    if maxBytes < utf8Length (last :: front) + 3 then makeRoom maxBytes front
    else last :: front

def safeDisplay (text : List Char) (maxBytes : Nat) (multiline : Bool) : List Char :=
  if maxBytes = 0 then []
  else
    let shown := safeDisplayLoop maxBytes multiline [] text
    if shown.2 && decide (3 ≤ maxBytes) then
      (makeRoom maxBytes shown.1.reverse).reverse ++ [Char.ofNat 0x2026]
    else shown.1

def safeInlineDisplay (text : List Char) (maxBytes : Nat) : List Char :=
  safeDisplay text maxBytes false

def dashboardTitleMaxBytes : Nat := 256

def dashboardDetailMaxBytes : Nat := 1024

def dashboardQueryMaxBytes : Nat := 256

structure DashboardActivity where
  hasAgentTerminal : Bool
  hasValidationTerminal : Bool
  hasActiveAgentStream : Bool
  nativePreparing : Bool
deriving DecidableEq

structure DashboardRow where
  id : TaskId
  title : List Char
  provider : AgentProvider
  status : TaskStatus
  runtimeKind : TaskRuntimeKind
  branch : List Char
  repoLabel : List Char
  activity : DashboardActivity
  validationStatus : TaskValidationStatus
  needsAttention : Bool
  statusDetail : Option (List Char)
deriving DecidableEq

def DashboardRow.fromTask (task : AgentTask) (activity : DashboardActivity) : DashboardRow where
  id := task.id
  title := safeInlineDisplay task.title dashboardTitleMaxBytes
  provider := task.provider
  status := task.status
  runtimeKind := task.runtimeKind
  branch := safeInlineDisplay task.branch dashboardTitleMaxBytes
  repoLabel := safeInlineDisplay task.repoRoot dashboardDetailMaxBytes
  activity := activity
  validationStatus := task.validation.status
  needsAttention := task.status ≠ .archived && Search.needsAttention task
  statusDetail := task.statusDetail.map fun text =>
    safeInlineDisplay text.toList dashboardDetailMaxBytes

omit [SearchLibraries] in
def DashboardRow.attentionKind (row : DashboardRow) : Option DashboardAttentionKind :=
  Search.attentionKind row.status row.validationStatus row.needsAttention

def DashboardRow.isRunning (row : DashboardRow) : Bool :=
  row.status.isRunning || row.validationStatus = .running || row.activity.hasActiveAgentStream ||
    row.activity.nativePreparing

inductive DashboardField where
  | text
  | title
  | project
  | branch
  | id
  | provider
  | status
  | runtime
  | validation
  | attention
  | is
deriving DecidableEq

namespace DashboardField

def parse (value : List Char) : Option DashboardField :=
  named [("title", .title), ("project", .project), ("repo", .project), ("workspace", .project),
    ("branch", .branch), ("id", .id), ("provider", .provider), ("status", .status),
    ("state", .status), ("runtime", .runtime), ("validation", .validation),
    ("attention", .attention), ("is", .is)] (value.map toAsciiLowercase)

def isEnumerated : DashboardField → Bool
  | .provider | .status | .runtime | .validation | .attention | .is => true
  | _ => false

/-- What `is:` accepts. -/
def isValues : List String :=
  ["attention", "running", "not-started", "review", "finished", "archived", "preparing",
    "agent-stream", "validation-running"]

def accepts (field : DashboardField) (value : List Char) : Bool :=
  match field with
  | .provider => (Search.provider value).isSome
  | .status => (Search.status value).isSome
  | .runtime => (Search.runtime value).isSome
  | .validation => (Search.validation value).isSome
  | .attention => (Search.attention value).isSome
  | .is => isValues.any fun known => known.toList = value
  | _ => !value.isEmpty

def help : DashboardField → String
  | .provider => "provider:codex,claude,opencode,kimi"
  | .status =>
    "status:created,starting,working,approval,input,review,completed,failed,cancelled,archived"
  | .runtime => "runtime:unassigned,terminal,native,fallback"
  | .validation => "validation:not-run,running,passed,failed,inconclusive,cancelled"
  | .attention => "attention:approval,input,validation,review,failed"
  | .is =>
    "is:attention,running,not-started,review,finished,archived,preparing,agent-stream," ++
      "validation-running"
  | _ => "Use a non-empty search value; put phrases in double quotes."

/-- The fields whose terms compare displayed text. -/
def comparesText : DashboardField → Bool
  | .text | .title | .project | .branch | .id => true
  | _ => false

end DashboardField

def unknownTaskFilter (name : List Char) : String :=
  "Unknown task filter '" ++ String.ofList name ++ "'. Use provider:, status:, runtime:, " ++
    "validation:, attention:, is:, project:, branch:, title: or id:. Quote literal text " ++
    "containing a colon."

def dashboardLanguage : Language DashboardField where
  maxBytes := dashboardQueryMaxBytes
  maxTerms := 32
  tooLong := "Task search is limited to " ++ toString dashboardQueryMaxBytes ++ " bytes."
  parseField := DashboardField.parse
  text := .text
  unknown := unknownTaskFilter
  alternatives := DashboardField.isEnumerated
  accepts := DashboardField.accepts
  invalid field _ := "Invalid or empty task filter. " ++ field.help
  text_alternatives := rfl
  accepts_text := filled_accepted
  maxTerms_pos := by decide

structure DashboardTerm where
  field : DashboardField
  values : List (List Char)
  negated : Bool
deriving DecidableEq

structure DashboardQuery where
  terms : List DashboardTerm
  needsText : Bool
deriving DecidableEq

def DashboardTerm.ofConstraint (constraint : Constraint DashboardField) : DashboardTerm :=
  ⟨constraint.field, constraint.values, constraint.negated⟩

def DashboardQuery.ofTerms (terms : List DashboardTerm) : DashboardQuery :=
  ⟨terms, terms.any (·.field.comparesText)⟩

def DashboardQuery.parse (text : List Char) : Except String DashboardQuery :=
  (parseTerms dashboardLanguage text).map fun constraints =>
    .ofTerms (constraints.map .ofConstraint)

structure DashboardRowText where
  title : List Char
  project : List Char
  branch : List Char
  id : List Char
  detail : List Char
  provider : List Char
  state : List Char
  runtime : List Char
  validation : List Char

def DashboardRowText.new (row : DashboardRow) : DashboardRowText where
  title := SearchLibraries.lowercase row.title
  project := SearchLibraries.lowercase row.repoLabel
  branch := SearchLibraries.lowercase row.branch
  id := SearchLibraries.uuidText row.id
  detail := SearchLibraries.lowercase (row.statusDetail.getD [])
  provider := SearchLibraries.lowercase (displayName row.provider).toList
  state := SearchLibraries.lowercase (statusLabel row.status).toList
  runtime := SearchLibraries.lowercase (runtimeLabel row.runtimeKind).toList
  validation := SearchLibraries.lowercase (validationLabel row.validationStatus).toList

def DashboardRowText.fields (text : DashboardRowText) : List (List Char) :=
  [text.title, text.project, text.branch, text.id, text.detail, text.provider, text.state,
    text.runtime, text.validation]

def contains (text value : List Char) : Bool := text.tails.any fun rest => value.isPrefixOf rest

def DashboardRow.is (row : DashboardRow) (value : List Char) : Bool :=
  (named [("attention", row.needsAttention && decide (row.status ≠ .archived)),
    ("running", row.isRunning), ("not-started", row.status = .created),
    ("review", row.status = .readyForReview),
    ("finished", row.status = .completed || row.status = .failed || row.status = .cancelled),
    ("archived", row.status = .archived), ("preparing", row.activity.nativePreparing),
    ("agent-stream", row.activity.hasActiveAgentStream),
    ("validation-running", row.validationStatus = .running)] value).getD false

def DashboardRow.has (row : DashboardRow) (text : Option DashboardRowText)
    (field : DashboardField) (value : List Char) : Bool :=
  match field with
  | .text => text.any fun text => text.fields.any fun field => contains field value
  | .title => text.any fun text => contains text.title value
  | .project => text.any fun text => contains text.project value
  | .branch => text.any fun text => contains text.branch value
  | .id => text.any fun text => contains text.id value
  | .provider => Search.provider value = some row.provider
  | .status => Search.status value = some row.status
  | .runtime => Search.runtime value = some row.runtimeKind
  | .validation => Search.validation value = some row.validationStatus
  | .attention => (Search.attention value).any fun kind => row.attentionKind = some kind
  | .is => row.is value

def DashboardRow.meets (row : DashboardRow) (text : Option DashboardRowText)
    (term : DashboardTerm) : Bool :=
  (term.values.any fun value => row.has text term.field value) != term.negated

def DashboardQuery.matches (query : DashboardQuery) (row : DashboardRow) : Bool :=
  query.terms.isEmpty ||
    query.terms.all (row.meets (if query.needsText then some (.new row) else none))

omit [SearchLibraries] in
theorem DashboardRow.meets_text (row : DashboardRow) (text : Option DashboardRowText)
    {term : DashboardTerm} (enumerated : term.field.comparesText = false) :
    row.meets text term = row.meets none term := by
  obtain ⟨field, values, negated⟩ := term
  cases field <;> first | rfl | cases enumerated

theorem DashboardQuery.matches_ofTerms (terms : List DashboardTerm) (row : DashboardRow) :
    (ofTerms terms).matches row = terms.all (row.meets (some (.new row))) := by
  have prepared : terms.all (row.meets (if (ofTerms terms).needsText then some (.new row)
      else none)) = terms.all (row.meets (some (.new row))) := by
    cases needs : (ofTerms terms).needsText with
    | true => rfl
    | false =>
      have enumerated : ∀ term ∈ terms, term.field.comparesText = false := by
        simpa [ofTerms] using needs
      rw [Bool.eq_iff_iff, List.all_eq_true, List.all_eq_true]
      refine forall₂_congr fun term member => ?_
      rw [row.meets_text (some _) (enumerated term member)]
      rfl
  have same : (ofTerms terms).terms = terms := rfl
  unfold DashboardQuery.matches
  rw [same, prepared]
  cases terms with
  | nil => rfl
  | cons term terms => rfl

end

end JtermCore.Search
