import JtermCore.ExecutionJournal.Event

/-!
# Lifecycle events of native agents

An event carries the task, the session and the epoch of the stream it belongs
to, and its place in that stream.
-/

namespace JtermCore.Tasks

open ExecutionJournal Utf8

abbrev TaskId := Nat

abbrev AgentTurnId := Nat

/-- `ApprovalId`; a UUID. -/
abbrev ApprovalId := Nat

abbrev AgentEventEpoch := Nat

abbrev NativeAgentSessionId := Bytes

def u64Max : Nat := 2 ^ 64 - 1

inductive AgentProvider where
  | codex
  | claude
  | openCode
  | kimi
deriving DecidableEq

structure ProviderSessionId where
  provider : AgentProvider
  opaqueId : Bytes
deriving DecidableEq

structure AgentEventStream where
  taskId : TaskId
  sessionId : NativeAgentSessionId
  epoch : AgentEventEpoch
deriving DecidableEq

inductive TaskStatus where
  | created
  | starting
  | working
  | waitingForApproval
  | waitingForHuman
  | readyForReview
  | completed
  | failed
  | cancelled
  | archived
deriving DecidableEq

def TaskStatus.isRunning : TaskStatus → Bool
  | .starting | .working | .waitingForApproval | .waitingForHuman => true
  | _ => false

def TaskStatus.isTerminal : TaskStatus → Bool
  | .completed | .failed | .cancelled | .archived => true
  | _ => false

inductive AgentSessionOutcome where
  | clean
  | failed
  | cancelled
deriving DecidableEq

inductive AgentEventKind where
  | sessionStarted (providerSessionId : Option ProviderSessionId) (resumed : Bool)
  | turnStarted (turnId : AgentTurnId)
  | textDelta
  | reasoningDelta
  | planUpdated
  | commandStarted
  | commandOutput
  | commandFinished
  | fileChanged
  | diffUpdated
  | approvalRequested (turnId : AgentTurnId) (approvalId : ApprovalId)
  | permissionRequested (turnId : AgentTurnId) (approvalId : ApprovalId)
  | inputRequested (turnId : AgentTurnId)
  | toolStarted
  | toolFinished
  | usageUpdated
  | workResumed (turnId : AgentTurnId)
  | turnCompleted (turnId : AgentTurnId)
  | sessionEnded (outcome : AgentSessionOutcome)
  | error (fatal : Bool)
  | cancelled
deriving DecidableEq

structure AgentEvent where
  stream : AgentEventStream
  sequence : Nat
  kind : AgentEventKind
  detail : Option String
deriving DecidableEq

inductive AgentEventError where
  | unknownTask (taskId : TaskId)
  | terminalState (taskId : TaskId) (status : TaskStatus)
  | noActiveStream (taskId : TaskId)
  | streamAlreadyActive (taskId : TaskId)
  | nativeStartRequiresCreated (taskId : TaskId) (status : TaskStatus)
  | validationActive (taskId : TaskId)
  | terminalSessionBound (taskId : TaskId)
  | sessionMismatch (taskId : TaskId)
  | providerMismatch (taskId : TaskId) (expected received : AgentProvider)
  | missingResumeSession (taskId : TaskId)
  | epochMismatch (taskId : TaskId) (expected received : AgentEventEpoch)
  | invalidSequence (taskId : TaskId) (expected received : Nat)
  | sessionNotStarted (taskId : TaskId)
  | turnAlreadyActive (taskId : TaskId) (turnId : AgentTurnId)
  | noActiveTurn (taskId : TaskId)
  | turnMismatch (taskId : TaskId) (expected received : AgentTurnId)
  | invalidTransition (taskId : TaskId) (status : TaskStatus) (event : AgentEventKind)
  | epochExhausted
  | sequenceExhausted (taskId : TaskId)
deriving DecidableEq

/-- The events that may arrive at any time of a session. -/
def AgentEventKind.isProgress : AgentEventKind → Bool
  | .textDelta | .reasoningDelta | .planUpdated | .commandStarted | .commandOutput
  | .commandFinished | .fileChanged | .diffUpdated | .toolStarted | .toolFinished
  | .usageUpdated | .error false => true
  | _ => false

/-- The states that a session passes through: all but the terminal states. -/
def TaskStatus.isLive (status : TaskStatus) : Bool := !status.isTerminal

def statusAfterEvent (current : TaskStatus) (event : AgentEventKind) : Option (TaskStatus × Bool) :=
  match current, event with
  | .created, .sessionStarted .. => some (.starting, true)
  | .starting, .sessionStarted .. | .working, .sessionStarted ..
  | .waitingForApproval, .sessionStarted .. | .waitingForHuman, .sessionStarted ..
  | .readyForReview, .sessionStarted .. => some (current, true)
  | .starting, .turnStarted _ | .working, .turnStarted _ | .readyForReview, .turnStarted _ =>
    some (.working, true)
  | .starting, .approvalRequested .. | .starting, .permissionRequested ..
  | .working, .approvalRequested .. | .working, .permissionRequested ..
  | .waitingForApproval, .approvalRequested .. | .waitingForApproval, .permissionRequested .. =>
    some (.waitingForApproval, true)
  | .starting, .inputRequested _ | .working, .inputRequested _
  | .waitingForHuman, .inputRequested _ => some (.waitingForHuman, true)
  | .waitingForApproval, .workResumed _ | .waitingForHuman, .workResumed _ =>
    some (.working, true)
  | .starting, .turnCompleted _ | .working, .turnCompleted _ => some (.readyForReview, true)
  | _, .sessionEnded .clean =>
    if current.isLive then some (.readyForReview, true) else none
  | .readyForReview, .sessionEnded .failed | .readyForReview, .error true =>
    some (.readyForReview, true)
  | _, .sessionEnded .failed | _, .error true =>
    if current.isLive then some (.failed, true) else none
  | .readyForReview, .sessionEnded .cancelled | .readyForReview, .cancelled =>
    some (.readyForReview, true)
  | _, .sessionEnded .cancelled | _, .cancelled =>
    if current.isLive then some (.cancelled, true) else none
  | _, _ =>
    if event.isProgress && current.isLive && current ≠ .created then some (current, false)
    else none

def eventEndsStream : AgentEventKind → Bool
  | .sessionEnded _ | .cancelled | .error true => true
  | _ => false

def maxAgentEventDetailBytes : Nat := 1024

section

variable [Libraries]

def boundDetail (bounded : List Char) : List Char → List Char
  | [] => bounded
  | char :: rest =>
    let visible := if isControl char || Libraries.isUnsafeInvisibleChar char then '?' else char
    if maxAgentEventDetailBytes < (encodeUtf8 bounded).length + visible.utf8Size then bounded
    else boundDetail (bounded ++ [visible]) rest

def trimSpaces (text : List Char) : List Char :=
  ((text.dropWhile (· = ' ')).reverse.dropWhile (· = ' ')).reverse

def boundedEventDetail (detail : Option String) : Option String := do
  let detail ← detail
  let trimmed := trimSpaces (boundDetail [] detail.toList)
  if trimmed.isEmpty then none else some (String.ofList trimmed)

end

end JtermCore.Tasks
