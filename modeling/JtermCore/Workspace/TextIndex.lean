import JtermCore.OutputCompare.Unique
import JtermCore.Workspace.Store

/-!
# The text index

Search reads documents that are indexed beside the tables they are taken from,
as in `store/search.rs`.  A document has a place, its conversation and event,
and carries a revision of the text that was indexed there last.  Rows whose
text is not indexed yet wait in two tables.
-/

namespace JtermCore.Workspace

open Chats Result

def workspaceTextBytes : Nat := 256 * 1024

def workspaceTextBatch : Nat := 32

def backfillBatch : Nat := 64

/-- The functions outside this repository that the index rests on. -/
class TextLibraries extends ChatLibraries where
  /-- The hexadecimal digits of `Sha256::digest`. -/
  sha256 : Text → Text

inductive SearchSource where
  | metadata
  | apiMessage
  | nativeTurn
  | providerHistory
  | importedHistory
  | validation
deriving DecidableEq

structure WorkspaceTextDocument where
  conversation : Text
  eventId : Text
  revision : Text
  source : SearchSource
  messageSequence : Option Nat
  text : Text
  truncated : Bool
deriving DecidableEq

def WorkspaceTextDocument.place (document : WorkspaceTextDocument) : Text × Text :=
  (document.conversation, document.eventId)

structure IndexedRow where
  numericId : Nat
  id : Text
  title : Text
  provider : Text
  cwd : Text
  preview : Text
  branch : Option Text
  tags : List Text
deriving DecidableEq

structure TextStore where
  conversations : List IndexedRow
  messages : List Message
  nextSequence : Nat
  documents : List WorkspaceTextDocument
  pendingConversations : List Text
  pendingMessages : List Nat
deriving DecidableEq

def TextStore.row (store : TextStore) (id : Text) : Option IndexedRow :=
  store.conversations.find? fun row => row.id = id

/-- The index trigger: `workspace_index_pending` holds a conversation once. -/
def TextStore.awaitConversation (store : TextStore) (id : Text) : TextStore :=
  if id ∈ store.pendingConversations then store
  else { store with pendingConversations := store.pendingConversations ++ [id] }

section

variable [TextLibraries]

/-- The characters that `bounded_text` keeps. -/
def isIndexed (char : Char) : Bool :=
  (!ExecutionJournal.isControl char || char = '\n' || char = '\t') &&
    (ExecutionJournal.isControl char || !Workflows.isVisualSpoofingCharacter char)

def boundedText (text : Text) : Text × Bool :=
  let safe := (ChatLibraries.redactSecrets text).filter isIndexed
  let body := Budget.fit Char.utf8Size workspaceTextBytes safe
  (body, byteLen body < byteLen safe)

def WorkspaceTextDocument.stored (document : WorkspaceTextDocument) : WorkspaceTextDocument :=
  let (body, clipped) := boundedText document.text
  { document with text := body, truncated := clipped || document.truncated }

@[simp]
theorem place_stored (document : WorkspaceTextDocument) :
    document.stored.place = document.place := rfl

@[simp]
theorem messageSequence_stored (document : WorkspaceTextDocument) :
    document.stored.messageSequence = document.messageSequence := rfl

/-- The table keeps one row for a place, and the index over `message_sequence` one row
for a message. -/
def TextStore.putDocument (store : TextStore) (document : WorkspaceTextDocument) :
    Except StoreError TextStore := do
  checkText document.eventId 512 "search event identity"
  checkText document.revision 256 "search revision"
  reject (document.eventId.isEmpty ∨ document.revision.isEmpty)
    (.message "Search records require stable event and revision identities")
  reject (∃ sequence ∈ document.messageSequence, 2 ^ 63 ≤ sequence)
    (.message "Revision/ID exceeds the supported range")
  match store.documents.find? fun other => other.place = document.place with
  | some previous =>
    if previous.revision = document.revision then
      reject (previous ≠ document.stored) (.message ("An indexed revision is immutable. " ++
        "Provide a new source revision when its evidence changes."))
      return store
    else do
      reject (∃ other ∈ store.documents, other.place ≠ document.place ∧
        ∃ sequence ∈ document.messageSequence, sequence ∈ other.messageSequence) .database
      return { store with
        documents := Table.update (fun other => other.place = document.place)
          (fun _ => document.stored) store.documents }
  | none => do
    reject (store.row document.conversation = none) .database
    reject (∃ other ∈ store.documents,
      ∃ sequence ∈ document.messageSequence, sequence ∈ other.messageSequence) .database
    return { store with documents := store.documents ++ [document.stored] }

end

def messageEvent (sequence : Nat) : Text := key "message:" ++ Nat.toDigits 10 sequence

def Message.document (message : Message) : WorkspaceTextDocument :=
  { conversation := message.conversationId, eventId := messageEvent message.sequence
    revision := key "message-v1:" ++ Nat.toDigits 10 message.sequence, source := .apiMessage
    messageSequence := some message.sequence, text := message.body, truncated := false }

def IndexedRow.text (row : IndexedRow) : Text :=
  ['\n'].intercalate [row.title, row.id, row.provider, row.cwd, row.branch.getD [],
    [' '].intercalate row.tags, row.preview]

section

variable [TextLibraries]

def textRevision (text : Text) : Text := key "text-sha256:" ++ TextLibraries.sha256 text

def selfRevised (conversation eventId : Text) (source : SearchSource) (text : Text)
    (truncated : Bool) : WorkspaceTextDocument :=
  let (text, clipped) := boundedText text
  let truncated := truncated || clipped
  { conversation, eventId, source, messageSequence := none, text, truncated
    revision := textRevision text ++ key (if truncated then ":1" else ":0") }

def IndexedRow.document (row : IndexedRow) : WorkspaceTextDocument :=
  selfRevised row.id (key "metadata") .metadata row.text false

def TextStore.indexApiMessage (store : TextStore) (message : Message) :
    Except StoreError TextStore := do
  let store ← store.putDocument message.document
  return { store with
    pendingMessages := store.pendingMessages.filter fun sequence => sequence ≠ message.sequence }

def TextStore.appendTurn (id : Text) (store : TextStore) (turn : Turn) :
    Except StoreError TextStore := do
  checkText turn.text maxMessage "message"
  reject (store.row id = none) .database
  let message : Message := ⟨store.nextSequence, id, turn.role, turn.text⟩
  let store := { store with
    messages := store.messages ++ [message], nextSequence := store.nextSequence + 1
    pendingMessages := store.pendingMessages ++ [message.sequence] }
  store.indexApiMessage message

def TextStore.appendTurns (store : TextStore) (id : Text) (turns : List Turn) :
    Except StoreError TextStore := turns.foldlM (TextStore.appendTurn id) store

def TextStore.awaitedRows (store : TextStore) : List IndexedRow :=
  ((store.conversations.filter fun row => row.id ∈ store.pendingConversations).mergeSort
    fun first second => second.numericId ≤ first.numericId).take backfillBatch

def TextStore.awaitedMessages (store : TextStore) : List Message :=
  ((store.messages.filter fun message => message.sequence ∈ store.pendingMessages).mergeSort
    fun first second => first.sequence ≤ second.sequence).take backfillBatch

/-- One turn of the first loop of `backfill_search`. -/
def TextStore.indexMetadata (store : TextStore) (id : Text) : Except StoreError TextStore := do
  let store ←
    match store.row id with
    | some row => store.putDocument row.document
    | none => .ok store
  return { store with
    pendingConversations := store.pendingConversations.filter fun other => other ≠ id }

def TextStore.backfillSearch (store : TextStore) : Except StoreError TextStore := do
  let store ← (store.awaitedRows.map IndexedRow.id).foldlM TextStore.indexMetadata store
  store.awaitedMessages.foldlM TextStore.indexApiMessage store

structure CodexPersistedTurn where
  providerTurnId : Text
  userText : Text
  agentText : Text

/-- `CodexAppServerTurnHistory`; the number of a turn as it is displayed. -/
structure CodexAppServerTurnHistory where
  localTurnId : Text
  followUpFeedback : Option Text
  agentText : Text
  agentTextTruncated : Bool
  droppedUpdates : Nat

structure CodexAppServerViewSnapshot where
  persistedHistory : List CodexPersistedTurn
  turnHistory : List CodexAppServerTurnHistory
  displayedTurnId : Option Text
  displayedFollowUpFeedback : Option Text
  agentText : Text
  agentTextTruncated : Bool
  droppedUpdates : Nat

inductive TaskValidationStatus where
  | notRun
  | running
  | passed
  | failed
  | inconclusive
  | cancelled
deriving DecidableEq

/-- `TaskValidationStatus` as `{:?}` writes it. -/
def TaskValidationStatus.debug : TaskValidationStatus → Text
  | .notRun => key "NotRun"
  | .running => key "Running"
  | .passed => key "Passed"
  | .failed => key "Failed"
  | .inconclusive => key "Inconclusive"
  | .cancelled => key "Cancelled"

structure NativeValidation where
  preparing : Bool
  runId : Text
  output : Text
  outputTruncated : Bool

structure TaskBrief where
  goal : Text
  validation : Option Text

/-- `NativeSnapshot`, with the fields of its task that are indexed. -/
structure NativeSnapshot where
  id : Text
  brief : Option TaskBrief
  sourceCommand : Option Text
  view : Option CodexAppServerViewSnapshot
  live : Bool
  preparing : Bool
  validation : Option NativeValidation
  attempt : Nat
  status : TaskValidationStatus
  exitCode : Option Int

def NativeSnapshot.validationCommand (snapshot : NativeSnapshot) : Option Text :=
  match snapshot.brief with
  | some brief => brief.validation
  | none => snapshot.sourceCommand

def debugExit : Option Int → Text
  | none => key "None"
  | some (.ofNat code) => key "Some(" ++ Nat.toDigits 10 code ++ key ")"
  | some (.negSucc code) => key "Some(-" ++ Nat.toDigits 10 (code + 1) ++ key ")"

def turnText (feedback : Option Text) (agentText : Text) : Text :=
  key "User\n" ++ feedback.getD (key "(Initial task goal is stored separately)") ++
    key "\n\nAssistant\n" ++ agentText

def NativeSnapshot.viewDocuments (snapshot : NativeSnapshot) (view : CodexAppServerViewSnapshot) :
    List WorkspaceTextDocument := (view.persistedHistory.map fun turn =>
    selfRevised snapshot.id (key "provider:" ++ turn.providerTurnId) .providerHistory
      (key "User\n" ++ turn.userText ++ key "\n\nAssistant\n" ++ turn.agentText) false) ++
  (view.turnHistory.map fun turn =>
    selfRevised snapshot.id (key "turn:" ++ turn.localTurnId) .nativeTurn
      (turnText turn.followUpFeedback turn.agentText)
      (turn.agentTextTruncated || 0 < turn.droppedUpdates)) ++
  if snapshot.live || snapshot.preparing then []
  else view.displayedTurnId.toList.map fun turnId =>
    selfRevised snapshot.id (key "turn:" ++ turnId) .nativeTurn
      (turnText view.displayedFollowUpFeedback view.agentText)
      (view.agentTextTruncated || 0 < view.droppedUpdates)

def NativeSnapshot.validationDocument (snapshot : NativeSnapshot)
    (validation : NativeValidation) : WorkspaceTextDocument :=
  selfRevised snapshot.id (key "validation:" ++ validation.runId) .validation
    (key "Attempt: " ++ Nat.toDigits 10 snapshot.attempt ++ key "\nStatus: " ++
      snapshot.status.debug ++ key "\nCommand: " ++
      snapshot.validationCommand.getD (key "(none)") ++ key "\nExit: " ++
      debugExit snapshot.exitCode ++ key "\n\n" ++ validation.output) validation.outputTruncated

def NativeSnapshot.documents (snapshot : NativeSnapshot) : List WorkspaceTextDocument :=
  (snapshot.brief.toList.map fun brief =>
    selfRevised snapshot.id (key "task:goal") .nativeTurn brief.goal false) ++
  snapshot.view.elim [] snapshot.viewDocuments ++
  snapshot.validation.elim [] fun validation =>
    if !validation.preparing && snapshot.status ≠ .running then
      [snapshot.validationDocument validation]
    else []

def TextStore.indexNativeText (store : TextStore) (snapshot : NativeSnapshot) :
    Except StoreError TextStore := snapshot.documents.foldlM TextStore.putDocument store

def TextStore.checkExternal (store : TextStore) (document : WorkspaceTextDocument) :
    Except StoreError Unit :=
  reject (¬(document.source = .importedHistory ∨ document.source = .providerHistory) ∨
      ¬(key "external:").isPrefixOf document.eventId ∨ document.messageSequence ≠ none ∨
      workspaceTextBytes < byteLen document.text ∨ store.row document.conversation = none)
    (.message ("History imports need an existing conversation, an external: event identity, " ++
      "bounded text and read-only provenance"))

def TextStore.indexExternalText (store : TextStore) (documents : List WorkspaceTextDocument) :
    Except StoreError TextStore := do
  reject (workspaceTextBatch < documents.length)
    (.message "Search import exceeds its 32-record batch limit")
  documents.forM store.checkExternal
  documents.foldlM TextStore.putDocument store

end

def TextStore.insertRow (store : TextStore) (row : IndexedRow) : Except StoreError TextStore := do
  reject (row.id ∈ store.conversations.map IndexedRow.id) .database
  return { store with conversations := store.conversations ++ [row] }.awaitConversation row.id

/-- The fields that the trigger over `row_json` compares are not the same. -/
def IndexedRow.isChanged (old new : IndexedRow) : Bool :=
  old.title ≠ new.title || old.preview ≠ new.preview || old.cwd ≠ new.cwd ||
    old.provider ≠ new.provider || old.branch ≠ new.branch || old.tags ≠ new.tags

def IndexedRow.inPlaceOf (new old : IndexedRow) : IndexedRow :=
  { new with numericId := old.numericId, id := old.id }

def TextStore.updateRow (store : TextStore) (id : Text) (new : IndexedRow) : TextStore :=
  let updated := { store with
    conversations := Table.update (fun row => row.id = id) new.inPlaceOf store.conversations }
  match store.row id with
  | some row => if row.isChanged (new.inPlaceOf row) then updated.awaitConversation id else updated
  | none => store

end JtermCore.Workspace
