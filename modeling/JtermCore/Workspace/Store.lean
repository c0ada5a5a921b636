import JtermCore.Chats.Snapshots
import JtermCore.Table

/-!
# The workspace store

Conversations, their messages and their background jobs live in the tables of
one database.  This file embeds the tables, the readers and the commands of
`store.rs`.  A statement or a transaction takes effect as a whole or fails.
-/

namespace JtermCore.Workspace

open Chats Result

def sharedChatIdBase : Nat := 2 ^ 48

def maxMessage : Nat := 256 * 1024

def maxDraft : Nat := 64 * 1024

inductive ConversationKind where
  | cli
  | api
  | task
deriving DecidableEq

/-- `WorkspaceRow`, without the runtime and the facts that views overlay. -/
structure WorkspaceRow where
  id : Text
  kind : ConversationKind
  title : Text
  provider : Text
  cwd : Text
  preview : Text
  updatedAtMs : Nat
  archived : Bool
  pinned : Bool
  tags : List Text
deriving DecidableEq

/-- A process: its number and its start time. -/
abbrev Owner := Nat × Text

structure Conversation where
  numericId : Nat
  id : Text
  row : WorkspaceRow
  revision : Nat
  draftRevision : Nat
  epoch : Nat
  draft : Text
  template : Text
  historyTruncated : Bool
  activeNonce : Option Text
  submittedText : Option Text
  submittedDraftRevision : Option Nat
  owner : Option Owner
deriving DecidableEq

structure Message where
  sequence : Nat
  conversationId : Text
  role : Role
  body : Text
deriving DecidableEq

structure LegacyImport where
  nspace : Text
  legacyId : Nat
  conversationId : Text
deriving DecidableEq

inductive ApiState where
  | starting
  | running
  | stopping
  | completed
  | cancelled
  | failed
  | interrupted
deriving DecidableEq

def ApiState.isLive : ApiState → Bool
  | .starting | .running | .stopping => true
  | _ => false

structure ApiSnapshot where
  id : Text
  epoch : Nat
  sequence : Nat
  state : ApiState
  userText : Text
  submittedDraftRevision : Nat
  preview : Text
  result : Option Text
  error : Option Text
deriving DecidableEq

structure ApiJob where
  id : Text
  epoch : Nat
  nonce : Text
  draftRevision : Nat
  snapshot : ApiSnapshot
deriving DecidableEq

structure SubmissionReceipt where
  id : Text
  epoch : Nat
  nonce : Text
  draftRevision : Nat
deriving DecidableEq

/-- The tables, with the numbers that the next rows get. -/
structure Store where
  conversations : List Conversation
  nextNumericId : Nat
  messages : List Message
  nextSequence : Nat
  legacyImports : List LegacyImport
  apiJobs : List ApiJob
deriving DecidableEq

/-- A new database. -/
def Store.empty : Store :=
  { conversations := [], nextNumericId := 1, messages := [], nextSequence := 1
    legacyImports := [], apiJobs := [] }

/-- Why a command failed. -/
inductive StoreError where
  | message (text : String)
  | snapshot (error : SnapshotTextError)
  | database
deriving DecidableEq

def checkText (text : Text) (limit : Nat) (label : String) : Except StoreError Unit :=
  reject (limit < byteLen text ∨ Char.ofNat 0 ∈ text) (.message ("Invalid or oversized " ++ label))

def toI64 (number : Nat) : Except StoreError Nat := do
  reject (2 ^ 63 ≤ number) (.message "Revision/ID exceeds the supported range")
  return number

def validateTags (tags : List Text) : Except StoreError Unit := do
  reject (16 < tags.length) (.message "A conversation supports at most 16 tags")
  tags.forM fun tag => do
    checkText tag 64 "tag"
    reject ((Utf8.trimChars tag).isEmpty ∨ tag.any ExecutionJournal.isControl)
      (.message "Tags must contain visible text")

def validateIndexRow (row : WorkspaceRow) : Except StoreError Unit := do
  let validKind : Bool :=
    match row.kind with
    | .cli => (key "jterm:cli:v1:").isPrefixOf row.id &&
        (row.provider = key "Codex" || row.provider = key "Claude")
    | .task => (key "jterm:task:v1:").isPrefixOf row.id && !row.provider.isEmpty &&
        byteLen row.provider ≤ 64
    | .api => false
  reject (¬ validKind ∨ 32768 < byteLen row.id)
    (.message "Invalid source-qualified session/task index row")
  checkText row.title 512 "session title"
  checkText row.cwd 8192 "project path"
  checkText row.preview 4096 "session preview"
  validateTags row.tags

def eqIgnoreAsciiCase (first second : Text) : Bool :=
  first.map Char.toLower = second.map Char.toLower

/-- The loop that keeps the first of equal tags. -/
def normalizeTags : List Text → List Text → List Text
  | [], normalized => normalized
  | tag :: tags, normalized =>
    let tag := Utf8.trimChars tag
    normalizeTags tags (if normalized.any fun other => eqIgnoreAsciiCase other tag then normalized
        else normalized ++ [tag])

section

variable [ChatLibraries]

def preview (text : Text) : Text := (((ChatLibraries.redactSecrets text).filter fun char =>
    !ExecutionJournal.isControl char || char = '\n').take 160).map fun char =>
      if char = '\n' then ' ' else char

def lastPreview (turns : List Turn) : Text := turns.getLast?.elim [] fun turn => preview turn.text

end

def apiRow (id title : Text) (nowMs : Nat) : WorkspaceRow :=
  { id, kind := .api
    title := if (Utf8.trimChars title).isEmpty then key "New chat" else Utf8.trimChars title
    provider := key "API", cwd := [], preview := [], updatedAtMs := nowMs, archived := false
    pinned := false, tags := [] }

def Store.conversation? (store : Store) (id : Text) : Option Conversation :=
  store.conversations.find? fun conversation => conversation.id = id

def Store.messagesOf (store : Store) (id : Text) : List Message :=
  store.messages.filter fun message => message.conversationId = id

/-- The loop of `history` over the newest messages: an answer waits for its
question, and whole pairs are kept while they fit. -/
def historyLoop : List Message → Option Message → Nat → List Message → List Message
  | [], _, _, messages => messages
  | message :: older, assistant, bytes, messages =>
    if message.role = .assistant then historyLoop older (some message) bytes messages
    else
      match assistant with
      | none => historyLoop older none bytes messages
      | some answer =>
        let pairBytes := byteLen message.body + byteLen answer.body
        if !messages.isEmpty && 1024 * 1024 < bytes + pairBytes then messages
        else historyLoop older none (bytes + pairBytes) (messages ++ [answer, message])

def Store.history (store : Store) (id : Text) (limit : Nat) : List Message :=
  (historyLoop ((store.messagesOf id).reverse.take (min limit 100)) none 0 []).reverse

def turnsOf (messages : List Message) : List Turn :=
  messages.map fun message => ⟨message.role, message.body⟩

def Store.apiSnapshot (store : Store) (id : Text) : Option ApiSnapshot :=
  (store.apiJobs.find? fun job => job.id = id).map ApiJob.snapshot

/-- `StoredChat`, without the reading position. -/
structure StoredChat where
  apiJob : Option ApiSnapshot
  row : WorkspaceRow
  revision : Nat
  draftRevision : Nat
  epoch : Nat
  snapshotJson : Text
  hasOlder : Bool
deriving DecidableEq

section

variable [SnapshotLibraries]

/-- The draft that a view shows: an unchanged submitted draft is hidden while
its request runs. -/
def Store.viewDraft (store : Store) (conversation : Conversation) : Text :=
  let pendingDraft := ((store.apiSnapshot conversation.id).any fun job =>
      job.state.isLive && job.epoch = conversation.epoch) &&
    conversation.submittedDraftRevision = some conversation.draftRevision &&
    conversation.submittedText = some conversation.draft
  if pendingDraft then [] else conversation.draft

def Store.load (store : Store) (id : Text) : Except StoreError StoredChat := do
  let conversation ← okOr .database (store.conversation? id)
  reject (conversation.row.kind ≠ .api)
    (.message "CLI history remains in its provider; open the terminal to continue")
  let turns := turnsOf (store.history id 100)
  let previous ←
    if conversation.template.isEmpty then .ok none
    else ((ConversationSnapshot.fromJson conversation.template).map some).mapError .snapshot
  let context := (previous.bind fun snapshot =>
    snapshot.chats.find? fun chat => chat.id = snapshot.activeChatId).bind ChatSnapshot.blockContext
  let numeric := sharedChatIdBase + conversation.numericId
  let chat := (ChatSnapshot.fromCompletedHistory numeric conversation.row.title
    conversation.row.archived turns context (store.viewDraft conversation)).withHistoryTruncated
      conversation.historyTruncated
  let hasOlder := chat.turns.length < (store.messagesOf id).length || chat.historyTruncated
  let snapshot ← okOr (.message "Invalid stored conversation")
    (ConversationSnapshot.fromChats numeric [chat])
  let snapshotJson ← snapshot.toJson.mapError .snapshot
  let stored : StoredChat :=
    { apiJob := store.apiSnapshot id, row := conversation.row, revision := conversation.revision
      draftRevision := conversation.draftRevision, epoch := conversation.epoch, snapshotJson
      hasOlder }
  return stored

end

def Store.ensureIdle (store : Store) (id : Text) : Except StoreError Unit := do
  let conversation ← okOr .database (store.conversation? id)
  reject conversation.activeNonce.isSome (.message "Conversation has a request in flight")

end JtermCore.Workspace
