import JtermCore.Workspace.Store

/-!
# Commands on the workspace store

The commands that change conversations, each with the store it leaves and the
reply it gives.  A command that fails before its statement or its transaction
has taken effect leaves the store as it was.
-/

namespace JtermCore.Workspace

open Chats Result

/-- What a command finds outside of the database. -/
structure Environment where
  processMatches : Owner → Bool
  leaseHeld : Text → Bool
  nativeJob : Text → Bool
  nowMs : Nat
  /-- The identifiers that `Uuid::new_v4` draws one after another. -/
  uuid : Nat → Text

structure ApiControlLease where
  id : Text
  epoch : Nat
  generation : Text
deriving DecidableEq

/-- `WorkspaceReply`, as far as the commands of this model give it. -/
inductive Reply where
  | ack
  | chat (chat : StoredChat)
  | submission (receipt : SubmissionReceipt)
  | imported (mappings : List (Nat × Text))
  | api (snapshot : ApiSnapshot) (control : Option ApiControlLease)
deriving DecidableEq

/-- What a client is told. -/
abbrev Answer := Except StoreError Reply

abbrev Effect := Except StoreError (Store × Answer)

def Effect.on (effect : Effect) (store : Store) : Store × Answer :=
  match effect with
  | .ok behind => behind
  | .error error => (store, .error error)

/-- The columns of a conversation without a request. -/
def Conversation.released (conversation : Conversation) : Conversation :=
  { conversation with
    activeNonce := none, submittedText := none, submittedDraftRevision := none, owner := none }

def Conversation.draftUntouched (conversation : Conversation) (draftRevision : Option Nat) : Bool :=
  some conversation.draftRevision = draftRevision &&
    (conversation.draft.isEmpty || some conversation.draft = conversation.submittedText)

def Conversation.restoreDraft (conversation : Conversation) (restored : Bool) : Conversation :=
  { conversation with
    draft := if restored then conversation.submittedText.getD conversation.draft
      else conversation.draft
    draftRevision := conversation.draftRevision + if restored then 1 else 0 }

/-- End a request without an answer. -/
def Conversation.dropRequest (conversation : Conversation) (restored : Bool) : Conversation :=
  let restoredRow := conversation.restoreDraft restored
  { restoredRow.released with
    revision := conversation.revision + 1, epoch := conversation.epoch + 1 }

def Conversation.abandoned (environment : Environment) (conversation : Conversation) : Bool :=
  conversation.activeNonce.isSome && !conversation.owner.any environment.processMatches &&
    !environment.leaseHeld conversation.id

def Store.reapAbandonedRequests (store : Store) (environment : Environment) : Store :=
  { store with
    conversations := Table.update (Conversation.abandoned environment)
      (fun conversation => conversation.dropRequest
        (conversation.draftUntouched conversation.submittedDraftRevision)) store.conversations }

def SubmissionReceipt.names (receipt : SubmissionReceipt) (conversation : Conversation) : Bool :=
  conversation.id = receipt.id && conversation.epoch = receipt.epoch &&
    conversation.activeNonce = some receipt.nonce &&
    conversation.submittedDraftRevision = some receipt.draftRevision

/-- The numbers of a receipt as the database takes them. -/
def SubmissionReceipt.check (receipt : SubmissionReceipt) : Except StoreError Unit := do
  let _ ← toI64 receipt.epoch
  let _ ← toI64 receipt.draftRevision
  return ()

def Store.insertMessage (store : Store) (id : Text) (turn : Turn) : Store :=
  { store with
    messages := store.messages ++ [⟨store.nextSequence, id, turn.role, turn.text⟩]
    nextSequence := store.nextSequence + 1 }

def Store.appendTurns (id : Text) : List Turn → Store → Except StoreError Store
  | [], store => .ok store
  | turn :: turns, store => do
    checkText turn.text maxMessage "message"
    Store.appendTurns id turns (store.insertMessage id turn)

def Store.updateConversation (store : Store) (here : Conversation → Bool)
    (change : Conversation → Conversation) (error : StoreError) : Except StoreError Store := do
  let conversations ← okOr error (Table.updateOne here change store.conversations)
  return { store with conversations }

section

variable [ChatLibraries]

def Conversation.answered (conversation : Conversation) (draftRevision : Nat) (text : Text)
    (nowMs : Nat) : Conversation :=
  let submitted := conversation.draftRevision = draftRevision ∧
    some conversation.draft = conversation.submittedText
  { conversation.released with
    row := { conversation.row with preview := preview text, updatedAtMs := nowMs }
    revision := conversation.revision + 1
    draft := if submitted then [] else conversation.draft
    draftRevision := conversation.draftRevision + if submitted then 1 else 0 }

def Store.completeReceipt (store : Store) (receipt : SubmissionReceipt) (text : Text)
    (nowMs : Nat) : Except StoreError Store := do
  checkText text maxMessage "assistant message"
  receipt.check
  let user ← okOr (.message "Stale submission receipt: reply discarded")
    ((store.conversations.find? receipt.names).bind Conversation.submittedText)
  let store ← store.appendTurns receipt.id [⟨.user, user⟩, ⟨.assistant, text⟩]
  return { store with
    conversations := Table.update receipt.names
      (fun conversation => conversation.answered receipt.draftRevision text nowMs)
      store.conversations }

end

def Store.cancelReceipt (store : Store) (receipt : SubmissionReceipt) (restore : Bool) :
    Except StoreError Store := do
  receipt.check
  store.updateConversation receipt.names
    (fun conversation => conversation.dropRequest
      (restore && conversation.draftUntouched (some receipt.draftRevision)))
    (.message "Stale submission receipt: cancellation ignored")

def Store.mutateRow (store : Store) (id : Text) (mutation : WorkspaceRow → WorkspaceRow)
    (nowMs : Nat) : Except StoreError Store := do
  let _ ← okOr (.message "Conversation not found") (store.conversation? id)
  return { store with
    conversations := Table.update (fun conversation => conversation.id = id)
      (fun conversation => { conversation with
        row := { mutation conversation.row with updatedAtMs := nowMs }
        revision := conversation.revision + 1 })
      store.conversations }

/-- A new conversation with the defaults of the table. -/
def Store.insertConversation (store : Store) (row : WorkspaceRow) (draft template : Text)
    (historyTruncated : Bool) : Store :=
  { store with
    conversations := store.conversations ++
      [{ numericId := store.nextNumericId, id := row.id, row, revision := 0, draftRevision := 0
         epoch := 0, draft, template, historyTruncated, activeNonce := none, submittedText := none
         submittedDraftRevision := none, owner := none }]
    nextNumericId := store.nextNumericId + 1 }

def Store.upsertRuntimeRow (store : Store) (row : WorkspaceRow) : Store :=
  match store.conversation? row.id with
  | some _ =>
    { store with
      conversations := Table.update (fun conversation => conversation.id = row.id)
        (fun conversation => { conversation with
          row := { row with
            title := conversation.row.title, archived := conversation.row.archived
            pinned := conversation.row.pinned, tags := conversation.row.tags } })
        store.conversations }
  | none => store.insertConversation row [] [] false

structure WorkspaceOrganization where
  id : Text
  title : Option Text
  pinned : Option Bool
  archived : Option Bool
  tags : Option (List Text)
deriving DecidableEq

def overlapPairs (old new : List Turn) : Except StoreError Nat :=
  if old = [] then .ok 0
  else if new = [] then
    .error (.message "Saving an empty active window cannot erase durable history")
  else
    okOr (.message ("History conflict: active window does not overlap durable history; " ++
        "reload before continuing"))
      ((List.range (min old.length new.length + 1)).reverse.find? fun count =>
        2 ≤ count && count % 2 = 0 && old.drop (old.length - count) = new.take count)

section

variable [SnapshotLibraries]

/-- The answer with a conversation as it is now. -/
def Store.chatReply (store : Store) (id : Text) : Answer := (store.load id).map Reply.chat

def Store.createChat (store : Store) (environment : Environment) (title : Text) : Effect := do
  checkText title 256 "title"
  let id := key "jterm:api:" ++ environment.uuid 0
  let store := store.upsertRuntimeRow (apiRow id title environment.nowMs)
  return (store, store.chatReply id)

def Store.setDraft (store : Store) (id : Text) (expectedRevision : Nat) (text : Text) : Effect := do
  checkText text maxDraft "draft"
  let expected ← toI64 expectedRevision
  let store ← store.updateConversation
    (fun conversation => conversation.id = id && conversation.draftRevision = expected)
    (fun conversation => { conversation with
      draft := text, draftRevision := conversation.draftRevision + 1
      revision := conversation.revision + 1 })
    (.message "Draft revision conflict: reload before saving; your local draft is unchanged")
  return (store, store.chatReply id)

def Store.save (store : Store) (environment : Environment) (id : Text) (expected : Nat)
    (json : Text) : Effect := do
  let incoming ← (ConversationSnapshot.fromJson json).mapError .snapshot
  let chat ← match incoming.chats with
    | [chat] => .ok chat
    | _ => .error (.message "SaveChat requires exactly one conversation")
  let current ← store.load id
  let conversation ← okOr .database (store.conversation? id)
  reject (chat.id ≠ conversation.numericId + sharedChatIdBase)
    (.message "SaveChat snapshot belongs to a different conversation")
  reject (current.revision ≠ expected) (.message ("Conversation revision conflict: reload before saving; " ++
    "local changes were not overwritten"))
  store.ensureIdle id
  let overlap ← overlapPairs (turnsOf (store.history id 100)) chat.turns
  let row : WorkspaceRow := { current.row with
    title := chat.title, archived := chat.archived, preview := lastPreview chat.turns
    updatedAtMs := environment.nowMs
    cwd := (chat.blockContext.bind BlockContext.cwd).getD [] }
  let expected ← toI64 expected
  let store ← store.updateConversation
    (fun conversation => conversation.id = id && conversation.revision = expected &&
      conversation.activeNonce.isNone)
    (fun conversation => { conversation with
      row, revision := conversation.revision + 1
      draftRevision := conversation.draftRevision + if conversation.draft ≠ chat.draft then 1 else 0
      draft := chat.draft, template := json
      historyTruncated := conversation.historyTruncated || chat.historyTruncated })
    (.message "Conversation revision changed during save")
  let store ← store.appendTurns id (chat.turns.drop overlap)
  return (store, store.chatReply id)

def Store.beginSubmission (store : Store) (environment : Environment) (owner : Owner) (id : Text)
    (revision draftRevision : Nat) (text : Text) : Effect := do
  checkText text maxDraft "message"
  reject (Utf8.trimChars text).isEmpty (.message "Message cannot be empty")
  let current ← store.load id
  reject current.row.archived (.message "Unarchive this conversation before sending")
  reject (current.revision ≠ revision ∨ current.draftRevision ≠ draftRevision)
    (.message "Submission revision conflict: the exact draft has not been acknowledged")
  let nonce := environment.uuid 0
  reject (¬ environment.processMatches owner)
    (.message "Submitting frontend exited before the request was accepted")
  let title :=
    if current.row.title = defaultChatTitle then
      (ChatSnapshot.fromCompletedHistory 1 text false [] none []).title.take 52
    else current.row.title
  let row : WorkspaceRow := { current.row with title, updatedAtMs := environment.nowMs }
  let draftRevision ← toI64 draftRevision
  let revision ← toI64 revision
  let store ← store.updateConversation
    (fun conversation => conversation.id = id && conversation.revision = revision &&
      conversation.draftRevision = draftRevision && conversation.activeNonce.isNone)
    (fun conversation => { conversation with
      epoch := conversation.epoch + 1, revision := conversation.revision + 1
      activeNonce := some nonce, submittedText := some text
      submittedDraftRevision := some draftRevision, owner := some owner, row })
    (.message "Conversation already has a request in flight")
  return (store, .ok (.submission { id, epoch := current.epoch + 1, nonce, draftRevision }))

def Store.complete (store : Store) (environment : Environment) (receipt : SubmissionReceipt)
    (text : Text) : Effect := do
  let store ← store.completeReceipt receipt text environment.nowMs
  return (store, store.chatReply receipt.id)

def Store.cancel (store : Store) (receipt : SubmissionReceipt) (restore : Bool) : Effect := do
  let store ← store.cancelReceipt receipt restore
  return (store, store.chatReply receipt.id)

def Store.rename (store : Store) (environment : Environment) (id title : Text) : Effect := do
  checkText title 256 "title"
  reject (Utf8.trimChars title).isEmpty (.message "Title cannot be empty")
  let store ← store.mutateRow id (fun row => { row with title }) environment.nowMs
  return (store, .ok .ack)

def Store.archive (store : Store) (environment : Environment) (id : Text) (archived : Bool) :
    Effect := do
  store.ensureIdle id
  let store ← store.mutateRow id (fun row => { row with archived }) environment.nowMs
  return (store, .ok .ack)

def Store.pin (store : Store) (environment : Environment) (id : Text) (pinned : Bool) :
    Effect := do
  let store ← store.mutateRow id (fun row => { row with pinned }) environment.nowMs
  return (store, .ok .ack)

def Store.tag (store : Store) (environment : Environment) (id : Text) (tags : List Text) :
    Effect := do
  validateTags tags
  let store ← store.mutateRow id (fun row => { row with tags := normalizeTags tags [] })
    environment.nowMs
  return (store, .ok .ack)

def Store.checkOrganization (store : Store) (change : WorkspaceOrganization) :
    Except StoreError Unit := do
  let _ ← okOr (.message "An organized conversation no longer exists; refresh and retry")
    (store.conversation? change.id)
  change.title.elim (.ok ()) fun title => do
    checkText title 256 "title"
    reject (Utf8.trimChars title).isEmpty (.message "Title cannot be empty")
  change.tags.elim (.ok ()) validateTags
  change.archived.elim (.ok ()) fun _ => store.ensureIdle change.id

def Store.checkOrganizations (store : Store) :
    List WorkspaceOrganization → List Text → Except StoreError Unit
  | [], _ => .ok ()
  | change :: changes, ids => do
    reject (change.id ∈ ids) (.message "Organization batch contains a duplicate identity")
    store.checkOrganization change
    store.checkOrganizations changes (change.id :: ids)

def WorkspaceOrganization.apply (change : WorkspaceOrganization) (row : WorkspaceRow) :
    WorkspaceRow :=
  { row with
    title := change.title.getD row.title, pinned := change.pinned.getD row.pinned
    archived := change.archived.getD row.archived, tags := change.tags.getD row.tags }

/-- The transaction of `Organize`. -/
def Store.applyOrganizations (nowMs : Nat) :
    List WorkspaceOrganization → Store → Except StoreError Store
  | [], store => .ok store
  | change :: changes, store => do
    let store ← store.mutateRow change.id change.apply nowMs
    Store.applyOrganizations nowMs changes store

def Store.organize (store : Store) (environment : Environment)
    (changes : List WorkspaceOrganization) : Effect := do
  reject (changes = [] ∨ 128 < changes.length)
    (.message "Organization batches require between 1 and 128 conversations")
  store.checkOrganizations changes []
  let store ← store.applyOrganizations environment.nowMs changes
  return (store, .ok .ack)

def Store.indexSessions (store : Store) (environment : Environment)
    (sessions : List WorkspaceRow) : Effect := do
  reject (2048 < sessions.length) (.message "Provider index exceeds its 2048-session budget")
  sessions.forM validateIndexRow
  let store := sessions.foldl (fun store row =>
    if row.kind = .task ∧ environment.nativeJob row.id then store
    else store.upsertRuntimeRow row) store
  return (store, .ok .ack)

def Store.delete (store : Store) (id : Text) : Effect := do
  store.ensureIdle id
  let store : Store := { store with
    conversations := Table.delete (fun conversation => conversation.id = id) store.conversations
    messages := Table.delete (fun message => message.conversationId = id) store.messages
    legacyImports := Table.delete (fun legacy => legacy.conversationId = id) store.legacyImports
    apiJobs := Table.delete (fun job => job.id = id) store.apiJobs }
  return (store, .ok .ack)

/-- The state of `import` between two chats. -/
structure Importing where
  store : Store
  mappings : List (Nat × Text)
  drawn : Nat

def Importing.addChat (importing : Importing) (environment : Environment) (nspace : Text)
    (chat : ChatSnapshot) : Except StoreError Importing := do
  let id := key "jterm:api:" ++ environment.uuid importing.drawn
  let row : WorkspaceRow := { apiRow id chat.title environment.nowMs with
    archived := chat.archived, preview := lastPreview chat.turns
    cwd := (chat.blockContext.bind BlockContext.cwd).getD [] }
  let one ← okOr (.message "Invalid legacy chat") (ConversationSnapshot.fromChats chat.id [chat])
  let template ← one.toJson.mapError .snapshot
  reject (importing.store.conversation? id).isSome .database
  let store := importing.store.insertConversation row chat.draft template chat.historyTruncated
  let store ← store.appendTurns id chat.turns
  return { store := { store with legacyImports := store.legacyImports ++ [⟨nspace, chat.id, id⟩] }
           mappings := importing.mappings ++ [(chat.id, id)], drawn := importing.drawn + 1 }

/-- One chat of `import`: a shared identity survives a move of the state file
and is never imported again. -/
def Importing.chat (importing : Importing) (environment : Environment) (nspace : Text)
    (chat : ChatSnapshot) : Except StoreError Importing := do
  if sharedChatIdBase ≤ chat.id then
    let numericId ← toI64 (chat.id - sharedChatIdBase)
    match importing.store.conversations.find? fun row => row.numericId = numericId with
    | some conversation =>
      if conversation.row.kind = .api then
        return { importing with
          mappings := importing.mappings ++ [(chat.id, conversation.id)] }
      else return importing
    | none => return importing
  else
    match importing.store.legacyImports.find? fun legacy =>
        legacy.nspace = nspace && legacy.legacyId = chat.id with
    | some legacy =>
      return { importing with
        mappings := importing.mappings ++ [(chat.id, legacy.conversationId)] }
    | none => importing.addChat environment nspace chat

def Importing.chats (environment : Environment) (nspace : Text) :
    List ChatSnapshot → Importing → Except StoreError Importing
  | [], importing => .ok importing
  | chat :: chats, importing => do
    let importing ← importing.chat environment nspace chat
    Importing.chats environment nspace chats importing

def Store.importChats (store : Store) (environment : Environment) (nspace json : Text) :
    Effect := do
  checkText nspace 4096 "legacy namespace"
  reject (Utf8.trimChars nspace).isEmpty
    (.message "Migration needs an application and state-file namespace")
  let snapshot ← (ConversationSnapshot.fromJson json).mapError .snapshot
  let importing ← Importing.chats environment nspace snapshot.chats ⟨store, [], 0⟩
  return (importing.store, .ok (.imported importing.mappings))

/-- `WorkspaceCommand`, as far as it changes conversations. -/
inductive Command where
  | importChats (nspace json : Text)
  | createChat (title : Text)
  | saveChat (id : Text) (expectedRevision : Nat) (json : Text)
  | setDraft (id : Text) (expectedRevision : Nat) (text : Text)
  | rename (id title : Text)
  | archive (id : Text) (archived : Bool)
  | pin (id : Text) (pinned : Bool)
  | tags (id : Text) (tags : List Text)
  | organize (changes : List WorkspaceOrganization)
  | indexSessions (sessions : List WorkspaceRow)
  | delete (id : Text)
  | beginSubmission (id : Text) (expectedRevision draftRevision : Nat) (text : Text)
  | completeSubmission (receipt : SubmissionReceipt) (text : Text)
  | cancelSubmission (receipt : SubmissionReceipt) (restoreDraft : Bool)
deriving DecidableEq

def Command.effect (command : Command) (environment : Environment) (owner : Owner)
    (store : Store) : Effect :=
  match command with
  | .importChats nspace json => store.importChats environment nspace json
  | .createChat title => store.createChat environment title
  | .saveChat id expectedRevision json => store.save environment id expectedRevision json
  | .setDraft id expectedRevision text => store.setDraft id expectedRevision text
  | .rename id title => store.rename environment id title
  | .archive id archived => store.archive environment id archived
  | .pin id pinned => store.pin environment id pinned
  | .tags id labels => store.tag environment id labels
  | .organize changes => store.organize environment changes
  | .indexSessions sessions => store.indexSessions environment sessions
  | .delete id => store.delete id
  | .beginSubmission id expectedRevision draftRevision text =>
    store.beginSubmission environment owner id expectedRevision draftRevision text
  | .completeSubmission receipt text => store.complete environment receipt text
  | .cancelSubmission receipt restoreDraft => store.cancel receipt restoreDraft

def Store.commandAs (store : Store) (environment : Environment) (owner : Owner)
    (command : Command) : Store × Answer :=
  let reaped := store.reapAbandonedRequests environment
  (command.effect environment owner reaped).on reaped

end

end JtermCore.Workspace
