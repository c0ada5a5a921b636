import JtermCore.Chats.Conversation
import JtermCore.Keyed

/-!
# The chat store

The live chats of the AI panel.  This file embeds the rows and the methods of
`ai/chat_store.rs` that change them.  A request is known to its caller by a
token, the chat with the count of requests that the chat has begun.
-/

namespace JtermCore.Chats

open ExecutionJournal

def maxLiveMessageBytes : Nat := 64 * 1024

def maxLiveAssistantMessageBytes : Nat := 256 * 1024

def maxLiveTurnsPerChat : Nat := 100

def maxLiveAllHistoryBytes : Nat := 8 * 1024 * 1024

def derivedTitleChars : Nat := 52

/-- The first id of a shared chat. -/
def sharedIds : Nat := 2 ^ 48

def wrappingSucc (value : Nat) : Nat := (value + 1) % usizeValues

inductive BusyChatPolicy where
  | refuse
  | allow
deriving DecidableEq

inductive ChatStatus where
  | idle
  | thinking (message : Text)
  | info (message : Text)
  | error (message : Text)
deriving DecidableEq

structure RequestToken where
  chatId : Nat
  epoch : Nat
deriving DecidableEq

structure RequestStart where
  token : RequestToken
  history : List Turn
  effectiveContext : Option BlockContext
deriving DecidableEq

inductive ChatStoreError where
  | limitReached
  | archived
  | busy
  | emptyMessage
  | messageTooLarge
  | snapshotInvalid
deriving DecidableEq

structure ArchiveOutcome where
  archived : Bool
  activeChatId : Nat
deriving DecidableEq

structure DeleteOutcome where
  deletedChatId : Nat
  activeChatId : Nat
deriving DecidableEq

/-- The row of a live chat. -/
structure ChatRuntime where
  id : Nat
  title : Text
  archived : Bool
  history : List Turn
  blockContext : Option BlockContext
  draft : Text
  historyTruncated : Bool
  epoch : Nat
  activeEpoch : Option Nat
  pendingUser : Option Text
  restorePendingAsDraft : Bool
  previousContext : Option (Option BlockContext)
  partialReply : Text
  status : ChatStatus
  unread : Bool
deriving DecidableEq

structure ChatStore where
  chats : List ChatRuntime
  activeChatId : Nat
  nextId : Nat
  busyPolicy : BusyChatPolicy
deriving DecidableEq

def boundedLiveMessage (text : Text) : Text :=
  if byteLen text ≤ maxLiveMessageBytes then text else cut maxLiveMessageBytes text

def truncationNotice : Text := "\n\n[Response truncated to the 256 KiB live message limit.]".toList

def boundedLiveAssistantMessage (text : Text) : Text :=
  if byteLen text ≤ maxLiveAssistantMessageBytes then text
  else cut (maxLiveAssistantMessageBytes - byteLen truncationNotice) text ++ truncationNotice

def appendBounded (target text : Text) : Text :=
  let remaining := maxLiveMessageBytes - byteLen target
  if remaining = 0 then target else target ++ cut remaining text

def blankLine : Text := ['\n', '\n']

def alreadyMerged (first second : Text) : Bool :=
  (second.dropPrefix? first).any blankLine.isPrefixOf

def mergeDraftsBounded (first second : Text) : Text × Bool :=
  if first = [] ∨ first = second ∨ alreadyMerged first second then
    (boundedLiveMessage second, maxLiveMessageBytes < byteLen second)
  else if second = [] then
    (boundedLiveMessage first, maxLiveMessageBytes < byteLen first)
  else
    let fullLen := saturatingAdd (saturatingAdd (byteLen first) 2) (byteLen second)
    let merged := appendBounded [] first
    let kept := cut (maxLiveMessageBytes - byteLen merged - 2) second
    (if kept = [] then merged else merged ++ blankLine ++ kept, maxLiveMessageBytes < fullLen)

def splitWhitespace : Text → List Text
  | [] => []
  | char :: chars =>
    if Utf8.isWhitespace char then splitWhitespace chars
    else
      match chars with
      | [] => [[char]]
      | next :: _ =>
        if Utf8.isWhitespace next then [char] :: splitWhitespace chars
        else
          match splitWhitespace chars with
          | [] => [[char]]
          | word :: words => (char :: word) :: words

/-- The bounded copy at the end of `normalise_title`. -/
def boundedTitle : Text → Text → Text
  | [], bounded => bounded
  | char :: chars, bounded =>
    if maxChatTitleBytes < byteLen bounded + char.utf8Size then bounded
    else boundedTitle chars (bounded ++ [char])

section

variable [ChatLibraries]

def normaliseTitle (title : Text) : Text :=
  let collapsed := [' '].intercalate <| splitWhitespace <| title.map fun char =>
    if isControl char || Utf8.isWhitespace char then ' '
    else if Libraries.isUnsafeInvisibleChar char then '\uFFFD'
    else char
  let bounded := boundedTitle (collapsed.take maxChatTitleChars) []
  if bounded.isEmpty then defaultChatTitle else bounded

def titleFromText (text : Text) : Text :=
  let title := normaliseTitle text
  if derivedTitleChars < title.length then title.take derivedTitleChars ++ ['…'] else title

end

def ChatRuntime.empty (id : Nat) : ChatRuntime :=
  { id, title := defaultChatTitle, archived := false, history := [], blockContext := none,
    draft := [], historyTruncated := false, epoch := 0, activeEpoch := none, pendingUser := none,
    restorePendingAsDraft := false, previousContext := none, partialReply := [], status := .idle,
    unread := false }

def ChatRuntime.fromSnapshot (snapshot : ChatSnapshot) : ChatRuntime :=
  { ChatRuntime.empty snapshot.id with
    title := snapshot.title, archived := snapshot.archived, history := snapshot.turns,
    blockContext := snapshot.blockContext, draft := boundedLiveMessage snapshot.draft,
    historyTruncated := snapshot.historyTruncated }

def ChatRuntime.isBusy (chat : ChatRuntime) : Bool := chat.activeEpoch.isSome

def endsWithUser (history : List Turn) : Bool := history.getLast?.any fun turn => turn.role = .user

def durableDraft (chat : ChatRuntime) : Text × Bool :=
  if chat.restorePendingAsDraft then
    match chat.pendingUser with
    | some pendingUser => mergeDraftsBounded pendingUser chat.draft
    | none => (chat.draft, false)
  else (chat.draft, false)

def durableContext (chat : ChatRuntime) : Option BlockContext :=
  chat.previousContext.getD chat.blockContext

def rollbackPendingRequest (chat : ChatRuntime) : ChatRuntime × Bool :=
  let popped := endsWithUser chat.history
  let poppedUser := if popped then chat.history.getLast?.map Turn.text else none
  let recovered :=
    if chat.restorePendingAsDraft then
      match chat.pendingUser.or poppedUser with
      | some pendingUser => mergeDraftsBounded pendingUser chat.draft
      | none => (chat.draft, false)
    else (chat.draft, false)
  ({ chat with
      activeEpoch := none
      partialReply := []
      history := if popped then chat.history.dropLast else chat.history
      pendingUser := none
      draft := recovered.1
      historyTruncated := chat.historyTruncated || recovered.2
      restorePendingAsDraft := false
      blockContext := chat.previousContext.getD chat.blockContext
      previousContext := none },
    recovered.2)

def hasOldestCompletePair (chat : ChatRuntime) : Bool :=
  match chat.history with
  | user :: assistant :: _ => user.role = .user && assistant.role = .assistant
  | _ => false

def dropOldestLivePair (chat : ChatRuntime) : Option ChatRuntime :=
  if hasOldestCompletePair chat then
    let history := chat.history.drop 2
    some { chat with
      history, historyTruncated := true
      blockContext := if history.isEmpty then none else chat.blockContext }
  else none

def liveHistoryBytes (chats : List ChatRuntime) : Nat :=
  Budget.saturatingSum (chats.flatMap fun chat => chat.history.map fun turn => byteLen turn.text)

def applyRetryPayload (chat : ChatRuntime) (userText : Text) (context : Option BlockContext) :
    ChatRuntime :=
  let merged :=
    if (Utf8.trimChars userText).isEmpty then (chat.draft, false)
    else mergeDraftsBounded userText chat.draft
  { chat with
    draft := merged.1, historyTruncated := chat.historyTruncated || merged.2
    blockContext := context.or chat.blockContext }

def nextSharedCandidate (candidate : Nat) : Nat := max (wrappingSucc candidate) 1

def nextAvailableId (chats : List ChatRuntime) : Nat :=
  let localIds := (chats.map ChatRuntime.id).filter (· < sharedIds)
  let candidate := nextSharedCandidate (localIds.max?.getD 0)
  Keyed.firstFree nextSharedCandidate (chats.map ChatRuntime.id) chats.length candidate

/-- The next id that `allocate_id` tries. -/
def nextLocalCandidate (candidate : Nat) : Nat := max ((candidate + 1) % sharedIds) 1

namespace ChatStore

def chat? (store : ChatStore) (id : Nat) : Option ChatRuntime :=
  Keyed.get ChatRuntime.id id store.chats

def modifyChat (store : ChatStore) (id : Nat) (change : ChatRuntime → ChatRuntime) : ChatStore :=
  { store with chats := Keyed.modify ChatRuntime.id id change store.chats }

def active (store : ChatStore) : ChatRuntime :=
  (store.chat? store.activeChatId).getD (.empty store.activeChatId)

def modifyActive (store : ChatStore) (change : ChatRuntime → ChatRuntime) : ChatStore :=
  store.modifyChat store.activeChatId change

def freeId (store : ChatStore) : Nat :=
  Keyed.firstFree nextLocalCandidate (store.chats.map ChatRuntime.id) store.chats.length
    (max (store.nextId % sharedIds) 1)

def atCapacity (store : ChatStore) : Bool := maxPersistedChats ≤ store.chats.length

def inFlightTokens (store : ChatStore) : List RequestToken :=
  store.chats.filterMap fun chat => chat.activeEpoch.map fun epoch => ⟨chat.id, epoch⟩

def withBusyPolicy (policy : BusyChatPolicy) : ChatStore :=
  { chats := [.empty 1], activeChatId := 1, nextId := 2, busyPolicy := policy }

def restoreWithBusyPolicy (snapshot : ConversationSnapshot) (policy : BusyChatPolicy) :
    ChatStore :=
  let chats := snapshot.chats.map ChatRuntime.fromSnapshot
  let store : ChatStore :=
    { chats, activeChatId := snapshot.activeChatId, nextId := nextAvailableId chats,
      busyPolicy := policy }
  store.modifyActive fun chat => { chat with unread := false }

def upsertPersistedChat (store : ChatStore) (snapshot : ChatSnapshot) :
    ChatStore × Except ChatStoreError Nat :=
  let filed (chats : List ChatRuntime) : ChatStore :=
    { store with chats, nextId := nextAvailableId chats }
  match store.chat? snapshot.id with
  | some old =>
    if old.isBusy then (store, .error .busy)
    else
      -- A restored row must not reuse an epoch held by a late callback.
      let chat := { ChatRuntime.fromSnapshot snapshot with epoch := wrappingSucc old.epoch }
      (filed (Keyed.modify ChatRuntime.id snapshot.id (fun _ => chat) store.chats), .ok snapshot.id)
  | none =>
    if store.atCapacity then (store, .error .limitReached)
    else (filed (store.chats ++ [.fromSnapshot snapshot]), .ok snapshot.id)

def replaceImportedLegacyChat (store : ChatStore) (legacyId : Nat) (snapshot : ChatSnapshot) :
    ChatStore × Except ChatStoreError Nat :=
  let id := snapshot.id
  if sharedIds ≤ legacyId ∨ id < sharedIds then (store, .error .snapshotInvalid)
  else
    match store.chat? legacyId with
    | none => (store, .error .snapshotInvalid)
    | some old =>
      if old.isBusy ∨ (store.chat? id).any ChatRuntime.isBusy then (store, .error .busy)
      else
        let epoch := (store.chat? id).elim old.epoch fun existing => max old.epoch existing.epoch
        let replacement := { ChatRuntime.fromSnapshot snapshot with epoch := wrappingSucc epoch }
        let chats := Keyed.modify ChatRuntime.id legacyId (fun _ => replacement)
          (Keyed.remove ChatRuntime.id id store.chats)
        ({ store with
            chats, nextId := nextAvailableId chats
            activeChatId := if store.activeChatId = legacyId then id else store.activeChatId },
          .ok id)

def evictIdleChat (store : ChatStore) (chatId : Nat) : ChatStore × Except ChatStoreError Bool :=
  match store.chat? chatId with
  | none => (store, .ok false)
  | some chat =>
    if chat.isBusy ∨ store.activeChatId = chatId then (store, .error .busy)
    else ({ store with chats := Keyed.remove ChatRuntime.id chatId store.chats }, .ok true)

def evictCachedChat (store : ChatStore) (chatId : Nat) : ChatStore × Except ChatStoreError Bool :=
  if chatId < sharedIds then (store, .error .snapshotInvalid) else store.evictIdleChat chatId

def evictImportedLegacyChat (store : ChatStore) (chatId : Nat) :
    ChatStore × Except ChatStoreError Bool :=
  if sharedIds ≤ chatId then (store, .error .snapshotInvalid) else store.evictIdleChat chatId

def pushFresh (store : ChatStore) : ChatStore :=
  let id := store.freeId
  { store with
    chats := store.chats ++ [.empty id], activeChatId := id, nextId := max (wrappingSucc id) 1 }

def newChat (store : ChatStore) : ChatStore × Except ChatStoreError Nat :=
  if store.atCapacity then (store, .error .limitReached)
  else (store.pushFresh, .ok store.freeId)

def showChat (store : ChatStore) (id : Nat) : ChatStore :=
  { store with activeChatId := id }.modifyActive fun chat => { chat with unread := false }

def selectChat (store : ChatStore) (id : Nat) : ChatStore × Bool :=
  if store.activeChatId = id ∨ id ∉ store.chats.map ChatRuntime.id then (store, false)
  else (store.showChat id, true)

def writableChat (store : ChatStore) (except : Nat) : Option ChatRuntime :=
  store.chats.reverse.find? fun chat => chat.id ≠ except && !chat.archived

def toggleArchiveActive (store : ChatStore) : ChatStore × Except ChatStoreError ArchiveOutcome :=
  let outcome (archived : Bool) (store : ChatStore) :
      ChatStore × Except ChatStoreError ArchiveOutcome :=
    (store, .ok ⟨archived, store.activeChatId⟩)
  if store.active.archived then
    outcome false (store.modifyActive fun chat => { chat with archived := false })
  else if store.busyPolicy = .refuse ∧ store.active.isBusy then (store, .error .busy)
  else
    let archived := store.modifyActive fun chat => { chat with archived := true }
    match store.writableChat store.activeChatId with
    | some replacement => outcome true (archived.showChat replacement.id)
    | none =>
      if store.atCapacity then (store, .error .limitReached)
      else outcome true archived.pushFresh

def deleteActive (store : ChatStore) : ChatStore × Except ChatStoreError DeleteOutcome :=
  if store.busyPolicy = .refuse ∧ store.active.isBusy then (store, .error .busy)
  else
    let deletedChatId := store.activeChatId
    let remaining := { store with chats := Keyed.remove ChatRuntime.id deletedChatId store.chats }
    let after :=
      match store.writableChat deletedChatId with
      | some replacement => remaining.showChat replacement.id
      | none => remaining.pushFresh
    (after, .ok ⟨deletedChatId, after.activeChatId⟩)

def setChatDraft (store : ChatStore) (chatId : Nat) (draft : Text) : ChatStore × Bool :=
  let draft := boundedLiveMessage draft
  match store.chat? chatId with
  | none => (store, false)
  | some chat =>
    if chat.draft = draft then (store, false)
    else (store.modifyChat chatId fun chat => { chat with draft }, true)

def setActiveDraft (store : ChatStore) (draft : Text) : ChatStore × Bool :=
  store.setChatDraft store.activeChatId draft

def clearActiveContext (store : ChatStore) : ChatStore × Except ChatStoreError Bool :=
  if store.active.isBusy then (store, .error .busy)
  else
    (store.modifyActive fun chat => { chat with blockContext := none },
      .ok store.active.blockContext.isSome)

def recoverRetryPayload (store : ChatStore) (chatId : Nat) (userText : Text)
    (context : Option BlockContext) : ChatStore × Bool :=
  match store.chat? chatId with
  | none => (store, false)
  | some chat =>
    if chat.isBusy then (store, false)
    else (store.modifyChat chatId (applyRetryPayload · userText context), true)

/-- The request that `recover_retry_payload_detaching` forgets. -/
def detach (chat : ChatRuntime) : ChatRuntime :=
  { chat with
    history :=
      if chat.isBusy && endsWithUser chat.history then chat.history.dropLast else chat.history
    activeEpoch := none
    pendingUser := none
    previousContext := none
    partialReply := []
    restorePendingAsDraft := false }

def recoverRetryPayloadDetaching (store : ChatStore) (chatId : Nat) (userText : Text)
    (context : Option BlockContext) : ChatStore × Bool :=
  match store.chat? chatId with
  | none => (store, false)
  | some _ =>
    (store.modifyChat chatId fun chat => applyRetryPayload (detach chat) userText context, true)

def setActiveInfo (store : ChatStore) (message : Text) : ChatStore :=
  store.modifyActive fun chat => { chat with status := .info message }

def setActiveError (store : ChatStore) (message : Text) : ChatStore :=
  store.modifyActive fun chat => { chat with status := .error message }

def clearActiveStatus (store : ChatStore) : ChatStore :=
  if store.active.isBusy then store
  else store.modifyActive fun chat => { chat with status := .idle }

def syncTruncationMarkers (store : ChatStore) (snapshot : ConversationSnapshot) :
    ChatStore × Bool :=
  (snapshot.chats.filter ChatSnapshot.historyTruncated).foldl (fun synced persisted =>
      match synced.1.chat? persisted.id with
      | none => synced
      | some chat =>
        (synced.1.modifyChat persisted.id fun chat => { chat with historyTruncated := true },
          synced.2 || !chat.historyTruncated))
    (store, false)

def compactTurns (chat : ChatRuntime) : ChatRuntime :=
  Budget.shed dropOldestLivePair (fun chat => maxLiveTurnsPerChat < chat.history.length)
    chat.history.length chat

def dropLivePair (store : ChatStore) : Option ChatStore :=
  let candidate := (store.chats.find? fun chat =>
      chat.id ≠ store.activeChatId && hasOldestCompletePair chat).or
    (store.chats.find? fun chat => chat.id = store.activeChatId && hasOldestCompletePair chat)
  candidate.map fun chosen =>
    store.modifyChat chosen.id fun chat => (dropOldestLivePair chat).getD chat

def compactLiveHistories (store : ChatStore) : ChatStore :=
  let store := { store with chats := store.chats.map compactTurns }
  Budget.shed dropLivePair (fun store => maxLiveAllHistoryBytes < liveHistoryBytes store.chats)
    (store.chats.map fun chat => chat.history.length).sum store

section

variable [ChatLibraries]

def renameActive (store : ChatStore) (title : Text) : ChatStore × Bool :=
  let title := normaliseTitle title
  if store.active.title = title then (store, false)
  else (store.modifyActive fun chat => { chat with title }, true)

/-- The row of a chat that begins a request. -/
def begun (chat : ChatRuntime) (text : Text) (context : Option BlockContext)
    (thinkingMessage : Text) (restorePendingAsDraft : Bool) : ChatRuntime :=
  { chat with
    previousContext := context.map fun _ => chat.blockContext
    blockContext := context.or chat.blockContext
    title :=
      if chat.title = defaultChatTitle ∧ chat.history = [] then titleFromText text else chat.title
    epoch := wrappingSucc chat.epoch
    history := chat.history ++ [⟨.user, text⟩]
    activeEpoch := some (wrappingSucc chat.epoch)
    pendingUser := some text
    restorePendingAsDraft
    partialReply := []
    status := .thinking thinkingMessage
    unread := false }

def beginTurn (store : ChatStore) (text : Text) (context : Option BlockContext)
    (thinkingMessage : Text) (restorePendingAsDraft : Bool) :
    ChatStore × Except ChatStoreError RequestStart :=
  if (Utf8.trimChars text).isEmpty then (store, .error .emptyMessage)
  else if maxLiveMessageBytes < byteLen text then (store, .error .messageTooLarge)
  else if store.active.archived then (store, .error .archived)
  else if store.active.isBusy then (store, .error .busy)
  else
    let chat := begun store.active text context thinkingMessage restorePendingAsDraft
    (store.modifyActive fun _ => chat, .ok ⟨⟨chat.id, chat.epoch⟩, chat.history, chat.blockContext⟩)

def backgroundMessage : Text := "Response continues in background".toList

def observeTurn (store : ChatStore) (chatId : Nat) (text : Text) :
    ChatStore × Except ChatStoreError RequestToken :=
  match store.chat? chatId with
  | none => (store, .error .snapshotInvalid)
  | some _ =>
    let result := { store with activeChatId := chatId }.beginTurn text none backgroundMessage false
    ({ result.1 with activeChatId := store.activeChatId }, result.2.map RequestStart.token)

def owner (store : ChatStore) (token : RequestToken) : Option ChatRuntime :=
  (store.chat? token.chatId).filter fun chat => chat.activeEpoch = some token.epoch

/-- Change the row that a token names; the answer tells whether it is shown. -/
def withOwner (store : ChatStore) (token : RequestToken) (change : ChatRuntime → ChatRuntime) :
    ChatStore × Option Bool :=
  match store.owner token with
  | none => (store, none)
  | some chat => (store.modifyChat token.chatId change, some (chat.id = store.activeChatId))

def replacePartial (store : ChatStore) (token : RequestToken) (text : Text) :
    ChatStore × Option Bool := store.withOwner token fun chat =>
    { chat with partialReply := boundedLiveAssistantMessage text }

def pushDelta (store : ChatStore) (token : RequestToken) (text : Text) : ChatStore × Option Bool :=
  store.withOwner token fun chat =>
    let room := maxLiveAssistantMessageBytes - byteLen chat.partialReply
    if 0 < room then { chat with partialReply := chat.partialReply ++ cut room text } else chat

/-- The row of a chat whose request succeeded. -/
def completed (store : ChatStore) (chat : ChatRuntime) (text : Text) : ChatRuntime :=
  { chat with
    activeEpoch := none
    pendingUser := none
    restorePendingAsDraft := false
    previousContext := none
    partialReply := []
    history := chat.history ++ [⟨.assistant, boundedLiveAssistantMessage text⟩]
    historyTruncated := chat.historyTruncated || maxLiveAssistantMessageBytes < byteLen text
    status := .idle
    unread := chat.id ≠ store.activeChatId }

def completeSuccess (store : ChatStore) (token : RequestToken) (text : Text) :
    ChatStore × Option Bool :=
  let (after, shown) := store.withOwner token fun chat => store.completed chat text
  (if shown.isSome then after.compactLiveHistories else after, shown)

/-- The sentence that `rollback` adds when a draft was cut. -/
def omissionNotice : Text := " Some recovered draft text was omitted at the 64 KiB limit.".toList

def rolledBack (store : ChatStore) (chat : ChatRuntime) (message : Text)
    (status : Text → ChatStatus) : ChatRuntime :=
  let (chat, draftTruncated) := rollbackPendingRequest chat
  { chat with
    status := status (if draftTruncated then message ++ omissionNotice else message)
    unread := chat.id ≠ store.activeChatId }

def rollback (store : ChatStore) (token : RequestToken) (message : Text)
    (status : Text → ChatStatus) : ChatStore × Option Bool :=
  store.withOwner token fun chat => store.rolledBack chat message status

def completeError (store : ChatStore) (token : RequestToken) (message : Text) :
    ChatStore × Option Bool := store.rollback token message .error

def cancelRequest (store : ChatStore) (token : RequestToken) (message : Text) :
    ChatStore × Option Bool := store.rollback token message .info

def redactContext (context : BlockContext) : BlockContext :=
  { context with
    cmd := ChatLibraries.redactSecrets context.cmd
    output := ChatLibraries.redactSecrets context.output
    cwd := context.cwd.map ChatLibraries.redactSecrets }

/-- The row that both persistence methods build for a chat. -/
def persistedChat (redact : Bool) (chat : ChatRuntime) : ChatSnapshot :=
  let clean (text : Text) : Text := if redact then ChatLibraries.redactSecrets text else text
  let context := durableContext chat
  let (draft, draftTruncated) := durableDraft chat
  (ChatSnapshot.fromCompletedHistory chat.id (clean chat.title) chat.archived
    (chat.history.map fun turn => { turn with text := clean turn.text })
    (if redact then context.map redactContext else context)
    (clean draft)).withHistoryTruncated (chat.historyTruncated || draftTruncated)

def snapshotChatForPersistence (store : ChatStore) (chatId : Nat) (redact : Bool) :
    Option ChatSnapshot := (store.chat? chatId).map (persistedChat redact)

def snapshotForPersistence (store : ChatStore) (redact : Bool) :
    ChatStore × Except ChatStoreError (ConversationSnapshot × Bool) :=
  let store := store.compactLiveHistories
  match ConversationSnapshot.fromChats store.activeChatId
      (store.chats.map (persistedChat redact)) with
  | none => (store, .error .snapshotInvalid)
  | some snapshot =>
    let (store, truncationChanged) := store.syncTruncationMarkers snapshot
    (store, .ok (snapshot, truncationChanged))

end

end ChatStore

end JtermCore.Chats
