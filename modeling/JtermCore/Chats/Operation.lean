import JtermCore.Chats.Store
import JtermCore.Log

/-!
# Runs of a chat store

A run starts from an empty or a restored library and calls the methods that
change it.  The log of a run is the tokens it issued.
-/

namespace JtermCore.Chats

section

variable [ChatLibraries]

/-- A row that the constructors of a snapshot build. -/
inductive ChatSnapshot.Built : ChatSnapshot → Prop where
  | completed {id : Nat} (positive : id ≠ 0) (word : id < usizeValues) (title : Text)
      (archived : Bool) (history : List Turn) (blockContext : Option BlockContext) (draft : Text) :
      Built (fromCompletedHistory id title archived history blockContext draft)
  | marked {snapshot : ChatSnapshot} (built : snapshot.Built) (historyTruncated : Bool) :
      Built (snapshot.withHistoryTruncated historyTruncated)

/-- A row from a constructor. -/
abbrev BuiltSnapshot : Type := {snapshot : ChatSnapshot // snapshot.Built}

/-- A collection that passed its checks; its ids are machine words. -/
structure CheckedSnapshot where
  snapshot : ConversationSnapshot
  valid : snapshot.validate = .ok ()
  words : ∀ chat ∈ snapshot.chats, chat.id < usizeValues

end

section

variable [ChatLibraries]

inductive Start where
  | default (policy : BusyChatPolicy)
  | restore (snapshot : CheckedSnapshot) (policy : BusyChatPolicy)

def Start.store : Start → ChatStore
  | default policy => .withBusyPolicy policy
  | restore checked policy => .restoreWithBusyPolicy checked.snapshot policy

/-- A call of a method that changes the store. -/
inductive Operation where
  | upsertPersistedChat (snapshot : BuiltSnapshot)
  | replaceImportedLegacyChat (legacyId : Nat) (snapshot : BuiltSnapshot)
  | evictCachedChat (chatId : Nat)
  | evictImportedLegacyChat (chatId : Nat)
  | snapshotForPersistence (redact : Bool)
  | syncTruncationMarkers (snapshot : ConversationSnapshot)
  | setActiveDraft (draft : Text)
  | setChatDraft (chatId : Nat) (draft : Text)
  | clearActiveContext
  | newChat
  | selectChat (chatId : Nat)
  | renameActive (title : Text)
  | toggleArchiveActive
  | deleteActive
  | beginTurn (text : Text) (context : Option BlockContext) (thinkingMessage : Text)
      (restorePendingAsDraft : Bool)
  | observeTurn (chatId : Nat) (text : Text)
  | replacePartial (token : RequestToken) (text : Text)
  | pushDelta (token : RequestToken) (text : Text)
  | completeSuccess (token : RequestToken) (text : Text)
  | completeError (token : RequestToken) (message : Text)
  | cancelRequest (token : RequestToken) (message : Text)
  | recoverRetryPayload (chatId : Nat) (userText : Text) (context : Option BlockContext)
  | recoverRetryPayloadDetaching (chatId : Nat) (userText : Text) (context : Option BlockContext)
  | setActiveInfo (message : Text)
  | setActiveError (message : Text)
  | clearActiveStatus

def Operation.run (store : ChatStore) : Operation → ChatStore
  | upsertPersistedChat snapshot => (store.upsertPersistedChat snapshot.val).1
  | replaceImportedLegacyChat legacyId snapshot =>
    (store.replaceImportedLegacyChat legacyId snapshot.val).1
  | evictCachedChat chatId => (store.evictCachedChat chatId).1
  | evictImportedLegacyChat chatId => (store.evictImportedLegacyChat chatId).1
  | snapshotForPersistence redact => (store.snapshotForPersistence redact).1
  | syncTruncationMarkers snapshot => (store.syncTruncationMarkers snapshot).1
  | setActiveDraft draft => (store.setActiveDraft draft).1
  | setChatDraft chatId draft => (store.setChatDraft chatId draft).1
  | clearActiveContext => store.clearActiveContext.1
  | newChat => store.newChat.1
  | selectChat chatId => (store.selectChat chatId).1
  | renameActive title => (store.renameActive title).1
  | toggleArchiveActive => store.toggleArchiveActive.1
  | deleteActive => store.deleteActive.1
  | beginTurn text context thinkingMessage restorePendingAsDraft =>
    (store.beginTurn text context thinkingMessage restorePendingAsDraft).1
  | observeTurn chatId text => (store.observeTurn chatId text).1
  | replacePartial token text => (store.replacePartial token text).1
  | pushDelta token text => (store.pushDelta token text).1
  | completeSuccess token text => (store.completeSuccess token text).1
  | completeError token message => (store.completeError token message).1
  | cancelRequest token message => (store.cancelRequest token message).1
  | recoverRetryPayload chatId userText context =>
    (store.recoverRetryPayload chatId userText context).1
  | recoverRetryPayloadDetaching chatId userText context =>
    (store.recoverRetryPayloadDetaching chatId userText context).1
  | setActiveInfo message => store.setActiveInfo message
  | setActiveError message => store.setActiveError message
  | clearActiveStatus => store.clearActiveStatus

/-- The token that a call returned. -/
def Operation.issued (store : ChatStore) : Operation → Option RequestToken
  | beginTurn text context thinkingMessage restorePendingAsDraft =>
    (store.beginTurn text context thinkingMessage restorePendingAsDraft).2.toOption.map
      RequestStart.token
  | observeTurn chatId text => (store.observeTurn chatId text).2.toOption
  | _ => none

def Operation.brings : Operation → Option RequestToken
  | replacePartial token _ | pushDelta token _ | completeSuccess token _ | completeError token _
  | cancelRequest token _ => some token
  | _ => none

def stateAfter (start : Start) (calls : List Operation) : ChatStore :=
  Log.state Operation.run start.store calls

def issuedIn (start : Start) (calls : List Operation) : List RequestToken :=
  Log.log Operation.run (fun store call => (call.issued store).toList) start.store calls

@[simp]
theorem stateAfter_nil (start : Start) : stateAfter start [] = start.store :=
  rfl

@[simp]
theorem stateAfter_concat (start : Start) (calls : List Operation) (call : Operation) :
    stateAfter start (calls ++ [call]) = call.run (stateAfter start calls) :=
  Log.state_concat calls call

@[simp]
theorem issuedIn_nil (start : Start) : issuedIn start [] = [] :=
  rfl

@[simp]
theorem issuedIn_concat (start : Start) (calls : List Operation) (call : Operation) :
    issuedIn start (calls ++ [call]) =
      issuedIn start calls ++ (call.issued (stateAfter start calls)).toList :=
  Log.log_concat calls call

def ChatStore.refusesBusy (store : ChatStore) : Prop :=
  store.busyPolicy = .refuse ∧ store.active.isBusy

instance (store : ChatStore) : Decidable store.refusesBusy :=
  inferInstanceAs (Decidable (_ ∧ _))

def ChatStore.withoutActive (store : ChatStore) : ChatStore :=
  { store with chats := Keyed.remove ChatRuntime.id store.activeChatId store.chats }

/-- A row that a call brings in under an id that no row has: the id, and where
the row starts to count its requests. -/
def Operation.newcomer (store : ChatStore) : Operation → Option (Nat × Nat)
  | upsertPersistedChat snapshot =>
    if (store.chat? snapshot.val.id).isSome ∨ store.atCapacity then none
    else some (snapshot.val.id, 0)
  | replaceImportedLegacyChat legacyId snapshot =>
    if sharedIds ≤ legacyId ∨ snapshot.val.id < sharedIds ∨
        (store.chat? snapshot.val.id).isSome then none
    else
      ((store.chat? legacyId).filter fun old => !old.isBusy).map fun old =>
        (snapshot.val.id, wrappingSucc old.epoch)
  | newChat => if store.atCapacity then none else some (store.freeId, 0)
  | toggleArchiveActive =>
    if store.active.archived ∨ store.refusesBusy ∨
        (store.writableChat store.activeChatId).isSome ∨ store.atCapacity then none
    else some (store.freeId, 0)
  | deleteActive =>
    if store.refusesBusy ∨ (store.writableChat store.activeChatId).isSome then none
    else some (store.withoutActive.freeId, 0)
  | _ => none

/-- The rows whose count of requests a call reads to move it on. -/
def Operation.advanced (store : ChatStore) : Operation → List ChatRuntime
  | upsertPersistedChat snapshot => (store.chat? snapshot.val.id).toList
  | replaceImportedLegacyChat legacyId snapshot =>
    (store.chat? legacyId).toList ++ (store.chat? snapshot.val.id).toList
  | beginTurn .. => [store.active]
  | observeTurn chatId _ => (store.chat? chatId).toList
  | _ => []

def Operation.KeepsIdentities (store : ChatStore) (issued : List RequestToken)
    (call : Operation) : Prop :=
  (∀ row, call.newcomer store = some row →
    ∀ token ∈ issued, token.chatId = row.1 → token.epoch ≤ row.2) ∧
  ∀ chat ∈ call.advanced store, chat.isBusy = false → chat.epoch + 1 < usizeValues

def NoIdReturns (start : Start) (calls : List Operation) : Prop :=
  ∀ front call back, calls = front ++ call :: back →
    call.KeepsIdentities (stateAfter start front) (issuedIn start front)

end

end JtermCore.Chats
