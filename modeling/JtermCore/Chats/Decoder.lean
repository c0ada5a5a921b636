import JtermCore.Chats.Conversation
import JtermCore.CompactJson

/-!
# The persisted text of a conversation

A snapshot is written as one JSON object and read back under running budgets,
so that no long text is kept before the checks of the collection.  This file
embeds `to_json`, `from_json` and the decoding seeds.
-/

namespace JtermCore.Chats

open CompactJson Result

def legacyConversationSnapshotVersion : Nat := 1

/-- The third-party functions that write and read a persisted conversation. -/
class SnapshotLibraries extends ChatLibraries where
  /-- The JSON value that `jagent::prompt::BlockContext` serializes to. -/
  contextJson : BlockContext → CompactJson.Json
  /-- The syntax tree that `serde_json::from_str` reads. -/
  readJson : Text → Option CompactJson.Json

/-- `ConversationSnapshotError` of a text: a check of the collection, or the
text itself. -/
inductive SnapshotTextError where
  | encodedTooLarge
  | invalidJson
  | invalid (reason : ConversationSnapshotError)
deriving DecidableEq

def key (name : String) : Text := name.toList

def object (members : List (String × CompactJson.Json)) : CompactJson.Json :=
  .object (members.map fun member => (key member.1, member.2))

def Role.json : Role → CompactJson.Json
  | .user => .string (key "user")
  | .assistant => .string (key "assistant")

def Turn.json (turn : Turn) : CompactJson.Json :=
  object [("role", turn.role.json), ("text", .string turn.text)]

section

variable [SnapshotLibraries]

/-- The serialization of `ChatSnapshot`: an absent context and an empty draft
are left out. -/
def ChatSnapshot.json (snapshot : ChatSnapshot) : CompactJson.Json :=
  object ([("id", .integer snapshot.id), ("title", .string snapshot.title),
    ("archived", .bool snapshot.archived), ("turns", .array (snapshot.turns.map Turn.json))] ++
    (snapshot.blockContext.elim [] fun context =>
      [("block_context", SnapshotLibraries.contextJson context)]) ++
    (if snapshot.draft.isEmpty then [] else [("draft", .string snapshot.draft)]) ++
    [("history_truncated", .bool snapshot.historyTruncated)])

/-- The serialization of `ConversationSnapshot`. -/
def ConversationSnapshot.json (snapshot : ConversationSnapshot) : CompactJson.Json :=
  object [("version", .integer snapshot.version),
    ("active_chat_id", .integer snapshot.activeChatId),
    ("chats", .array (snapshot.chats.map ChatSnapshot.json))]

def ConversationSnapshot.toJson (snapshot : ConversationSnapshot) :
    Except SnapshotTextError Text := do
  snapshot.validate.mapError .invalid
  let encoded := snapshot.json.print
  reject (maxConversationSnapshotJsonBytes < byteLen encoded) .encodedTooLarge
  return encoded

end

structure DecodeState where
  remainingTurnText : Nat
  remainingContext : Nat
  remainingDraft : Nat
deriving DecidableEq

def DecodeState.new : DecodeState :=
  { remainingTurnText := maxAllChatTurnTextBytes, remainingContext := maxAllBlockContextBytes,
    remainingDraft := maxAllChatDraftBytes }

/-- A decoding step: the first failure ends the decoding. -/
abbrev Decoder (α : Type) := DecodeState → Except SnapshotTextError (α × DecodeState)

inductive TextBudget where
  | none
  | turnText
  | draft
  | context
deriving DecidableEq

def DecodeState.charge (state : DecodeState) (bytes : Nat) :
    TextBudget → Except SnapshotTextError DecodeState
  | .none => .ok state
  | .turnText => do
    reject (state.remainingTurnText < bytes) (.invalid .conversationTooLarge)
    return { state with remainingTurnText := state.remainingTurnText - bytes }
  | .draft => do
    reject (state.remainingDraft < bytes) (.invalid .conversationTooLarge)
    return { state with remainingDraft := state.remainingDraft - bytes }
  | .context => do
    reject (state.remainingContext < bytes) (.invalid .blockContextTooLarge)
    return { state with remainingContext := state.remainingContext - bytes }

def plain {α : Type} (read : CompactJson.Json → Option α) (value : CompactJson.Json) :
    Decoder α := fun state => do
  let value ← okOr .invalidJson (read value)
  return (value, state)

def unsigned (bound : Nat) : CompactJson.Json → Option Nat
  | .integer value => if 0 ≤ value ∧ value < bound then some value.toNat else none
  | _ => none

def readI32 : CompactJson.Json → Option Int
  | .integer value => if -(2 ^ 31) ≤ value ∧ value < 2 ^ 31 then some value else none
  | _ => none

def readBool : CompactJson.Json → Option Bool
  | .bool value => some value
  | _ => none

def Role.ofName (name : Text) : Option Role :=
  if name = key "user" then some .user
  else if name = key "assistant" then some .assistant
  else none

def readRole : CompactJson.Json → Option Role
  | .string name => Role.ofName name
  | .object [(name, .null)] => Role.ofName name
  | _ => none

def boundedText (limit : Nat) (tooLarge : ConversationSnapshotError) (budget : TextBudget) :
    CompactJson.Json → Decoder Text
  | .string text, state => do
    reject (limit < byteLen text) (.invalid tooLarge)
    let state ← state.charge (byteLen text) budget
    return (text, state)
  | _, _ => .error .invalidJson

def optional {α : Type} (inner : CompactJson.Json → Decoder α) :
    CompactJson.Json → Decoder (Option α)
  | .null, state => .ok (none, state)
  | value, state => do
    let (decoded, state) ← inner value state
    return (some decoded, state)

/-- A field that may come once. -/
def once {α : Type} (slot : Option α) (inner : CompactJson.Json → Decoder α)
    (value : CompactJson.Json) : Decoder (Option α) := fun state => do
  reject slot.isSome .invalidJson
  let (decoded, state) ← inner value state
  return (some decoded, state)

def visitMembers {σ : Type} (field : σ → Text → CompactJson.Json → Decoder σ) :
    List (Text × CompactJson.Json) → σ → Decoder σ
  | [], slots, state => .ok (slots, state)
  | (name, value) :: members, slots, state => do
    let (slots, state) ← field slots name value state
    visitMembers field members slots state

def visitMap {σ : Type} (field : σ → Text → CompactJson.Json → Decoder σ) (empty : σ) :
    CompactJson.Json → Decoder σ
  | .object members, state => visitMembers field members empty state
  | _, _ => .error .invalidJson

def visitElements {α : Type} (element : CompactJson.Json → Decoder α) :
    List CompactJson.Json → Decoder (List α)
  | [], state => .ok ([], state)
  | item :: items, state => do
    let (decoded, state) ← element item state
    let (rest, state) ← visitElements element items state
    return (decoded :: rest, state)

def visitSeq {α : Type} (limit : Nat) (tooMany : ConversationSnapshotError)
    (element : CompactJson.Json → Decoder α) : CompactJson.Json → Decoder (List α)
  | .array items, state => do
    let (decoded, state) ← visitElements element (items.take limit) state
    reject (limit < items.length) (.invalid tooMany)
    return (decoded, state)
  | _, _ => .error .invalidJson

/-- The fields of a turn that have been read. -/
structure TurnSlots where
  role : Option Role
  text : Option Text

def turnField (slots : TurnSlots) (name : Text) (value : CompactJson.Json) :
    Decoder TurnSlots := fun state =>
  if name = key "role" then do
    let (role, state) ← once slots.role (plain readRole) value state
    return ({ slots with role }, state)
  else if name = key "text" then do
    let (text, state) ←
      once slots.text (boundedText maxTurnBytes .turnTooLarge .turnText) value state
    return ({ slots with text }, state)
  else .error .invalidJson

def turnSeed (value : CompactJson.Json) : Decoder Turn := fun state => do
  let (slots, state) ← visitMap turnField ⟨none, none⟩ value state
  let role ← okOr .invalidJson slots.role
  let text ← okOr .invalidJson slots.text
  return ({ role, text }, state)

def turnsSeed : CompactJson.Json → Decoder (List Turn) :=
  visitSeq maxPersistedTurns .invalidTurnSequence turnSeed

/-- The fields of a context that have been read. -/
structure ContextSlots where
  cmd : Option (Option Text)
  output : Option (Option Text)
  cwd : Option (Option Text)
  exitCode : Option Int
  truncated : Option Bool
  contextBytes : Nat

def contextText (slots : ContextSlots) (slot : Option (Option Text)) (value : CompactJson.Json) :
    Decoder (Option (Option Text) × Nat) := fun state => do
  let (text, state) ←
    optional (boundedText maxBlockContextBytes .blockContextTooLarge .context) value state
  let contextBytes := saturatingAdd slots.contextBytes (text.elim 0 byteLen)
  reject (maxBlockContextBytes < contextBytes) (.invalid .blockContextTooLarge)
  reject slot.isSome .invalidJson
  return ((some text, contextBytes), state)

def contextField (slots : ContextSlots) (name : Text) (value : CompactJson.Json) :
    Decoder ContextSlots := fun state =>
  if name = key "cmd" then do
    let ((cmd, contextBytes), state) ← contextText slots slots.cmd value state
    return ({ slots with cmd, contextBytes }, state)
  else if name = key "output" then do
    let ((output, contextBytes), state) ← contextText slots slots.output value state
    return ({ slots with output, contextBytes }, state)
  else if name = key "cwd" then do
    let ((cwd, contextBytes), state) ← contextText slots slots.cwd value state
    return ({ slots with cwd, contextBytes }, state)
  else if name = key "exit_code" then do
    let (exitCode, state) ← once slots.exitCode (plain readI32) value state
    return ({ slots with exitCode }, state)
  else if name = key "truncated" then do
    let (truncated, state) ← once slots.truncated (plain readBool) value state
    return ({ slots with truncated }, state)
  else .error .invalidJson

def blockContextSeed (value : CompactJson.Json) : Decoder BlockContext := fun state => do
  let (slots, state) ← visitMap contextField ⟨none, none, none, none, none, 0⟩ value state
  -- A null in a field that is no option is a violation of the schema.
  let cmd ← okOr .invalidJson (slots.cmd.bind id)
  let output ← okOr .invalidJson (slots.output.bind id)
  let exitCode ← okOr .invalidJson slots.exitCode
  let context : BlockContext :=
    { cmd, output, cwd := slots.cwd.bind id, exitCode, truncated := slots.truncated.getD false }
  return (context, state)

/-- The fields of a row that have been read. -/
structure ChatSlots where
  id : Option Nat
  title : Option Text
  archived : Option Bool
  turns : Option (List Turn)
  blockContext : Option (Option BlockContext)
  draft : Option Text
  historyTruncated : Option Bool

def chatField (slots : ChatSlots) (name : Text) (value : CompactJson.Json) :
    Decoder ChatSlots := fun state =>
  if name = key "id" then do
    let (id, state) ← once slots.id (plain (unsigned (2 ^ 64))) value state
    return ({ slots with id }, state)
  else if name = key "title" then do
    let (title, state) ←
      once slots.title (boundedText maxChatTitleBytes .invalidChatTitle .none) value state
    return ({ slots with title }, state)
  else if name = key "archived" then do
    let (archived, state) ← once slots.archived (plain readBool) value state
    return ({ slots with archived }, state)
  else if name = key "turns" then do
    let (turns, state) ← once slots.turns turnsSeed value state
    return ({ slots with turns }, state)
  else if name = key "block_context" then do
    let (blockContext, state) ← once slots.blockContext (optional blockContextSeed) value state
    return ({ slots with blockContext }, state)
  else if name = key "draft" then do
    let (draft, state) ←
      once slots.draft (boundedText maxChatDraftBytes .conversationTooLarge .draft) value state
    return ({ slots with draft }, state)
  else if name = key "history_truncated" then do
    let (historyTruncated, state) ← once slots.historyTruncated (plain readBool) value state
    return ({ slots with historyTruncated }, state)
  else .error .invalidJson

def chatSeed (value : CompactJson.Json) : Decoder ChatSnapshot := fun state => do
  let (slots, state) ← visitMap chatField ⟨none, none, none, none, none, none, none⟩ value state
  let id ← okOr .invalidJson slots.id
  let title ← okOr .invalidJson slots.title
  let snapshot : ChatSnapshot :=
    { id, title, archived := slots.archived.getD false, turns := slots.turns.getD []
      blockContext := slots.blockContext.bind fun context => context
      draft := slots.draft.getD [], historyTruncated := slots.historyTruncated.getD false }
  return (snapshot, state)

def chatsSeed : CompactJson.Json → Decoder (List ChatSnapshot) :=
  visitSeq maxPersistedChats .tooManyChats chatSeed

/-- The fields of a collection that have been read. -/
structure SnapshotSlots where
  version : Option Nat
  activeChatId : Option Nat
  chats : Option (List ChatSnapshot)

def snapshotField (slots : SnapshotSlots) (name : Text) (value : CompactJson.Json) :
    Decoder SnapshotSlots := fun state =>
  if name = key "version" then do
    let (version, state) ← once slots.version (plain (unsigned (2 ^ 32))) value state
    return ({ slots with version }, state)
  else if name = key "active_chat_id" then do
    let (activeChatId, state) ← once slots.activeChatId (plain (unsigned (2 ^ 64))) value state
    return ({ slots with activeChatId }, state)
  else if name = key "chats" then do
    let (chats, state) ← once slots.chats chatsSeed value state
    return ({ slots with chats }, state)
  else .error .invalidJson

def snapshotSeed (value : CompactJson.Json) : Decoder ConversationSnapshot := fun state => do
  let (slots, state) ← visitMap snapshotField ⟨none, none, none⟩ value state
  let version ← okOr .invalidJson slots.version
  let activeChatId ← okOr .invalidJson slots.activeChatId
  let chats ← okOr .invalidJson slots.chats
  return ({ version, activeChatId, chats }, state)

structure LegacyConversationSnapshot where
  version : Nat
  turns : List Turn
  blockContext : Option BlockContext
deriving DecidableEq

def LegacyConversationSnapshot.validate (snapshot : LegacyConversationSnapshot) :
    Except ConversationSnapshotError Unit := do
  reject (snapshot.version ≠ legacyConversationSnapshotVersion)
    (.unsupportedVersion snapshot.version)
  reject (snapshot.turns = []) .invalidTurnSequence
  validateTurns snapshot.turns
  reject (snapshot.blockContext.any fun context => !validContext context) .blockContextTooLarge

/-- The fields of a first version that have been read. -/
structure LegacySlots where
  version : Option Nat
  turns : Option (List Turn)
  blockContext : Option (Option BlockContext)

def legacyField (slots : LegacySlots) (name : Text) (value : CompactJson.Json) :
    Decoder LegacySlots := fun state =>
  if name = key "version" then do
    let (version, state) ← once slots.version (plain (unsigned (2 ^ 32))) value state
    return ({ slots with version }, state)
  else if name = key "turns" then do
    let (turns, state) ← once slots.turns turnsSeed value state
    return ({ slots with turns }, state)
  else if name = key "block_context" then do
    let (blockContext, state) ← once slots.blockContext (optional blockContextSeed) value state
    return ({ slots with blockContext }, state)
  else .error .invalidJson

def legacySeed (value : CompactJson.Json) : Decoder LegacyConversationSnapshot := fun state => do
  let (slots, state) ← visitMap legacyField ⟨none, none, none⟩ value state
  let version ← okOr .invalidJson slots.version
  let turns ← okOr .invalidJson slots.turns
  let snapshot : LegacyConversationSnapshot :=
    { version, turns, blockContext := slots.blockContext.bind fun context => context }
  return (snapshot, state)

/-- The decoder that serde derives for `SnapshotVersion`: other members are
passed over, and an array of one number is read too. -/
def peekVersion : CompactJson.Json → Option Nat
  | .object members =>
    match members.filter fun member => member.1 = key "version" with
    | [(_, value)] => unsigned (2 ^ 32) value
    | _ => none
  | .array [value] => unsigned (2 ^ 32) value
  | _ => none

section

variable [SnapshotLibraries]

def decodeSnapshot (value : CompactJson.Json) : Except SnapshotTextError ConversationSnapshot := do
  let (snapshot, _) ← snapshotSeed value .new
  return snapshot

def decodeLegacySnapshot (value : CompactJson.Json) :
    Except SnapshotTextError LegacyConversationSnapshot := do
  let (legacy, _) ← legacySeed value .new
  return legacy

/-- The collection that a first version becomes. -/
def LegacyConversationSnapshot.upgrade (legacy : LegacyConversationSnapshot) :
    Except SnapshotTextError ConversationSnapshot :=
  let title := legacy.turns.head?.elim defaultChatTitle Turn.text
  let chat := ChatSnapshot.fromCompletedHistory 1 title false legacy.turns legacy.blockContext []
  okOr (.invalid .conversationTooLarge) (ConversationSnapshot.fromChats 1 [chat])

def ConversationSnapshot.fromJson (encoded : Text) :
    Except SnapshotTextError ConversationSnapshot := do
  reject (maxConversationSnapshotJsonBytes < byteLen encoded) .encodedTooLarge
  let value ← okOr .invalidJson (SnapshotLibraries.readJson encoded)
  let version ← okOr .invalidJson (peekVersion value)
  if version = legacyConversationSnapshotVersion then
    let legacy ← decodeLegacySnapshot value
    legacy.validate.mapError .invalid
    legacy.upgrade
  else if version = conversationSnapshotVersion then
    let snapshot ← decodeSnapshot value
    snapshot.validate.mapError .invalid
    return snapshot
  else throw (.invalid (.unsupportedVersion version))

end

end JtermCore.Chats
