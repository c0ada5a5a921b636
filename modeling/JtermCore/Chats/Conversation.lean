import JtermCore.Budget
import JtermCore.ExecutionJournal.Event

/-!
# Persisted conversations

A snapshot of the chat panel is an ordered collection of chats with their
completed exchanges.  This file embeds the constructors, the checks and the
compaction of `ai/conversation.rs`.  Texts are lists of characters, weighed in
UTF-8 bytes.
-/

namespace JtermCore.Chats

open ExecutionJournal Result

/-- A string. -/
abbrev Text := List Char

def byteLen (text : Text) : Nat := Budget.total Char.utf8Size text

/-- Cut a text at the last character boundary within a number of bytes. -/
def cut (limit : Nat) (text : Text) : Text := Budget.fit Char.utf8Size limit text

def maxPersistedChats : Nat := 50

def maxPersistedTurns : Nat := 100

def maxTurnBytes : Nat := 256 * 1024

def maxChatTurnTextBytes : Nat := 4 * 1024 * 1024

def maxAllChatTurnTextBytes : Nat := 4 * 1024 * 1024

def maxBlockContextBytes : Nat := 512 * 1024

def maxAllBlockContextBytes : Nat := 1024 * 1024

def maxChatTitleBytes : Nat := 256

def maxChatTitleChars : Nat := 80

def maxChatDraftBytes : Nat := 64 * 1024

def maxAllChatDraftBytes : Nat := maxPersistedChats * maxChatDraftBytes

def maxConversationSnapshotJsonBytes : Nat := 8 * 1024 * 1024

def conversationSnapshotVersion : Nat := 2

def defaultChatTitle : Text := "New chat".toList

inductive Role where
  | user
  | assistant
deriving DecidableEq

structure Turn where
  role : Role
  text : Text
deriving DecidableEq

structure BlockContext where
  cmd : Text
  output : Text
  cwd : Option Text
  exitCode : Int
  truncated : Bool
deriving DecidableEq

/-- The third-party functions the chat panel calls. -/
class ChatLibraries extends Libraries where
  redactSecrets : Text → Text
  contextJsonBytes : BlockContext → Nat

/-- A chat row with its completed exchanges. -/
structure ChatSnapshot where
  id : Nat
  title : Text
  archived : Bool
  turns : List Turn
  blockContext : Option BlockContext
  draft : Text
  historyTruncated : Bool
deriving DecidableEq

/-- The collection of a window. -/
structure ConversationSnapshot where
  version : Nat
  activeChatId : Nat
  chats : List ChatSnapshot
deriving DecidableEq

/-- `ConversationSnapshotError`, as far as a check reports it. -/
inductive ConversationSnapshotError where
  | unsupportedVersion (version : Nat)
  | emptyCollection
  | tooManyChats
  | invalidChatId
  | duplicateChatId (id : Nat)
  | activeChatMissing (id : Nat)
  | invalidChatTitle
  | invalidTurnSequence
  | turnTooLarge
  | conversationTooLarge
  | blockContextTooLarge
deriving DecidableEq

def validTurnText (text : Text) : Bool :=
  !(Utf8.trimChars text).isEmpty && byteLen text ≤ maxTurnBytes

def contextBytes (context : BlockContext) : Nat :=
  saturatingAdd (saturatingAdd (byteLen context.cmd) (byteLen context.output))
    (context.cwd.elim 0 byteLen)

def validContext (context : BlockContext) : Bool := contextBytes context ≤ maxBlockContextBytes

def boundedDraft (draft : Text) : Text × Bool :=
  if byteLen draft ≤ maxChatDraftBytes then (draft, false)
  else (cut maxChatDraftBytes draft, true)

section

variable [ChatLibraries]

def normaliseSnapshotTitleLoop : Text → Text → Nat → Bool → Text
  | [], bounded, _, _ => bounded
  | char :: chars, bounded, charCount, pendingSpace =>
    if Utf8.isWhitespace char || isControl char || Libraries.isUnsafeInvisibleChar char then
      normaliseSnapshotTitleLoop chars bounded charCount (pendingSpace || !bounded.isEmpty)
    else
      let separatorBytes := if pendingSpace then 1 else 0
      if maxChatTitleChars ≤ charCount + separatorBytes ||
          maxChatTitleBytes < byteLen bounded + separatorBytes + char.utf8Size then
        bounded
      else
        let separator := if pendingSpace then [' '] else []
        normaliseSnapshotTitleLoop chars (bounded ++ separator ++ [char])
          (charCount + separatorBytes + 1) false

def normaliseSnapshotTitle (title : Text) : Text :=
  let bounded := normaliseSnapshotTitleLoop title [] 0 false
  if bounded.isEmpty then defaultChatTitle else bounded

def validTitle (title : Text) : Bool :=
  !(Utf8.trimChars title).isEmpty && byteLen title ≤ maxChatTitleBytes &&
    title.length ≤ maxChatTitleChars && !title.any isControl &&
    !title.any Libraries.isUnsafeInvisibleChar

end

structure Exchange where
  user : Turn
  assistant : Turn
  bytes : Nat
deriving DecidableEq

/-- The exchanges that `completed_history` keeps while it scans. -/
structure Retained where
  exchanges : List Exchange
  bytes : Nat
  truncated : Bool
deriving DecidableEq

def dropRetained : List Exchange → Nat → Bool → Retained
  | [], bytes, truncated => ⟨[], bytes, truncated⟩
  | oldest :: newer, bytes, truncated =>
    if maxPersistedTurns < (newer.length + 1) * 2 || maxChatTurnTextBytes < bytes then
      dropRetained newer (bytes - oldest.bytes) true
    else ⟨oldest :: newer, bytes, truncated⟩

def Retained.push (retained : Retained) (user assistant : Turn) : Retained :=
  let pairBytes := saturatingAdd (byteLen user.text) (byteLen assistant.text)
  dropRetained (retained.exchanges ++ [⟨user, assistant, pairBytes⟩])
    (saturatingAdd retained.bytes pairBytes) retained.truncated

def completedScan : List Turn → Retained → Retained
  | user :: assistant :: history, retained =>
    if user.role ≠ .user || assistant.role ≠ .assistant then
      { retained with truncated := true }
    else if !validTurnText user.text || !validTurnText assistant.text then
      completedScan history { retained with truncated := true }
    else completedScan history (retained.push user assistant)
  -- A final lone user turn is an ordinary request in flight.
  | _, retained => retained

def completedHistory (history : List Turn) : List Turn × Bool :=
  let retained := completedScan history ⟨[], 0, false⟩
  (retained.exchanges.flatMap fun exchange => [exchange.user, exchange.assistant],
    retained.truncated)

section

variable [ChatLibraries]

def ChatSnapshot.fromCompletedHistory (id : Nat) (title : Text) (archived : Bool)
    (history : List Turn) (blockContext : Option BlockContext) (draft : Text) : ChatSnapshot :=
  let (turns, historyTruncated) := completedHistory history
  let (blockContext, contextDropped) :=
    if turns.isEmpty then (none, false)
    else
      match blockContext with
      | some context => if validContext context then (some context, false) else (none, true)
      | none => (none, false)
  let (draft, draftTruncated) := boundedDraft draft
  { id, title := normaliseSnapshotTitle title, archived, turns, blockContext, draft,
    historyTruncated := historyTruncated || contextDropped || draftTruncated }

end

def ChatSnapshot.withHistoryTruncated (snapshot : ChatSnapshot) (historyTruncated : Bool) :
    ChatSnapshot :=
  { snapshot with historyTruncated := snapshot.historyTruncated || historyTruncated }

def validateTurnsLoop : List Turn → Nat → Nat → Except ConversationSnapshotError Unit
  | [], _, _ => .ok ()
  | turn :: turns, index, totalBytes => do
    let expected := if index % 2 = 0 then Role.user else Role.assistant
    reject (turn.role ≠ expected ∨ (Utf8.trimChars turn.text).isEmpty) .invalidTurnSequence
    reject (maxTurnBytes < byteLen turn.text) .turnTooLarge
    let totalBytes := saturatingAdd totalBytes (byteLen turn.text)
    reject (maxChatTurnTextBytes < totalBytes) .conversationTooLarge
    validateTurnsLoop turns (index + 1) totalBytes

def validateTurns (turns : List Turn) : Except ConversationSnapshotError Unit := do
  reject (maxPersistedTurns < turns.length ∨ turns.length % 2 ≠ 0) .invalidTurnSequence
  validateTurnsLoop turns 0 0

def ChatSnapshot.turnTextBytes (snapshot : ChatSnapshot) : Nat :=
  Budget.saturatingSum (snapshot.turns.map fun turn => byteLen turn.text)

def ChatSnapshot.contextBytes (snapshot : ChatSnapshot) : Nat :=
  snapshot.blockContext.elim 0 Chats.contextBytes

section

variable [ChatLibraries]

def ChatSnapshot.validate (snapshot : ChatSnapshot) : Except ConversationSnapshotError Unit := do
  reject (snapshot.id = 0) .invalidChatId
  reject (¬ validTitle snapshot.title) .invalidChatTitle
  validateTurns snapshot.turns
  reject (snapshot.turns.isEmpty ∧ snapshot.blockContext.isSome) .invalidTurnSequence
  reject (snapshot.blockContext.any fun context => !validContext context) .blockContextTooLarge
  reject (maxChatDraftBytes < byteLen snapshot.draft) .conversationTooLarge

def validateRows : List ChatSnapshot → List Nat → Except ConversationSnapshotError (List Nat)
  | [], ids => .ok ids
  | chat :: chats, ids => do
    chat.validate
    reject (chat.id ∈ ids) (.duplicateChatId chat.id)
    validateRows chats (ids ++ [chat.id])

def ConversationSnapshot.validateStructure (snapshot : ConversationSnapshot) :
    Except ConversationSnapshotError Unit := do
  reject (snapshot.version ≠ conversationSnapshotVersion) (.unsupportedVersion snapshot.version)
  reject (snapshot.chats = []) .emptyCollection
  reject (maxPersistedChats < snapshot.chats.length) .tooManyChats
  reject (snapshot.activeChatId = 0) .invalidChatId
  let ids ← validateRows snapshot.chats []
  reject (snapshot.activeChatId ∉ ids) (.activeChatMissing snapshot.activeChatId)

def ConversationSnapshot.totalTurnTextBytes (snapshot : ConversationSnapshot) : Nat :=
  Budget.saturatingSum (snapshot.chats.map ChatSnapshot.turnTextBytes)

def ConversationSnapshot.totalContextBytes (snapshot : ConversationSnapshot) : Nat :=
  Budget.saturatingSum (snapshot.chats.map ChatSnapshot.contextBytes)

def ConversationSnapshot.totalDraftBytes (snapshot : ConversationSnapshot) : Nat :=
  Budget.saturatingSum (snapshot.chats.map fun chat => byteLen chat.draft)

def ConversationSnapshot.validate (snapshot : ConversationSnapshot) :
    Except ConversationSnapshotError Unit := do
  snapshot.validateStructure
  reject (maxAllChatTurnTextBytes < snapshot.totalTurnTextBytes) .conversationTooLarge
  reject (maxAllBlockContextBytes < snapshot.totalContextBytes) .blockContextTooLarge
  reject (maxAllChatDraftBytes < snapshot.totalDraftBytes) .conversationTooLarge

end

def ChatSnapshot.dropContext (snapshot : ChatSnapshot) : Option ChatSnapshot :=
  if snapshot.blockContext.isSome then
    some { snapshot with blockContext := none, historyTruncated := true }
  else none

def ChatSnapshot.dropOldestPair (snapshot : ChatSnapshot) : Option ChatSnapshot :=
  if snapshot.turns.length < 2 then none
  else
    let turns := snapshot.turns.drop 2
    some { snapshot with
      turns, historyTruncated := true
      -- A context is meaningful only alongside a completed exchange.
      blockContext := if turns.isEmpty then none else snapshot.blockContext }

def ChatSnapshot.dropDraft (snapshot : ChatSnapshot) : Option ChatSnapshot :=
  if snapshot.draft.isEmpty then none
  else some { snapshot with draft := [], historyTruncated := true }

/-- Change the first row that meets a condition and can be changed. -/
def dropFirst (chosen : ChatSnapshot → Bool) (drop : ChatSnapshot → Option ChatSnapshot) :
    List ChatSnapshot → Option (List ChatSnapshot)
  | [] => none
  | chat :: chats =>
    match if chosen chat then drop chat else none with
    | some smaller => some (smaller :: chats)
    | none => (dropFirst chosen drop chats).map (chat :: ·)

def ConversationSnapshot.dropFrom (active : Bool) (drop : ChatSnapshot → Option ChatSnapshot)
    (snapshot : ConversationSnapshot) : Option ConversationSnapshot :=
  (dropFirst (fun chat => decide (chat.id = snapshot.activeChatId) == active) drop
    snapshot.chats).map fun chats => { snapshot with chats }

def ConversationSnapshot.dropOldContext (active : Bool) :
    ConversationSnapshot → Option ConversationSnapshot := dropFrom active ChatSnapshot.dropContext

def ConversationSnapshot.dropOldestPair (active : Bool) :
    ConversationSnapshot → Option ConversationSnapshot :=
  dropFrom active ChatSnapshot.dropOldestPair

def ConversationSnapshot.dropOldDraft (active : Bool) :
    ConversationSnapshot → Option ConversationSnapshot := dropFrom active ChatSnapshot.dropDraft

def ConversationSnapshot.dropNextPayload (snapshot : ConversationSnapshot) :
    Option ConversationSnapshot :=
  snapshot.dropOldContext false <|> snapshot.dropOldestPair false <|>
    snapshot.dropOldContext true <|> snapshot.dropOldestPair true <|>
    snapshot.dropOldDraft false <|> snapshot.dropOldDraft true

def ConversationSnapshot.dropPayloads (count : Nat) (snapshot : ConversationSnapshot) :
    ConversationSnapshot :=
  Budget.shed dropNextPayload (fun _ => true) count snapshot

/-- The pieces that a row can give up. -/
def ChatSnapshot.payloads (snapshot : ChatSnapshot) : Nat :=
  (if snapshot.blockContext.isSome then 1 else 0) + snapshot.turns.length +
    if snapshot.draft.isEmpty then 0 else 1

/-- The pieces that a collection can give up. -/
def ConversationSnapshot.payloads (snapshot : ConversationSnapshot) : Nat :=
  (snapshot.chats.map ChatSnapshot.payloads).sum

def ConversationSnapshot.compactRawBudgets (snapshot : ConversationSnapshot) :
    ConversationSnapshot :=
  let fuel := snapshot.payloads
  let withinContexts := Budget.shed
    (fun snapshot => snapshot.dropOldContext false <|> snapshot.dropOldContext true)
    (fun snapshot => maxAllBlockContextBytes < snapshot.totalContextBytes) fuel snapshot
  Budget.shed (fun snapshot => snapshot.dropOldestPair false <|> snapshot.dropOldestPair true)
    (fun snapshot => maxAllChatTurnTextBytes < snapshot.totalTurnTextBytes) fuel withinContexts

def ConversationSnapshot.emptied : Nat → ConversationSnapshot → Nat → ConversationSnapshot × Nat
  | 0, snapshot, dropCount => (snapshot, dropCount)
  | fuel + 1, snapshot, dropCount =>
    match snapshot.dropNextPayload with
    | none => (snapshot, dropCount)
    | some smaller => emptied fuel smaller (dropCount + 1)

/-- The binary search of `compact_to_measured_limit`. -/
def ConversationSnapshot.searchDrops (original : ConversationSnapshot) (maxBytes : Nat)
    (measure : ConversationSnapshot → Option Nat) (low high : Nat) : Option Nat :=
  if low < high then
    let middle := low + (high - low) / 2
    match measure (original.dropPayloads middle) with
    | none => none
    | some bytes =>
      if bytes ≤ maxBytes then original.searchDrops maxBytes measure low middle
      else original.searchDrops maxBytes measure (middle + 1) high
  else some low
termination_by high - low

section

variable [ChatLibraries]

def ConversationSnapshot.compactToMeasuredLimit (snapshot : ConversationSnapshot) (maxBytes : Nat)
    (measure : ConversationSnapshot → Option Nat) : Option ConversationSnapshot := do
  if (← measure snapshot) ≤ maxBytes then return snapshot
  let (emptied, dropCount) := snapshot.emptied snapshot.payloads 0
  if maxBytes < (← measure emptied) then none
  let low ← snapshot.searchDrops maxBytes measure 1 dropCount
  let compacted := snapshot.dropPayloads low
  match compacted.validate with
  | .error _ => none
  | .ok () => some compacted

/-- The bytes of a character in a JSON string. -/
def escapedBytes (char : Char) : Nat :=
  if char = '"' || char = '\\' || char.toNat = 0x08 || char.toNat = 0x09 || char.toNat = 0x0a ||
      char.toNat = 0x0c || char.toNat = 0x0d then 2
  else if char.toNat < 0x20 then 6
  else char.utf8Size

def stringBytes (text : Text) : Nat := Budget.total escapedBytes text + 2

def numberBytes (value : Nat) : Nat := (Nat.toDigits 10 value).length

def boolBytes (value : Bool) : Nat :=
  if value then 4 else 5

def arrayBytes (items : List Nat) : Nat := items.sum + (items.length - 1) + 2

def objectBytes (members : List (String × Nat)) : Nat :=
  (members.map fun member => member.1.length + 3 + member.2).sum + (members.length - 1) + 2

def Turn.jsonBytes (turn : Turn) : Nat :=
  objectBytes [("role", match turn.role with | .user => 6 | .assistant => 11),
    ("text", stringBytes turn.text)]

def ChatSnapshot.jsonBytes (snapshot : ChatSnapshot) : Nat :=
  objectBytes ([("id", numberBytes snapshot.id), ("title", stringBytes snapshot.title),
    ("archived", boolBytes snapshot.archived),
    ("turns", arrayBytes (snapshot.turns.map Turn.jsonBytes))] ++
    (snapshot.blockContext.elim [] fun context =>
      [("block_context", ChatLibraries.contextJsonBytes context)]) ++
    (if snapshot.draft.isEmpty then [] else [("draft", stringBytes snapshot.draft)]) ++
    [("history_truncated", boolBytes snapshot.historyTruncated)])

/-- The length of `serde_json::to_vec` of a collection. -/
def ConversationSnapshot.jsonBytes (snapshot : ConversationSnapshot) : Nat :=
  objectBytes [("version", numberBytes snapshot.version),
    ("active_chat_id", numberBytes snapshot.activeChatId),
    ("chats", arrayBytes (snapshot.chats.map ChatSnapshot.jsonBytes))]

def ConversationSnapshot.compactEncodedBudget (snapshot : ConversationSnapshot) :
    Option ConversationSnapshot :=
  snapshot.compactToMeasuredLimit maxConversationSnapshotJsonBytes fun snapshot =>
    some snapshot.jsonBytes

def ConversationSnapshot.fromChats (activeChatId : Nat) (chats : List ChatSnapshot) :
    Option ConversationSnapshot := do
  let snapshot : ConversationSnapshot :=
    { version := conversationSnapshotVersion, activeChatId, chats }
  snapshot.validateStructure.toOption
  let compacted ← snapshot.compactRawBudgets.compactEncodedBudget
  compacted.validate.toOption
  return compacted

end

end JtermCore.Chats
