import JtermCore.Result
import JtermCore.Utf8
import Mathlib.Data.List.AList

/-!
# Journal events

One journal line is one JSON event.  This file embeds the identifiers, the
event types of `execution_journal.rs` with the decoders that serde derives for
them, and the encoder of the terminal's own `output` event.
-/

namespace JtermCore.ExecutionJournal

open Bytes Result

def executionJournalVersion : Nat := 1

def maxEventLineBytes : Nat := 1024 * 1024

def maxExecutionIdBytes : Nat := 192

def maxJshSessionIdBytes : Nat := 128

def maxCommandBytes : Nat := 64 * 1024

def maxCwdBytes : Nat := 4 * 1024

def maxOutputBytes : Nat := 256 * 1024

def maxJournalFileBytes : Nat := 32 * 1024 * 1024

def maxJournalReadBytes : Nat := maxJournalFileBytes + maxEventLineBytes + 1

def maxRetainedExecutions : Nat := 2000

/-- The line feed that ends an event. -/
def newline : UInt8 := 0x0a

/-- A JSON value.  Numbers that are not integers carry nothing, because no
field of an event reads one. -/
inductive Json where
  | null
  | bool (value : Bool)
  | integer (value : Int)
  | float
  | string (text : Bytes)
  | array (items : List Json)
  | object (members : List (Bytes × Json))

/-- The third-party functions the journal calls. -/
class Libraries where
  /-- The syntax tree `serde_json::from_slice` reads. -/
  parseJson : Bytes → Option Json
  /-- Whether `jagent::validate_no_duplicate_members` accepts a text. -/
  noDuplicateMembers : Bytes → Bool
  isUnsafeInvisibleChar : Char → Bool

def isAsciiAlphanumeric (byte : UInt8) : Bool :=
  isAsciiDigit byte || (0x41 ≤ byte && byte ≤ 0x5a) || (0x61 ≤ byte && byte ≤ 0x7a)

def isValidJshExecutionId (id : Bytes) : Bool :=
  !id.isEmpty && id.length ≤ maxExecutionIdBytes && id.all fun byte =>
      isAsciiAlphanumeric byte || byte = 0x2d || byte = 0x5f || byte = 0x2e

def isValidJshSessionId (id : Bytes) : Bool :=
  !id.isEmpty && id.length ≤ maxJshSessionIdBytes &&
    id.all fun byte => isAsciiAlphanumeric byte || byte = 0x2d || byte = 0x5f

def isControl (char : Char) : Bool := char.toNat < 0x20 || (0x7f ≤ char.toNat && char.toNat < 0xa0)

section

variable [Libraries]

def isTerminalVisualSpoofingCharacter (char : Char) : Bool :=
  Libraries.isUnsafeInvisibleChar char || (0xfff9 ≤ char.toNat && char.toNat ≤ 0xfffb)

def isValidJshCommand (command : Bytes) : Bool :=
  match Utf8.decodeUtf8 command with
  | none => false
  | some chars =>
    !command.isEmpty && command.length ≤ maxCommandBytes &&
      !chars.any (fun char => isControl char && !(char = '\n' || char = '\t')) &&
      !chars.any fun char => !isControl char && isTerminalVisualSpoofingCharacter char

def isValidJshCwd (cwd : Bytes) : Bool :=
  match Utf8.decodeUtf8 cwd with
  | none => false
  | some chars =>
    !cwd.isEmpty && cwd.length ≤ maxCwdBytes &&
      !chars.any isControl && !chars.any isTerminalVisualSpoofingCharacter

end

structure StartEvent where
  jshExecutionVersion : Nat
  id : Bytes
  sessionId : Option Bytes
  seq : Nat
  command : Bytes
  commandTruncated : Bool
  cwd : Bytes
  startedAtMs : Nat
deriving DecidableEq

/-- The fields of `PersistedEvent::Finish`. -/
structure FinishEvent where
  jshExecutionVersion : Nat
  id : Bytes
  exitCode : Int
  durationMs : Nat
  cwdAfter : Bytes
  endedAtMs : Nat
deriving DecidableEq

/-- The fields of `PersistedEvent::Output`. -/
structure OutputRecord where
  jshExecutionVersion : Nat
  id : Bytes
  text : Bytes
  truncated : Bool
  totalBytes : Nat
  capturedAtMs : Nat
deriving DecidableEq

inductive ConflictSlot where
  | finish
  | output
deriving DecidableEq

structure ConflictEvent where
  jshExecutionVersion : Nat
  id : Bytes
  slot : ConflictSlot
deriving DecidableEq

inductive PersistedEvent where
  | start (event : StartEvent)
  | finish (event : FinishEvent)
  | output (event : OutputRecord)
  | conflict (event : ConflictEvent)
deriving DecidableEq

structure EventIdentity where
  event : Bytes
  jshExecutionVersion : Nat
  id : Bytes
deriving DecidableEq

def PersistedEvent.version : PersistedEvent → Nat
  | .start event => event.jshExecutionVersion
  | .finish event => event.jshExecutionVersion
  | .output event => event.jshExecutionVersion
  | .conflict event => event.jshExecutionVersion

abbrev Members := List (Bytes × Json)

def fieldValues (names : List String) (members : Members) : List Json :=
  (members.filter fun member => names.any fun name => member.1 = ofAscii name).map Prod.snd

/-- A field that must occur exactly once, under any of its names. -/
def required {α : Type} (names : List String) (decode : Json → Option α) (members : Members) :
    Option α :=
  match fieldValues names members with
  | [value] => decode value
  | _ => none

def optional {α : Type} (names : List String) (absent : α) (decode : Json → Option α)
    (members : Members) : Option α :=
  match fieldValues names members with
  | [] => some absent
  | [value] => decode value
  | _ => none

/-- An unsigned integer field of the given width. -/
def Json.unsigned (bits : Nat) : Json → Option Nat
  | .integer value => if 0 ≤ value ∧ value < 2 ^ bits then some value.toNat else none
  | _ => none

/-- An `i32` field. -/
def Json.int32 : Json → Option Int
  | .integer value => if -(2 ^ 31) ≤ value ∧ value < 2 ^ 31 then some value else none
  | _ => none

def Json.text : Json → Option Bytes
  | .string text => some text
  | _ => none

def Json.optionalText : Json → Option (Option Bytes)
  | .null => some none
  | .string text => some (some text)
  | _ => none

/-- A boolean field. -/
def Json.flag : Json → Option Bool
  | .bool value => some value
  | _ => none

def Json.slot : Json → Option ConflictSlot
  | .string text =>
    if text = ofAscii "finish" then some .finish
    else if text = ofAscii "output" then some .output
    else none
  | _ => none

/-- The spellings of the version field. -/
def versionNames : List String := ["jsh_execution_version", "rsh_execution_version"]

def onlyFields (names : List String) (members : Members) : Bool :=
  members.all fun member => names.any fun name => member.1 = ofAscii name

/-- The struct decoder for array input: the fields in declaration order. -/
def positional (names : List String) (items : List Json) : Option Members :=
  if items.length = names.length then
    some ((names.map ofAscii).zip items)
  else
    none

def startFields : List String :=
  ["jsh_execution_version", "id", "session_id", "seq", "command", "command_truncated",
    "cwd", "started_at_ms"]

/-- The decoder of `StartEvent`. -/
def StartEvent.decode (members : Members) : Option StartEvent := do
  guard (onlyFields ("rsh_execution_version" :: startFields) members)
  return {
    jshExecutionVersion := ← required versionNames (Json.unsigned 32) members
    id := ← required ["id"] Json.text members
    sessionId := ← optional ["session_id"] none Json.optionalText members
    seq := ← required ["seq"] (Json.unsigned 64) members
    command := ← required ["command"] Json.text members
    commandTruncated := ← optional ["command_truncated"] false Json.flag members
    cwd := ← required ["cwd"] Json.text members
    startedAtMs := ← required ["started_at_ms"] (Json.unsigned 64) members }

def finishFields : List String :=
  ["jsh_execution_version", "id", "exit_code", "duration_ms", "cwd_after", "ended_at_ms"]

/-- The decoder of `PersistedEvent::Finish`. -/
def FinishEvent.decode (members : Members) : Option FinishEvent := do
  guard (onlyFields ("rsh_execution_version" :: finishFields) members)
  return {
    jshExecutionVersion := ← required versionNames (Json.unsigned 32) members
    id := ← required ["id"] Json.text members
    exitCode := ← required ["exit_code"] Json.int32 members
    durationMs := ← required ["duration_ms"] (Json.unsigned 64) members
    cwdAfter := ← required ["cwd_after"] Json.text members
    endedAtMs := ← required ["ended_at_ms"] (Json.unsigned 64) members }

def outputFields : List String :=
  ["jsh_execution_version", "id", "text", "truncated", "total_bytes", "captured_at_ms"]

/-- The decoder of `PersistedEvent::Output`. -/
def OutputRecord.decode (members : Members) : Option OutputRecord := do
  guard (onlyFields ("rsh_execution_version" :: outputFields) members)
  return {
    jshExecutionVersion := ← required versionNames (Json.unsigned 32) members
    id := ← required ["id"] Json.text members
    text := ← required ["text"] Json.text members
    truncated := ← required ["truncated"] Json.flag members
    totalBytes := ← required ["total_bytes"] (Json.unsigned 64) members
    capturedAtMs := ← required ["captured_at_ms"] (Json.unsigned 64) members }

def conflictFields : List String := ["jsh_execution_version", "id", "slot"]

/-- The decoder of `ConflictEvent`. -/
def ConflictEvent.decode (members : Members) : Option ConflictEvent := do
  guard (onlyFields ("rsh_execution_version" :: conflictFields) members)
  return {
    jshExecutionVersion := ← required versionNames (Json.unsigned 32) members
    id := ← required ["id"] Json.text members
    slot := ← required ["slot"] Json.slot members }

def PersistedEvent.decodeTagged (tag : Bytes) (fields : List String → Option Members) :
    Option PersistedEvent :=
  if tag = ofAscii "start" then
    (fields startFields).bind fun members => (StartEvent.decode members).map .start
  else if tag = ofAscii "finish" then
    (fields finishFields).bind fun members => (FinishEvent.decode members).map .finish
  else if tag = ofAscii "output" then
    (fields outputFields).bind fun members => (OutputRecord.decode members).map .output
  else if tag = ofAscii "conflict" then
    (fields conflictFields).bind fun members => (ConflictEvent.decode members).map .conflict
  else
    none

def PersistedEvent.decode : Json → Option PersistedEvent
  | .object members => do
    let tag ← required ["event"] Json.text members
    decodeTagged tag fun _ =>
      some (members.filter fun member => member.1 ≠ ofAscii "event")
  | .array (.string tag :: items) => decodeTagged tag fun names => positional names items
  | _ => none

/-- The decoder of `EventIdentity`: other members are skipped. -/
def EventIdentity.decodeMembers (members : Members) : Option EventIdentity := do
  return {
    event := ← required ["event"] Json.text members
    jshExecutionVersion := ← required versionNames (Json.unsigned 32) members
    id := ← required ["id"] Json.text members }

/-- The decoder of `EventIdentity` from an object or an exact array. -/
def EventIdentity.decode : Json → Option EventIdentity
  | .object members => decodeMembers members
  | .array items =>
    (positional ["event", "jsh_execution_version", "id"] items).bind decodeMembers
  | _ => none

section

variable [Libraries]

def persistedEvent (line : Bytes) : Option PersistedEvent :=
  (Libraries.parseJson line).bind PersistedEvent.decode

def recognizedV1StartId (line : Bytes) : Option Bytes := do
  let identity ← (Libraries.parseJson line).bind EventIdentity.decode
  guard (identity.event = ofAscii "start" ∧ identity.jshExecutionVersion = executionJournalVersion ∧
    isValidJshExecutionId identity.id = true)
  return identity.id

end

/-- The exact Start a captured output belongs to. -/
structure ExecutionLifecycle where
  id : Bytes
  sessionId : Bytes
  seq : Nat
  startedAtMs : Nat
deriving DecidableEq

def ExecutionLifecycle.isValid (lifecycle : ExecutionLifecycle) : Bool :=
  isValidJshExecutionId lifecycle.id && isValidJshSessionId lifecycle.sessionId

/-- `OutputEvent`.  The fields `jsh_execution_version` and `event` are the
constants 1 and `output` in every event the program builds. -/
structure OutputEvent where
  id : Bytes
  text : Bytes
  truncated : Bool
  totalBytes : Nat
  capturedAtMs : Nat
deriving DecidableEq

structure BoundOutput where
  lifecycle : ExecutionLifecycle
  event : OutputEvent
deriving DecidableEq

def normalizeOutputMetadata (retainedBytes : Nat) (truncated : Bool) (totalBytes : Nat) :
    Bool × Nat :=
  let totalBytes := max totalBytes retainedBytes
  (truncated || decide (totalBytes > retainedBytes), totalBytes)

def isCharBoundary (text : Bytes) (index : Nat) : Bool :=
  match text[index]? with
  | some byte => !Utf8.isContinuation byte
  | none => index = text.length

def boundaryBefore (text : Bytes) : Nat → Nat
  | 0 => 0
  | index + 1 => if isCharBoundary text (index + 1) then index + 1 else boundaryBefore text index

def boundaryAfter (text : Bytes) : Nat → Nat
  | 0 => text.length
  | fuel + 1 =>
    if isCharBoundary text (text.length - (fuel + 1)) then text.length - (fuel + 1)
    else boundaryAfter text fuel

/-- The head and the tail of a text, cut at characters. -/
def boundedText (value : Bytes) (maxBytes : Nat) : Bytes :=
  if value.length ≤ maxBytes then
    value
  else
    let headBudget := maxBytes / 2
    let tailBudget := maxBytes - headBudget
    value.take (boundaryBefore value headBudget) ++ value.drop (boundaryAfter value tailBudget)

/-- A lowercase hexadecimal digit. -/
def hexDigit (value : Nat) : UInt8 :=
  UInt8.ofNat (if value < 10 then 0x30 + value else 0x61 + (value - 10))

/-- How `serde_json` writes one byte of a string. -/
def escapeByte (byte : UInt8) : Bytes :=
  if byte = 0x22 then ofAscii "\\\""
  else if byte = 0x5c then ofAscii "\\\\"
  else if byte = 0x08 then ofAscii "\\b"
  else if byte = 0x09 then ofAscii "\\t"
  else if byte = 0x0a then ofAscii "\\n"
  else if byte = 0x0c then ofAscii "\\f"
  else if byte = 0x0d then ofAscii "\\r"
  else if byte < 0x20 then
    ofAscii "\\u00" ++ [hexDigit (byte.toNat / 16), hexDigit (byte.toNat % 16)]
  else [byte]

def jsonString (text : Bytes) : Bytes := [0x22] ++ text.flatMap escapeByte ++ [0x22]

/-- How `serde_json` writes an unsigned integer. -/
def jsonNumber (value : Nat) : Bytes := ofAscii (toString value)

def OutputEvent.toVec (event : OutputEvent) : Bytes :=
  ofAscii "\x7b\"jsh_execution_version\":1,\"event\":\"output\",\"id\":" ++ jsonString event.id ++
    ofAscii ",\"text\":" ++ jsonString event.text ++
    ofAscii ",\"truncated\":" ++ ofAscii (if event.truncated then "true" else "false") ++
    ofAscii ",\"total_bytes\":" ++ jsonNumber event.totalBytes ++
    ofAscii ",\"captured_at_ms\":" ++ jsonNumber event.capturedAtMs ++ ofAscii "\x7d"

def OutputEvent.json (event : OutputEvent) : Json :=
  .object [ (ofAscii "jsh_execution_version", .integer executionJournalVersion),
    (ofAscii "event", .string (ofAscii "output")), (ofAscii "id", .string event.id),
    (ofAscii "text", .string event.text), (ofAscii "truncated", .bool event.truncated),
    (ofAscii "total_bytes", .integer event.totalBytes),
    (ofAscii "captured_at_ms", .integer event.capturedAtMs)]

/-- The line that is written and the event it carries, with a shorter text when escaping
made the line too long. -/
def encodeEventWithValue (event : OutputEvent) : Option (OutputEvent × Bytes) :=
  let event :=
    if event.toVec.length > maxEventLineBytes then
      let text := boundedText event.text (maxOutputBytes / 2)
      { event with
        text
        truncated := true
        totalBytes := max event.totalBytes text.length }
    else
      event
  if event.toVec.length > maxEventLineBytes then
    none
  else
    some (event, event.toVec ++ [newline])

end JtermCore.ExecutionJournal
