import JtermCore.ExecutionJournal.Event
import JtermCore.KittyKeyboard

/-!
# Parser events

What the stream parser reports to the block view beside the bytes it passes
through.
-/

namespace JtermCore

namespace StreamParser

open KittyKeyboard

inductive ColorKind where
  | foreground
  | background
  | cursor
  | palette (index : Nat)
deriving DecidableEq

inductive KeyboardProtocolQuery where
  | kittyQuery
  | modifyOtherKeysQuery
  | primaryDeviceAttributes
  | secondaryDeviceAttributes
  | tertiaryDeviceAttributes
  | xtVersion
  | deviceStatus
  | cursorPosition
deriving DecidableEq

structure CommandMeta where
  id : Option Bytes
  sessionId : Option Bytes
  seq : Option Nat
  startedAtMs : Option Nat
  command : Option Bytes
  cwd : Option Bytes
  durationMs : Option Nat
  commandTruncated : Bool
deriving DecidableEq

def CommandMeta.empty : CommandMeta where
  id := none
  sessionId := none
  seq := none
  startedAtMs := none
  command := none
  cwd := none
  durationMs := none
  commandTruncated := false

inductive ParserEvent where
  | bytes (payload : Bytes)
  | promptStart
  | promptEnd
  | commandStart (data : CommandMeta)
  | commandEnd (exit : Option Int) (data : CommandMeta)
  | remoteSessionId (id : Bytes)
  | agentIntegrationReady (token : Bytes)
  | altScreenEnter (mode : Nat)
  | altScreenLeave (mode : Nat)
  | clipboardSet (text : Bytes)
  | clipboardQuery
  | apcSequence (payload : Bytes)
  | decsetMode (mode : Nat) (set : Bool)
  | colorQuery (kind : ColorKind)
  | keyboardProtocolQuery (query : KeyboardProtocolQuery)
  | notification (title : Option Bytes) (body : Bytes)
  | colorSet (kind : ColorKind) (spec : Bytes)
  | colorReset (kind : ColorKind)
  | eraseDisplay
  | eraseScrollback
  | hardReset
  | kittyKeyboard (op : KittyKeyboardOp)
deriving DecidableEq

structure ParserConfig where
  mouseReporting : Bool
  focusReporting : Bool
deriving DecidableEq

end StreamParser

end JtermCore

/-!
# Operating system commands

`handle_osc` turns the payload of a completed OSC string into events: shell
integration marks, notifications, color and clipboard requests, or the bytes of
the sequence itself where it passes through.
-/

namespace JtermCore

namespace StreamParser

open Bytes ExecutionJournal

def maxNotificationChars : Nat := 256

def maxClipboardBase64Bytes : Nat := 4 * 1024 * 1024

def maxOsc7UriBytes : Nat := 16 * 1024

def maxTitleBytes : Nat := 4 * 1024

def maxOsc133CommandBytes : Nat := 16 * 1024

def maxOsc133CwdBytes : Nat := 4 * 1024

def maxOsc133IdBytes : Nat := 1024

def maxOsc133SessionIdBytes : Nat := 128

def maxColorSpecChars : Nat := 128

/-- The separator of OSC fields. -/
def semicolon : UInt8 := 0x3b

/-- The bytes behind the percent escapes; `none` for a broken escape. -/
def percentDecode : Bytes → Option Bytes
  | [] => some []
  | 0x25 :: high :: low :: rest => do
    let high ← hexValue high
    let low ← hexValue low
    let rest ← percentDecode rest
    return UInt8.ofNat (high * 16 + low) :: rest
  | 0x25 :: _ => none
  | byte :: rest => (percentDecode rest).map (byte :: ·)

def decodeOsc133 (value : Bytes) (maxBytes : Nat) : Option Bytes :=
  (percentDecode value).filter fun decoded =>
    decoded.length ≤ maxBytes && Utf8.isValidUtf8 decoded

structure MetaSlots where
  data : CommandMeta
  seenId : Bool
  seenSessionId : Bool
  seenSeq : Bool
  seenStartedAtMs : Bool
  seenCommand : Bool
  seenCwd : Bool
  seenDuration : Bool
  seenCommandTruncated : Bool
deriving DecidableEq

/-- The slots before the first field. -/
def MetaSlots.initial : MetaSlots where
  data := .empty
  seenId := false
  seenSessionId := false
  seenSeq := false
  seenStartedAtMs := false
  seenCommand := false
  seenCwd := false
  seenDuration := false
  seenCommandTruncated := false

def oneOf (key : Bytes) (names : List String) : Bool := names.any fun name => key = ofAscii name

/-- The value of a slot: a second occurrence makes it ambiguous. -/
def slotValue {α : Type} (seen : Bool) (value : Option α) : Option α :=
  if seen then none else value

def truncatedValue (value : Bytes) : Bool :=
  let value := Utf8.trim value
  if value = ofAscii "0" then false
  else if value = ofAscii "1" then true
  else if value.map toAsciiLowercase = ofAscii "false" then false
  else true

section

variable [Libraries]

def hasSpoofingCharacter (text : Bytes) : Bool :=
  (Utf8.chars text).any isTerminalVisualSpoofingCharacter

def hasControl (text : Bytes) : Bool := (Utf8.chars text).any isControl

def MetaSlots.field (acceptStartIdentity : Bool) (slots : MetaSlots) (key value : Bytes) :
    MetaSlots :=
  if oneOf key ["id", "jsh_id", "execution_id", "command_id"] then
    let id := (decodeOsc133 value maxOsc133IdBytes).filter fun id =>
      !id.isEmpty && !hasControl id && !hasSpoofingCharacter id
    { slots with data := { slots.data with id := slotValue slots.seenId id }, seenId := true }
  else if oneOf key ["session_id"] then
    if !acceptStartIdentity then slots
    else
      let sessionId := (decodeOsc133 value maxOsc133SessionIdBytes).filter isValidJshSessionId
      { slots with
        data := { slots.data with sessionId := slotValue slots.seenSessionId sessionId }
        seenSessionId := true }
  else if oneOf key ["seq"] then
    if !acceptStartIdentity then slots
    else
      { slots with
        data := { slots.data with seq := slotValue slots.seenSeq (parseUnsigned u64Max value) }
        seenSeq := true }
  else if oneOf key ["started_at_ms"] then
    if !acceptStartIdentity then slots
    else
      { slots with
        data := { slots.data with
          startedAtMs := slotValue slots.seenStartedAtMs (parseUnsigned u64Max value) }
        seenStartedAtMs := true }
  else if oneOf key ["cmdline_url", "command_url", "command", "cmdline"] then
    let command := (decodeOsc133 value maxOsc133CommandBytes).filter isValidJshCommand
    { slots with
      data := { slots.data with command := slotValue slots.seenCommand command }
      seenCommand := true }
  else if oneOf key ["cwd_url", "cwd"] then
    let cwd := (decodeOsc133 value maxOsc133CwdBytes).filter isValidJshCwd
    { slots with
      data := { slots.data with cwd := slotValue slots.seenCwd cwd }
      seenCwd := true }
  else if oneOf key ["duration_ms", "duration"] then
    let duration := parseUnsigned u64Max (Utf8.trim value)
    { slots with
      data := { slots.data with durationMs := slotValue slots.seenDuration duration }
      seenDuration := true }
  else if oneOf key ["cmd_truncated", "command_truncated"] then
    -- A repeated disclosure stays inexact.
    { slots with
      data := { slots.data with
        commandTruncated := slots.seenCommandTruncated || truncatedValue value }
      seenCommandTruncated := true }
  else
    slots

def CommandMeta.fromFields (fields : List Bytes) (acceptStartIdentity : Bool) : CommandMeta :=
  let slots := fields.foldl (fun slots field =>
      match splitOnce 0x3d field with
      | some (key, value) => slots.field acceptStartIdentity key value
      | none => slots)
    MetaSlots.initial
  if slots.data.commandTruncated then { slots.data with command := none } else slots.data

end

/-- The outcome slot of one field of a D mark: `none` for another field. -/
def exitCandidate (field : Bytes) : Option (Option Int) :=
  match splitOnce 0x3d field with
  | some (key, value) =>
    if oneOf key ["exit", "exit_code", "exit_status"] then
      some (parseSigned 32 (Utf8.trim value))
    else
      none
  | none => (parseSigned 32 (Utf8.trim field)).map some

def parseOsc133ExitStatus (fields : List Bytes) : Option Int :=
  match fields.filterMap exitCandidate with
  | [candidate] => candidate
  | _ => none

section

variable [Libraries]

def safeOsc7Text (value : Bytes) : Bool :=
  !hasControl value && !hasSpoofingCharacter value && (percentDecode value).any fun decoded =>
      Utf8.isValidUtf8 decoded && !hasControl decoded && !hasSpoofingCharacter decoded

def boundedNotificationField (raw : Bytes) : Bytes :=
  let shown := (Utf8.chars raw).map fun char =>
    if isControl char || isTerminalVisualSpoofingCharacter char then '\uFFFD' else char
  Utf8.encodeUtf8 (Utf8.trimChars (shown.take maxNotificationChars))

end

/-- The table of `base64_decode`. -/
def base64Value (byte : UInt8) : Option Nat :=
  if 0x41 ≤ byte && byte ≤ 0x5a then some (byte.toNat - 0x41)
  else if 0x61 ≤ byte && byte ≤ 0x7a then some (26 + (byte.toNat - 0x61))
  else if isAsciiDigit byte then some (52 + (byte.toNat - 0x30))
  else if byte = 0x2b then some 62
  else if byte = 0x2f then some 63
  else none

def base64DecodeLoop (buf bits : Nat) : Bytes → Option Bytes
  | [] => some []
  | byte :: input =>
    if byte = 0x3d || byte = 0x0a || byte = 0x0d then
      base64DecodeLoop buf bits input
    else
      (base64Value byte).bind fun value =>
        let buf := buf * 64 + value
        let bits := bits + 6
        if 8 ≤ bits then
          (base64DecodeLoop (buf % 2 ^ (bits - 8)) (bits - 8) input).map
            (UInt8.ofNat (buf / 2 ^ (bits - 8)) :: ·)
        else
          base64DecodeLoop buf bits input

def base64Decode (input : Bytes) : Option Bytes := base64DecodeLoop 0 0 input

/-- An OSC string that passes through, closed by BEL. -/
def oscPassthrough (payload : Bytes) : ParserEvent := .bytes (ofAscii "\x1b]" ++ payload ++ [0x07])

def colorEvents (head : String) (kind : ColorKind) (text : Bytes) : List ParserEvent × Bool :=
  match stripPrefix (ofAscii head) text with
  | none => ([], false)
  | some rest =>
    if (ofAscii "?").isPrefixOf rest then
      ([.colorQuery kind], true)
    else
      let spec := Utf8.trim rest
      if !spec.isEmpty && (Utf8.chars spec).length ≤ maxColorSpecChars then
        ([.colorSet kind spec], false)
      else
        ([], false)

def colorResetEvents (code : String) (kind : ColorKind) (text : Bytes) : List ParserEvent :=
  if text = ofAscii code || (ofAscii (code ++ ";")).isPrefixOf text then
    [.colorReset kind]
  else
    []

def paletteQuery (text : Bytes) : Option ParserEvent := do
  let rest ← stripPrefix (ofAscii "4;") text
  let (index, value) ← splitOnce semicolon rest
  guard ((ofAscii "?").isPrefixOf value)
  let index ← parseUnsigned 255 index
  return .colorQuery (.palette index)

def clipboardEvents (rest : Bytes) : List ParserEvent :=
  match splitOnce semicolon rest with
  | none => []
  | some (_, data) =>
    if data = ofAscii "?" then
      [.clipboardQuery]
    else if data.length ≤ maxClipboardBase64Bytes then
      match base64Decode data with
      | some decoded => if Utf8.isValidUtf8 decoded then [.clipboardSet decoded] else []
      | none => []
    else
      []

section

variable [Libraries]

/-- OSC 133. -/
def shellIntegrationEvents (rest : Bytes) : List ParserEvent :=
  match rest.splitOn semicolon with
  | mark :: fields =>
    if mark = ofAscii "A" then [.promptStart]
    else if mark = ofAscii "B" then [.promptEnd]
    else if mark = ofAscii "C" then [.commandStart (CommandMeta.fromFields fields true)]
    else if mark = ofAscii "D" then
      [.commandEnd (parseOsc133ExitStatus fields) (CommandMeta.fromFields fields false)]
    else []
  | [] => []

def osc7Events (payload : Bytes) : List ParserEvent :=
  if payload.length > maxOsc7UriBytes || !safeOsc7Text payload then []
  else [.bytes (ofAscii "\x1b]" ++ payload ++ ofAscii "\x1b\\")]

/-- Whether the path of OSC 1337 `CurrentDir` is dropped. -/
def dropsCurrentDir (text : Bytes) : Bool :=
  (stripPrefix (ofAscii "1337;CurrentDir=") text).any fun path =>
    path.contains semicolon || !isValidJshCwd path

/-- Whether a title or icon string is dropped. -/
def dropsTitle (text : Bytes) : Bool :=
  ((splitOnce semicolon text).any fun parts => oneOf parts.1 ["0", "1", "2"]) &&
    (text.length > maxTitleBytes || hasControl text || hasSpoofingCharacter text)

/-- OSC 9. -/
def notificationEvents (rest : Bytes) : List ParserEvent :=
  let body := boundedNotificationField rest
  if body.isEmpty then [] else [.notification none body]

/-- OSC 777 `notify`; `none` for another subcommand. -/
def notifyEvents (rest : Bytes) : Option (List ParserEvent) :=
  let (command, fields) := (splitOnce semicolon rest).getD (rest, [])
  if command = ofAscii "notify" then
    let (title, body) := (splitOnce semicolon fields).getD (fields, [])
    let title := boundedNotificationField title
    let body := boundedNotificationField body
    if title.isEmpty && body.isEmpty then some []
    else some [.notification (if title.isEmpty then none else some title) body]
  else
    none

/-- The last part of `handle_osc`: palette queries, the clipboard, and the
strings that pass through. -/
def otherOscEvents (payload : Bytes) : List ParserEvent :=
  match paletteQuery payload with
  | some query => [query]
  | none =>
    match stripPrefix (ofAscii "52;") payload with
    | some rest => clipboardEvents rest
    | none => [oscPassthrough payload]

/-- The color part of `handle_osc` and what follows it. -/
def colorOscEvents (payload : Bytes) : List ParserEvent :=
  let (foreground, consumed) := colorEvents "10;" .foreground payload
  if consumed then foreground
  else
    let (background, consumed) := colorEvents "11;" .background payload
    if consumed then foreground ++ background
    else
      let (cursor, consumed) := colorEvents "12;" .cursor payload
      if consumed then foreground ++ background ++ cursor
      else
        foreground ++ background ++ cursor ++
          colorResetEvents "110" .foreground payload ++
          colorResetEvents "111" .background payload ++
          colorResetEvents "112" .cursor payload ++ otherOscEvents payload

def handleOsc (payload : Bytes) : List ParserEvent :=
  if !Utf8.isValidUtf8 payload then
    []
  else
    match stripPrefix (ofAscii "133;") payload with
    | some rest => shellIntegrationEvents rest
    | none =>
    match stripPrefix (ofAscii "7770;") payload with
    | some id => if isValidJshSessionId id then [.remoteSessionId id] else []
    | none =>
    match stripPrefix (ofAscii "7771;") payload with
    | some token =>
      if token.length = 32 && token.all fun byte => (hexValue byte).isSome then
        [.agentIntegrationReady token]
      else []
    | none =>
    if (ofAscii "7;").isPrefixOf payload then osc7Events payload
    else if dropsCurrentDir payload then []
    else if dropsTitle payload then []
    else
    match stripPrefix (ofAscii "9;") payload with
    | some rest => notificationEvents rest
    | none =>
    match (stripPrefix (ofAscii "777;") payload).bind notifyEvents with
    | some events => events
    | none => colorOscEvents payload

end

end StreamParser

end JtermCore
