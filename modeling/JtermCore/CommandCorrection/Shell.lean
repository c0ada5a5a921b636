import JtermCore.Quoting
import JtermCore.Utf8

/-!
# Shell words

Four scanners of a shell command: the spans of its words, the value of a word,
the command without its padding, and the stages between control operators.  The
first and the last one go over bytes, the others over characters.  A slice that
does not begin and end between characters has no value.
-/

namespace JtermCore.CommandCorrection

open Bytes Utf8

def byteLength (text : List Char) : Nat := (encodeUtf8 text).length

def splitAtByte : List Char → Nat → Option (List Char × List Char)
  | text, 0 => some ([], text)
  | [], _ + 1 => none
  | char :: text, place + 1 =>
    if place + 1 < char.utf8Size then none
    else (splitAtByte text (place + 1 - char.utf8Size)).map fun parts => (char :: parts.1, parts.2)

def slice (text : List Char) (range : Nat × Nat) : Option (List Char) :=
  if range.1 ≤ range.2 then
    (splitAtByte text range.2).bind fun parts =>
      (splitAtByte parts.1 range.1).map Prod.snd
  else none

def isWordEnd (byte : UInt8) : Bool :=
  isAsciiWhitespace byte || byte = 0x7c || byte = 0x3b || byte = 0x26 || byte = 0x28 ||
    byte = 0x29 || byte = 0x3c || byte = 0x3e

/-- The variables of the loop in `shell_word_spans`. -/
structure SpanScan where
  spans : List (Nat × Nat) := []
  start : Option Nat := none
  quote : Option UInt8 := none
  redirectionOperand : Bool := false
deriving DecidableEq

/-- One round at a byte, and whether the index jumps over the next one. -/
def SpanScan.step (scan : SpanScan) (index : Nat) (byte : UInt8) : SpanScan × Bool :=
  if scan.quote = none ∧ isWordEnd byte = true then
    ({ scan with
        spans :=
          match scan.start with
          | some start =>
            if scan.redirectionOperand then scan.spans else scan.spans ++ [(start, index)]
          | none => scan.spans
        start := none
        redirectionOperand :=
          if byte = 0x3c ∨ byte = 0x3e then true
          else if scan.start.isSome then false
          else scan.redirectionOperand }, false)
  else
    let scan := { scan with start := some (scan.start.getD index) }
    if (scan.quote = some 0x27 ∧ byte = 0x27) ∨ (scan.quote = some 0x22 ∧ byte = 0x22) then
      ({ scan with quote := none }, false)
    else if scan.quote = some 0x27 then (scan, false)
    else if byte = 0x5c then (scan, true)
    else if scan.quote = none ∧ (byte = 0x27 ∨ byte = 0x22) then
      ({ scan with quote := some byte }, false)
    else (scan, false)

def spanLoop (scan : SpanScan) (index : Nat) (jump : Bool) : Bytes → SpanScan
  | [] => scan
  | byte :: rest =>
    if jump then spanLoop scan (index + 1) false rest
    else spanLoop (scan.step index byte).1 (index + 1) (scan.step index byte).2 rest

def shellWordSpans (command : List Char) : List (Nat × Nat) :=
  let bytes := encodeUtf8 command
  let scan := spanLoop {} 0 false bytes
  match scan.start with
  | some start => if scan.redirectionOperand then scan.spans else scan.spans ++ [(start, bytes.length)]
  | none => scan.spans

def isDoubleEscape (next : Char) : Bool :=
  next = '$' || next = '`' || next = '"' || next = '\\'

def valueLoop (quote : Option Char) : List Char → List Char
  | [] => []
  | character :: chars =>
    if (quote = some '\'' ∧ character = '\'') ∨ (quote = some '"' ∧ character = '"') then
      valueLoop none chars
    else if quote = some '\'' then character :: valueLoop quote chars
    else if quote = none ∧ (character = '\'' ∨ character = '"') then
      valueLoop (some character) chars
    else if character = '\\' then
      match chars with
      | [] => [character]
      | next :: rest =>
        if quote = none ∨ isDoubleEscape next = true then next :: valueLoop quote rest
        else character :: valueLoop quote (next :: rest)
    else character :: valueLoop quote chars

def shellWordValue (word : List Char) : List Char := valueLoop none word

def shellWords (command : List Char) : Option (List (List Char)) :=
  (shellWordSpans command).mapM fun span => (slice command span).map shellWordValue

/-- The loop of `trim_command_padding`: where the command ends. -/
def paddingLoop (quote : Option Char) (escaped : Bool) (index stop : Nat) : List Char → Nat
  | [] => stop
  | character :: chars =>
    let after := index + character.utf8Size
    let stop := if escaped || quote.isSome || !isWhitespace character then after else stop
    if escaped then paddingLoop quote false after stop chars
    else if (quote = some '\'' ∧ character = '\'') ∨ (quote = some '"' ∧ character = '"') then
      paddingLoop none false after stop chars
    else if quote = some '\'' then paddingLoop quote false after stop chars
    else if character = '\\' then paddingLoop quote true after stop chars
    else if quote = none ∧ (character = '\'' ∨ character = '"') then
      paddingLoop (some character) false after stop chars
    else paddingLoop quote false after stop chars

def trimCommandPadding (command : List Char) : Option (List Char) :=
  let command := command.dropWhile isWhitespace
  slice command (0, paddingLoop none false 0 0 command)

/-- The variables of the loop in `shell_stages`. -/
structure StageScan where
  stages : List (Nat × Nat) := []
  start : Nat := 0
  quote : Option UInt8 := none
deriving DecidableEq

def splitsStage (allControls : Bool) (previous : Option UInt8) (byte : UInt8) : Bool :=
  (byte = 0x7c || byte = 0x3b || byte = 0x26 || byte = 0x28 || byte = 0x29) &&
    (byte = 0x7c || allControls) && !(byte = 0x26 && (previous = some 0x3c || previous = some 0x3e))

/-- One round at a byte, and whether the index jumps over the next one. -/
def StageScan.step (allControls : Bool) (scan : StageScan) (previous : Option UInt8) (index : Nat)
    (byte : UInt8) : StageScan × Bool :=
  if scan.quote = some 0x27 then
    (if byte = 0x27 then { scan with quote := none } else scan, false)
  else if scan.quote.isSome then
    if byte = 0x5c then (scan, true)
    else if byte = 0x22 then ({ scan with quote := none }, false)
    else (scan, false)
  else if byte = 0x5c then (scan, true)
  else if byte = 0x27 ∨ byte = 0x22 then ({ scan with quote := some byte }, false)
  else if splitsStage allControls previous byte then
    ({ scan with stages := scan.stages ++ [(scan.start, index)], start := index + 1 }, false)
  else (scan, false)

def stageLoop (allControls : Bool) (scan : StageScan) (previous : Option UInt8) (index : Nat)
    (jump : Bool) : Bytes → StageScan
  | [] => scan
  | byte :: rest =>
    if jump then stageLoop allControls scan (some byte) (index + 1) false rest
    else
      stageLoop allControls (scan.step allControls previous index byte).1 (some byte) (index + 1)
        (scan.step allControls previous index byte).2 rest

def shellStageRanges (command : List Char) (allControls : Bool) : List (Nat × Nat) :=
  let scan := stageLoop allControls {} none 0 false (encodeUtf8 command)
  scan.stages ++ [(scan.start, byteLength command)]

def shellStages (command : List Char) (allControls : Bool) : Option (List (List Char)) :=
  (shellStageRanges command allControls).mapM (slice command)

end JtermCore.CommandCorrection
