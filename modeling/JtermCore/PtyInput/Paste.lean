import JtermCore.ExecutionJournal.Event

/-!
# Encoding a paste

What is pasted is cleaned of the bracketed-paste markers and framed for the
PTY.  Text is a list of characters here, because the cleaning works character
by character; where the program measures or cuts bytes, the encoded text is
measured, and a cut inside a character stops the program.
-/

namespace JtermCore

namespace PtyInput

open Bytes ExecutionJournal Utf8

def pasteStart : Bytes := [0x1b, 0x5b, 0x32, 0x30, 0x30, 0x7e]

def pasteEnd : Bytes := [0x1b, 0x5b, 0x32, 0x30, 0x31, 0x7e]

def c1PasteStart : Bytes := [0x9b, 0x32, 0x30, 0x30, 0x7e]

def c1PasteEnd : Bytes := [0x9b, 0x32, 0x30, 0x31, 0x7e]

def c1PasteStartUtf8 : Bytes := [0xc2, 0x9b, 0x32, 0x30, 0x30, 0x7e]

def c1PasteEndUtf8 : Bytes := [0xc2, 0x9b, 0x32, 0x30, 0x31, 0x7e]

def killLine : UInt8 := 0x15

/-- The last byte of every marker. -/
def tilde : UInt8 := 0x7e

def carriageReturn : UInt8 := 0x0d

def markers : List Bytes :=
  [pasteStart, pasteEnd, c1PasteStartUtf8, c1PasteEndUtf8, c1PasteStart, c1PasteEnd]

def textMarkers : List Bytes := [pasteStart, pasteEnd, c1PasteStartUtf8, c1PasteEndUtf8]

def openers : List Bytes := [pasteStart, c1PasteStart, c1PasteStartUtf8]

def closers : List Bytes := [pasteEnd, c1PasteEndUtf8, c1PasteEnd]

def lenAtEnd (spellings : List Bytes) (data : Bytes) : Option Nat :=
  (spellings.find? (·.isSuffixOf data)).map List.length

def lenAtStart (spellings : List Bytes) (data : Bytes) : Option Nat :=
  (spellings.find? (·.isPrefixOf data)).map List.length

def markerLenAtEnd (data : Bytes) : Option Nat := lenAtEnd markers data

def markerLenAtEndStr (text : List Char) : Option Nat := lenAtEnd textMarkers (encodeUtf8 text)

def openingMarkerLen (data : Bytes) : Option Nat := lenAtStart openers data

def closingMarkerLen (data : Bytes) : Option Nat := lenAtStart closers data

def terminatorLenAtEnd (data : Bytes) : Option Nat := lenAtEnd closers data

def endsWithTerminator (data : Bytes) : Bool := (terminatorLenAtEnd data).isSome

structure PasteModes where
  bracketed : Bool
deriving DecidableEq

inductive UnbracketedMultiline where
  | firstLineOnly
  | sendVerbatim
deriving DecidableEq

structure PastePolicy where
  unbracketedMultiline : UnbracketedMultiline
  stripControls : Bool
  submit : Bool
deriving DecidableEq

structure PasteRisk where
  lines : Nat
  bytes : Nat
  hadEmbeddedPasteMarker : Bool
  hadControls : Bool
  hadVisualSpoofing : Bool
  exceededReviewLimit : Bool
  truncatedToFirstLine : Bool
deriving DecidableEq

structure Paste where
  bytes : Bytes
  echoText : List Char
  risk : PasteRisk
deriving DecidableEq

/-- `String::truncate`; a cut inside a character stops the program. -/
def truncate : List Char → Nat → Option (List Char)
  | _, 0 => some []
  | [], _ + 1 => some []
  | char :: text, bytes + 1 =>
    if char.utf8Size ≤ bytes + 1 then
      (truncate text (bytes + 1 - char.utf8Size)).map (char :: ·)
    else none

def foldCrLf : List Char → List Char
  | '\r' :: '\n' :: text => '\n' :: foldCrLf text
  | char :: text => char :: foldCrLf text
  | [] => []

def normalizeNewlines (text : List Char) : List Char :=
  (foldCrLf text).map fun char => if char = '\r' then '\n' else char

/-- The controls that `defang` may strip: not the tab and the newline. -/
def isStrippable (char : Char) : Bool :=
  char.toNat ≤ 0x08 || (0x0b ≤ char.toNat && char.toNat ≤ 0x1f) || char.toNat = 0x7f ||
    (0x80 ≤ char.toNat && char.toNat ≤ 0x9f)

/-- One character of the first pass of `defang`. -/
def appendChecked (state : List Char × Bool) (char : Char) : Option (List Char × Bool) :=
  let stripped := state.1 ++ [char]
  match if char = '~' then markerLenAtEndStr stripped else none with
  | some len => do
    let cut ← truncate stripped ((encodeUtf8 stripped).length - len)
    return (cut, true)
  | none => some (stripped, state.2)

def defang (text : List Char) (stripControls : Bool) : Option (List Char × Bool × Bool) := do
  let (stripped, hadMarker) ← text.foldlM appendChecked ([], false)
  return (if stripControls then stripped.filter (!isStrippable ·) else stripped,
    hadMarker, stripped.any isStrippable)

def firstLine (text : List Char) : List Char := text.takeWhile (· ≠ '\n')

def maxReviewInputBytes : Nat := 256 * 1024

def cutToFirstLine (body : List Char) (risk : PasteRisk) : Option (List Char × PasteRisk) :=
  let first := firstLine body
  if (encodeUtf8 first).length ≠ (encodeUtf8 body).length then do
    let cut ← truncate body (encodeUtf8 first).length
    return (cut, { risk with truncatedToFirstLine := true })
  else some (body, risk)

/-- Drop the newline that a submission would repeat. -/
def cutNewline (body : List Char) : Option (List Char) :=
  if body.getLast? = some '\n' then truncate body (encodeUtf8 body.dropLast).length
  else some body

def frameBody (modes : PasteModes) (policy : PastePolicy) (body : Bytes) : Bytes :=
  if body.isEmpty then []
  else
    (if modes.bracketed then pasteStart ++ body ++ pasteEnd else body) ++
      if policy.submit then [carriageReturn] else []

section

variable [Libraries]

def containsNoncontrolVisualSpoofing (text : List Char) : Bool :=
  text.any fun char => !isControl char && Libraries.isUnsafeInvisibleChar char

def riskOf (body : List Char) (hadMarker hadControls : Bool) : PasteRisk where
  lines := (body.splitOn '\n').length
  bytes := (encodeUtf8 body).length
  hadEmbeddedPasteMarker := hadMarker
  hadControls := hadControls
  hadVisualSpoofing := containsNoncontrolVisualSpoofing body
  exceededReviewLimit := maxReviewInputBytes < (encodeUtf8 body).length
  truncatedToFirstLine := false

def encodePaste (text : List Char) (modes : PasteModes) (policy : PastePolicy) : Option Paste := do
  let (body, hadMarker, hadControls) ← defang (normalizeNewlines text) policy.stripControls
  let (body, risk) ←
    if !modes.bracketed && policy.unbracketedMultiline = .firstLineOnly then
      cutToFirstLine body (riskOf body hadMarker hadControls)
    else some (body, riskOf body hadMarker hadControls)
  let body ← if policy.submit then cutNewline body else some body
  return ⟨frameBody modes policy (encodeUtf8 body), body, risk⟩

def encodePromptInsert (command : List Char) (modes : PasteModes) (policy : PastePolicy)
    (clearLineFirst : Bool) : Option Paste := do
  let paste ← encodePaste command modes policy
  if paste.risk.hadVisualSpoofing || paste.risk.exceededReviewLimit then
    return { paste with bytes := [], echoText := [] }
  else if clearLineFirst && !paste.bytes.isEmpty then
    return { paste with bytes := killLine :: paste.bytes }
  else return paste

end

end PtyInput

end JtermCore

/-!
# The guard before the PTY

Every write to the PTY passes one guard, which removes markers from the body of
a chunk and keeps account of the frame that is open.  What passed is read once
more, as the line editor behind the PTY reads it.
-/

namespace JtermCore

namespace PtyInput

open Bytes

structure InputGuard where
  inFrame : Bool
deriving DecidableEq

def InputGuard.new : InputGuard where
  inFrame := false

def dropMarker (data : Bytes) : Option Bytes :=
  (markerLenAtEnd data).map fun len => data.take (data.length - len)

/-- The owned path of the body loop: the tail of all that was written is
checked. -/
def rewriteLoop (out : Bytes) : Bytes → Bytes
  | [] => out
  | byte :: rest =>
    let out := out ++ [byte]
    rewriteLoop (if byte = tilde then (dropMarker out).getD out else out) rest

/-- The body loop: `seen` is the body so far, which is still unchanged behind
`head`.  The result is what was written, if anything changed. -/
def scanLoop (head seen : Bytes) : Bytes → Option Bytes
  | [] => none
  | byte :: rest =>
    let seen := seen ++ [byte]
    match if byte = tilde then dropMarker seen else none with
    | some clean => some (rewriteLoop (head ++ clean) rest)
    | none => scanLoop head seen rest

/-- CR or LF. -/
def isLineBreak (byte : UInt8) : Bool := byte = 0x0d || byte = 0x0a

def applyMultilinePolicy (data : Bytes) (modes : PasteModes) (policy : PastePolicy) : Bytes :=
  let submittedTail := data.getLast?.any isLineBreak
  let body := if submittedTail then data.dropLast else data
  if !body.any isLineBreak then data
  else if modes.bracketed then
    pasteStart ++ body ++ pasteEnd ++ data.drop body.length
  else
    match policy.unbracketedMultiline with
    | .firstLineOnly => data.takeWhile (!isLineBreak ·)
    | .sendVerbatim => data

/-- The Ctrl+U in front of an opener outside a frame. -/
def killPrefixLen (inFrame : Bool) (data : Bytes) : Nat :=
  if !inFrame && data.head? = some killLine && (openingMarkerLen (data.drop 1)).isSome then 1
  else 0

/-- The submission behind a closer. -/
def submitLen (framed : Bool) (data : Bytes) : Nat :=
  if framed && data.getLast?.any isLineBreak && endsWithTerminator data.dropLast then 1 else 0

def InputGuard.filter (guard : InputGuard) (data : Bytes) (modes : PasteModes)
    (policy : PastePolicy) : InputGuard × Bytes :=
  if data.isEmpty then (guard, data)
  else
    let prefixLen := killPrefixLen guard.inFrame data
    let openerLen := openingMarkerLen (data.drop prefixLen)
    let framed := guard.inFrame || openerLen.isSome
    let frameEnd := data.length - submitLen framed data
    let terminator := terminatorLenAtEnd (data.take frameEnd)
    let trailingClose := framed && terminator.isSome
    let bodyEnd := if trailingClose then frameEnd - terminator.getD 0 else data.length
    let bodyStart := openerLen.elim 0 (prefixLen + ·)
    let guard : InputGuard := ⟨if trailingClose then false else framed⟩
    match scanLoop (data.take bodyStart) [] ((data.take bodyEnd).drop bodyStart) with
    | some out =>
      let out := out ++ data.drop bodyEnd
      (guard, if framed then out else applyMultilinePolicy out modes policy)
    | none => (guard, if framed then data else applyMultilinePolicy data modes policy)

structure AdmittedInput where
  wireBytes : Nat
  editorBytes : Bytes
  submitsLine : Bool
  inputAfterSubmission : Bool
  hadFraming : Bool
deriving DecidableEq

structure Admission where
  result : AdmittedInput
  inFrame : Bool
  pairedNewline : Option UInt8
deriving DecidableEq

/-- The other half of a two-byte line end. -/
def pairOf (byte : UInt8) : UInt8 :=
  if byte = 0x0d then 0x0a else 0x0d

/-- A byte that is part of no marker. -/
def Admission.admitByte (state : Admission) (byte : UInt8) : Admission :=
  let result := { state.result with editorBytes := state.result.editorBytes ++ [byte] }
  if state.inFrame || !isLineBreak byte then
    { state with
      result :=
        if result.submitsLine && !(byte = 0x03 || byte = 0x04) then
          { result with inputAfterSubmission := true }
        else result
      pairedNewline := if isLineBreak byte then state.pairedNewline else none }
  else if !result.submitsLine then
    { state with
      result := { result with submitsLine := true }
      pairedNewline := some (pairOf byte) }
  else if state.pairedNewline = some byte then
    { state with result, pairedNewline := none }
  else
    { state with
      result := { result with inputAfterSubmission := true }
      pairedNewline := some (pairOf byte) }

/-- A marker: the frame opens or closes. -/
def Admission.frame (state : Admission) (inFrame : Bool) : Admission :=
  { state with inFrame, result := { state.result with hadFraming := true } }

/-- The loop of `admitted_input`; every round takes at least one byte. -/
def admitLoop : Nat → Admission → Bytes → Admission
  | 0, state, _ => state
  | _ + 1, state, [] => state
  | fuel + 1, state, byte :: rest =>
    match openingMarkerLen (byte :: rest) with
    | some len => admitLoop fuel (state.frame true) ((byte :: rest).drop len)
    | none =>
      match closingMarkerLen (byte :: rest) with
      | some len => admitLoop fuel (state.frame false) ((byte :: rest).drop len)
      | none => admitLoop fuel (state.admitByte byte) rest

/-- The state of `admitted_input` at its end. -/
def admission (data : Bytes) (initiallyInFrame : Bool) : Admission :=
  admitLoop data.length
    { result := ⟨data.length, [], false, false, initiallyInFrame⟩
      inFrame := initiallyInFrame
      pairedNewline := none }
    data

def admittedInput (data : Bytes) (initiallyInFrame : Bool) : AdmittedInput :=
  (admission data initiallyInFrame).result

end PtyInput

end JtermCore
