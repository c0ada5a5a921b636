import JtermCore.StreamParser.Event

/-!
# The stream parser

`Parser::feed` splits a byte stream into the bytes that pass through to the
terminal and semantic events.  The fields of the parser and the list of events
are the state of the feeding loop.
-/

namespace JtermCore.StreamParser

open Bytes ExecutionJournal KittyKeyboard

def maxOscPayloadBytes : Nat := 1024 * 1024

def maxApcPayloadBytes : Nat := 16 * 1024 * 1024

def maxDcsPayloadBytes : Nat := 1024 * 1024

/-- The length at which a malformed CSI is discarded. -/
def maxCsiBytes : Nat := 4096

/-- ESC. -/
def escape : UInt8 := 0x1b

def c1Csi : UInt8 := 0x9b

/-- CAN and SUB abort every pending sequence. -/
def isCancel (byte : UInt8) : Bool := byte = 0x18 || byte = 0x1a

inductive CsiIntroducer where
  | escBracket
  | c1
  | utf8C1
deriving DecidableEq

/-- `CsiIntroducer::append_to` an empty buffer. -/
def CsiIntroducer.toBytes : CsiIntroducer → Bytes
  | .escBracket => [0x1b, 0x5b]
  | .c1 => [0x9b]
  | .utf8C1 => [0xc2, 0x9b]

def extendTail (tail bytes : Bytes) : Bytes :=
  let seen := tail ++ bytes
  seen.drop (seen.length - 3)

def previous (tail : Bytes) (distance : Nat) : Option UInt8 :=
  if distance ≠ 0 ∧ distance ≤ tail.length then tail[tail.length - distance]? else none

inductive C1GroundRole where
  | utf8Csi
  | utf8Continuation
  | csi
deriving DecidableEq

def isThreeByteLead (byte : UInt8) : Bool := 0xe0 ≤ byte && byte ≤ 0xef

def isFourByteLead (byte : UInt8) : Bool := 0xf0 ≤ byte && byte ≤ 0xf4

def classifyGroundC1 (tail : Bytes) : C1GroundRole :=
  match previous tail 1 with
  | none => .csi
  | some last =>
    if last = 0xc2 then .utf8Csi
    else if (0xc3 ≤ last && last ≤ 0xdf) || Utf8.validFirstContinuation last 0x9b then
      .utf8Continuation
    else if Utf8.isContinuation last && ((previous tail 2).any fun lead =>
          (isThreeByteLead lead || isFourByteLead lead) &&
            Utf8.validFirstContinuation lead last) then
      .utf8Continuation
    else if Utf8.isContinuation last &&
        ((previous tail 2).any fun first => (previous tail 3).any fun lead =>
          Utf8.isContinuation first && isFourByteLead lead &&
            Utf8.validFirstContinuation lead first) then
      .utf8Continuation
    else
      .csi

inductive State where
  | ground
  | esc
  | csi (introducer : CsiIntroducer) (buf : Bytes)
  | csiDiscard
  | osc (buf : Bytes)
  | oscEsc (payload : Bytes)
  | oscDiscard
  | oscDiscardEsc
  | apc (buf : Bytes)
  | apcEsc (payload : Bytes)
  | apcDiscard
  | apcDiscardEsc
  | dcs (buf : Bytes)
  | dcsEsc (payload : Bytes)
  | dcsDiscard
  | dcsDiscardEsc
  | ignore
  | ignoreEsc
deriving DecidableEq

structure SnoopedModes where
  bracketedPaste : Bool
  mouseTracking : Nat
  mouseEncoding : Nat
  focusEvents : Bool
deriving DecidableEq

/-- The modes of a new parser and after a hard reset. -/
def SnoopedModes.initial : SnoopedModes where
  bracketedPaste := false
  mouseTracking := 0
  mouseEncoding := 0
  focusEvents := false

/-- `Parser`, without its constant configuration. -/
structure Parser where
  state : State
  passthrough : Bytes
  groundUtf8Tail : Bytes
  modes : SnoopedModes
deriving DecidableEq

def Parser.new : Parser where
  state := .ground
  passthrough := []
  groundUtf8Tail := []
  modes := .initial

inductive MouseMode where
  | none
  | x10
  | normal
  | buttonEvent
  | anyEvent
deriving DecidableEq

inductive MouseEncoding where
  | default
  | sgr
  | urxvt
  | utf8
deriving DecidableEq

def SnoopedModes.mouseMode (modes : SnoopedModes) : MouseMode :=
  if modes.mouseTracking &&& 8 ≠ 0 then .anyEvent
  else if modes.mouseTracking &&& 4 ≠ 0 then .buttonEvent
  else if modes.mouseTracking &&& 2 ≠ 0 then .normal
  else if modes.mouseTracking &&& 1 ≠ 0 then .x10
  else .none

def SnoopedModes.encoding (modes : SnoopedModes) : MouseEncoding :=
  if modes.mouseEncoding &&& 4 ≠ 0 then .sgr
  else if modes.mouseEncoding &&& 2 ≠ 0 then .urxvt
  else if modes.mouseEncoding &&& 1 ≠ 0 then .utf8
  else .default

def saturatingDigit (value : Nat) (digit : UInt8) : Nat :=
  min (min (value * 10) u32Max + digitValue digit) u32Max

def saturatingValue (token : Bytes) : Nat := token.foldl saturatingDigit 0

/-- The bytes VTE keeps of a CSI: neither C0 controls nor DEL. -/
def isParameterByte (byte : UInt8) : Bool := 0x20 ≤ byte && byte ≠ 0x7f

def privateModes (params : Bytes) : Option (List Nat) :=
  (stripPrefix (ofAscii "?") (params.filter isParameterByte)).bind fun list =>
    (list.splitOn semicolon).mapM fun token =>
      if token.all isAsciiDigit then some (saturatingValue token) else none

def isAltScreenMode (mode : Nat) : Bool := mode = 47 || mode = 1047 || mode = 1049

def isMouseMode (mode : Nat) : Bool :=
  [9, 1000, 1001, 1002, 1003, 1005, 1006, 1015, 1016].contains mode

def altScreenMode (params : Bytes) : Option Nat :=
  if params = ofAscii "?47" then some 47
  else if params = ofAscii "?1047" then some 1047
  else if params = ofAscii "?1049" then some 1049
  else none

def isOrdinaryNumericParam (params : Bytes) (expected : Nat) : Bool :=
  !params.isEmpty && params.all isAsciiDigit && saturatingValue params = expected

def isMouseReportingMode (params : Bytes) : Bool :=
  oneOf params ["?9", "?1000", "?1001", "?1002", "?1003", "?1005", "?1006", "?1015", "?1016"]

def isFocusReportingMode (params : Bytes) : Bool := params = ofAscii "?1004"

def csiU8Param (digits : Bytes) : Nat :=
  (digits.takeWhile isAsciiDigit).foldl
    (fun value digit => min (min (value * 10) 255 + digitValue digit) 255) 0

/-- Whether the configuration keeps a mode from the terminal. -/
def ParserConfig.suppresses (config : ParserConfig) (mode : Nat) : Bool :=
  (!config.mouseReporting && isMouseMode mode) || (!config.focusReporting && mode = 1004)

def ParserConfig.intercepts (config : ParserConfig) (mode : Nat) : Bool :=
  isAltScreenMode mode || config.suppresses mode

def ParserConfig.interceptedModes (config : ParserConfig) (params : Bytes) : Option (List Nat) :=
  (privateModes params).filter fun modes => modes.any config.intercepts

def setFlag (flags bit : Nat) (enable : Bool) : Nat :=
  if enable then flags ||| bit else flags &&& (0xff ^^^ bit)

def SnoopedModes.setMode (modes : SnoopedModes) (enable : Bool) (mode : Nat) : SnoopedModes :=
  if mode = 2004 then { modes with bracketedPaste := enable }
  else if mode = 1004 then { modes with focusEvents := enable }
  else if mode = 9 then { modes with mouseTracking := setFlag modes.mouseTracking 1 enable }
  else if mode = 1000 then { modes with mouseTracking := setFlag modes.mouseTracking 2 enable }
  else if mode = 1002 then { modes with mouseTracking := setFlag modes.mouseTracking 4 enable }
  else if mode = 1003 then { modes with mouseTracking := setFlag modes.mouseTracking 8 enable }
  else if mode = 1005 then { modes with mouseEncoding := setFlag modes.mouseEncoding 1 enable }
  else if mode = 1015 then { modes with mouseEncoding := setFlag modes.mouseEncoding 2 enable }
  else if mode = 1006 then { modes with mouseEncoding := setFlag modes.mouseEncoding 4 enable }
  else modes

def decPrivateModes (params : Bytes) : List Nat := (params.splitOn semicolon).filterMap fun token =>
    parseUnsigned u32Max ((stripPrefix (ofAscii "?") token).getD token)

def SnoopedModes.update (modes : SnoopedModes) (params : Bytes) (enable : Bool) : SnoopedModes :=
  (decPrivateModes params).foldl (fun modes mode => modes.setMode enable mode) modes

/-- The parser together with the events reported so far. -/
structure Feeding extends Parser where
  events : List ParserEvent
deriving DecidableEq

namespace Feeding

/-- Append to the passthrough buffer. -/
def emit (feeding : Feeding) (bytes : Bytes) : Feeding :=
  { feeding with passthrough := feeding.passthrough ++ bytes }

def flush (feeding : Feeding) : Feeding :=
  if feeding.passthrough.isEmpty then feeding
  else
    { feeding with
      events := feeding.events ++ [.bytes feeding.passthrough]
      passthrough := [] }

def push (feeding : Feeding) (events : List ParserEvent) : Feeding :=
  { feeding with events := feeding.events ++ events }

/-- Change the parser state. -/
def goto (feeding : Feeding) (state : State) : Feeding := { feeding with state }

/-- Forget the ground suffix. -/
def clearTail (feeding : Feeding) : Feeding := { feeding with groundUtf8Tail := [] }

def updateModes (feeding : Feeding) (params : Bytes) (enable : Bool) : Feeding :=
  { feeding with modes := feeding.modes.update params enable }

def plain (feeding : Feeding) (bytes : Bytes) : Feeding :=
  { feeding with
    passthrough := feeding.passthrough ++ bytes
    groundUtf8Tail := extendTail feeding.groundUtf8Tail bytes }

def hardReset (feeding : Feeding) : Feeding :=
  { feeding.flush.clearTail with modes := .initial }.push
    [.hardReset, .bytes (ofAscii "\x1bc")] |>.goto .ground

/-- Drop the C2 of a UTF-8 introducer that is still in the buffer. -/
def takeUtf8Lead (feeding : Feeding) : Feeding :=
  { feeding with passthrough := feeding.passthrough.dropLast }

/-- An `0x9b` in Ground. -/
def groundC1 (feeding : Feeding) : Feeding :=
  match classifyGroundC1 feeding.groundUtf8Tail with
  | .utf8Csi =>
    if feeding.passthrough.getLast? = some 0xc2 then
      feeding.takeUtf8Lead.clearTail.goto (.csi .utf8C1 [])
    else
      feeding.clearTail.goto (.csi .c1 [])
  | .utf8Continuation => feeding.plain [c1Csi]
  | .csi => feeding.clearTail.goto (.csi .c1 [])

/-- The byte that ends a run of display bytes. -/
def groundStop (feeding : Feeding) (byte : UInt8) : Feeding :=
  if byte = escape then feeding.clearTail.goto .esc else feeding.groundC1

/-- CAN or SUB in a sequence. -/
def cancel (feeding : Feeding) (byte : UInt8) : Feeding :=
  (match feeding.state with
  | .csi introducer buf => feeding.emit (introducer.toBytes ++ buf ++ [byte])
  | .esc => feeding.emit [escape, byte]
  | _ => feeding).goto .ground

def escapeFinal (feeding : Feeding) (byte : UInt8) : Feeding :=
  if byte = escape then feeding.goto .esc
  else if byte = 0x5b then feeding.goto (.csi .escBracket [])
  else if byte = 0x5d then feeding.goto (.osc [])
  else if byte = 0x5f then feeding.goto (.apc [])
  else if byte = 0x50 then feeding.goto (.dcs [])
  else if byte = 0x5e || byte = 0x58 then feeding.goto .ignore
  else if byte = 0x63 then feeding.hardReset
  else (feeding.emit [escape, byte]).goto .ground

def interceptMode (config : ParserConfig) (final : UInt8) (feeding : Feeding) (mode : Nat) :
    Feeding :=
  let set : Bool := final = 0x68
  if isAltScreenMode mode then
    feeding.flush.push [if set then .altScreenEnter mode else .altScreenLeave mode]
  else if config.suppresses mode then
    feeding.flush
  else
    ((feeding.flush.updateModes (decimalText mode) set).push [.decsetMode mode set]).emit
      (ofAscii "\x1b[?" ++ decimalText mode ++ [final])

/-- An intercepted list: embedded controls, then the modes in wire order. -/
def intercept (config : ParserConfig) (feeding : Feeding) (final : UInt8) (params : Bytes)
    (modes : List Nat) : Feeding :=
  modes.foldl (interceptMode config final) (feeding.emit (params.filter (· < 0x20))).flush

def snoopMode (set : Bool) (feeding : Feeding) (mode : Nat) : Feeding :=
  (feeding.updateModes (decimalText mode) set).push [.decsetMode mode set]

/-- The modes of a list that passes through. -/
def snoopModes (feeding : Feeding) (final : UInt8) (params : Bytes) : Feeding :=
  if (final = 0x68 || final = 0x6c) && (altScreenMode params).isNone then
    ((privateModes params).getD []).foldl (snoopMode (final = 0x68)) feeding
  else
    feeding

/-- The semantic event of ED 2 and ED 3. -/
def eraseEvent (final : UInt8) (params : Bytes) : Option ParserEvent :=
  if final = 0x4a then
    if isOrdinaryNumericParam params 2 then some .eraseDisplay
    else if isOrdinaryNumericParam params 3 then some .eraseScrollback
    else none
  else
    none

def kittySet (fields : Bytes) : KittyKeyboardOp :=
  match fields.splitOn semicolon with
  | flags :: mode :: _ =>
    .set (csiU8Param flags) (if csiU8Param mode ≠ 0 then csiU8Param mode else 1)
  | [flags] => .set (csiU8Param flags) 1
  | [] => .set 0 1

/-- The handshake a control sequence asks for. -/
def handshake (final : UInt8) (params : Bytes) : List ParserEvent :=
  if final = 0x75 then
    match params with
    | [0x3f] => [.keyboardProtocolQuery .kittyQuery]
    | 0x3e :: rest => [.kittyKeyboard (.push (csiU8Param rest))]
    | 0x3c :: rest => [.kittyKeyboard (.pop (csiU8Param rest))]
    | 0x3d :: rest => [.kittyKeyboard (kittySet rest)]
    | _ => []
  else if final = 0x6d then
    if params = ofAscii "?4" then [.keyboardProtocolQuery .modifyOtherKeysQuery] else []
  else if final = 0x63 then
    if oneOf params ["", "0"] then [.keyboardProtocolQuery .primaryDeviceAttributes]
    else if oneOf params [">", ">0"] then [.keyboardProtocolQuery .secondaryDeviceAttributes]
    else if oneOf params ["=", "=0"] then [.keyboardProtocolQuery .tertiaryDeviceAttributes]
    else []
  else if final = 0x71 then
    if oneOf params [">", ">0"] then [.keyboardProtocolQuery .xtVersion] else []
  else if final = 0x6e then
    if params = ofAscii "5" then [.keyboardProtocolQuery .deviceStatus]
    else if params = ofAscii "6" then [.keyboardProtocolQuery .cursorPosition]
    else []
  else
    []

/-- The end of a sequence that is not intercepted: it is dropped, reported as
an erase, or passed through whole. -/
def finishCsi (config : ParserConfig) (feeding : Feeding) (introducer : CsiIntroducer)
    (params : Bytes) (final : UInt8) : Feeding :=
  let sequence := introducer.toBytes ++ params ++ [final]
  let isMode : Bool := final = 0x68 || final = 0x6c
  match eraseEvent final params with
  | some event => feeding.flush.push [event, .bytes sequence]
  | none =>
    match (if isMode then altScreenMode params else none) with
    | some mode =>
      feeding.flush.push [if final = 0x68 then .altScreenEnter mode else .altScreenLeave mode]
    | none =>
      if !config.mouseReporting && isMode && isMouseReportingMode params then feeding
      else if !config.focusReporting && isMode && isFocusReportingMode params then feeding
      else (feeding.push (handshake final params)).emit sequence

def csiFinal (config : ParserConfig) (feeding : Feeding) (introducer : CsiIntroducer)
    (params : Bytes) (final : UInt8) : Feeding :=
  let feeding := feeding.goto .ground
  match (if final = 0x68 || final = 0x6c then config.interceptedModes params else none) with
  | some modes => feeding.intercept config final params modes
  | none => (feeding.snoopModes final params).finishCsi config introducer params final

/-- A byte inside a control sequence. -/
def csiByte (config : ParserConfig) (feeding : Feeding) (introducer : CsiIntroducer)
    (buf : Bytes) (byte : UInt8) : Feeding :=
  if byte = escape then
    (feeding.emit (introducer.toBytes ++ buf)).goto .esc
  else if 0x40 ≤ byte && byte ≤ 0x7e then
    feeding.csiFinal config introducer buf byte
  else if (buf ++ [byte]).length > maxCsiBytes then
    feeding.goto .csiDiscard
  else
    feeding.goto (.csi introducer (buf ++ [byte]))

def emitDcsPassthrough (feeding : Feeding) (payload : Bytes) : Feeding :=
  feeding.emit (ofAscii "\x1bP" ++ payload ++ ofAscii "\x1b\\")

section

variable [Libraries] (config : ParserConfig)

/-- A completed OSC string. -/
def finishOsc (feeding : Feeding) (payload : Bytes) : Feeding :=
  (feeding.goto .ground).flush.push (handleOsc payload)

/-- One byte outside Ground that is neither CAN nor SUB. -/
def sequenceByte (feeding : Feeding) (byte : UInt8) : Feeding :=
  match feeding.state with
  | .ground => feeding
  | .esc => feeding.escapeFinal byte
  | .csi introducer buf => feeding.csiByte config introducer buf byte
  | .csiDiscard =>
    if byte = escape then feeding.goto .esc
    else if 0x40 ≤ byte && byte ≤ 0x7e then feeding.goto .ground
    else feeding
  | .osc buf =>
    if byte = 0x07 then feeding.finishOsc buf
    else if byte = escape then feeding.goto (.oscEsc buf)
    else if maxOscPayloadBytes ≤ buf.length then feeding.goto .oscDiscard
    else feeding.goto (.osc (buf ++ [byte]))
  | .oscEsc payload =>
    if byte = 0x5c then feeding.finishOsc payload else feeding.escapeFinal byte
  | .oscDiscard =>
    if byte = 0x07 then feeding.goto .ground
    else if byte = escape then feeding.goto .oscDiscardEsc
    else feeding
  | .oscDiscardEsc => if byte = 0x5c then feeding.goto .ground else feeding.escapeFinal byte
  | .apc buf =>
    if byte = escape then feeding.goto (.apcEsc buf)
    else if maxApcPayloadBytes ≤ buf.length then feeding.goto .apcDiscard
    else feeding.goto (.apc (buf ++ [byte]))
  | .apcEsc payload =>
    if byte = 0x5c then (feeding.goto .ground).flush.push [.apcSequence payload]
    else feeding.escapeFinal byte
  | .apcDiscard => if byte = escape then feeding.goto .apcDiscardEsc else feeding
  | .apcDiscardEsc => if byte = 0x5c then feeding.goto .ground else feeding.escapeFinal byte
  | .dcs buf =>
    if byte = escape then feeding.goto (.dcsEsc buf)
    else if maxDcsPayloadBytes ≤ buf.length then feeding.goto .dcsDiscard
    else feeding.goto (.dcs (buf ++ [byte]))
  | .dcsEsc payload =>
    if byte = 0x5c then (feeding.goto .ground).emitDcsPassthrough payload
    else feeding.escapeFinal byte
  | .dcsDiscard => if byte = escape then feeding.goto .dcsDiscardEsc else feeding
  | .dcsDiscardEsc => if byte = 0x5c then feeding.goto .ground else feeding.escapeFinal byte
  | .ignore => if byte = escape then feeding.goto .ignoreEsc else feeding
  | .ignoreEsc => if byte = 0x5c then feeding.goto .ground else feeding.escapeFinal byte

def controlByte (feeding : Feeding) (byte : UInt8) : Feeding :=
  if isCancel byte then feeding.cancel byte else feeding.sequenceByte config byte

def isGroundStop (byte : UInt8) : Bool := byte = escape || byte = c1Csi

/-- The loop of `feed`: in Ground a whole run of display bytes is copied. -/
def loop : Nat → Feeding → Bytes → Feeding
  | 0, feeding, _ => feeding
  | _ + 1, feeding, [] => feeding
  | fuel + 1, feeding, byte :: rest =>
    if feeding.state = .ground then
      let run := (byte :: rest).takeWhile (!isGroundStop ·)
      let feeding := if run.isEmpty then feeding else feeding.plain run
      match (byte :: rest).dropWhile (!isGroundStop ·) with
      | [] => feeding
      | stop :: rest => loop fuel (feeding.groundStop stop) rest
    else
      loop fuel (feeding.controlByte config byte) rest

end

end Feeding

def Parser.feed [Libraries] (config : ParserConfig) (parser : Parser) (data : Bytes) :
    Parser × List ParserEvent :=
  let start : Feeding := { parser with passthrough := [], events := [] }
  let done := (Feeding.loop config data.length start data).flush
  (done.toParser, done.events)

def Parser.feedAll [Libraries] (config : ParserConfig) (parser : Parser) :
    List Bytes → Parser × List ParserEvent
  | [] => (parser, [])
  | chunk :: chunks =>
    let (parser, events) := parser.feed config chunk
    let (parser, later) := parser.feedAll config chunks
    (parser, events ++ later)

end JtermCore.StreamParser
