import JtermCore.Utf8

/-!
# The escape-sequence parser of the screen replay

The bytes of a stream are decoded as UTF-8 and every code point is classified
by the DEC state machine.  What the parser hands to the emulator is modelled as
the list of callbacks it makes.
-/

namespace JtermCore.ScreenReplay

open Bytes

def maxParams : Nat := 32

def maxParamValue : Int := 0xffff

def maxOscBytes : Nat := 4096

def multipleIntermediates : UInt8 := 0xff

/-- A finished parameter: its value, or -1 when it was omitted, and whether a
`:` follows it. -/
structure Slot where
  value : Int
  nonfinal : Bool
deriving DecidableEq

structure Params where
  slots : List Slot
  current : Int
  started : Bool
deriving DecidableEq

namespace Params

def new : Params where
  slots := []
  current := -1
  started := false

def pushDigit (params : Params) (digit : Nat) : Params :=
  { params with
    started := true
    current := min ((if params.current < 0 then 0 else params.current) * 10 + digit) maxParamValue }

def finishParam (params : Params) (colon : Bool) : Params where
  started := true
  slots :=
    if params.slots.length < maxParams then params.slots ++ [⟨params.current, colon⟩]
    else params.slots
  current := -1

def sealLast (params : Params) : Params :=
  if params.started then params.finishParam false else params

def len (params : Params) : Nat := params.slots.length

def raw (params : Params) (idx : Nat) : Int := (params.slots[idx]?).elim (-1) Slot.value

def get (params : Params) (idx : Nat) (default_ : Int) : Int :=
  if params.raw idx = -1 then default_ else params.raw idx

def isNonfinal (params : Params) (idx : Nat) : Bool := (params.slots[idx]?).any Slot.nonfinal

/-- The first parameter behind the group of a parameter. -/
def next (params : Params) (idx : Nat) : Nat :=
  idx + ((params.slots.drop idx).takeWhile Slot.nonfinal).length + 1

/-- A maximum below the minimum loses. -/
def collect1 (params : Params) (idx : Nat) (default_ least most : Int) : Int :=
  max (min (params.get idx default_) most) least

end Params

/-- `Utf8`: a character under way, with the range of its next byte. -/
structure Decoder where
  code : Nat
  need : Nat
  lower : UInt8
  upper : UInt8
  pending : Bytes
deriving DecidableEq

inductive DecoderStep where
  | pending
  | char (code : Nat)
  | invalid (retry : Bool)
deriving DecidableEq

namespace Decoder

def initial : Decoder where
  code := 0
  need := 0
  lower := 0
  upper := 0
  pending := []

def idle (decoder : Decoder) : Bool := decoder.need = 0

def lead (byte : UInt8) : Option (Nat × UInt8 × UInt8 × Nat) :=
  if 0xc2 ≤ byte && byte ≤ 0xdf then some (1, 0x80, 0xbf, byte.toNat % 32)
  else if byte = 0xe0 then some (2, 0xa0, 0xbf, byte.toNat % 16)
  else if (0xe1 ≤ byte && byte ≤ 0xec) || (0xee ≤ byte && byte ≤ 0xef) then
    some (2, 0x80, 0xbf, byte.toNat % 16)
  else if byte = 0xed then some (2, 0x80, 0x9f, byte.toNat % 16)
  else if byte = 0xf0 then some (3, 0x90, 0xbf, byte.toNat % 8)
  else if 0xf1 ≤ byte && byte ≤ 0xf3 then some (3, 0x80, 0xbf, byte.toNat % 8)
  else if byte = 0xf4 then some (3, 0x80, 0x8f, byte.toNat % 8)
  else none

def push (decoder : Decoder) (byte : UInt8) : Decoder × DecoderStep :=
  if decoder.need = 0 then
    if byte ≤ 0x7f then (decoder, .char byte.toNat)
    else
      match lead byte with
      | none => (decoder, .invalid false)
      | some (need, lower, upper, code) => (⟨code, need, lower, upper, [byte]⟩, .pending)
  else if byte < decoder.lower || decoder.upper < byte then
    (initial, .invalid true)
  else
    let code := decoder.code * 64 + byte.toNat % 64
    if decoder.need = 1 then (initial, .char code)
    else (⟨code, decoder.need - 1, 0x80, 0xbf, decoder.pending ++ [byte]⟩, .pending)

end Decoder

inductive State where
  | ground
  | escape
  | escapeIntermediate
  | csiEntry
  | csiParam
  | csiIntermediate
  | csiIgnore
  | osc
  | ignoredString
  | stringEscape (osc : Bool)
deriving DecidableEq

inductive Callback where
  | printAscii (run : Bytes)
  | print (char : Char)
  | execute (control : Nat)
  | csi (params : Params) (marker intermediate fin : UInt8)
  | esc (intermediate fin : UInt8)
  | osc (payload : Bytes)
deriving DecidableEq

structure Parser where
  state : State
  utf8 : Decoder
  params : Params
  marker : UInt8
  intermediate : UInt8
  osc : Bytes
  oscOverflow : Bool
deriving DecidableEq

/-- `char::from_u32`, with the replacement character for what is no scalar value. -/
def charOfCode (code : Nat) : Char :=
  if code.isValidChar then Char.ofNat code else '\uFFFD'

namespace Parser

def new : Parser where
  state := .ground
  utf8 := .initial
  params := .new
  marker := 0
  intermediate := 0
  osc := []
  oscOverflow := false

def goto (parser : Parser) (state : State) : Parser := { parser with state }

def clearSequence (parser : Parser) : Parser :=
  { parser with params := .new, marker := 0, intermediate := 0 }

def collectIntermediate (parser : Parser) (byte : UInt8) : Parser :=
  { parser with
    intermediate := if parser.intermediate = 0 then byte else multipleIntermediates }

def startString (parser : Parser) (osc : Bool) : Parser :=
  if osc then { parser with osc := [], oscOverflow := false, state := .osc }
  else parser.goto .ignoredString

def finishString (parser : Parser) (osc : Bool) : Parser × List Callback :=
  ({ parser with osc := [], state := .ground },
    if osc && !parser.oscOverflow then [.osc parser.osc] else [])

/-- A code point after ESC. -/
def escapeCode (parser : Parser) (code : Nat) : Parser × List Callback :=
  if code ≤ 0x1f then (parser, [.execute code])
  else if code ≤ 0x2f then
    ((parser.collectIntermediate (UInt8.ofNat code)).goto .escapeIntermediate, [])
  else if code = 0x5b then (parser.clearSequence.goto .csiEntry, [])
  else if code = 0x5d then (parser.startString true, [])
  else if code = 0x50 || code = 0x58 || code = 0x5e || code = 0x5f then
    (parser.startString false, [])
  else if code ≤ 0x7e then (parser.goto .ground, [.esc 0 (UInt8.ofNat code)])
  else if code = 0x7f then (parser, [])
  else (parser.goto .ground, [])

/-- A code point after the parameters or the prefix of a CSI. -/
def csiCode (parser : Parser) (code : Nat) : Parser × List Callback :=
  if code ≤ 0x1f then (parser, [.execute code])
  else if code ≤ 0x2f then
    (({ parser with params := parser.params.sealLast }.collectIntermediate
      (UInt8.ofNat code)).goto .csiIntermediate, [])
  else if code ≤ 0x39 then
    ({ parser with params := parser.params.pushDigit (code - 0x30), state := .csiParam }, [])
  else if code = 0x3a then
    ({ parser with params := parser.params.finishParam true, state := .csiParam }, [])
  else if code = 0x3b then
    ({ parser with params := parser.params.finishParam false, state := .csiParam }, [])
  else if code ≤ 0x3f then
    if parser.state = .csiEntry then
      ({ parser with marker := UInt8.ofNat code, state := .csiParam }, [])
    else (parser.goto .csiIgnore, [])
  else if code ≤ 0x7e then
    ({ parser with params := parser.params.sealLast, state := .ground },
      [.csi parser.params.sealLast parser.marker parser.intermediate (UInt8.ofNat code)])
  else if code = 0x7f then (parser, [])
  else (parser.goto .csiIgnore, [])

def oscCode (parser : Parser) (code : Nat) : Parser × List Callback :=
  if code = 0x07 then parser.finishString true
  else if code ≤ 0x1f then (parser, [])
  else if maxOscBytes < parser.osc.length + 4 then ({ parser with oscOverflow := true }, [])
  else if code.isValidChar then
    ({ parser with osc := parser.osc ++ String.utf8EncodeChar (Char.ofNat code) }, [])
  else (parser, [])

/-- A code point that is no control common to all states. -/
def stateCode (parser : Parser) (code : Nat) : Parser × List Callback :=
  match parser.state with
  | .ground =>
    if code ≤ 0x1f then (parser, [.execute code])
    else if code = 0x7f then (parser, [])
    else (parser, [.print (charOfCode code)])
  | .escape => parser.escapeCode code
  | .escapeIntermediate =>
    if code ≤ 0x1f then (parser, [.execute code])
    else if code ≤ 0x2f then (parser.collectIntermediate (UInt8.ofNat code), [])
    else if code ≤ 0x7e then
      (parser.goto .ground, [.esc parser.intermediate (UInt8.ofNat code)])
    else if code = 0x7f then (parser, [])
    else (parser.goto .ground, [])
  | .csiEntry | .csiParam => parser.csiCode code
  | .csiIntermediate =>
    if code ≤ 0x1f then (parser, [.execute code])
    else if code ≤ 0x2f then (parser.collectIntermediate (UInt8.ofNat code), [])
    else if 0x40 ≤ code && code ≤ 0x7e then
      (parser.goto .ground,
        [.csi parser.params parser.marker parser.intermediate (UInt8.ofNat code)])
    else if code = 0x7f then (parser, [])
    else (parser.goto .csiIgnore, [])
  | .csiIgnore =>
    if code ≤ 0x1f then (parser, [.execute code])
    else if 0x40 ≤ code && code ≤ 0x7e then (parser.goto .ground, [])
    else (parser, [])
  | .osc => parser.oscCode code
  | .ignoredString => (parser, [])
  | .stringEscape osc =>
    if code = 0x5c then parser.finishString osc
    else ({ parser with osc := [] }.clearSequence.goto .escape).escapeCode code

/-- First the transitions that apply in every state. -/
def codePoint (parser : Parser) (code : Nat) : Parser × List Callback :=
  if code = 0x18 || code = 0x1a then
    ({ parser with osc := [], state := .ground },
      if code = 0x1a then [.print '\uFFFD'] else [])
  else if code = 0x1b then
    (match parser.state with
      | .osc => parser.goto (.stringEscape true)
      | .ignoredString => parser.goto (.stringEscape false)
      | _ => parser.clearSequence.goto .escape, [])
  else if code = 0x9c && (parser.state = .osc || parser.state = .ignoredString) then
    parser.finishString (parser.state = .osc)
  else if 0x80 ≤ code && code ≤ 0x9f then
    let parser := { parser with osc := [] }.clearSequence.goto .ground
    if code = 0x90 || code = 0x98 || code = 0x9e || code = 0x9f then
      (parser.startString false, [])
    else if code = 0x9b then (parser.goto .csiEntry, [])
    else if code = 0x9d then (parser.startString true, [])
    else if code = 0x9c then (parser, [])
    else (parser, [.execute code])
  else parser.stateCode code

def isPrintable (byte : UInt8) : Bool := 0x20 ≤ byte && byte < 0x7f

/-- The loop of `advance`: in Ground a whole run of printable ASCII is handed
over at once, and the byte that interrupts a character is read again. -/
def advanceLoop : Nat → Parser → Bytes → Parser × List Callback
  | 0, parser, _ => (parser, [])
  | _ + 1, parser, [] => (parser, [])
  | fuel + 1, parser, byte :: rest =>
    if parser.state = .ground && parser.utf8.idle && isPrintable byte then
      let (done, callbacks) := advanceLoop fuel parser ((byte :: rest).dropWhile isPrintable)
      (done, .printAscii ((byte :: rest).takeWhile isPrintable) :: callbacks)
    else
      let (utf8, step) := parser.utf8.push byte
      let parser := { parser with utf8 }
      match step with
      | .pending => advanceLoop fuel parser rest
      | .char code =>
        let (parser, first) := parser.codePoint code
        let (parser, later) := advanceLoop fuel parser rest
        (parser, first ++ later)
      | .invalid retry =>
        let (parser, first) := parser.codePoint 0xfffd
        let (parser, later) := advanceLoop fuel parser (if retry then byte :: rest else rest)
        (parser, first ++ later)

/-- Every byte is read at most twice. -/
def advance (parser : Parser) (bytes : Bytes) : Parser × List Callback :=
  advanceLoop (2 * bytes.length) parser bytes

/-- The digits of a value that is not omitted. -/
def valueText (value : Int) : Bytes :=
  if 0 ≤ value then decimalText value.toNat else []

end Parser

end JtermCore.ScreenReplay
