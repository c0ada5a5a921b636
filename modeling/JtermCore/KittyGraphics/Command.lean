import JtermCore.Result
import JtermCore.Utf8

/-!
# Kitty graphics commands

An APC packet of the kitty graphics protocol is `G`, comma separated control
data, and after the first `;` a base64 section.  This file embeds the parts of
`kitty_graphics.rs` that decide about one packet without looking at any other:
the caps, the control parser, the geometry check, the PNG sniff and the base64
decoder.
-/

namespace JtermCore.KittyGraphics

open Bytes Result

def maxControlBytes : Nat := 16 * 1024

/-- The number of chunked uploads retained at once. -/
def maxPendingTransfers : Nat := 256

/-- Memory ceilings applied to the graphics traffic of one terminal. -/
structure Caps where
  maxEncodedBytes : Nat
  maxDecodedBytes : Nat
  maxDimension : Nat
  maxControlBytes : Nat
  maxPendingBytes : Nat
deriving DecidableEq

def Caps.block : Caps where
  maxEncodedBytes := 16 * 1024 * 1024
  maxDecodedBytes := 16 * 1024 * 1024
  maxDimension := 16384
  maxControlBytes := KittyGraphics.maxControlBytes
  maxPendingBytes := 16 * 1024 * 1024

/-- The typed failures of the module. -/
inductive Error where
  | invalid (what : String)
  | tooLarge
  | notSupported (what : String)
deriving DecidableEq

/-- Image data format from the `f=` control. -/
inductive Format where
  | png
  | rgb8
  | rgba8
deriving DecidableEq

def Format.fromControl (value : Bytes) : Except Error Format :=
  if value = ofAscii "100" then .ok .png
  else if value = ofAscii "24" then .ok .rgb8
  else if value = ofAscii "32" then .ok .rgba8
  else .error (.notSupported "format")

/-- Bytes per pixel in the transmitted data. -/
def Format.sourceChannels : Format → Nat
  | .png | .rgba8 => 4
  | .rgb8 => 3

def Format.isRaw : Format → Bool
  | .rgb8 | .rgba8 => true
  | .png => false

/-- The `a=` control. -/
inductive Action where
  | transmit
  | display
  | query
  | placement
  | delete
  | other (char : Char)
deriving DecidableEq

def singleChar (value : Bytes) : Option Char :=
  match Utf8.decodeUtf8 value with
  | some [char] => some char
  | _ => none

def Action.fromControl (value : Bytes) : Except Error Action :=
  match singleChar value with
  | none => .error (.invalid "a= must be one character")
  | some 't' => .ok .transmit
  | some 'T' => .ok .display
  | some 'q' => .ok .query
  | some 'p' => .ok .placement
  | some 'd' => .ok .delete
  | some char => .ok (.other char)

def Action.isTransmit : Action → Bool
  | .transmit | .display => true
  | _ => false

/-- The `t=` control. -/
inductive Transport where
  | direct
  | file
  | tempFile
  | sharedMemory
deriving DecidableEq

def Transport.fromControl (value : Bytes) : Except Error Transport :=
  match singleChar value with
  | none => .error (.invalid "t= must be one character")
  | some 'd' => .ok .direct
  | some 'f' => .ok .file
  | some 't' => .ok .tempFile
  | some 's' => .ok .sharedMemory
  | some _ => .error (.notSupported "transport")

def parseU32 (value : Bytes) : Except Error Nat :=
  okOr (.invalid "unsigned control value") (parseUnsigned u32Max value)

/-- One parsed graphics command. -/
structure Command where
  action : Action
  format : Format
  transport : Transport
  id : Option Nat
  number : Option Nat
  placement : Option Nat
  width : Option Nat
  height : Option Nat
  more : Bool
  quiet : Nat
  payloadB64 : Bytes
  control : Bytes
  moreSpecified : Bool
  quietSpecified : Bool
  metadata : Bool
deriving DecidableEq

/-- Both dimensions, present only when both were given. -/
def Command.declared (command : Command) : Option (Nat × Nat) :=
  match command.width, command.height with
  | some width, some height => some (width, height)
  | _, _ => none

/-- `Command::is_continuation`: `m=` was given and nothing but `m` and `q`. -/
def Command.isContinuation (command : Command) : Bool := command.moreSpecified && !command.metadata

def Command.requireDirectTransport (command : Command) : Except Error Unit :=
  reject (command.transport ≠ .direct) (.notSupported "transport")

def isGraphicsPayload (payload : Bytes) : Bool := payload.head? = some 0x47

/-- One `key=value` pair whose key is neither `m` nor `q`. -/
def applyControl (command : Command) (key value : Bytes) : Except Error Command := do
  if key = ofAscii "a" then
    return { command with action := ← Action.fromControl value }
  else if key = ofAscii "f" then
    return { command with format := ← Format.fromControl value }
  else if key = ofAscii "t" then
    return { command with transport := ← Transport.fromControl value }
  else if key = ofAscii "i" then
    return { command with id := some (← parseU32 value) }
  else if key = ofAscii "I" then
    return { command with number := some (← parseU32 value) }
  else if key = ofAscii "p" then
    return { command with placement := some (← parseU32 value) }
  else if key = ofAscii "s" then
    return { command with width := some (← parseU32 value) }
  else if key = ofAscii "v" then
    return { command with height := some (← parseU32 value) }
  else if ["U", "P", "Q", "H", "V"].any (fun name => key = ofAscii name) then
    throw (.notSupported "placement control")
  else if key = ofAscii "o" then
    throw (.notSupported "compression")
  else if ["S", "O"].any (fun name => key = ofAscii name) then
    throw (.notSupported "external data control")
  else
    return command

/-- One round of the loop of `parse_command` over the control pairs. -/
def applyPair (command : Command) (pair : Bytes) : Except Error Command :=
  if pair.isEmpty then
    .ok command
  else
    match splitOnce 0x3d pair with
    | none => .error (.invalid "control pair without '='")
    | some (key, value) =>
      if key = ofAscii "m" then
        if value = ofAscii "0" then
          .ok { command with more := false, moreSpecified := true }
        else if value = ofAscii "1" then
          .ok { command with more := true, moreSpecified := true }
        else
          .error (.invalid "m= must be 0 or 1")
      else if key = ofAscii "q" then do
        let quiet ← parseU32 value
        reject (quiet > 2) (.invalid "q= must be 0, 1 or 2")
        return { command with quiet, quietSpecified := true }
      else
        applyControl { command with metadata := true } key value

def parseCommand (payload : Bytes) (caps : Caps) : Except Error Command :=
  match payload with
  | 0x47 :: rest => do
    let (control, body) := (splitOnce 0x3b rest).getD (rest, [])
    reject (control.length > caps.maxControlBytes) .tooLarge
    reject (!Utf8.isValidUtf8 control) (.invalid "control data is not UTF-8")
    reject (!Utf8.isValidUtf8 body) (.invalid "image data is not UTF-8")
    let initial : Command :=
      { action := .transmit, format := .rgba8, transport := .direct
        id := none, number := none, placement := none
        width := none, height := none
        more := false, quiet := 0, payloadB64 := body, control
        moreSpecified := false, quietSpecified := false, metadata := false }
    let command ← (control.splitOn 0x2c).foldlM applyPair initial
    reject (command.id.isSome && command.number.isSome)
      (.invalid "i= and I= are mutually exclusive")
    return command
  | _ => .error (.invalid "payload is not a graphics command")

structure RawLayout where
  width : Nat
  height : Nat
  pixels : Nat
  sourceBytes : Nat
  rgbaBytes : Nat
  rgbaStride : Nat
deriving DecidableEq

/-- A checked product, or `Error::TooLarge` on overflow. -/
def checkedSize (first second : Nat) : Except Error Nat := okOr .tooLarge (checkedMul first second)

def rawLayout (width height : Nat) (format : Format) (caps : Caps) : Except Error RawLayout := do
  reject (width = 0 ∨ height = 0) (.invalid "image dimensions must be non-zero")
  reject (width > caps.maxDimension ∨ height > caps.maxDimension) .tooLarge
  let pixels ← checkedSize width height
  let sourceBytes ← checkedSize pixels format.sourceChannels
  let rgbaBytes ← checkedSize pixels 4
  let rgbaStride ← checkedSize width 4
  reject (sourceBytes > caps.maxDecodedBytes ∨ rgbaBytes > caps.maxDecodedBytes) .tooLarge
  return { width, height, pixels, sourceBytes, rgbaBytes, rgbaStride }

/-- The first four bytes, big endian. -/
def readBeU32 (bytes : Bytes) : Nat :=
  (bytes.take 4).foldl (fun value byte => value * 256 + byte.toNat) 0

/-- The signature every PNG file starts with. -/
def pngSignature : Bytes := [0x89, 0x50, 0x4e, 0x47, 0x0d, 0x0a, 0x1a, 0x0a]

def pngDimensions (bytes : Bytes) (caps : Caps) : Except Error (Nat × Nat) := do
  reject (bytes.length < 24) (.invalid "PNG header is truncated")
  reject (bytes.take 8 ≠ pngSignature) (.invalid "payload is not a PNG")
  reject (readBeU32 (bytes.drop 8) ≠ 13 ∨ (bytes.drop 12).take 4 ≠ ofAscii "IHDR")
    (.invalid "PNG does not start with an IHDR chunk")
  let layout ← rawLayout (readBeU32 (bytes.drop 16)) (readBeU32 (bytes.drop 20)) .png caps
  return (layout.width, layout.height)

def base64Index (byte : UInt8) : Option Nat :=
  if 0x41 ≤ byte && byte ≤ 0x5a then some (byte.toNat - 0x41)
  else if 0x61 ≤ byte && byte ≤ 0x7a then some (byte.toNat - 0x61 + 26)
  else if 0x30 ≤ byte && byte ≤ 0x39 then some (byte.toNat - 0x30 + 52)
  else if byte = 0x2b then some 62
  else if byte = 0x2f then some 63
  else none

/-- The validation pass of `decode_base64`: the number of significant
characters, given how many were seen and whether padding was. -/
def countSignificant (significant : Nat) (padded : Bool) : Bytes → Except Error Nat
  | [] => .ok significant
  | byte :: rest =>
    if isAsciiWhitespace byte then
      countSignificant significant padded rest
    else if byte = 0x3d then
      countSignificant significant true rest
    else if padded then
      .error (.invalid "base64 padding is not at the end")
    else if (base64Index byte).isNone then
      .error (.invalid "base64 alphabet")
    else
      countSignificant (significant + 1) padded rest

def decodedLength (significant : Nat) : Nat := significant / 4 * 3 + (significant % 4 - 1)

/-- The bit accumulator of the second pass of `decode_base64`. -/
structure BitBuffer where
  buffer : Nat
  bits : Nat
  out : Bytes

/-- One byte of the second pass: bytes outside the alphabet are skipped. -/
def BitBuffer.push (state : BitBuffer) (byte : UInt8) : BitBuffer :=
  match base64Index byte with
  | none => state
  | some value =>
    let buffer := (state.buffer <<< 6) ||| value
    let bits := state.bits + 6
    if bits ≥ 8 then
      { buffer := buffer % 2 ^ (bits - 8)
        bits := bits - 8
        out := state.out ++ [UInt8.ofNat (buffer >>> (bits - 8))] }
    else
      { state with buffer, bits }

def decodeBase64 (reserve : Nat → Bool) (input : Bytes) (maxDecoded : Nat) :
    Except Error Bytes := do
  let significant ← countSignificant 0 false input
  reject (significant % 4 = 1) (.invalid "base64 length")
  reject (decodedLength significant > maxDecoded) .tooLarge
  reject (!reserve (decodedLength significant)) .tooLarge
  return (input.foldl BitBuffer.push ⟨0, 0, []⟩).out

end JtermCore.KittyGraphics
