import JtermCore.ScreenReplay.Parser

/-!
# Character attributes

The pen: what SGR selects and every printed cell carries, and the SGR sequence
that changes one style into another.  The hyperlink of a pen is a parameter, an
index into the link table or the link itself.
-/

namespace JtermCore.ScreenReplay

open Bytes

/-- `Color`; channels and palette entries are `u8` values. -/
inductive Color where
  | default
  | legacy (index : Nat)
  | indexed (index : Nat)
  | rgb (red green blue : Nat)
deriving DecidableEq

/-- The flag bits of a pen, the underline style among them. -/
structure Flags where
  bold : Bool
  dim : Bool
  italic : Bool
  blink : Bool
  reverse : Bool
  invisible : Bool
  strike : Bool
  overline : Bool
  underline : Nat
deriving DecidableEq

def Flags.none : Flags where
  bold := false
  dim := false
  italic := false
  blink := false
  reverse := false
  invisible := false
  strike := false
  overline := false
  underline := 0

/-- `Pen` without its hyperlink. -/
structure Style where
  fg : Color
  bg : Color
  ul : Color
  flags : Flags
deriving DecidableEq

def Style.plain : Style where
  fg := .default
  bg := .default
  ul := .default
  flags := .none

structure Pen (ℓ : Type) extends Style where
  link : ℓ
deriving DecidableEq

namespace Style

def blankIsVisible (style : Style) : Bool :=
  style.bg ≠ .default || style.flags.reverse || style.flags.strike || style.flags.overline ||
    style.flags.underline ≠ 0

def isPlain (style : Style) : Bool := style = .plain

def withFlags (style : Style) (change : Flags → Flags) : Style :=
  { style with flags := change style.flags }

def setUnderline (style : Style) (underline : Nat) : Style :=
  style.withFlags fun flags => { flags with underline := underline % 8 }

/-- The attributes an erase leaves behind. -/
def erase (style : Style) : Style := { Style.plain with bg := style.bg }

end Style

def toU8 (value : Int) : Option Nat :=
  if 0 ≤ value ∧ value ≤ 255 then some value.toNat else none

def rgb (red green blue : Int) : Option Color := do
  return .rgb (← toU8 red) (← toU8 green) (← toU8 blue)

def parseColonColor (params : Params) (idx : Nat) : Option Color × Nat :=
  let groupEnd := params.next idx
  let idx := idx + 1
  if params.raw idx = 2 then
    let n := groupEnd - idx
    if n < 4 then (none, idx)
    else if n > 4 then
      -- A color space, which must be omitted.
      let idx := idx + 1
      if params.raw idx ≠ -1 then (none, idx)
      else (rgb (params.raw (idx + 1)) (params.raw (idx + 2)) (params.raw (idx + 3)), idx + 3)
    else (rgb (params.raw (idx + 1)) (params.raw (idx + 2)) (params.raw (idx + 3)), idx + 3)
  else if params.raw idx = 5 then
    if groupEnd - idx < 2 then (none, idx)
    else ((toU8 (params.raw (idx + 1))).map .indexed, idx + 1)
  else (none, idx)

def parseSemicolonColor (params : Params) (idx : Nat) : Option Color × Nat :=
  let idx := params.next idx
  if params.raw idx = 2 then
    let red := params.next idx
    let green := params.next red
    let blue := params.next green
    (rgb (params.raw red) (params.raw green) (params.raw blue), blue)
  else if params.raw idx = 5 then
    let idx := params.next idx
    ((toU8 (params.raw idx)).map .indexed, idx)
  else (none, idx)

def parseColor (params : Params) (idx : Nat) : Option Color × Nat :=
  if params.isNonfinal idx then parseColonColor params idx else parseSemicolonColor params idx

def underlineParam (params : Params) (idx : Nat) : Option Nat :=
  if params.isNonfinal idx then
    let style := params.get (idx + 1) 1
    if 0 ≤ style ∧ style ≤ 5 then some style.toNat else none
  else some 1

/-- One SGR parameter: the style and the last consumed parameter. -/
def applySgrParam (style : Style) (params : Params) (idx : Nat) : Style × Nat :=
  let code := params.raw idx
  if code = -1 ∨ code = 0 then (.plain, idx)
  else if code = 1 then (style.withFlags fun flags => { flags with bold := true }, idx)
  else if code = 2 then (style.withFlags fun flags => { flags with dim := true }, idx)
  else if code = 3 then (style.withFlags fun flags => { flags with italic := true }, idx)
  else if code = 4 then ((underlineParam params idx).elim style style.setUnderline, idx)
  else if code = 5 ∨ code = 6 then
    (style.withFlags fun flags => { flags with blink := true }, idx)
  else if code = 7 then (style.withFlags fun flags => { flags with reverse := true }, idx)
  else if code = 8 then (style.withFlags fun flags => { flags with invisible := true }, idx)
  else if code = 9 then (style.withFlags fun flags => { flags with strike := true }, idx)
  else if code = 21 then (style.setUnderline 2, idx)
  else if code = 22 then
    (style.withFlags fun flags => { flags with bold := false, dim := false }, idx)
  else if code = 23 then (style.withFlags fun flags => { flags with italic := false }, idx)
  else if code = 24 then (style.setUnderline 0, idx)
  else if code = 25 then (style.withFlags fun flags => { flags with blink := false }, idx)
  else if code = 27 then (style.withFlags fun flags => { flags with reverse := false }, idx)
  else if code = 28 then (style.withFlags fun flags => { flags with invisible := false }, idx)
  else if code = 29 then (style.withFlags fun flags => { flags with strike := false }, idx)
  else if 30 ≤ code ∧ code ≤ 37 then ({ style with fg := .legacy (code - 30).toNat }, idx)
  else if code = 38 then
    let (color, idx) := parseColor params idx
    (color.elim style fun color => { style with fg := color }, idx)
  else if code = 39 then ({ style with fg := .default }, idx)
  else if 40 ≤ code ∧ code ≤ 47 then ({ style with bg := .legacy (code - 40).toNat }, idx)
  else if code = 48 then
    let (color, idx) := parseColor params idx
    (color.elim style fun color => { style with bg := color }, idx)
  else if code = 49 then ({ style with bg := .default }, idx)
  else if code = 53 then (style.withFlags fun flags => { flags with overline := true }, idx)
  else if code = 55 then (style.withFlags fun flags => { flags with overline := false }, idx)
  else if code = 58 then
    let (color, idx) := parseColor params idx
    (color.elim style fun color => { style with ul := color }, idx)
  else if code = 59 then ({ style with ul := .default }, idx)
  else if 90 ≤ code ∧ code ≤ 97 then ({ style with fg := .legacy (code - 90 + 8).toNat }, idx)
  else if 100 ≤ code ∧ code ≤ 107 then
    ({ style with bg := .legacy (code - 100 + 8).toNat }, idx)
  else (style, idx)

def applySgrLoop (params : Params) : Nat → Style → Nat → Style
  | 0, style, _ => style
  | fuel + 1, style, idx =>
    if idx < params.len then
      let (style, last) := applySgrParam style params idx
      applySgrLoop params fuel style (params.next last)
    else style

/-- `apply_sgr`, which leaves the hyperlink alone. -/
def applySgr (style : Style) (params : Params) : Style :=
  if params.len = 0 then .plain else applySgrLoop params params.len style 0

def pushCode (buf code : Bytes) : Bytes :=
  if buf.isEmpty then code else buf ++ [0x3b] ++ code

def pushCodes (buf : Bytes) (codes : List Bytes) : Bytes := codes.foldl pushCode buf

def colorCode (color : Color) (base : Nat) : Bytes :=
  match color with
  | .default => decimalText (base + 9)
  | .legacy n =>
    if n < 8 ∧ base ≠ 50 then decimalText (base + n)
    else if n < 16 ∧ base ≠ 50 then decimalText (base + 60 + n - 8)
    else decimalText (base + 8) ++ ofAscii ";5;" ++ decimalText n
  | .indexed n => decimalText (base + 8) ++ ofAscii ";5;" ++ decimalText n
  | .rgb r g b =>
    decimalText (base + 8) ++ ofAscii ";2;" ++ decimalText r ++ ofAscii ";" ++
      decimalText g ++ ofAscii ";" ++ decimalText b

def underlineCode (style : Nat) : Bytes :=
  if style = 0 then ofAscii "24"
  else if style = 1 then ofAscii "4"
  else ofAscii "4:" ++ decimalText style

structure FlagCode where
  flag : Flags → Bool
  on : String
  off : String
  isIntensity : Bool

def flagCodes : List FlagCode :=
  [⟨Flags.bold, "1", "22", true⟩, ⟨Flags.dim, "2", "22", true⟩,
    ⟨Flags.italic, "3", "23", false⟩, ⟨Flags.blink, "5", "25", false⟩,
    ⟨Flags.reverse, "7", "27", false⟩, ⟨Flags.invisible, "8", "28", false⟩,
    ⟨Flags.strike, "9", "29", false⟩, ⟨Flags.overline, "53", "55", false⟩]

def codeIf (condition : Bool) (code : Bytes) : List Bytes :=
  if condition then [code] else []

def absoluteCodes (style : Style) : List Bytes :=
  [ofAscii "0"] ++
    flagCodes.flatMap (fun code => codeIf (code.flag style.flags) (ofAscii code.on)) ++
    codeIf (style.flags.underline ≠ 0) (underlineCode style.flags.underline) ++
    codeIf (style.fg ≠ .default) (colorCode style.fg 30) ++
    codeIf (style.bg ≠ .default) (colorCode style.bg 40) ++
    codeIf (style.ul ≠ .default) (colorCode style.ul 50)

def intensityCodes (first second : Flags) : List Bytes :=
  if (first.bold && !second.bold) || (first.dim && !second.dim) then
    ofAscii "22" :: (codeIf second.bold (ofAscii "1") ++ codeIf second.dim (ofAscii "2"))
  else
    codeIf (second.bold && !first.bold) (ofAscii "1") ++
      codeIf (second.dim && !first.dim) (ofAscii "2")

def relativeCodes (first second : Style) : List Bytes :=
  intensityCodes first.flags second.flags ++ flagCodes.flatMap (fun code =>
      codeIf (!code.isIntensity && code.flag first.flags ≠ code.flag second.flags)
        (ofAscii (if code.flag second.flags then code.on else code.off))) ++
    codeIf (first.flags.underline ≠ second.flags.underline)
      (underlineCode second.flags.underline) ++
    codeIf (first.fg ≠ second.fg) (colorCode second.fg 30) ++
    codeIf (first.bg ≠ second.bg) (colorCode second.bg 40) ++
    codeIf (first.ul ≠ second.ul) (colorCode second.ul 50)

/-- `write_sgr_transition`: the shorter of both forms. -/
def sgrTransition (first second : Style) : Bytes :=
  if first = second then []
  else if second.isPlain then ofAscii "\x1b[0m"
  else
    let relative := pushCodes [] (relativeCodes first second)
    let absolute := pushCodes [] (absoluteCodes second)
    ofAscii "\x1b[" ++ (if relative.length ≤ absolute.length then relative else absolute) ++
      ofAscii "m"

end JtermCore.ScreenReplay
