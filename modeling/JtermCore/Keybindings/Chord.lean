import JtermCore.Search.Query

/-!
# Keyboard chords

A chord is a set of modifiers and one key.  `parse` reads it from a text whose
tokens stand between plus signs, in any order and under any of their names;
`display` and `canonical` write it in one order under one name.
-/

namespace JtermCore.Keybindings

open ExecutionJournal Utf8
open Search (named toAsciiLowercase)

def maxChordInputBytes : Nat := 256

/-- The library functions that the chords rest on. -/
class KeyLibraries extends Libraries where
  lowercaseChar : Char → List Char
  uppercaseChar : Char → List Char
  isCased : Char → Bool
  isCaseIgnorable : Char → Bool
  lowercaseChar_idem : ∀ {char low : Char}, lowercaseChar char = [low] → lowercaseChar low = [low]
  lowercaseChar_ascii : ∀ {char : Char}, char.toNat < 0x80 →
    lowercaseChar char = [toAsciiLowercase char]
  lowercaseChar_sigma : lowercaseChar 'Σ' = ['σ']
  lowercaseChar_visible : ∀ {char low : Char}, lowercaseChar char = [low] →
    isWhitespace char = false → isControl char = false → isUnsafeInvisibleChar char = false →
    isWhitespace low = false ∧ isControl low = false ∧ isUnsafeInvisibleChar low = false
  /-- What is printed stays so in uppercase. -/
  uppercaseChar_visible : ∀ {char high : Char}, uppercaseChar char = [high] →
    isWhitespace char = false → isControl char = false → isUnsafeInvisibleChar char = false →
    isWhitespace high = false ∧ isControl high = false ∧ isUnsafeInvisibleChar high = false
  visible_ascii : ∀ char : Char, 0x20 ≤ char.toNat → char.toNat < 0x7f →
    isUnsafeInvisibleChar char = false

structure Mods where
  ctrl : Bool := false
  shift : Bool := false
  alt : Bool := false
  sup : Bool := false
deriving DecidableEq

inductive NamedKey where
  | tab
  | escape
  | return
  | space
  | backspace
  | delete
  | home
  | endKey
  | insert
  | pageUp
  | pageDown
  | up
  | down
  | left
  | right
deriving DecidableEq

def NamedKey.displayName : NamedKey → String
  | .tab => "Tab"
  | .escape => "Escape"
  | .return => "Enter"
  | .space => "Space"
  | .backspace => "Backspace"
  | .delete => "Delete"
  | .home => "Home"
  | .endKey => "End"
  | .insert => "Insert"
  | .pageUp => "PageUp"
  | .pageDown => "PageDown"
  | .up => "Up"
  | .down => "Down"
  | .left => "Left"
  | .right => "Right"

def NamedKey.canonicalName : NamedKey → String
  | .tab => "tab"
  | .escape => "escape"
  | .return => "return"
  | .space => "space"
  | .backspace => "backspace"
  | .delete => "delete"
  | .home => "home"
  | .endKey => "end"
  | .insert => "insert"
  | .pageUp => "pageup"
  | .pageDown => "pagedown"
  | .up => "up"
  | .down => "down"
  | .left => "left"
  | .right => "right"

inductive KeySym where
  | char (char : Char)
  | named (key : NamedKey)
  | function (number : Nat)
deriving DecidableEq

structure Chord where
  mods : Mods
  key : KeySym
deriving DecidableEq

inductive ParseError where
  | empty
  | duplicateModifier (token : List Char)
  | unknownModifier (token : List Char)
  | unknownKey (token : List Char)
  | missingKey
deriving DecidableEq

section

variable [KeyLibraries]

def caseIgnorableThenCased (text : List Char) : Bool :=
  match text.dropWhile KeyLibraries.isCaseIgnorable with
  | [] => false
  | char :: _ => KeyLibraries.isCased char

/-- The loop of `str::to_lowercase`; a capital sigma has two small letters, one
of them for the end of a word. -/
def lowercaseLoop (before : List Char) : List Char → List Char
  | [] => []
  | char :: rest =>
    (if char = 'Σ' then
      if caseIgnorableThenCased before && !caseIgnorableThenCased rest then ['ς'] else ['σ']
    else KeyLibraries.lowercaseChar char) ++ lowercaseLoop (char :: before) rest

def lowercase (text : List Char) : List Char := lowercaseLoop [] text

def pushMods (out : List Char) (mods : Mods) (names : List String) : List Char :=
  ([mods.ctrl, mods.shift, mods.alt, mods.sup].zip names).foldl
    (fun out entry => if entry.1 then out ++ entry.2.toList else out) out

def pushDisplayChar (out : List Char) (char : Char) : List Char :=
  match KeyLibraries.uppercaseChar char with
  | [high] => if KeyLibraries.lowercaseChar high = [char] then out ++ [high] else out ++ [char]
  | _ => out ++ [char]

def Chord.display (chord : Chord) : List Char :=
  let out := pushMods [] chord.mods ["Ctrl+", "Shift+", "Alt+", "Super+"]
  match chord.key with
  | .named key => out ++ key.displayName.toList
  | .function number => out ++ 'F' :: Nat.toDigits 10 number
  | .char char => pushDisplayChar out char

def Chord.canonical (chord : Chord) : List Char :=
  let out := pushMods [] chord.mods ["ctrl+", "shift+", "alt+", "super+"]
  match chord.key with
  | .named key => out ++ key.canonicalName.toList
  | .function number => out ++ 'f' :: Nat.toDigits 10 number
  | .char char => if char = '\\' then out ++ "backslash".toList else out ++ [char]

inductive Modifier where
  | ctrl
  | shift
  | alt
  | sup
deriving DecidableEq

def Mods.get (mods : Mods) : Modifier → Bool
  | .ctrl => mods.ctrl
  | .shift => mods.shift
  | .alt => mods.alt
  | .sup => mods.sup

def Mods.set (mods : Mods) : Modifier → Mods
  | .ctrl => { mods with ctrl := true }
  | .shift => { mods with shift := true }
  | .alt => { mods with alt := true }
  | .sup => { mods with sup := true }

def isModifierName (lower : List Char) : Bool :=
  ["ctrl", "control", "shift", "alt", "option", "super", "cmd", "command", "win", "meta"].any
    fun name => name.toList = lower

def modifierNames : List (String × Modifier) :=
  [("ctrl", .ctrl), ("control", .ctrl), ("shift", .shift), ("alt", .alt), ("option", .alt),
    ("super", .sup), ("cmd", .sup), ("command", .sup), ("win", .sup), ("meta", .sup)]

def applyModifier (mods : Mods) (token : List Char) : Except ParseError Mods :=
  match named modifierNames (lowercase token) with
  | none => .error (.unknownModifier token)
  | some slot => if mods.get slot then .error (.duplicateModifier token) else .ok (mods.set slot)

def keyNames : List (String × KeySym) :=
  [("tab", .named .tab), ("esc", .named .escape), ("escape", .named .escape),
    ("return", .named .return), ("enter", .named .return), ("space", .named .space),
    ("backspace", .named .backspace), ("delete", .named .delete), ("del", .named .delete),
    ("home", .named .home), ("end", .named .endKey), ("insert", .named .insert),
    ("ins", .named .insert), ("pageup", .named .pageUp), ("page_up", .named .pageUp),
    ("prior", .named .pageUp), ("pagedown", .named .pageDown), ("page_down", .named .pageDown),
    ("next", .named .pageDown), ("up", .named .up), ("arrowup", .named .up),
    ("down", .named .down), ("arrowdown", .named .down), ("left", .named .left),
    ("arrowleft", .named .left), ("right", .named .right), ("arrowright", .named .right),
    ("plus", .char '+'), ("+", .char '+'), ("equal", .char '='), ("equals", .char '='),
    ("=", .char '='), ("minus", .char '-'), ("-", .char '-'), ("backslash", .char '\\'),
    ("\\", .char '\\'), ("exclam", .char '!'), ("!", .char '!'), ("comma", .char ','),
    (",", .char ','), ("period", .char '.'), (".", .char '.'), ("slash", .char '/'),
    ("/", .char '/'), ("semicolon", .char ';'), (";", .char ';'), ("apostrophe", .char '\''),
    ("'", .char '\''), ("bracketleft", .char '['), ("[", .char '['), ("bracketright", .char ']'),
    ("]", .char ']'), ("grave", .char '`'), ("`", .char '`')]

/-- `u8::is_ascii_digit` on characters. -/
def isDigit (char : Char) : Bool := '0' ≤ char && char ≤ '9'

def digitsValue (digits : List Char) : Nat :=
  digits.foldl (fun value digit => 10 * value + (digit.toNat - 0x30)) 0

/-- The number of a function key as it is written. -/
def functionDigits : List Char → Option (List Char)
  | 'f' :: digits => if !digits.isEmpty && digits.all isDigit then some digits else none
  | _ => none

def parseFallbackKey (token lower : List Char) : Except ParseError KeySym :=
  match functionDigits lower with
  | some digits =>
    -- A number beyond `u8` is refused as one beyond 24 is.
    if 1 ≤ digitsValue digits ∧ digitsValue digits ≤ 24 then .ok (.function (digitsValue digits))
    else .error (.unknownKey token)
  | none =>
    match token with
    | [char] =>
      match KeyLibraries.lowercaseChar char with
      | [low] => .ok (.char low)
      | _ => .error (.unknownKey token)
    | _ => .error (.unknownKey token)

def parseKeyToken (token : List Char) : Except ParseError KeySym :=
  let lower := lowercase token
  if isModifierName lower then .error .missingKey
  else
    match named keyNames lower with
    | some sym => .ok sym
    | none => parseFallbackKey token lower

/-- The modifiers and the key of a text, which `parse` tells apart at once. -/
def splitChord (trimmed : List Char) : Except ParseError (List (List Char) × List Char) :=
  let parts := (trimmed.splitOn '+').map trimChars
  if trimmed = ['+'] then .ok ([], ['+'])
  else if ['+', '+'].isSuffixOf trimmed ∧ 3 ≤ parts.length then
    .ok (parts.take (parts.length - 2), ['+'])
  else
    match parts.getLast? with
    | none => .error .missingKey
    | some last => if last = [] then .error .missingKey else .ok (parts.dropLast, last)

def byteLength (text : List Char) : Nat := (text.map Char.utf8Size).sum

def parse (text : List Char) : Except ParseError Chord :=
  if maxChordInputBytes < byteLength text then
    .error (.unknownKey "<overlong chord>".toList)
  else if text.any isControl || text.any Libraries.isUnsafeInvisibleChar then
    .error (.unknownKey "<unsafe chord>".toList)
  else
    let trimmed := trimChars text
    if trimmed = [] then .error .empty
    else do
      let (modParts, keyToken) ← splitChord trimmed
      let mods ← modParts.foldlM applyModifier {}
      let key ← parseKeyToken keyToken
      return ⟨mods, key⟩

end

end JtermCore.Keybindings
