import Mathlib.Algebra.Order.Ring.Int

/-!
# Byte strings

The program works on byte slices and on UTF-8 text.  Both are modelled by
lists of bytes; this file collects the ASCII classes, the splitting functions
and the number parser of the standard library that the parsers call.
-/

namespace JtermCore

/-- A byte slice, or the UTF-8 encoding of a string slice. -/
abbrev Bytes := List UInt8

-- One instance each, under which every module decides membership.
instance lawfulBytes : LawfulBEq Bytes := inferInstance

instance lawfulChars : LawfulBEq (List Char) := inferInstance

namespace Bytes

/-- Space, tab, line feed, form feed, carriage return. -/
def isAsciiWhitespace (byte : UInt8) : Bool :=
  byte = 0x20 || byte = 0x09 || byte = 0x0a || byte = 0x0c || byte = 0x0d

def isAsciiDigit (byte : UInt8) : Bool := 0x30 ≤ byte && byte ≤ 0x39

def digitValue (byte : UInt8) : Nat := byte.toNat - 0x30

/-- `str::split_once` on an ASCII separator: the text before and after its
first occurrence. -/
def splitOnce (separator : UInt8) : Bytes → Option (Bytes × Bytes)
  | [] => none
  | byte :: rest =>
    if byte = separator then
      some ([], rest)
    else
      (splitOnce separator rest).map fun parts => (byte :: parts.1, parts.2)

def ofAscii (text : String) : Bytes := text.toList.map fun char => UInt8.ofNat char.toNat

def decimalValue (digits : Bytes) : Nat :=
  digits.foldl (fun value digit => value * 10 + digitValue digit) 0

/-- `str::parse` at an unsigned type whose largest value is `limit`: an
optional `+`, then at least one digit, and no overflow. -/
def parseUnsigned (limit : Nat) (text : Bytes) : Option Nat :=
  let digits :=
    match text with
    | 0x2b :: rest => rest
    | _ => text
  if digits.isEmpty || !digits.all isAsciiDigit || limit < decimalValue digits then
    none
  else
    some (decimalValue digits)

/-- `str::parse` at a signed type of the given width: an optional sign, then at
least one digit, and no overflow. -/
def parseSigned (bits : Nat) (text : Bytes) : Option Int :=
  let (negative, digits) :=
    match text with
    | 0x2d :: rest => (true, rest)
    | 0x2b :: rest => (false, rest)
    | _ => (false, text)
  let value : Int := if negative then -(decimalValue digits : Int) else decimalValue digits
  if digits.isEmpty || !digits.all isAsciiDigit ||
      !(-(2 ^ (bits - 1)) ≤ value && value < 2 ^ (bits - 1)) then
    none
  else
    some value

/-- `to_string` of an unsigned integer. -/
def decimalText (value : Nat) : Bytes :=
  (Nat.toDigits 10 value).map fun char => UInt8.ofNat char.toNat

def stripPrefix (head text : Bytes) : Option Bytes :=
  if head.isPrefixOf text then some (text.drop head.length) else none

def toAsciiLowercase (byte : UInt8) : UInt8 :=
  if 0x41 ≤ byte && byte ≤ 0x5a then byte + 0x20 else byte

def hexValue (byte : UInt8) : Option Nat :=
  if isAsciiDigit byte then some (byte.toNat - 0x30)
  else if 0x41 ≤ byte && byte ≤ 0x46 then some (byte.toNat - 0x41 + 10)
  else if 0x61 ≤ byte && byte ≤ 0x66 then some (byte.toNat - 0x61 + 10)
  else none

end Bytes

def usizeValues : Nat := 2 ^ 64

def checkedMul (first second : Nat) : Option Nat :=
  if first * second < usizeValues then some (first * second) else none

def checkedAdd (first second : Nat) : Option Nat :=
  if first + second < usizeValues then some (first + second) else none

def saturatingAdd (first second : Nat) : Nat := min (first + second) (usizeValues - 1)

def u32Max : Nat := 2 ^ 32 - 1

def u64Max : Nat := 2 ^ 64 - 1

end JtermCore

/-!
# Decimal texts

The digits of an unsigned integer, from the last one to the first, and what they
read back as.
-/

namespace JtermCore

namespace Bytes

theorem digitByte {digit : Nat} (small : digit < 10) :
    isAsciiDigit (UInt8.ofNat digit.digitChar.toNat) = true ∧
      digitValue (UInt8.ofNat digit.digitChar.toNat) = digit := by
  have cases : ∀ digit < 10, isAsciiDigit (UInt8.ofNat (Nat.digitChar digit).toNat) = true ∧
      digitValue (UInt8.ofNat (Nat.digitChar digit).toNat) = digit := by decide
  exact cases digit small

theorem decimalText_ne_nil (value : Nat) : decimalText value ≠ [] := by
  rw [decimalText, Ne, List.map_eq_nil_iff]
  exact Nat.toDigits_ne_nil

theorem decimalText_of_lt {value : Nat} (small : value < 10) :
    decimalText value = [UInt8.ofNat value.digitChar.toNat] := by
  rw [decimalText, Nat.toDigits_of_lt_base small]
  rfl

theorem decimalText_of_le {value : Nat} (large : 10 ≤ value) :
    decimalText value = decimalText (value / 10) ++ [UInt8.ofNat (value % 10).digitChar.toNat] := by
  rw [decimalText, Nat.toDigits_of_base_le (by omega) large, List.map_append]
  rfl

theorem all_isAsciiDigit_decimalText (value : Nat) :
    (decimalText value).all isAsciiDigit = true := by
  induction value using Nat.strongRecOn with
  | ind value ih =>
    rcases Nat.lt_or_ge value 10 with small | large
    · simp [decimalText_of_lt small, digitByte small]
    · rw [decimalText_of_le large, List.all_append, ih (value / 10) (by omega)]
      simp [digitByte (Nat.mod_lt value (by omega))]

theorem decimalValue_append_singleton (digits : Bytes) (digit : UInt8) :
    decimalValue (digits ++ [digit]) = decimalValue digits * 10 + digitValue digit := by
  simp [decimalValue]

theorem decimalValue_decimalText (value : Nat) : decimalValue (decimalText value) = value := by
  induction value using Nat.strongRecOn with
  | ind value ih =>
    rcases Nat.lt_or_ge value 10 with small | large
    · rw [decimalText_of_lt small]
      simp [decimalValue, digitByte small]
    · rw [decimalText_of_le large, decimalValue_append_singleton, ih (value / 10) (by omega),
        (digitByte (Nat.mod_lt value (by omega))).2]
      omega

end Bytes

end JtermCore
