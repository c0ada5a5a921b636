import JtermCore.Bytes
import Mathlib.Data.List.TakeWhile

/-!
# UTF-8

Well-formed UTF-8 in the sense of the Unicode standard: no overlong form, no
surrogate and nothing beyond U+10FFFF.  `decodeUtf8` is the decoder behind
`str::from_utf8`.
-/

namespace JtermCore

namespace Utf8

def isContinuation (byte : UInt8) : Bool := 0x80 ≤ byte && byte ≤ 0xbf

/-- The continuation bytes allowed right after the lead byte of a three or
four byte form. -/
def validFirstContinuation (lead continuation : UInt8) : Bool :=
  if lead = 0xe0 then 0xa0 ≤ continuation && continuation ≤ 0xbf
  else if lead = 0xed then 0x80 ≤ continuation && continuation ≤ 0x9f
  else if lead = 0xf0 then 0x90 ≤ continuation && continuation ≤ 0xbf
  else if lead = 0xf4 then 0x80 ≤ continuation && continuation ≤ 0x8f
  else if (0xe1 ≤ lead && lead ≤ 0xec) || (0xee ≤ lead && lead ≤ 0xef) ||
      (0xf1 ≤ lead && lead ≤ 0xf3) then
    isContinuation continuation
  else false

/-- The six payload bits of a continuation byte. -/
def payload (byte : UInt8) : Nat := byte.toNat % 64

/-- `str::from_utf8`: the scalar values of a well-formed byte string. -/
def decodeUtf8 : Bytes → Option (List Char)
  | [] => some []
  | first :: afterFirst =>
    if first ≤ 0x7f then
      (decodeUtf8 afterFirst).map (Char.ofNat first.toNat :: ·)
    else
      match afterFirst with
      | [] => none
      | second :: afterSecond =>
        if 0xc2 ≤ first && first ≤ 0xdf then
          if isContinuation second then
            (decodeUtf8 afterSecond).map (Char.ofNat (first.toNat % 32 * 64 + payload second) :: ·)
          else none
        else if !validFirstContinuation first second then none
        else
          match afterSecond with
          | [] => none
          | third :: afterThird =>
            if !isContinuation third then none
            else if first ≤ 0xef then
              (decodeUtf8 afterThird).map
                (Char.ofNat ((first.toNat % 16 * 64 + payload second) * 64 + payload third) :: ·)
            else
              match afterThird with
              | [] => none
              | fourth :: afterFourth =>
                if isContinuation fourth then
                  (decodeUtf8 afterFourth).map
                    (Char.ofNat (((first.toNat % 8 * 64 + payload second) * 64 +
                      payload third) * 64 + payload fourth) :: ·)
                else none

def isValidUtf8 (bytes : Bytes) : Bool := (decodeUtf8 bytes).isSome

def chars (text : Bytes) : List Char := (decodeUtf8 text).getD []

def encodeUtf8 (chars : List Char) : Bytes := chars.flatMap String.utf8EncodeChar

def isWhitespace (char : Char) : Bool :=
  (0x09 ≤ char.toNat && char.toNat ≤ 0x0d) || char.toNat = 0x20 || char.toNat = 0x85 ||
    char.toNat = 0xa0 || char.toNat = 0x1680 ||
    (0x2000 ≤ char.toNat && char.toNat ≤ 0x200a) || char.toNat = 0x2028 ||
    char.toNat = 0x2029 || char.toNat = 0x202f || char.toNat = 0x205f || char.toNat = 0x3000

/-- `str::trim` on characters. -/
def trimChars (chars : List Char) : List Char :=
  ((chars.dropWhile isWhitespace).reverse.dropWhile isWhitespace).reverse

def trim (text : Bytes) : Bytes := encodeUtf8 (trimChars (chars text))

def trimEnd (text : Bytes) : Bytes :=
  encodeUtf8 ((chars text).reverse.dropWhile isWhitespace).reverse

end Utf8

end JtermCore

/-!
# Trimmed texts

`str::trim` drops the whitespace at both ends of a text, and leaves a text alone
that neither begins nor ends with some.
-/

namespace JtermCore

namespace Utf8

variable {text : List Char}

section

variable (first : ∀ char, text.head? = some char → isWhitespace char = false)

include first

theorem dropWhile_eq_self : text.dropWhile isWhitespace = text := by
  cases text with
  | nil => rfl
  | cons char text => rw [List.dropWhile_cons_of_neg (by rw [first char rfl]; decide)]

theorem trimChars_eq_self (last : ∀ char, text.getLast? = some char → isWhitespace char = false) :
    trimChars text = text := by
  have behind : ∀ char, text.reverse.head? = some char → isWhitespace char = false := by
    intro char same
    exact last char (by rwa [List.head?_reverse] at same)
  rw [trimChars, dropWhile_eq_self first, dropWhile_eq_self behind, List.reverse_reverse]

end

theorem head?_dropWhile (text : List Char) :
    ∀ char, (text.dropWhile isWhitespace).head? = some char → isWhitespace char = false := by
  intro char same
  have shown := List.head?_dropWhile_not isWhitespace text
  rw [same] at shown
  exact shown

theorem head?_trimChars (text : List Char) :
    ∀ char, (trimChars text).head? = some char → isWhitespace char = false := by
  intro char same
  have front : trimChars text <+: text.dropWhile isWhitespace := by
    rw [trimChars, ← List.reverse_suffix, List.reverse_reverse]
    exact List.dropWhile_suffix _
  obtain ⟨rest, whole⟩ := front
  refine head?_dropWhile text char ?_
  rw [← whole, List.head?_append, same, Option.some_or]

theorem getLast?_trimChars (text : List Char) :
    ∀ char, (trimChars text).getLast? = some char → isWhitespace char = false := by
  intro char same
  rw [trimChars, List.getLast?_reverse] at same
  exact head?_dropWhile _ char same

theorem dropWhile_append_of_blank {front rest : List Char}
    (blank : ∀ char ∈ front, isWhitespace char = true) :
    (front ++ rest).dropWhile isWhitespace = rest.dropWhile isWhitespace := by
  rw [List.dropWhile_append, if_pos (by simpa using List.dropWhile_eq_nil_iff.mpr blank)]

theorem trimChars_padded {before text after : List Char}
    (front : ∀ char ∈ before, isWhitespace char = true)
    (back : ∀ char ∈ after, isWhitespace char = true) :
    trimChars (before ++ (text ++ after)) = trimChars text := by
  have behind : ∀ char ∈ after.reverse, isWhitespace char = true := by
    intro char member
    exact back char (List.mem_reverse.mp member)
  rw [trimChars, dropWhile_append_of_blank front, List.dropWhile_append]
  split
  · rename_i vanished
    have whole : text.dropWhile isWhitespace = [] := by simpa using vanished
    rw [trimChars, whole, List.dropWhile_eq_nil_iff.mpr back]
  · rw [List.reverse_append, dropWhile_append_of_blank behind, trimChars]

theorem exists_padding (text : List Char) :
    ∃ before after, text = before ++ (trimChars text ++ after) ∧
      (∀ char ∈ before, isWhitespace char = true) ∧ ∀ char ∈ after, isWhitespace char = true := by
  refine ⟨text.takeWhile isWhitespace,
    ((text.dropWhile isWhitespace).reverse.takeWhile isWhitespace).reverse, ?_, ?_, ?_⟩
  · rw [trimChars, ← List.reverse_append, List.takeWhile_append_dropWhile, List.reverse_reverse,
      List.takeWhile_append_dropWhile]
  · intro char member
    exact List.mem_takeWhile_imp member
  · intro char member
    exact List.mem_takeWhile_imp (List.mem_reverse.mp member)

theorem mem_trimChars {char : Char} (member : char ∈ text)
    (visible : isWhitespace char = false) : char ∈ trimChars text := by
  obtain ⟨before, after, same, front, back⟩ := exists_padding text
  rw [same, List.mem_append, List.mem_append] at member
  rcases member with padding | kept | padding
  · rw [front char padding] at visible
    cases visible
  · exact kept
  · rw [back char padding] at visible
    cases visible

end Utf8

end JtermCore
