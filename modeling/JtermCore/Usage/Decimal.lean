import JtermCore.Bytes
import Mathlib.Data.List.Induction
import Mathlib.Data.Nat.Digits.Defs
import Mathlib.Algebra.Order.Field.Power
import Mathlib.Tactic.FieldSimp

/-!
# Exact amounts

A reported cost is a decimal text.  `decimal_atoms` reads it as a number of
units of 10⁻¹⁸, or not at all where it would have to round; `format_atoms`
writes such a number, and what it writes is read back.
-/

namespace JtermCore.Usage

open Bytes

def usdScale : Nat := 18

def u128Values : Nat := 2 ^ 128

/-- The text before the first `e` or `E`, and the text behind it. -/
def splitExponent : Bytes → Bytes × Option Bytes
  | [] => ([], none)
  | byte :: rest =>
    if byte = 0x65 ∨ byte = 0x45 then ([], some rest)
    else (byte :: (splitExponent rest).1, (splitExponent rest).2)

def checked (value : Nat) : Option Nat :=
  if value < u128Values then some value else none

/-- The end of `decimal_atoms`: digits with a power of ten. -/
def scaled (digits : Nat) (power : Int) : Option Nat :=
  if 0 ≤ power then do
    let factor ← checked (10 ^ power.toNat)
    checked (digits * factor)
  else do
    let divisor ← checked (10 ^ (-power).toNat)
    if digits % divisor = 0 then some (digits / divisor) else none

def exponentOf : Option Bytes → Option Int
  | some written => parseSigned 32 written
  | none => some 0

def mantissaAtoms (parts : Bytes × Bytes) (exponent : Int) : Option Nat :=
  if parts.1 = [] ∨ parts.1.all isAsciiDigit = false ∨ parts.2.all isAsciiDigit = false then none
  else
    (parseUnsigned (u128Values - 1) (parts.1 ++ parts.2)).bind fun digits =>
      scaled digits (usdScale + exponent - parts.2.length)

def decimalAtoms (text : Bytes) : Option Nat :=
  if text = [] ∨ text.head? = some 0x2d ∨ 80 < text.length then none
  else
    (exponentOf (splitExponent text).2).bind fun exponent =>
      if 64 < exponent.natAbs then none
      else
        let mantissa := (splitExponent text).1
        mantissaAtoms ((splitOnce 0x2e mantissa).getD (mantissa, [])) exponent

/-- `trim_end_matches('0')`. -/
def trimZeros (text : Bytes) : Bytes := (text.reverse.dropWhile fun byte => byte = 0x30).reverse

/-- A number with leading zeros up to a width. -/
def padded (width value : Nat) : Bytes :=
  List.replicate (width - (decimalText value).length) 0x30 ++ decimalText value

def formatAtoms (value : Nat) : Bytes :=
  let divisor := 10 ^ usdScale
  if value % divisor = 0 then decimalText (value / divisor)
  else
    decimalText (value / divisor) ++ 0x2e :: trimZeros (padded usdScale (value % divisor))

/-- An integer with an optional sign. -/
def SpellsInteger (text : Bytes) (value : Int) : Prop :=
  ∃ digits : Bytes, digits ≠ [] ∧ digits.all isAsciiDigit = true ∧
    ((text = digits ∨ text = 0x2b :: digits) ∧ value = decimalValue digits ∨
      text = 0x2d :: digits ∧ value = -decimalValue digits)

/-- A decimal literal without a sign: digits, perhaps a point with digits behind
it, and perhaps an exponent. -/
def Spells (text whole fraction : Bytes) (exponent : Int) : Prop :=
  whole ≠ [] ∧ whole.all isAsciiDigit = true ∧ fraction.all isAsciiDigit = true ∧
    ∃ mantissa : Bytes, (mantissa = whole ∧ fraction = [] ∨ mantissa = whole ++ 0x2e :: fraction) ∧
      (text = mantissa ∧ exponent = 0 ∨
        ∃ mark written, (mark = 0x65 ∨ mark = 0x45) ∧ text = mantissa ++ mark :: written ∧
          SpellsInteger written exponent)

/-- The number that a literal denotes. -/
def literalValue (whole fraction : Bytes) (exponent : Int) : ℚ :=
  decimalValue (whole ++ fraction) * (10 : ℚ) ^ (exponent - fraction.length)

theorem splitExponent_eq (text : Bytes) :
    (splitExponent text).2 = none ∧ text = (splitExponent text).1 ∨
      ∃ mark written, (mark = 0x65 ∨ mark = 0x45) ∧ (splitExponent text).2 = some written ∧
        text = (splitExponent text).1 ++ mark :: written := by
  induction text with
  | nil => exact .inl ⟨rfl, rfl⟩
  | cons byte rest ih =>
    rw [splitExponent]
    split
    · rename_i mark
      exact .inr ⟨byte, rest, mark, rfl, rfl⟩
    · rcases ih with ⟨absent, same⟩ | ⟨mark, written, isMark, found, same⟩
      · exact .inl ⟨absent, congrArg (byte :: ·) same⟩
      · exact .inr ⟨mark, written, isMark, found, congrArg (byte :: ·) same⟩

variable {text : Bytes} {parts : Bytes × Bytes}

theorem splitOnce_parts {separator : UInt8}
    (found : splitOnce separator text = some parts) : text = parts.1 ++ separator :: parts.2 := by
  induction text generalizing parts with
  | nil => cases found
  | cons byte rest ih =>
    rw [splitOnce] at found
    split at found
    · rename_i same
      cases found
      rw [same, List.nil_append]
    · obtain ⟨inner, split, rfl⟩ := Option.map_eq_some_iff.mp found
      exact congrArg (byte :: ·) (ih split)

theorem spellsInteger_of_parseSigned {bits : Nat} {value : Int}
    (read : parseSigned bits text = some value) : SpellsInteger text value := by
  have accepted : ∀ {digits : Bytes} {result : Int} {low : Bool},
      (if digits.isEmpty || !digits.all isAsciiDigit || low then none else some result) =
          some value → (digits ≠ [] ∧ digits.all isAsciiDigit = true) ∧ result = value := by
    intro digits result low held
    split at held
    · cases held
    · rename_i passed
      simp only [Bool.or_eq_true, List.isEmpty_iff, Bool.not_eq_true', not_or,
        Bool.not_eq_false] at passed
      exact ⟨passed.1, Option.some_inj.mp held⟩
  unfold parseSigned at read
  obtain ⟨shaped, rfl⟩ := accepted read
  revert shaped
  split
  · intro shaped
    exact ⟨_, shaped.1, shaped.2, .inr ⟨rfl, rfl⟩⟩
  · intro shaped
    exact ⟨_, shaped.1, shaped.2, .inl ⟨.inr rfl, rfl⟩⟩
  · intro shaped
    exact ⟨_, shaped.1, shaped.2, .inl ⟨.inl rfl, rfl⟩⟩

variable {value : Nat}

theorem checked_eq_some {result : Nat} :
    checked value = some result ↔ value < u128Values ∧ value = result := by
  rw [checked]
  split
  · rename_i small
    rw [Option.some_inj, and_iff_right small]
  · rename_i large
    constructor
    · intro read
      cases read
    · intro both
      exact (large both.1).elim

theorem scaled_exact {digits : Nat} {power : Int} (fits : digits < u128Values)
    (result : scaled digits power = some value) :
    value < u128Values ∧ (value : ℚ) = digits * (10 : ℚ) ^ power := by
  rw [scaled] at result
  split at result
  · rename_i up
    obtain ⟨factor, isFactor, product⟩ := Option.bind_eq_some_iff.mp result
    obtain ⟨-, rfl⟩ := checked_eq_some.mp isFactor
    obtain ⟨small, rfl⟩ := checked_eq_some.mp product
    obtain ⟨count, rfl⟩ := Int.eq_ofNat_of_zero_le up
    refine ⟨small, ?_⟩
    rw [Int.toNat_natCast, zpow_natCast]
    push_cast
    rfl
  · rename_i down
    obtain ⟨divisor, isDivisor, quotient⟩ := Option.bind_eq_some_iff.mp result
    obtain ⟨-, rfl⟩ := checked_eq_some.mp isDivisor
    obtain ⟨count, rfl⟩ : ∃ count : Nat, power = -count := ⟨(-power).toNat, by omega⟩
    rw [neg_neg, Int.toNat_natCast] at quotient
    split at quotient
    · rename_i even
      cases quotient
      refine ⟨(Nat.div_le_self _ _).trans_lt fits, ?_⟩
      have whole := Nat.div_mul_cancel (Nat.dvd_of_mod_eq_zero even)
      have positive : (10 : ℚ) ^ count ≠ 0 := by positivity
      rw [zpow_neg, zpow_natCast, ← div_eq_mul_inv, eq_div_iff positive]
      exact_mod_cast whole
    · cases quotient

theorem parseUnsigned_digits {limit : Nat}
    (present : text ≠ []) (decimal : text.all isAsciiDigit = true) : parseUnsigned limit text =
      if limit < decimalValue text then none else some (decimalValue text) := by
  have filled : text.isEmpty = false := by
    rw [List.isEmpty_eq_false_iff]
    exact present
  have parsed : ∀ {digits : Bytes}, digits = text →
      (if digits.isEmpty || !digits.all isAsciiDigit || decide (limit < decimalValue digits)
        then none else some (decimalValue digits)) =
      if limit < decimalValue text then none else some (decimalValue text) := by
    rintro digits rfl
    simp [filled, decimal]
  refine parsed ?_
  split
  · rename_i rest
    cases decimal
  · rfl

/-- The mantissa gives its digits, with the power of the point and the exponent. -/
theorem mantissaAtoms_exact {mantissa : Bytes} {exponent : Int}
    (read : mantissaAtoms ((splitOnce 0x2e mantissa).getD (mantissa, [])) exponent = some value) :
    value < u128Values ∧ ∃ whole fraction,
      (mantissa = whole ∧ fraction = [] ∨ mantissa = whole ++ 0x2e :: fraction) ∧
      (whole ≠ [] ∧ whole.all isAsciiDigit = true ∧ fraction.all isAsciiDigit = true) ∧
      literalValue whole fraction exponent = value / (10 : ℚ) ^ usdScale := by
  generalize shape : (splitOnce 0x2e mantissa).getD (mantissa, []) = parts at read
  obtain ⟨whole, fraction⟩ := parts
  rw [mantissaAtoms] at read
  split at read
  · cases read
  · rename_i wellFormed
    simp only [not_or, Bool.not_eq_false] at wellFormed
    obtain ⟨present, decimal, behind⟩ := wellFormed
    rw [parseUnsigned_digits (List.append_ne_nil_of_left_ne_nil present fraction)
      (by rw [List.all_append, decimal, behind]; rfl)] at read
    split at read
    · cases read
    · rename_i fits
      have inside : decimalValue (whole ++ fraction) < u128Values := by
        have positive : 0 < u128Values := by decide
        omega
      obtain ⟨small, exact⟩ := scaled_exact inside read
      refine ⟨small, whole, fraction, ?_, ⟨present, decimal, behind⟩, ?_⟩
      · cases found : splitOnce 0x2e mantissa with
        | none =>
          rw [found] at shape
          cases shape
          exact .inl ⟨rfl, rfl⟩
        | some parts =>
          rw [found] at shape
          obtain rfl : parts = (whole, fraction) := shape
          exact .inr (splitOnce_parts found)
      · have apart : (10 : ℚ) ^ usdScale ≠ 0 := by positivity
        have powers : (usdScale : Int) + exponent - fraction.length =
            (exponent - fraction.length) + usdScale := by ring
        rw [literalValue, eq_div_iff apart, exact, powers, zpow_add₀ (by norm_num), zpow_natCast,
          mul_assoc]

/-- What is read is a literal with exactly this value. -/
theorem decimalAtoms_exact (read : decimalAtoms text = some value) :
    value < u128Values ∧ ∃ whole fraction exponent, Spells text whole fraction exponent ∧
      literalValue whole fraction exponent = value / (10 : ℚ) ^ usdScale := by
  rw [decimalAtoms] at read
  split at read
  · cases read
  · obtain ⟨exponent, isExponent, read⟩ := Option.bind_eq_some_iff.mp read
    split at read
    · cases read
    · obtain ⟨small, whole, fraction, split, spelled, exact⟩ := mantissaAtoms_exact read
      refine ⟨small, whole, fraction, exponent, ⟨spelled.1, spelled.2.1, spelled.2.2, _, split, ?_⟩,
        exact⟩
      rcases splitExponent_eq text with ⟨absent, same⟩ | ⟨mark, written, isMark, found, same⟩
      · rw [absent] at isExponent
        exact .inl ⟨same, (Option.some_inj.mp isExponent).symm⟩
      · rw [found] at isExponent
        exact .inr ⟨mark, written, isMark, same, spellsInteger_of_parseSigned isExponent⟩

theorem decimalValue_append (front back : Bytes) :
    decimalValue (front ++ back) = decimalValue front * 10 ^ back.length + decimalValue back := by
  induction back using List.reverseRecOn with
  | nil => simp [decimalValue]
  | append_singleton back digit ih =>
    rw [← List.append_assoc, decimalValue_append_singleton, decimalValue_append_singleton, ih,
      List.length_append, List.length_singleton, pow_succ]
    ring

theorem decimalValue_zeros (count : Nat) : decimalValue (List.replicate count 0x30) = 0 := by
  induction count with
  | zero => rfl
  | succ count ih =>
    rw [List.replicate_succ', decimalValue_append_singleton, ih]
    rfl

theorem length_decimalText_le {count : Nat} (positive : 0 < count)
    (small : value < 10 ^ count) : (decimalText value).length ≤ count := by
  rw [decimalText, List.length_map]
  exact Nat.toDigits_length 10 value count positive small

/-- A text is its trimmed text with zeros behind it. -/
theorem trimZeros_append (text : Bytes) :
    ∃ count, text = trimZeros text ++ List.replicate count 0x30 := by
  induction text using List.reverseRecOn with
  | nil => exact ⟨0, rfl⟩
  | append_singleton text byte ih =>
    obtain ⟨count, same⟩ := ih
    by_cases zero : byte = 0x30
    · refine ⟨count + 1, ?_⟩
      have dropped : trimZeros (text ++ [byte]) = trimZeros text := by
        rw [trimZeros, List.reverse_append, List.reverse_singleton, List.singleton_append,
          List.dropWhile_cons, if_pos (decide_eq_true zero), trimZeros]
      rw [dropped, List.replicate_succ', ← List.append_assoc, ← same, zero]
    · refine ⟨0, ?_⟩
      rw [trimZeros, List.reverse_append, List.reverse_singleton, List.singleton_append,
        List.dropWhile_cons, if_neg (by simpa using zero), List.reverse_cons,
        List.reverse_reverse, List.replicate_zero, List.append_nil]

/-- What is written behind the point: some digits, fewer than the scale has, that
stand for the fraction. -/
theorem fraction_digits {fraction : Nat} (small : fraction < 10 ^ usdScale) :
    ∃ count, (trimZeros (padded usdScale fraction)).length + count = usdScale ∧
      (trimZeros (padded usdScale fraction)).all isAsciiDigit = true ∧
      decimalValue (trimZeros (padded usdScale fraction)) * 10 ^ count = fraction := by
  have short := length_decimalText_le (by decide) small
  have length : (padded usdScale fraction).length = usdScale := by
    rw [padded, List.length_append, List.length_replicate]
    omega
  have digits : (padded usdScale fraction).all isAsciiDigit = true := by
    rw [padded, List.all_append, all_isAsciiDigit_decimalText, List.all_replicate]
    simp [isAsciiDigit]
  have stands : decimalValue (padded usdScale fraction) = fraction := by
    rw [padded, decimalValue_append, decimalValue_zeros, decimalValue_decimalText]
    omega
  obtain ⟨count, same⟩ := trimZeros_append (padded usdScale fraction)
  refine ⟨count, ?_, ?_, ?_⟩
  · rw [same, List.length_append, List.length_replicate] at length
    exact length
  · rw [same, List.all_append, Bool.and_eq_true] at digits
    exact digits.1
  · rw [same, decimalValue_append, decimalValue_zeros, List.length_replicate] at stands
    exact stands

theorem splitExponent_of_all (plain : ∀ byte ∈ text, isAsciiDigit byte = true ∨ byte = 0x2e) :
    splitExponent text = (text, none) := by
  induction text with
  | nil => rfl
  | cons byte rest ih =>
    have unmarked : ¬ (byte = 0x65 ∨ byte = 0x45) := by
      rintro (rfl | rfl)
      · exact absurd (plain _ List.mem_cons_self) (by decide)
      · exact absurd (plain _ List.mem_cons_self) (by decide)
    rw [splitExponent, if_neg unmarked,
      ih fun other member => plain other (List.mem_cons_of_mem _ member)]

theorem splitOnce_digits {whole : Bytes} (decimal : whole.all isAsciiDigit = true)
    (rest : Bytes) : splitOnce 0x2e whole = none ∧
      splitOnce 0x2e (whole ++ 0x2e :: rest) = some (whole, rest) := by
  induction whole with
  | nil => exact ⟨rfl, rfl⟩
  | cons byte whole ih =>
    rw [List.all_cons, Bool.and_eq_true] at decimal
    have apart : byte ≠ 0x2e := by
      rintro rfl
      exact absurd decimal.1 (by decide)
    obtain ⟨none, some⟩ := ih decimal.2
    constructor
    · rw [splitOnce, if_neg apart, none, Option.map_none]
    · rw [List.cons_append, splitOnce, if_neg apart, some, Option.map_some]

theorem mantissaAtoms_digits {whole fraction : Bytes} {count : Nat}
    (present : whole ≠ []) (decimal : whole.all isAsciiDigit = true)
    (behind : fraction.all isAsciiDigit = true) (scale : fraction.length + count = usdScale)
    (stands : decimalValue (whole ++ fraction) * 10 ^ count = value) (fits : value < u128Values) :
    mantissaAtoms (whole, fraction) 0 = some value := by
  have powered : (10 ^ count : Nat) < u128Values :=
    (Nat.pow_le_pow_right (by decide) (by omega : count ≤ usdScale)).trans_lt (by decide)
  have below : decimalValue (whole ++ fraction) ≤ value := by
    rw [← stands]
    exact Nat.le_mul_of_pos_right _ (Nat.pow_pos (by decide))
  have power : (usdScale : Int) + 0 - fraction.length = count := by omega
  rw [mantissaAtoms, if_neg (by simp [present, decimal, behind]),
    parseUnsigned_digits (List.append_ne_nil_of_left_ne_nil present fraction)
      (by rw [List.all_append, decimal, behind]; rfl), if_neg (by omega), Option.bind_some, scaled]
  dsimp only
  rw [power, if_pos (Int.natCast_nonneg count), Int.toNat_natCast,
    checked_eq_some.mpr ⟨powered, rfl⟩, Option.bind_eq_bind, Option.bind_some, stands,
    checked_eq_some.mpr ⟨fits, rfl⟩]

/-- A short text of digits with at most one point is read as its mantissa. -/
theorem decimalAtoms_plain {head : UInt8} {rest : Bytes}
    (starts : text = head :: rest) (decimal : isAsciiDigit head = true)
    (short : text.length ≤ 80) (plain : ∀ byte ∈ text, isAsciiDigit byte = true ∨ byte = 0x2e)
    (split : (splitOnce 0x2e text).getD (text, []) = parts) :
    decimalAtoms text = mantissaAtoms parts 0 := by
  have accepted : ¬ (text = [] ∨ text.head? = some 0x2d ∨ 80 < text.length) := by
    rw [starts] at short ⊢
    rintro (empty | negative | long)
    · cases empty
    · rw [List.head?_cons, Option.some_inj] at negative
      rw [negative] at decimal
      cases decimal
    · omega
  rw [decimalAtoms, if_neg accepted, splitExponent_of_all plain, exponentOf, Option.bind_some,
    if_neg (by decide)]
  exact congrArg (mantissaAtoms · 0) split

/-- What `format_atoms` writes is read back. -/
theorem decimalAtoms_formatAtoms (fits : value < u128Values) :
    decimalAtoms (formatAtoms value) = some value := by
  have digits := all_isAsciiDigit_decimalText (value / 10 ^ usdScale)
  have present := decimalText_ne_nil (value / 10 ^ usdScale)
  have bound : value / 10 ^ usdScale < 10 ^ 21 := by
    rw [Nat.div_lt_iff_lt_mul (by decide)]
    exact fits.trans_le (by decide)
  have short := length_decimalText_le (by decide) bound
  have member : ∀ byte ∈ decimalText (value / 10 ^ usdScale), isAsciiDigit byte = true :=
    List.all_eq_true.mp digits
  obtain ⟨head, rest, starts⟩ := List.exists_cons_of_ne_nil present
  have first : isAsciiDigit head = true := member head (by rw [starts]; exact List.mem_cons_self)
  rw [formatAtoms]
  split
  · rename_i none
    rw [decimalAtoms_plain starts first (by omega) (fun byte listed => .inl (member byte listed))
      (by rw [(splitOnce_digits digits []).1, Option.getD_none])]
    refine mantissaAtoms_digits present digits rfl (Nat.zero_add usdScale) ?_ fits
    rw [List.append_nil, decimalValue_decimalText]
    exact Nat.div_mul_cancel (Nat.dvd_of_mod_eq_zero none)
  · obtain ⟨count, scale, behind, stands⟩ := fraction_digits (Nat.mod_lt value
      (by decide : 10 ^ usdScale > 0))
    have marked : ∀ byte ∈ decimalText (value / 10 ^ usdScale) ++
        0x2e :: trimZeros (padded usdScale (value % 10 ^ usdScale)),
        isAsciiDigit byte = true ∨ byte = 0x2e := by
      intro byte listed
      rcases List.mem_append.mp listed with before | point
      · exact .inl (member byte before)
      · rcases List.mem_cons.mp point with rfl | after
        · exact .inr rfl
        · exact .inl (List.all_eq_true.mp behind byte after)
    rw [decimalAtoms_plain (by rw [starts, List.cons_append]) first
      (by rw [List.length_append, List.length_cons]; simp only [usdScale] at *; omega) marked
      (by rw [(splitOnce_digits digits _).2, Option.getD_some])]
    refine mantissaAtoms_digits present digits behind scale ?_ fits
    rw [decimalValue_append, decimalValue_decimalText, Nat.add_mul, stands, Nat.mul_assoc,
      ← pow_add, scale]
    exact Nat.div_add_mod' value (10 ^ usdScale)

end JtermCore.Usage
