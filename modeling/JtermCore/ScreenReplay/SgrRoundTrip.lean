import Mathlib.Tactic.IntervalCases
import JtermCore.ScreenReplay.SgrCodes

/-!
# Style changes read back

Whichever form `write_sgr_transition` chooses, the parser reads its text back as
one SGR sequence, and that sequence turns the old style into the new one.
-/

namespace JtermCore.ScreenReplay

open Bytes

def sgrIf (condition : Bool) (code : SgrCode) : List SgrCode :=
  if condition then [code] else []

def colorSgr (color : Color) (base : Nat) : SgrCode :=
  match color with
  | .default => .simple (base + 9)
  | .legacy n =>
    if n < 8 ∧ base ≠ 50 then .simple (base + n)
    else if n < 16 ∧ base ≠ 50 then .simple (base + 60 + n - 8)
    else .indexed base n
  | .indexed n => .indexed base n
  | .rgb red green blue => .rgb base red green blue

def underlineSgr (style : Nat) : SgrCode :=
  if style = 0 then .simple 24 else if style = 1 then .simple 4 else .underline style

/-- The code that changes a flag, where two sets of flags differ in it. -/
def flagSgr (flag : Flags → Bool) (on off : Nat) (first second : Flags) : List SgrCode :=
  sgrIf (flag first ≠ flag second) (.simple (if flag second then on else off))

def flagsSgr (first second : Flags) : List SgrCode :=
  flagSgr Flags.italic 3 23 first second ++ flagSgr Flags.blink 5 25 first second ++
    flagSgr Flags.reverse 7 27 first second ++ flagSgr Flags.invisible 8 28 first second ++
    flagSgr Flags.strike 9 29 first second ++ flagSgr Flags.overline 53 55 first second

def intensitySgr (first second : Flags) : List SgrCode :=
  if (first.bold && !second.bold) || (first.dim && !second.dim) then
    .simple 22 :: (sgrIf second.bold (.simple 1) ++ sgrIf second.dim (.simple 2))
  else
    sgrIf (second.bold && !first.bold) (.simple 1) ++ sgrIf (second.dim && !first.dim) (.simple 2)

def restSgr (first second : Style) : List SgrCode :=
  sgrIf (first.flags.underline ≠ second.flags.underline) (underlineSgr second.flags.underline) ++
    sgrIf (first.fg ≠ second.fg) (colorSgr second.fg 30) ++
    sgrIf (first.bg ≠ second.bg) (colorSgr second.bg 40) ++
    sgrIf (first.ul ≠ second.ul) (colorSgr second.ul 50)

def relativeSgr (first second : Style) : List SgrCode :=
  intensitySgr first.flags second.flags ++ flagsSgr first.flags second.flags ++ restSgr first second

/-- The codes of `absolute`: a reset, then the change from the default style. -/
def absoluteSgr (style : Style) : List SgrCode := .simple 0 :: relativeSgr .plain style

theorem map_sgrIf (condition : Bool) (code : SgrCode) :
    (sgrIf condition code).map SgrCode.text = codeIf condition code.text := by
  cases condition <;> rfl

theorem text_colorSgr (color : Color) (base : Nat) :
    (colorSgr color base).text = colorCode color base := by
  unfold colorSgr colorCode
  cases color with
  | legacy n =>
    dsimp only
    split
    · rfl
    split
    · rfl
    · rfl
  | _ => rfl

theorem text_underlineSgr (style : Nat) : (underlineSgr style).text = underlineCode style := by
  unfold underlineSgr underlineCode
  split
  · decide
  split
  · decide
  · rfl

variable {flag : Flags → Bool} {on off : Nat}

theorem map_flagSgr {onText offText : String}
    (spelled : decimalText on = ofAscii onText ∧ decimalText off = ofAscii offText)
    (first second : Flags) :
    (flagSgr flag on off first second).map SgrCode.text =
      codeIf (flag first ≠ flag second) (ofAscii (if flag second then onText else offText)) := by
  rw [flagSgr, map_sgrIf]
  congr 1
  split
  · exact spelled.1
  · exact spelled.2

theorem map_intensitySgr (first second : Flags) :
    (intensitySgr first second).map SgrCode.text = intensityCodes first second := by
  have one : (SgrCode.simple 1).text = ofAscii "1" := by decide
  have two : (SgrCode.simple 2).text = ofAscii "2" := by decide
  have reset : (SgrCode.simple 22).text = ofAscii "22" := by decide
  unfold intensitySgr intensityCodes
  split
  · simp [map_sgrIf, one, two, reset]
  · simp [map_sgrIf, one, two]

theorem map_flagsSgr (first second : Flags) :
    (flagsSgr first second).map SgrCode.text = flagCodes.flatMap (fun code =>
        codeIf (!code.isIntensity && code.flag first ≠ code.flag second)
          (ofAscii (if code.flag second then code.on else code.off))) := by
  have spelled : (decimalText 3 = ofAscii "3" ∧ decimalText 23 = ofAscii "23") ∧
      (decimalText 5 = ofAscii "5" ∧ decimalText 25 = ofAscii "25") ∧
      (decimalText 7 = ofAscii "7" ∧ decimalText 27 = ofAscii "27") ∧
      (decimalText 8 = ofAscii "8" ∧ decimalText 28 = ofAscii "28") ∧
      (decimalText 9 = ofAscii "9" ∧ decimalText 29 = ofAscii "29") ∧
      (decimalText 53 = ofAscii "53" ∧ decimalText 55 = ofAscii "55") := by decide
  obtain ⟨italic, blink, reverse, invisible, strike, overline⟩ := spelled
  simp only [flagsSgr, List.map_append, map_flagSgr italic, map_flagSgr blink,
    map_flagSgr reverse, map_flagSgr invisible, map_flagSgr strike, map_flagSgr overline,
    flagCodes, List.flatMap_cons, List.flatMap_nil, List.append_nil, List.append_assoc,
    Bool.not_false, Bool.true_and]
  rfl

theorem map_relativeSgr (first second : Style) :
    (relativeSgr first second).map SgrCode.text = relativeCodes first second := by
  simp only [relativeSgr, restSgr, relativeCodes, List.map_append, map_intensitySgr, map_flagsSgr,
    map_sgrIf, text_underlineSgr, text_colorSgr, List.append_assoc]

theorem map_absoluteSgr (style : Style) :
    (absoluteSgr style).map SgrCode.text = absoluteCodes style := by
  have reset : (SgrCode.simple 0).text = ofAscii "0" := by decide
  have flags : intensityCodes Flags.none style.flags ++ flagCodes.flatMap (fun code =>
        codeIf (!code.isIntensity && code.flag Flags.none ≠ code.flag style.flags)
          (ofAscii (if code.flag style.flags then code.on else code.off))) =
      flagCodes.flatMap (fun code => codeIf (code.flag style.flags) (ofAscii code.on)) := by
    generalize style.flags = flags
    obtain ⟨bold, dim, italic, blink, reverse, invisible, strike, overline, underline⟩ := flags
    simp only [intensityCodes, flagCodes, List.flatMap_cons, List.flatMap_nil, List.append_nil,
      Flags.none, Bool.not_true, Bool.not_false, Bool.false_and, Bool.true_and, Bool.or_false,
      Bool.and_true, Bool.false_eq_true, if_false, List.append_assoc]
    cases italic <;> cases blink <;> cases reverse <;> cases invisible <;> cases strike <;>
      cases overline <;> rfl
  have turn {α : Type} [DecidableEq α] (first second : α) (code : Bytes) :
      codeIf (first ≠ second) code = codeIf (second ≠ first) code := by
    congr 1
    exact decide_eq_decide.mpr ne_comm
  have underline := turn Style.plain.flags.underline style.flags.underline
    (underlineCode style.flags.underline)
  have fg := turn Style.plain.fg style.fg (colorCode style.fg 30)
  have bg := turn Style.plain.bg style.bg (colorCode style.bg 40)
  have ul := turn Style.plain.ul style.ul (colorCode style.ul 50)
  rw [absoluteSgr, List.map_cons, map_relativeSgr, reset, relativeCodes, underline, fg, bg, ul,
    absoluteCodes, ← flags]
  simp only [List.append_assoc, List.cons_append, List.nil_append]
  rfl

def applyCodes (codes : List SgrCode) (style : Style) : Style :=
  codes.foldl (fun style code => code.apply style) style

theorem applyCodes_append (first second : List SgrCode) (style : Style) :
    applyCodes (first ++ second) style = applyCodes second (applyCodes first style) :=
  List.foldl_append

theorem applyCodes_sgrIf (condition : Bool) (code : SgrCode) (style : Style) :
    applyCodes (sgrIf condition code) style = if condition then code.apply style else style := by
  cases condition <;> rfl

variable {first second : Flags} {style : Style}

theorem applyCodes_flagSgr {p : Bool → Flags → Flags}
    (sets : ∀ style : Style, (SgrCode.simple on).apply style = style.withFlags (p true))
    (clears : ∀ style : Style, (SgrCode.simple off).apply style = style.withFlags (p false))
    (same : ∀ flags, p (flag flags) flags = flags) (before : flag style.flags = flag first) :
    applyCodes (flagSgr flag on off first second) style = style.withFlags (p (flag second)) := by
  rw [flagSgr, applyCodes_sgrIf]
  by_cases differ : flag first = flag second
  · rw [if_neg (by simpa using differ), ← differ, ← before, Style.withFlags, same]
  · rw [if_pos (by simpa using differ)]
    cases on' : flag second with
    | true => exact sets style
    | false => exact clears style

theorem applyCodes_intensitySgr
    (before : style.flags.bold = first.bold ∧ style.flags.dim = first.dim) :
    applyCodes (intensitySgr first second) style =
      style.withFlags fun flags => { flags with bold := second.bold, dim := second.dim } := by
  obtain ⟨fg, bg, ul, flags⟩ := style
  obtain ⟨bold, dim, italic, blink, reverse, invisible, strike, overline, underline⟩ := flags
  obtain ⟨rfl, rfl⟩ := before
  unfold intensitySgr
  cases first.bold <;> cases first.dim <;> cases second.bold <;> cases second.dim <;> rfl

theorem applyCodes_flagsSgr
    (before : style.flags.italic = first.italic ∧ style.flags.blink = first.blink ∧
      style.flags.reverse = first.reverse ∧ style.flags.invisible = first.invisible ∧
      style.flags.strike = first.strike ∧ style.flags.overline = first.overline) :
    applyCodes (flagsSgr first second) style = style.withFlags fun flags =>
        { second with
          bold := flags.bold
          dim := flags.dim
          underline := flags.underline } := by
  obtain ⟨italic, blink, reverse, invisible, strike, overline⟩ := before
  simp only [flagsSgr, applyCodes_append]
  rw [applyCodes_flagSgr (p := fun value flags => { flags with italic := value })
      (fun _ => rfl) (fun _ => rfl) (fun _ => rfl) (by exact italic),
    applyCodes_flagSgr (p := fun value flags => { flags with blink := value })
      (fun _ => rfl) (fun _ => rfl) (fun _ => rfl) (by exact blink),
    applyCodes_flagSgr (p := fun value flags => { flags with reverse := value })
      (fun _ => rfl) (fun _ => rfl) (fun _ => rfl) (by exact reverse),
    applyCodes_flagSgr (p := fun value flags => { flags with invisible := value })
      (fun _ => rfl) (fun _ => rfl) (fun _ => rfl) (by exact invisible),
    applyCodes_flagSgr (p := fun value flags => { flags with strike := value })
      (fun _ => rfl) (fun _ => rfl) (fun _ => rfl) (by exact strike),
    applyCodes_flagSgr (p := fun value flags => { flags with overline := value })
      (fun _ => rfl) (fun _ => rfl) (fun _ => rfl) (by exact overline)]
  rfl

theorem apply_underlineSgr {shape : Nat} (known : shape ≤ 5) (style : Style) :
    (underlineSgr shape).apply style =
      style.withFlags fun flags => { flags with underline := shape } := by
  have small : shape % 8 = shape := by omega
  unfold underlineSgr
  split
  · rename_i none
    rw [none]
    rfl
  split
  · rename_i one
    rw [one]
    rfl
  · show style.setUnderline shape = _
    rw [Style.setUnderline, small]

def Color.written (base : Nat) : Color → Color
  | .legacy n => if n < 16 ∧ base ≠ 50 then .legacy n else .indexed n
  | color => color

variable {base : Nat}

theorem apply_colorSgr (color : Color) (known : base = 30 ∨ base = 40 ∨ base = 50) (style : Style) :
    (colorSgr color base).apply style = SgrCode.setColor base (color.written base) style := by
  cases color with
  | default => rcases known with rfl | rfl | rfl <;> rfl
  | indexed n => rfl
  | rgb red green blue => rfl
  | legacy n =>
    have legacy : ∀ n < 16, (colorSgr (.legacy n) 30).apply style = { style with fg := .legacy n } ∧
        (colorSgr (.legacy n) 40).apply style = { style with bg := .legacy n } := by
      intro n small
      interval_cases n <;> exact ⟨rfl, rfl⟩
    by_cases selectable : n < 16 ∧ base ≠ 50
    · rw [Color.written, if_pos selectable]
      rcases known with rfl | rfl | rfl
      · exact (legacy n selectable.1).1
      · exact (legacy n selectable.1).2
      · exact absurd rfl selectable.2
    · have least : ¬ (n < 8 ∧ base ≠ 50) := fun low => selectable ⟨by omega, low.2⟩
      rw [Color.written, if_neg selectable, colorSgr, if_neg least, if_neg selectable]
      rfl

theorem applyCodes_underlineSgr
    (known : second.underline ≤ 5) (before : style.flags.underline = first.underline) :
    applyCodes (sgrIf (first.underline ≠ second.underline) (underlineSgr second.underline)) style =
      style.withFlags fun flags => { flags with underline := second.underline } := by
  rw [applyCodes_sgrIf, apply_underlineSgr known]
  by_cases differ : first.underline = second.underline
  · rw [if_neg (by simpa using differ), ← differ, ← before]
    rfl
  · rw [if_pos (by simpa using differ)]

def Color.afterCode (base : Nat) (first second : Color) : Color :=
  if first = second then second else second.written base

variable {second : Style}

theorem applyCodes_colorSgr {get : Style → Color} (known : base = 30 ∨ base = 40 ∨ base = 50)
    (same : ∀ style, SgrCode.setColor base (get style) style = style) {first : Style}
    (before : get style = get first) :
    applyCodes (sgrIf (get first ≠ get second) (colorSgr (get second) base)) style =
      SgrCode.setColor base ((get first).afterCode base (get second)) style := by
  rw [applyCodes_sgrIf, apply_colorSgr _ known, Color.afterCode]
  by_cases differ : get first = get second
  · rw [if_neg (by simpa using differ), if_pos differ, ← differ, ← before, same]
  · rw [if_pos (by simpa using differ), if_neg differ]

def Style.afterCodes (first second : Style) : Style where
  fg := first.fg.afterCode 30 second.fg
  bg := first.bg.afterCode 40 second.bg
  ul := first.ul.afterCode 50 second.ul
  flags := second.flags

theorem applyCodes_relativeSgr (first : Style) (known : second.flags.underline ≤ 5) :
    applyCodes (relativeSgr first second) first = first.afterCodes second := by
  simp only [relativeSgr, restSgr, applyCodes_append]
  rw [applyCodes_intensitySgr ⟨rfl, rfl⟩,
    applyCodes_flagsSgr (by exact ⟨rfl, rfl, rfl, rfl, rfl, rfl⟩),
    applyCodes_underlineSgr known (by rfl), applyCodes_colorSgr (.inl rfl) (fun _ => rfl) (by rfl),
    applyCodes_colorSgr (.inr (.inl rfl)) (fun _ => rfl) (by rfl),
    applyCodes_colorSgr (.inr (.inr rfl)) (fun _ => rfl) (by rfl)]
  rfl

theorem applyCodes_absoluteSgr (first : Style) (known : second.flags.underline ≤ 5) :
    applyCodes (absoluteSgr second) first = Style.plain.afterCodes second :=
  applyCodes_relativeSgr .plain known

theorem sgrIf_valid {condition : Bool} {code : SgrCode} (valid : code.Valid) :
    ∀ other ∈ sgrIf condition code, other.Valid := by
  cases condition with
  | false => simp [sgrIf]
  | true => simpa [sgrIf] using valid

def Color.IsU8 : Color → Prop
  | .default => True
  | .legacy n => n ≤ 255
  | .indexed n => n ≤ 255
  | .rgb red green blue => red ≤ 255 ∧ green ≤ 255 ∧ blue ≤ 255

structure Style.IsU8 (style : Style) : Prop where
  fg : style.fg.IsU8
  bg : style.bg.IsU8
  ul : style.ul.IsU8

theorem colorSgr_valid {color : Color} (known : base = 30 ∨ base = 40 ∨ base = 50)
    (isU8 : color.IsU8) : (colorSgr color base).Valid := by
  cases color with
  | default =>
    show base + 9 ≠ 38 ∧ base + 9 ≠ 48 ∧ base + 9 ≠ 58 ∧ base + 9 ≤ 107
    omega
  | legacy n =>
    unfold colorSgr
    dsimp only
    split
    · show base + n ≠ 38 ∧ base + n ≠ 48 ∧ base + n ≠ 58 ∧ base + n ≤ 107
      omega
    split
    · show base + 60 + n - 8 ≠ 38 ∧ base + 60 + n - 8 ≠ 48 ∧ base + 60 + n - 8 ≠ 58 ∧
        base + 60 + n - 8 ≤ 107
      omega
    · exact ⟨known, isU8⟩
  | indexed n => exact ⟨known, isU8⟩
  | rgb red green blue => exact ⟨known, isU8⟩

theorem underlineSgr_valid {shape : Nat} (known : shape ≤ 5) : (underlineSgr shape).Valid := by
  unfold underlineSgr
  split
  · exact ⟨by decide, by decide, by decide, by decide⟩
  split
  · exact ⟨by decide, by decide, by decide, by decide⟩
  · exact known

theorem flagSgr_valid
    (valid : (SgrCode.simple on).Valid ∧ (SgrCode.simple off).Valid) (first second : Flags) :
    ∀ code ∈ flagSgr flag on off first second, code.Valid := by
  apply sgrIf_valid
  split
  · exact valid.1
  · exact valid.2

theorem simple_valid {code : Nat} (small : code ≤ 107)
    (noColor : code ≠ 38 ∧ code ≠ 48 ∧ code ≠ 58 := by decide) : (SgrCode.simple code).Valid :=
  ⟨noColor.1, noColor.2.1, noColor.2.2, small⟩

theorem intensitySgr_valid (first second : Flags) :
    ∀ code ∈ intensitySgr first second, code.Valid := by
  have one : (SgrCode.simple 1).Valid := simple_valid (by decide)
  have two : (SgrCode.simple 2).Valid := simple_valid (by decide)
  have reset : (SgrCode.simple 22).Valid := simple_valid (by decide)
  unfold intensitySgr
  split
  · intro code member
    rcases List.mem_cons.mp member with rfl | rest
    · exact reset
    rcases List.mem_append.mp rest with bold | dim
    · exact sgrIf_valid one code bold
    · exact sgrIf_valid two code dim
  · intro code member
    rcases List.mem_append.mp member with bold | dim
    · exact sgrIf_valid one code bold
    · exact sgrIf_valid two code dim

theorem flagsSgr_valid (first second : Flags) : ∀ code ∈ flagsSgr first second, code.Valid := by
  intro code member
  simp only [flagsSgr, List.mem_append] at member
  rcases member with ((((italic | blink) | reverse) | invisible) | strike) | overline
  · exact flagSgr_valid ⟨simple_valid (by decide), simple_valid (by decide)⟩ _ _ code italic
  · exact flagSgr_valid ⟨simple_valid (by decide), simple_valid (by decide)⟩ _ _ code blink
  · exact flagSgr_valid ⟨simple_valid (by decide), simple_valid (by decide)⟩ _ _ code reverse
  · exact flagSgr_valid ⟨simple_valid (by decide), simple_valid (by decide)⟩ _ _ code invisible
  · exact flagSgr_valid ⟨simple_valid (by decide), simple_valid (by decide)⟩ _ _ code strike
  · exact flagSgr_valid ⟨simple_valid (by decide), simple_valid (by decide)⟩ _ _ code overline

theorem relativeSgr_valid (first : Style) (known : second.flags.underline ≤ 5)
    (isU8 : second.IsU8) : ∀ code ∈ relativeSgr first second, code.Valid := by
  intro code member
  simp only [relativeSgr, restSgr, List.mem_append] at member
  rcases member with (intensity | flags) | ((underline | fg) | bg) | ul
  · exact intensitySgr_valid _ _ code intensity
  · exact flagsSgr_valid _ _ code flags
  · exact sgrIf_valid (underlineSgr_valid known) code underline
  · exact sgrIf_valid (colorSgr_valid (.inl rfl) isU8.fg) code fg
  · exact sgrIf_valid (colorSgr_valid (.inr (.inl rfl)) isU8.bg) code bg
  · exact sgrIf_valid (colorSgr_valid (.inr (.inr rfl)) isU8.ul) code ul

theorem absoluteSgr_valid (known : style.flags.underline ≤ 5)
    (isU8 : style.IsU8) : ∀ code ∈ absoluteSgr style, code.Valid := by
  intro code member
  rcases List.mem_cons.mp member with rfl | rest
  · exact simple_valid (by decide)
  · exact relativeSgr_valid .plain known isU8 code rest

def paramCount (codes : List SgrCode) : Nat := (codes.flatMap SgrCode.slots).length

theorem paramCount_append (first second : List SgrCode) :
    paramCount (first ++ second) = paramCount first + paramCount second := by
  rw [paramCount, List.flatMap_append, List.length_append]
  rfl

theorem paramCount_sgrIf (condition : Bool) (code : SgrCode) :
    paramCount (sgrIf condition code) ≤ code.slots.length := by
  cases condition <;> simp [sgrIf, paramCount]

theorem paramCount_colorSgr (color : Color) (base : Nat) :
    (colorSgr color base).slots.length ≤ 5 := by
  unfold colorSgr
  repeat' split
  all_goals simp [SgrCode.slots]

theorem paramCount_underlineSgr (style : Nat) : (underlineSgr style).slots.length ≤ 2 := by
  unfold underlineSgr
  repeat' split
  all_goals simp [SgrCode.slots]

theorem paramCount_flagSgr (flag : Flags → Bool) (on off : Nat) (first second : Flags) :
    paramCount (flagSgr flag on off first second) ≤ 1 := paramCount_sgrIf _ _

theorem paramCount_intensitySgr (first second : Flags) :
    paramCount (intensitySgr first second) ≤ 3 := by
  unfold intensitySgr
  cases first.bold <;> cases first.dim <;> cases second.bold <;> cases second.dim <;> decide

theorem paramCount_relativeSgr (first second : Style) :
    paramCount (relativeSgr first second) ≤ 26 := by
  have intensity := paramCount_intensitySgr first.flags second.flags
  have flag (get : Flags → Bool) (on off : Nat) :=
    paramCount_flagSgr get on off first.flags second.flags
  have italic := flag Flags.italic 3 23
  have blink := flag Flags.blink 5 25
  have reverse := flag Flags.reverse 7 27
  have invisible := flag Flags.invisible 8 28
  have strike := flag Flags.strike 9 29
  have overline := flag Flags.overline 53 55
  have underline := (paramCount_sgrIf (first.flags.underline ≠ second.flags.underline) _).trans
    (paramCount_underlineSgr second.flags.underline)
  have fg := (paramCount_sgrIf (first.fg ≠ second.fg) _).trans (paramCount_colorSgr second.fg 30)
  have bg := (paramCount_sgrIf (first.bg ≠ second.bg) _).trans (paramCount_colorSgr second.bg 40)
  have ul := (paramCount_sgrIf (first.ul ≠ second.ul) _).trans (paramCount_colorSgr second.ul 50)
  simp only [relativeSgr, flagsSgr, restSgr, paramCount_append]
  omega

theorem paramCount_absoluteSgr (style : Style) : paramCount (absoluteSgr style) ≤ 27 := by
  have rest := paramCount_relativeSgr .plain style
  have reset : paramCount (absoluteSgr style) = 1 + paramCount (relativeSgr .plain style) := by
    rw [absoluteSgr, ← List.singleton_append, paramCount_append]
    rfl
  omega

def isSeparator (byte : UInt8) : Bool := byte = 0x3b || byte = 0x3a

theorem countP_decimalText (value : Nat) : (decimalText value).countP isSeparator = 0 := by
  rw [List.countP_eq_zero]
  intro byte member separator
  have digit := List.all_eq_true.mp (all_isAsciiDigit_decimalText value) byte member
  simp only [isSeparator, Bool.or_eq_true, decide_eq_true_eq] at separator
  rcases separator with rfl | rfl
  · exact absurd digit (by decide)
  · exact absurd digit (by decide)

theorem countP_valueText (value : Int) : (Parser.valueText value).countP isSeparator = 0 := by
  unfold Parser.valueText
  split
  · exact countP_decimalText _
  · rfl

theorem countP_listText (slots : List Slot) (last : Slot) :
    (Parser.listText (slots ++ [last])).countP isSeparator = slots.length := by
  rw [Parser.listText_concat, List.countP_append, countP_valueText, Nat.add_zero]
  induction slots with
  | nil => rfl
  | cons slot slots ih =>
    have one : (Parser.slotText slot).countP isSeparator = 1 := by
      rw [Parser.slotText, List.countP_append, countP_valueText]
      cases slot.nonfinal <;> rfl
    rw [List.flatMap_cons, List.countP_append, ih, one, List.length_cons, Nat.add_comm]

def Pen.select {ℓ : Type} (pen : Pen ℓ) : Callback → Pen ℓ
  | .csi params marker intermediate fin =>
    if marker = 0 ∧ intermediate = 0 ∧ fin = 0x6d then
      { pen with toStyle := applySgr pen.toStyle params }
    else pen
  | _ => pen

def Pen.read {ℓ : Type} (pen : Pen ℓ) (text : Bytes) : Pen ℓ :=
  (Parser.new.advance text).2.foldl Pen.select pen

theorem read_codes {ℓ : Type} {codes : List SgrCode} (pen : Pen ℓ) (nonempty : codes ≠ [])
    (valid : ∀ code ∈ codes, code.Valid) (few : paramCount codes ≤ maxParams) :
    pen.read (ofAscii "\x1b[" ++ pushCodes [] (codes.map SgrCode.text) ++ ofAscii "m") =
        { pen with toStyle := applyCodes codes pen.toStyle } ∧
      (ofAscii "\x1b[" ++ pushCodes [] (codes.map SgrCode.text) ++ ofAscii "m").countP isSeparator <
        maxParams := by
  obtain ⟨front, value, slots, text⟩ := SgrCode.pushCodes_eq nonempty
  have range : ∀ slot ∈ front ++ [finalSlot value], Parser.InRange slot.value := by
    intro slot member
    rw [← slots] at member
    obtain ⟨code, isCode, isSlot⟩ := List.mem_flatMap.mp member
    exact (valid code isCode).inRange slot isSlot
  have room : front.length + 1 ≤ maxParams := by
    rw [paramCount, slots] at few
    simpa using few
  have low : (0x40 : UInt8) ≤ 0x6d := by decide
  have parsed := Parser.advance_csi range (by simp [finalSlot]) rfl room low (by decide)
  rw [text, slots]
  constructor
  · have whole : (⟨front ++ [finalSlot value], -1, true⟩ : Params).slots =
        codes.flatMap SgrCode.slots := slots.symm
    have applied := SgrCode.applySgr_codes pen.toStyle nonempty valid whole
    show (Parser.new.advance _).2.foldl Pen.select pen = _
    rw [show ofAscii "m" = [0x6d] from rfl, parsed]
    simp only [List.foldl_cons, List.foldl_nil, Pen.select, and_self, if_true, applied]
    rfl
  · rw [List.countP_append, List.countP_append, countP_listText,
      show (ofAscii "\x1b[").countP isSeparator = 0 from rfl,
      show (ofAscii "m").countP isSeparator = 0 from rfl]
    omega

def Color.ReadAs (base : Nat) (color read : Color) : Prop :=
  read = color ∨ read = color.written base

theorem Color.afterCode_readAs (base : Nat) (first second : Color) :
    second.ReadAs base (first.afterCode base second) := by
  unfold afterCode
  split
  · exact .inl rfl
  · exact .inr rfl

/-- A style that is read back has the flags exactly. -/
structure Style.ReadAs (style read : Style) : Prop where
  fg : style.fg.ReadAs 30 read.fg
  bg : style.bg.ReadAs 40 read.bg
  ul : style.ul.ReadAs 50 read.ul
  flags : read.flags = style.flags

theorem Style.afterCodes_readAs (first second : Style) :
    second.ReadAs (first.afterCodes second) where
  fg := Color.afterCode_readAs _ _ _
  bg := Color.afterCode_readAs _ _ _
  ul := Color.afterCode_readAs _ _ _
  flags := rfl

theorem Style.ReadAs.refl (style : Style) : style.ReadAs style :=
  ⟨.inl rfl, .inl rfl, .inl rfl, rfl⟩

/-- A color that SGR has a parameter for: there are sixteen legacy colors, and
none of them for the underline. -/
def Color.Selectable (base : Nat) (color : Color) : Prop :=
  ∀ n, color = .legacy n → n < 16 ∧ base ≠ 50

theorem Color.ReadAs.eq {color read : Color} (reads : color.ReadAs base read)
    (selectable : color.Selectable base) : read = color := by
  rcases reads with same | written
  · exact same
  · rw [written]
    cases color with
    | legacy n => exact if_pos (selectable n rfl)
    | _ => rfl

/-- A style of colors that SGR has parameters for. -/
structure Style.Selectable (style : Style) : Prop where
  fg : style.fg.Selectable 30
  bg : style.bg.Selectable 40
  ul : style.ul.Selectable 50

theorem Style.ReadAs.eq {read : Style} (reads : style.ReadAs read)
    (selectable : style.Selectable) : read = style := by
  obtain ⟨fg, bg, ul, flags⟩ := read
  obtain rfl : fg = style.fg := reads.fg.eq selectable.fg
  obtain rfl : bg = style.bg := reads.bg.eq selectable.bg
  obtain rfl : ul = style.ul := reads.ul.eq selectable.ul
  obtain rfl : flags = style.flags := reads.flags
  rfl

theorem sgrIf_eq_nil {α : Type} [DecidableEq α] {first second : α} {code : SgrCode}
    (nothing : sgrIf (first ≠ second) code = []) : first = second := by
  by_contra differ
  simp [sgrIf, differ] at nothing

theorem relativeSgr_ne_nil {first : Style} (known : second.flags.underline ≤ 5)
    (differ : first ≠ second) : relativeSgr first second ≠ [] := by
  intro nothing
  have applied := applyCodes_relativeSgr first known
  rw [nothing] at applied
  have flags : first.flags = (first.afterCodes second).flags := congrArg Style.flags applied
  simp only [relativeSgr, restSgr, List.append_eq_nil_iff] at nothing
  obtain ⟨_, ⟨⟨_, fg⟩, bg⟩, ul⟩ := nothing
  apply differ
  obtain ⟨fg', bg', ul', flags'⟩ := first
  obtain rfl : fg' = second.fg := sgrIf_eq_nil fg
  obtain rfl : bg' = second.bg := sgrIf_eq_nil bg
  obtain rfl : ul' = second.ul := sgrIf_eq_nil ul
  obtain rfl : flags' = second.flags := flags
  rfl

/-- The parameters of a change never outgrow the parser's, and what is read back
is the style that was written, beside colors that SGR has no parameter for. -/
theorem read_sgrTransition {ℓ : Type} (first second : Pen ℓ) (known : second.flags.underline ≤ 5)
    (isU8 : second.IsU8) :
    second.toStyle.ReadAs (first.read (sgrTransition first.toStyle second.toStyle)).toStyle ∧
      (second.Selectable →
        first.read (sgrTransition first.toStyle second.toStyle) =
          { second with link := first.link }) ∧
      (first.read (sgrTransition first.toStyle second.toStyle)).link = first.link ∧
      (sgrTransition first.toStyle second.toStyle).countP isSeparator < maxParams := by
  suffices read : ∃ style : Style, second.toStyle.ReadAs style ∧
      first.read (sgrTransition first.toStyle second.toStyle) = { first with toStyle := style } ∧
      (sgrTransition first.toStyle second.toStyle).countP isSeparator < maxParams by
    obtain ⟨style, reads, whole, few⟩ := read
    refine ⟨by rw [whole]; exact reads, fun selectable => ?_, by rw [whole], few⟩
    rw [whole, reads.eq selectable]
  unfold sgrTransition
  split
  · rename_i same
    exact ⟨first.toStyle, same ▸ .refl _, rfl, by decide⟩
  rename_i differ
  split
  · rename_i plain
    have isPlain : second.toStyle = .plain := by simpa [Style.isPlain] using plain
    rw [isPlain]
    exact ⟨.plain, .refl _, rfl, by decide⟩
  dsimp only
  rw [← map_relativeSgr, ← map_absoluteSgr]
  split
  · obtain ⟨read, few⟩ := read_codes first (relativeSgr_ne_nil known differ)
      (relativeSgr_valid _ known isU8) ((paramCount_relativeSgr _ _).trans (by decide))
    rw [applyCodes_relativeSgr _ known] at read
    exact ⟨_, Style.afterCodes_readAs _ _, read, few⟩
  · obtain ⟨read, few⟩ := read_codes first (by simp [absoluteSgr])
      (absoluteSgr_valid known isU8) ((paramCount_absoluteSgr _).trans (by decide))
    rw [applyCodes_absoluteSgr _ known] at read
    exact ⟨_, Style.afterCodes_readAs _ _, read, few⟩

/-- A bold curly underline in an indexed color on an RGB background. -/
theorem read_sgrTransition_curly :
    (⟨.plain, 7⟩ : Pen Nat).read (sgrTransition .plain
        ⟨.legacy 9, .rgb 1 2 3, .indexed 200, { Flags.none with bold := true, underline := 3 }⟩) =
      ⟨⟨.legacy 9, .rgb 1 2 3, .indexed 200, { Flags.none with bold := true, underline := 3 }⟩,
        7⟩ :=
  (read_sgrTransition (⟨.plain, 7⟩ : Pen Nat)
    ⟨⟨.legacy 9, .rgb 1 2 3, .indexed 200, { Flags.none with bold := true, underline := 3 }⟩, 0⟩
    (by decide) ⟨by simp [Color.IsU8], by simp [Color.IsU8], by simp [Color.IsU8]⟩).2.1
    ⟨by intro n same; cases same; decide, nofun, nofun⟩

/-- A legacy color that SGR has no parameter for comes back as an indexed one. -/
theorem read_sgrTransition_legacy :
    (⟨.plain, 0⟩ : Pen Nat).read (sgrTransition .plain { Style.plain with fg := .legacy 16 }) =
        ⟨{ Style.plain with fg := .indexed 16 }, 0⟩ ∧
      ({ Style.plain with fg := .indexed 16 } : Style) ≠
        { Style.plain with fg := .legacy 16 } := by
  decide +kernel

end JtermCore.ScreenReplay
