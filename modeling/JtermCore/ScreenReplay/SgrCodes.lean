import JtermCore.ScreenReplay.ParamText
import JtermCore.ScreenReplay.Pen

/-!
# SGR codes

The parameter list of a style change as a list of codes: how each code is
spelled, which parameters it becomes, and what it selects.
-/

namespace JtermCore.ScreenReplay

open Bytes

/-- A code that the pen is written with. -/
inductive SgrCode where
  | simple (code : Nat)
  | underline (style : Nat)
  | indexed (base index : Nat)
  | rgb (base red green blue : Nat)
deriving DecidableEq

/-- A parameter that no colon follows. -/
def finalSlot (value : Nat) : Slot where
  value := value
  nonfinal := false

namespace SgrCode

def slots : SgrCode → List Slot
  | simple code => [finalSlot code]
  | underline style => [⟨4, true⟩, finalSlot style]
  | indexed base index => [finalSlot (base + 8), finalSlot 5, finalSlot index]
  | rgb base red green blue =>
    [finalSlot (base + 8), finalSlot 2, finalSlot red, finalSlot green, finalSlot blue]

def text : SgrCode → Bytes
  | simple code => decimalText code
  | underline style => ofAscii "4:" ++ decimalText style
  | indexed base index => decimalText (base + 8) ++ ofAscii ";5;" ++ decimalText index
  | rgb base red green blue =>
    decimalText (base + 8) ++ ofAscii ";2;" ++ decimalText red ++ ofAscii ";" ++
      decimalText green ++ ofAscii ";" ++ decimalText blue

def setColor (base : Nat) (color : Color) (style : Style) : Style :=
  if base = 30 then { style with fg := color }
  else if base = 40 then { style with bg := color }
  else { style with ul := color }

def apply : SgrCode → Style → Style
  | simple code, style => (applySgrParam style ⟨[finalSlot code], -1, true⟩ 0).1
  | underline shape, style => style.setUnderline shape
  | indexed base index, style => setColor base (.indexed index) style
  | rgb base red green blue, style => setColor base (.rgb red green blue) style

/-- A code that is written alone or with arguments in range. -/
def Valid : SgrCode → Prop
  | simple code => code ≠ 38 ∧ code ≠ 48 ∧ code ≠ 58 ∧ code ≤ 107
  | underline style => style ≤ 5
  | indexed base index => (base = 30 ∨ base = 40 ∨ base = 50) ∧ index ≤ 255
  | rgb base red green blue =>
    (base = 30 ∨ base = 40 ∨ base = 50) ∧ red ≤ 255 ∧ green ≤ 255 ∧ blue ≤ 255

theorem slots_eq (code : SgrCode) : ∃ front value, code.slots = front ++ [finalSlot value] := by
  cases code with
  | simple code => exact ⟨[], code, rfl⟩
  | underline style => exact ⟨[⟨4, true⟩], style, rfl⟩
  | indexed base index => exact ⟨[finalSlot (base + 8), finalSlot 5], index, rfl⟩
  | rgb base red green blue =>
    exact ⟨[finalSlot (base + 8), finalSlot 2, finalSlot red, finalSlot green], blue, rfl⟩

theorem Valid.inRange {code : SgrCode} (valid : code.Valid) :
    ∀ slot ∈ code.slots, Parser.InRange slot.value := by
  have small {value : Nat} (fits : value ≤ 255) : Parser.InRange (finalSlot value).value := by
    constructor
    · show (-1 : Int) ≤ value
      omega
    · show (value : Int) ≤ 0xffff
      omega
  cases code with
  | simple code => simpa [slots] using small (by simp only [Valid] at valid; omega)
  | underline style =>
    simp only [Valid] at valid
    simp only [slots, List.mem_cons, List.not_mem_nil, or_false, forall_eq_or_imp, forall_eq]
    exact ⟨by constructor <;> decide, small (by omega)⟩
  | indexed base index =>
    simp only [Valid] at valid
    simp only [slots, List.mem_cons, List.not_mem_nil, or_false, forall_eq_or_imp, forall_eq]
    exact ⟨small (by omega), small (by omega), small (by omega)⟩
  | rgb base red green blue =>
    simp only [Valid] at valid
    simp only [slots, List.mem_cons, List.not_mem_nil, or_false, forall_eq_or_imp, forall_eq]
    exact ⟨small (by omega), small (by omega), small (by omega), small (by omega), small (by omega)⟩

end SgrCode

theorem slotText_finalSlot (value : Nat) :
    Parser.slotText (finalSlot value) = decimalText value ++ [0x3b] := by
  simp [Parser.slotText, finalSlot, Parser.valueText]

theorem valueText_finalSlot (value : Nat) :
    Parser.valueText (finalSlot value).value = decimalText value := by
  simp [finalSlot, Parser.valueText]

theorem listText_append (first second : List Slot) (value last : Nat) :
    Parser.listText ((first ++ [finalSlot value]) ++ (second ++ [finalSlot last])) =
      Parser.listText (first ++ [finalSlot value]) ++ [0x3b] ++
        Parser.listText (second ++ [finalSlot last]) := by
  rw [← List.append_assoc, Parser.listText_concat, Parser.listText_concat,
    Parser.listText_concat, List.flatMap_append, List.flatMap_append, List.flatMap_singleton,
    slotText_finalSlot]
  simp [List.append_assoc, valueText_finalSlot]

namespace SgrCode

theorem text_eq (code : SgrCode) : code.text = Parser.listText code.slots := by
  have five : decimalText 5 = ofAscii "5" := by decide
  have two : decimalText 2 = ofAscii "2" := by decide
  have four : Parser.valueText 4 = ofAscii "4" := by decide
  cases code with
  | simple code => simp [text, slots, Parser.listText, valueText_finalSlot]
  | underline style =>
    simp [text, slots, Parser.listText, valueText_finalSlot, Parser.slotText, four, ofAscii]
  | indexed base index =>
    simp [text, slots, Parser.listText, valueText_finalSlot, slotText_finalSlot, five, ofAscii]
  | rgb base red green blue =>
    simp [text, slots, Parser.listText, valueText_finalSlot, slotText_finalSlot, two, ofAscii]

theorem pushCodes_text (codes : List SgrCode) (front : List Slot) (value : Nat) :
    ∃ front' value', front ++ [finalSlot value] ++ codes.flatMap slots =
        front' ++ [finalSlot value'] ∧
      pushCodes (Parser.listText (front ++ [finalSlot value])) (codes.map text) =
        Parser.listText (front' ++ [finalSlot value']) := by
  induction codes generalizing front value with
  | nil => exact ⟨front, value, by simp, rfl⟩
  | cons code codes ih =>
    obtain ⟨more, last, whole⟩ := code.slots_eq
    have nonempty : (Parser.listText (front ++ [finalSlot value])).isEmpty = false := by
      rw [Parser.listText_concat, valueText_finalSlot]
      simp [decimalText_ne_nil]
    have pushed : pushCode (Parser.listText (front ++ [finalSlot value])) code.text =
        Parser.listText ((front ++ [finalSlot value]) ++ more ++ [finalSlot last]) := by
      have joined := listText_append front more value last
      rw [← List.append_assoc] at joined
      rw [pushCode, nonempty, text_eq, whole, joined]
      rfl
    obtain ⟨front', value', slots', text'⟩ := ih ((front ++ [finalSlot value]) ++ more) last
    refine ⟨front', value', ?_, ?_⟩
    · rw [← slots', List.flatMap_cons, whole]
      simp [List.append_assoc]
    · rw [← text', ← pushed]
      rfl

theorem pushCodes_eq {codes : List SgrCode} (nonempty : codes ≠ []) :
    ∃ front value, codes.flatMap slots = front ++ [finalSlot value] ∧
      pushCodes [] (codes.map text) = Parser.listText (codes.flatMap slots) := by
  cases codes with
  | nil => exact absurd rfl nonempty
  | cons code codes =>
    obtain ⟨front, value, whole⟩ := code.slots_eq
    obtain ⟨front', value', slots', text'⟩ := pushCodes_text codes front value
    have all : (code :: codes).flatMap slots = front' ++ [finalSlot value'] := by
      rw [List.flatMap_cons, whole, slots']
    refine ⟨front', value', all, ?_⟩
    rw [all, ← text', ← whole, ← text_eq]
    rfl

end SgrCode

namespace Params

variable {params : Params}

theorem slots_at {before middle after : List Slot}
    (list : params.slots = before ++ (middle ++ after)) {i : Nat} (inside : i < middle.length) :
    params.slots[before.length + i]? = middle[i]? := by
  rw [list, List.getElem?_append_right (by omega), Nat.add_sub_cancel_left,
    List.getElem?_append_left inside]

theorem next_final {idx : Nat} (final : params.isNonfinal idx = false) :
    params.next idx = idx + 1 := by
  unfold isNonfinal at final
  unfold next
  cases rest : params.slots.drop idx with
  | nil => rfl
  | cons slot slots =>
    have here : params.slots[idx]? = some slot := by
      rw [← List.head?_drop, rest]
      rfl
    rw [here] at final
    have single : slot.nonfinal = false := by simpa using final
    rw [List.takeWhile_cons, single]
    rfl

theorem next_nonfinal {idx : Nat} (nonfinal : params.isNonfinal idx = true) :
    params.next idx = params.next (idx + 1) := by
  unfold isNonfinal at nonfinal
  unfold next
  cases rest : params.slots.drop idx with
  | nil =>
    have beyond : params.slots[idx]? = none := by
      rw [← List.head?_drop, rest]
      rfl
    simp [beyond] at nonfinal
  | cons slot slots =>
    have here : params.slots[idx]? = some slot := by
      rw [← List.head?_drop, rest]
      rfl
    have later : params.slots.drop (idx + 1) = slots := by
      rw [← List.drop_drop, rest]
      rfl
    rw [here] at nonfinal
    have single : slot.nonfinal = true := by simpa using nonfinal
    rw [List.takeWhile_cons, single, later]
    simp only [if_true, List.length_cons]
    omega

end Params

namespace SgrCode

variable {params : Params} {before after : List Slot} {code : SgrCode} {value : Nat}

theorem toU8_natCast (small : value ≤ 255) : toU8 (value : Int) = some value := by
  rw [toU8, if_pos (by omega), Int.toNat_natCast]

variable {values : List Nat}

section

variable (list : params.slots = before ++ (values.map finalSlot ++ after))

include list

theorem finals_at {i value : Nat}
    (at_ : values[i]? = some value) : params.raw (before.length + i) = value ∧
      params.next (before.length + i) = before.length + (i + 1) := by
  have inside := (List.getElem?_eq_some_iff.mp at_).1
  have slot : params.slots[before.length + i]? = some (finalSlot value) := by
    rw [Params.slots_at list (by simpa using inside), List.getElem?_map, at_]
    rfl
  refine ⟨?_, Params.next_final ?_⟩
  · rw [Params.raw, slot]
    rfl
  · rw [Params.isNonfinal, slot]
    rfl

theorem finals_isNonfinal
    (at_ : values[0]? = some value) : params.isNonfinal before.length = false := by
  have inside := (List.getElem?_eq_some_iff.mp at_).1
  have slot := Params.slots_at list (i := 0) (by simpa using inside)
  rw [List.getElem?_map, at_] at slot
  rw [Params.isNonfinal, show before.length = before.length + 0 from rfl, slot]
  rfl

end

theorem parseColor_indexed {base index : Nat} (small : index ≤ 255)
    (list : params.slots = before ++ ([base, 5, index].map finalSlot ++ after)) :
    parseColor params before.length = (some (.indexed index), before.length + 2) := by
  have base : params.next before.length = before.length + 1 := (finals_at list (i := 0) rfl).2
  have kind : params.raw (before.length + 1) = 5 := (finals_at list (i := 1) rfl).1
  have value : params.raw (before.length + 2) = index := (finals_at list (i := 2) rfl).1
  have argument : params.next (before.length + 1) = before.length + 2 :=
    (finals_at list (i := 1) rfl).2
  unfold parseColor parseSemicolonColor
  rw [if_neg (by rw [finals_isNonfinal list rfl]; decide), base]
  dsimp only
  rw [kind, if_neg (by decide), if_pos rfl, argument, value, toU8_natCast small]
  rfl

theorem parseColor_rgb {base red green blue : Nat} (small : red ≤ 255 ∧ green ≤ 255 ∧ blue ≤ 255)
    (list : params.slots = before ++ ([base, 2, red, green, blue].map finalSlot ++ after)) :
    parseColor params before.length = (some (.rgb red green blue), before.length + 4) := by
  have base : params.next before.length = before.length + 1 := (finals_at list (i := 0) rfl).2
  have kind : params.raw (before.length + 1) = 2 := (finals_at list (i := 1) rfl).1
  have first : params.next (before.length + 1) = before.length + 2 :=
    (finals_at list (i := 1) rfl).2
  have second : params.next (before.length + 2) = before.length + 3 :=
    (finals_at list (i := 2) rfl).2
  have third : params.next (before.length + 3) = before.length + 4 :=
    (finals_at list (i := 3) rfl).2
  have redAt : params.raw (before.length + 2) = red := (finals_at list (i := 2) rfl).1
  have greenAt : params.raw (before.length + 3) = green := (finals_at list (i := 3) rfl).1
  have blueAt : params.raw (before.length + 4) = blue := (finals_at list (i := 4) rfl).1
  unfold parseColor parseSemicolonColor
  rw [if_neg (by rw [finals_isNonfinal list rfl]; decide), base]
  dsimp only
  rw [kind, if_pos rfl, first, second, third, redAt, greenAt, blueAt, ScreenReplay.rgb,
    toU8_natCast small.1, toU8_natCast small.2.1, toU8_natCast small.2.2]
  rfl

theorem applySgrParam_color {base : Nat} {color : Color} {last : Nat} (style : Style)
    (valid : base = 30 ∨ base = 40 ∨ base = 50) (raw : params.raw before.length = (base + 8 : Nat))
    (parsed : parseColor params before.length = (some color, last)) :
    applySgrParam style params before.length = (setColor base color style, last) := by
  unfold applySgrParam
  rw [raw, parsed]
  rcases valid with rfl | rfl | rfl <;> rfl

theorem ite_pair {condition : Prop} [Decidable condition] {idx : Nat}
    {first first' second second' : Style × Nat} (same : first = (first'.1, idx))
    (same' : second = (second'.1, idx)) :
    (if condition then first else second) = ((if condition then first' else second').1, idx) := by
  split <;> assumption

theorem applySgrParam_simple (style : Style) (alone : value ≠ 38 ∧ value ≠ 48 ∧ value ≠ 58)
    (list : params.slots = before ++ ([value].map finalSlot ++ after)) :
    applySgrParam style params before.length = ((simple value).apply style, before.length) := by
  obtain ⟨raw, -⟩ := finals_at list (i := 0) rfl
  have final := finals_isNonfinal list rfl
  have raw' : (⟨[finalSlot value], -1, true⟩ : Params).raw 0 = value := rfl
  have final' : (⟨[finalSlot value], -1, true⟩ : Params).isNonfinal 0 = false := rfl
  rw [Nat.add_zero] at raw
  have color38 : ¬ (value : Int) = 38 := by omega
  have color48 : ¬ (value : Int) = 48 := by omega
  have color58 : ¬ (value : Int) = 58 := by omega
  show applySgrParam style params before.length =
    ((applySgrParam style ⟨[finalSlot value], -1, true⟩ 0).1, before.length)
  unfold applySgrParam underlineParam
  dsimp only
  rw [raw, raw', final, final']
  generalize parseColor params before.length = first
  generalize parseColor ⟨[finalSlot value], -1, true⟩ 0 = second
  generalize (value : Int) = code at color38 color48 color58
  rw [if_neg color38, if_neg color38, if_neg color48, if_neg color48, if_neg color58,
    if_neg color58]
  repeat refine ite_pair rfl ?_
  rfl

theorem applySgrParam_code (style : Style) (valid : code.Valid)
    (list : params.slots = before ++ (code.slots ++ after)) :
    ∃ last, applySgrParam style params before.length = (code.apply style, last) ∧
      params.next last = before.length + code.slots.length := by
  cases code with
  | simple value =>
    simp only [Valid] at valid
    have finals : params.slots = before ++ ([value].map finalSlot ++ after) := list
    refine ⟨before.length, ?_, (finals_at finals (i := 0) rfl).2⟩
    exact applySgrParam_simple style ⟨valid.1, valid.2.1, valid.2.2.1⟩ finals
  | underline shape =>
    simp only [Valid] at valid
    have base : params.slots[before.length]? = some ⟨4, true⟩ :=
      Params.slots_at list (show 0 < 2 by decide)
    have shapeAt : params.slots[before.length + 1]? = some (finalSlot shape) :=
      Params.slots_at list (show 1 < 2 by decide)
    have grouped : params.isNonfinal before.length = true := by
      rw [Params.isNonfinal, base]
      rfl
    have raw : params.raw before.length = 4 := by
      rw [Params.raw, base]
      rfl
    have style : params.raw (before.length + 1) = shape := by
      rw [Params.raw, shapeAt]
      rfl
    have given : params.get (before.length + 1) 1 = shape := by
      rw [Params.get, style, if_neg (by omega)]
    have last : params.isNonfinal (before.length + 1) = false := by
      rw [Params.isNonfinal, shapeAt]
      rfl
    refine ⟨before.length, ?_, ?_⟩
    · unfold applySgrParam underlineParam
      rw [raw, grouped, given]
      dsimp only
      rw [if_neg (by decide), if_neg (by decide), if_neg (by decide), if_neg (by decide),
        if_pos rfl, if_pos rfl, if_pos (by omega), Int.toNat_natCast]
      rfl
    · rw [Params.next_nonfinal grouped, Params.next_final last]
      rfl
  | indexed base index =>
    have finals : params.slots = before ++ ([base + 8, 5, index].map finalSlot ++ after) := list
    refine ⟨before.length + 2, ?_, (finals_at finals (i := 2) rfl).2⟩
    exact applySgrParam_color style valid.1 (finals_at finals (i := 0) rfl).1
      (parseColor_indexed valid.2 finals)
  | rgb base red green blue =>
    have finals : params.slots =
        before ++ ([base + 8, 2, red, green, blue].map finalSlot ++ after) := list
    refine ⟨before.length + 4, ?_, (finals_at finals (i := 4) rfl).2⟩
    exact applySgrParam_color style valid.1 (finals_at finals (i := 0) rfl).1
      (parseColor_rgb valid.2 finals)

variable {codes : List SgrCode}

theorem applySgrLoop_codes {fuel : Nat} (style : Style) (valid : ∀ code ∈ codes, code.Valid)
    (list : params.slots = before ++ codes.flatMap slots) (enough : codes.length ≤ fuel) :
    applySgrLoop params fuel style before.length =
      codes.foldl (fun style code => code.apply style) style := by
  induction codes generalizing fuel style before with
  | nil =>
    have stop : ¬ before.length < params.len := by simp [Params.len, list]
    cases fuel with
    | zero => rfl
    | succ fuel => rw [applySgrLoop, if_neg stop]; rfl
  | cons code codes ih =>
    rw [List.flatMap_cons] at list
    obtain ⟨last, applied, next⟩ := applySgrParam_code style (valid code (by simp)) list
    have nonempty : 0 < code.slots.length := by
      obtain ⟨front, value, whole⟩ := code.slots_eq
      simp [whole]
    have inside : before.length < params.len := by
      rw [Params.len, list]
      simp only [List.length_append]
      omega
    cases fuel with
    | zero => simp at enough
    | succ fuel =>
      rw [applySgrLoop, if_pos inside, applied]
      dsimp only
      rw [next, ← List.length_append]
      exact ih (code.apply style) (fun other member => valid other (by simp [member]))
        (by rw [list, List.append_assoc]) (by simpa using enough)

theorem applySgr_codes (style : Style) (nonempty : codes ≠ [])
    (valid : ∀ code ∈ codes, code.Valid) (list : params.slots = codes.flatMap slots) :
    applySgr style params = codes.foldl (fun style code => code.apply style) style := by
  have positive (code : SgrCode) : 1 ≤ code.slots.length := by
    obtain ⟨front, value, whole⟩ := code.slots_eq
    simp [whole]
  have enough : codes.length ≤ params.len := by
    rw [Params.len, list]
    clear nonempty valid list
    induction codes with
    | nil => simp
    | cons code codes ih =>
      have one := positive code
      simp only [List.flatMap_cons, List.length_append, List.length_cons]
      omega
  have some : params.len ≠ 0 := by
    have length := List.length_pos_iff.mpr nonempty
    omega
  rw [applySgr, if_neg some]
  have start : params.slots = [] ++ codes.flatMap slots := list
  exact applySgrLoop_codes style valid start enough

end SgrCode

end JtermCore.ScreenReplay
