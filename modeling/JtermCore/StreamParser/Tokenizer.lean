import JtermCore.StreamParser.Parser

/-!
# A reference terminal

The 7-bit control tokenizer a terminal runs over the bytes that pass through,
and the control sequences it dispatches.  It says what the filter of the parser
is for: a private-mode list with an intercepted mode must not be dispatched.
-/

namespace JtermCore.StreamParser

open Bytes

/-- The state of the reference tokenizer; a control sequence keeps the bytes it
collected. -/
inductive Token where
  | ground
  | esc
  | csi (collected : Bytes)
  | osc
  | oscEsc
  | dcs
  | dcsEsc
deriving DecidableEq

namespace Token

def afterEscape (byte : UInt8) : Token :=
  if byte = escape then .esc
  else if byte = 0x5b then .csi []
  else if byte = 0x5d then .osc
  else if byte = 0x50 then .dcs
  else .ground

def next (token : Token) (byte : UInt8) : Token :=
  match token with
  | .ground => if byte = escape then .esc else .ground
  | .esc => afterEscape byte
  | .csi collected =>
    if byte = escape then .esc
    else if isCancel byte then .ground
    else if !isParameterByte byte then .csi collected
    else if byte < 0x40 then .csi (collected ++ [byte])
    else .ground
  | .osc =>
    if byte = 0x07 || isCancel byte then .ground
    else if byte = escape then .oscEsc
    else .osc
  | .oscEsc => if byte = 0x5c then .ground else afterEscape byte
  | .dcs =>
    if isCancel byte then .ground
    else if byte = escape then .dcsEsc
    else .dcs
  | .dcsEsc => if byte = 0x5c then .ground else afterEscape byte

def dispatched (token : Token) (byte : UInt8) : Option (Bytes × UInt8) :=
  match token with
  | .csi collected => if 0x40 ≤ byte && byte ≤ 0x7e then some (collected, byte) else none
  | _ => none

def after (token : Token) (bytes : Bytes) : Token := bytes.foldl next token

def dispatches (token : Token) : Bytes → List (Bytes × UInt8)
  | [] => []
  | byte :: bytes => (token.dispatched byte).toList ++ (token.next byte).dispatches bytes

theorem after_append (token : Token) (first second : Bytes) :
    token.after (first ++ second) = (token.after first).after second := List.foldl_append

theorem dispatches_append (token : Token) (first second : Bytes) :
    token.dispatches (first ++ second) =
      token.dispatches first ++ (token.after first).dispatches second := by
  induction first generalizing token with
  | nil => rfl
  | cons byte first ih =>
    simp only [List.cons_append, dispatches, ih, List.append_assoc]
    rfl

end Token

/-- A dispatched `CSI ? ... h` or `CSI ? ... l` whose private-mode list holds a
mode that the configuration keeps from the terminal. -/
def ParserConfig.Forbids (config : ParserConfig) (sequence : Bytes × UInt8) : Prop :=
  (sequence.2 = 0x68 ∨ sequence.2 = 0x6c) ∧
    ∃ modes, privateModes sequence.1 = some modes ∧ ∃ mode ∈ modes,
      (mode = 47 ∨ mode = 1047 ∨ mode = 1049) ∨
        (config.mouseReporting = false ∧ isMouseMode mode = true) ∨
        (config.focusReporting = false ∧ mode = 1004)

variable {config : ParserConfig}

theorem intercepts_iff {mode : Nat} :
    config.intercepts mode = true ↔
      (mode = 47 ∨ mode = 1047 ∨ mode = 1049) ∨
        (config.mouseReporting = false ∧ isMouseMode mode = true) ∨
        (config.focusReporting = false ∧ mode = 1004) := by
  simp [ParserConfig.intercepts, ParserConfig.suppresses, isAltScreenMode, or_assoc]

theorem forbids_iff {sequence : Bytes × UInt8} :
    config.Forbids sequence ↔ (sequence.2 = 0x68 ∨ sequence.2 = 0x6c) ∧
        (config.interceptedModes sequence.1).isSome = true := by
  simp only [ParserConfig.Forbids, ParserConfig.interceptedModes, ← intercepts_iff]
  cases privateModes sequence.1 with
  | none => simp
  | some modes => simp [Option.filter_some]

instance (config : ParserConfig) (sequence : Bytes × UInt8) :
    Decidable (config.Forbids sequence) :=
  decidable_of_iff _ forbids_iff.symm

/-- A tokenizer run that dispatches nothing forbidden. -/
def Harmless (config : ParserConfig) (token : Token) (bytes : Bytes) : Prop :=
  ∀ sequence ∈ token.dispatches bytes, ¬ config.Forbids sequence

theorem harmless_append {token : Token} {first second : Bytes} :
    Harmless config token (first ++ second) ↔
      Harmless config token first ∧ Harmless config (token.after first) second := by
  simp only [Harmless, Token.dispatches_append, List.mem_append, or_imp, forall_and]

/-- A run from one tokenizer state to another that dispatches nothing forbidden. -/
structure Passes (config : ParserConfig) (token : Token) (bytes : Bytes) (result : Token) :
    Prop where
  harmless : Harmless config token bytes
  after : token.after bytes = result

namespace Passes

variable {config : ParserConfig} {token middle result : Token}

theorem nil : Passes config token [] token := ⟨by simp [Harmless, Token.dispatches], rfl⟩

theorem append {first second : Bytes} (left : Passes config token first middle)
    (right : Passes config middle second result) :
    Passes config token (first ++ second) result := by
  obtain ⟨harmless, rfl⟩ := left
  exact ⟨harmless_append.mpr ⟨harmless, right.harmless⟩, by rw [Token.after_append, right.after]⟩

theorem byte {byte : UInt8} (silent : token.dispatched byte = none) :
    Passes config token [byte] (token.next byte) :=
  ⟨by simp [Harmless, Token.dispatches, silent], rfl⟩

theorem cons {byte : UInt8} {bytes : Bytes} (silent : token.dispatched byte = none)
    (rest : Passes config (token.next byte) bytes result) :
    Passes config token (byte :: bytes) result := (Passes.byte silent).append rest

end Passes

/-- The bytes that stay in a control sequence of the parser. -/
def isCsiByte (byte : UInt8) : Bool :=
  byte ≠ escape && !isCancel byte && !(0x40 ≤ byte && byte ≤ 0x7e) && byte < 0x80

variable {byte : UInt8}

theorem isCsiByte_of_digit (digit : isAsciiDigit byte = true) : isCsiByte byte = true := by
  simp only [isAsciiDigit, Bool.and_eq_true, decide_eq_true_eq] at digit
  have notEscape : byte ≠ escape := by
    rintro rfl
    exact absurd digit (by decide)
  have notCancel : isCancel byte = false := by
    simp only [isCancel, Bool.or_eq_false_iff, decide_eq_false_iff_not]
    constructor <;> rintro rfl <;> exact absurd digit (by decide)
  have notFinal : ¬ 0x40 ≤ byte := by grind
  have ascii : byte < 0x80 := by grind
  simp [isCsiByte, notEscape, notCancel, notFinal, ascii]

def isStringByte (byte : UInt8) : Bool := byte ≠ escape && !isCancel byte

/-- The tokenizer state of an open control sequence prefix, or of none. -/
def Token.ofPrefix : Option Bytes → Token
  | some collected => .csi collected
  | none => .ground

section

variable {config : ParserConfig}

theorem ofPrefix_dispatched_escape (opened : Option Bytes) :
    (Token.ofPrefix opened).dispatched escape = none := by cases opened <;> rfl

theorem ofPrefix_next_escape (opened : Option Bytes) :
    (Token.ofPrefix opened).next escape = .esc := by cases opened <;> rfl

theorem passes_escape {opened : Option Bytes} {bytes : Bytes} {result : Token}
    (rest : Passes config .esc bytes result) :
    Passes config (.ofPrefix opened) (escape :: bytes) result := by
  apply Passes.cons (ofPrefix_dispatched_escape opened)
  rw [ofPrefix_next_escape]
  exact rest

theorem passes_pair (opened : Option Bytes) (notEscape : byte ≠ escape)
    (notCsi : byte ≠ 0x5b) (notOsc : byte ≠ 0x5d) (notDcs : byte ≠ 0x50) :
    Passes config (.ofPrefix opened) [escape, byte] .ground := by
  apply passes_escape
  have ground : Token.esc.next byte = .ground := by
    simp [Token.next, Token.afterEscape, notEscape, notCsi, notOsc, notDcs]
  rw [← ground]
  exact Passes.byte rfl

variable {params : Bytes}

theorem passes_params (inside : params.all isCsiByte = true) (collected : Bytes) :
    Passes config (.csi collected) params (.csi (collected ++ params.filter isParameterByte)) := by
  induction params generalizing collected with
  | nil => simpa using Passes.nil
  | cons byte params ih =>
    simp only [List.all_cons, Bool.and_eq_true, isCsiByte, decide_eq_true_eq,
      Bool.not_eq_true'] at inside
    obtain ⟨⟨⟨⟨notEscape, notCancel⟩, notFinal⟩, ascii⟩, rest⟩ := inside
    apply Passes.cons (by simp [Token.dispatched, notFinal])
    by_cases parameter : isParameterByte byte = true
    · have low : byte < 0x40 := by
        simp only [isParameterByte, Bool.and_eq_true, decide_eq_true_eq] at parameter
        simp only [Bool.and_eq_false_iff, decide_eq_false_iff_not] at notFinal
        grind
      have kept : (Token.csi collected).next byte = .csi (collected ++ [byte]) := by
        simp [Token.next, notEscape, notCancel, parameter, low]
      rw [kept, List.filter_cons_of_pos parameter]
      simpa using ih rest (collected ++ [byte])
    · have ignored : (Token.csi collected).next byte = .csi collected := by
        simp [Token.next, notEscape, notCancel, parameter]
      rw [ignored, List.filter_cons_of_neg parameter]
      exact ih rest collected

theorem passes_csi_front (opened : Option Bytes) (inside : params.all isCsiByte = true) :
    Passes config (.ofPrefix opened) (CsiIntroducer.escBracket.toBytes ++ params)
      (.csi (params.filter isParameterByte)) := by
  apply passes_escape
  have collected : Passes config (.csi []) params (.csi ([] ++ params.filter isParameterByte)) :=
    passes_params inside []
  rw [List.nil_append] at collected
  exact Passes.cons rfl collected

theorem passes_csi (opened : Option Bytes) {final : UInt8}
    (inside : params.all isCsiByte = true) (isFinal : 0x40 ≤ final ∧ final ≤ 0x7e)
    (allowed : ¬ config.Forbids (params.filter isParameterByte, final)) :
    Passes config (.ofPrefix opened) (CsiIntroducer.escBracket.toBytes ++ params ++ [final])
      .ground := by
  apply (passes_csi_front opened inside).append
  have dispatched : (Token.csi (params.filter isParameterByte)).dispatched final =
      some (params.filter isParameterByte, final) := by simp [Token.dispatched, isFinal]
  have closed : (Token.csi (params.filter isParameterByte)).next final = .ground := by
    have notEscape : final ≠ escape := by
      rintro rfl
      exact absurd isFinal (by decide)
    have notCancel : isCancel final = false := by
      simp only [isCancel, Bool.or_eq_false_iff, decide_eq_false_iff_not]
      constructor <;> rintro rfl <;> exact absurd isFinal (by decide)
    have notLow : ¬ final < 0x40 := by grind
    have parameter : isParameterByte final = true := by
      simp only [isParameterByte, Bool.and_eq_true, decide_eq_true_eq]
      grind
    simp [Token.next, notEscape, notCancel, parameter, notLow]
  exact ⟨by simp [Harmless, Token.dispatches, dispatched, allowed], closed⟩

theorem passes_cancelled (opened : Option Bytes)
    (inside : params.all isCsiByte = true) (cancel : isCancel byte = true) :
    Passes config (.ofPrefix opened) (CsiIntroducer.escBracket.toBytes ++ params ++ [byte])
      .ground := by
  apply (passes_csi_front opened inside).append
  have closed (collected : Bytes) : (Token.csi collected).next byte = .ground ∧
      (Token.csi collected).dispatched byte = none := by
    simp only [isCancel, Bool.or_eq_true, decide_eq_true_eq] at cancel
    rcases cancel with rfl | rfl <;> exact ⟨rfl, rfl⟩
  rw [← (closed (params.filter isParameterByte)).1]
  exact Passes.byte (closed _).2

variable {payload : Bytes}

theorem passes_osc_payload (inside : payload.all isStringByte = true)
    (noBell : 0x07 ∉ payload) : Passes config .osc payload .osc := by
  induction payload with
  | nil => exact Passes.nil
  | cons byte payload ih =>
    simp only [List.all_cons, Bool.and_eq_true, isStringByte, decide_eq_true_eq,
      Bool.not_eq_true'] at inside
    simp only [List.mem_cons, not_or] at noBell
    apply Passes.cons rfl
    have kept : Token.osc.next byte = .osc := by simp [Token.next, inside.1, Ne.symm noBell.1]
    rw [kept]
    exact ih inside.2 noBell.2

theorem passes_osc_bell (opened : Option Bytes)
    (inside : payload.all isStringByte = true) (noBell : 0x07 ∉ payload) :
    Passes config (.ofPrefix opened) (ofAscii "\x1b]" ++ payload ++ [0x07]) .ground := by
  apply passes_escape
  exact Passes.cons rfl ((passes_osc_payload inside noBell).append (Passes.byte rfl))

theorem passes_osc_st (opened : Option Bytes)
    (inside : payload.all isStringByte = true) (noBell : 0x07 ∉ payload) :
    Passes config (.ofPrefix opened) (ofAscii "\x1b]" ++ payload ++ ofAscii "\x1b\\") .ground := by
  apply passes_escape
  refine Passes.cons rfl ((passes_osc_payload inside noBell).append ?_)
  exact Passes.cons rfl (Passes.byte rfl)

theorem passes_dcs_payload (inside : payload.all isStringByte = true) :
    Passes config .dcs payload .dcs := by
  induction payload with
  | nil => exact Passes.nil
  | cons byte payload ih =>
    simp only [List.all_cons, Bool.and_eq_true, isStringByte, decide_eq_true_eq,
      Bool.not_eq_true'] at inside
    apply Passes.cons rfl
    have kept : Token.dcs.next byte = .dcs := by simp [Token.next, inside.1]
    rw [kept]
    exact ih inside.2

theorem passes_dcs (opened : Option Bytes) (inside : payload.all isStringByte = true) :
    Passes config (.ofPrefix opened) (ofAscii "\x1bP" ++ payload ++ ofAscii "\x1b\\") .ground := by
  apply passes_escape
  refine Passes.cons rfl ((passes_dcs_payload inside).append ?_)
  exact Passes.cons rfl (Passes.byte rfl)

theorem passes_controls (opened : Option Bytes) {controls : Bytes}
    (inside : controls.all isCsiByte = true) (low : controls.all (· < 0x20) = true) :
    Passes config (.ofPrefix opened) controls (.ofPrefix opened) := by
  cases opened with
  | some collected =>
    have none_ : controls.filter isParameterByte = [] := by
      rw [List.filter_eq_nil_iff]
      intro byte member
      have control := List.all_eq_true.mp low byte member
      simp only [decide_eq_true_eq] at control
      simp only [isParameterByte, Bool.and_eq_true, decide_eq_true_eq, not_and]
      intro high
      grind
    simpa [none_, Token.ofPrefix] using passes_params inside collected
  | none =>
    induction controls with
    | nil => exact Passes.nil
    | cons byte controls ih =>
      simp only [List.all_cons, Bool.and_eq_true] at inside low
      have notEscape : byte ≠ escape := by
        simp only [isCsiByte, Bool.and_eq_true, decide_eq_true_eq] at inside
        exact inside.1.1.1.1
      apply Passes.cons rfl
      have kept : (Token.ofPrefix none).next byte = .ofPrefix none := by
        simp [Token.ofPrefix, Token.next, notEscape]
      rw [kept]
      exact ih inside.2 low.2

end

end JtermCore.StreamParser
