import Mathlib.Data.List.Induction
import JtermCore.StreamParser.Parser

/-!
# Private-mode lists

A list that the parser does not take apart is never dropped, and a mode that it
passes on alone reads back as that mode.
-/

namespace JtermCore.StreamParser

open Bytes

theorem saturatingValue_le (token : Bytes) : saturatingValue token ≤ u32Max := by
  induction token using List.reverseRecOn with
  | nil => exact Nat.zero_le _
  | append_singleton token digit ih =>
    rw [saturatingValue, List.foldl_append]
    exact Nat.min_le_right _ _

theorem saturatingValue_eq (token : Bytes) :
    saturatingValue token = min (decimalValue token) u32Max := by
  induction token using List.reverseRecOn with
  | nil => rfl
  | append_singleton token digit ih =>
    have step : saturatingValue (token ++ [digit]) =
        saturatingDigit (saturatingValue token) digit := by simp [saturatingValue]
    rw [step, ih, decimalValue_append_singleton, saturatingDigit]
    simp only [u32Max]
    omega

theorem privateModes_filter (params : Bytes) :
    privateModes (params.filter isParameterByte) = privateModes params := by
  simp [privateModes, List.filter_filter]

theorem privateModes_le {params : Bytes} {modes : List Nat}
    (list : privateModes params = some modes) : ∀ mode ∈ modes, mode ≤ u32Max := by
  unfold privateModes at list
  obtain ⟨text, -, parsed⟩ := Option.bind_eq_some_iff.mp list
  clear list
  generalize text.splitOn semicolon = tokens at parsed
  induction tokens generalizing modes with
  | nil =>
    cases parsed
    simp
  | cons token tokens ih =>
    rw [List.mapM_cons] at parsed
    obtain ⟨first, value, parsed⟩ := Option.bind_eq_some_iff.mp parsed
    obtain ⟨rest, values, same⟩ := Option.bind_eq_some_iff.mp parsed
    cases same
    intro mode member
    rcases List.mem_cons.mp member with rfl | member
    · split at value <;> cases value
      exact saturatingValue_le _
    · exact ih values mode member

theorem privateModes_decimalText {mode : Nat} (small : mode ≤ u32Max) :
    privateModes (ofAscii "?" ++ decimalText mode) = some [mode] := by
  have digits := List.all_eq_true.mp (all_isAsciiDigit_decimalText mode)
  have kept : (ofAscii "?" ++ decimalText mode).filter isParameterByte =
      ofAscii "?" ++ decimalText mode := by
    rw [List.filter_eq_self]
    intro byte member
    rcases List.mem_append.mp member with member | member
    · rw [List.mem_singleton.mp member]
      rfl
    · have digit := digits byte member
      simp only [isAsciiDigit, isParameterByte, Bool.and_eq_true, decide_eq_true_eq] at digit ⊢
      grind
  have stripped : stripPrefix (ofAscii "?") (ofAscii "?" ++ decimalText mode) =
      some (decimalText mode) := by simp [stripPrefix]
  have single : (decimalText mode).splitOn semicolon = [decimalText mode] := by
    apply List.splitOnP_eq_singleton
    intro byte member
    have digit := digits byte member
    by_contra separator
    have equal : byte = semicolon := by simpa using separator
    rw [equal] at digit
    exact absurd digit (by decide)
  have value : saturatingValue (decimalText mode) = mode := by
    rw [saturatingValue_eq, decimalValue_decimalText]
    omega
  rw [privateModes, kept, stripped, Option.bind_some, single, List.mapM_cons,
    if_pos (all_isAsciiDigit_decimalText mode), value]
  rfl

section

variable {config : ParserConfig} {params : Bytes}

theorem interceptedModes_filter (config : ParserConfig) (params : Bytes) :
    config.interceptedModes (params.filter isParameterByte) = config.interceptedModes params := by
  simp only [ParserConfig.interceptedModes, privateModes_filter]

theorem interceptedModes_le {modes : List Nat}
    (list : config.interceptedModes params = some modes) : ∀ mode ∈ modes, mode ≤ u32Max :=
  privateModes_le (Option.filter_eq_some_iff.mp list).1

theorem interceptedModes_isSome (listed : Nat → Bool)
    (spelled : (privateModes params).any (·.any listed) = true)
    (intercepted : ∀ mode, listed mode = true → config.intercepts mode = true) :
    (config.interceptedModes params).isSome = true := by
  cases list : privateModes params with
  | none => simp [list] at spelled
  | some modes =>
    rw [list, Option.any_some, List.any_eq_true] at spelled
    obtain ⟨mode, member, isListed⟩ := spelled
    have found : modes.any config.intercepts = true :=
      List.any_eq_true.mpr ⟨mode, member, intercepted mode isListed⟩
    simp [ParserConfig.interceptedModes, list, found]

theorem altScreenMode_intercepted {mode : Nat} (alternate : altScreenMode params = some mode) :
    (config.interceptedModes params).isSome = true := by
  apply interceptedModes_isSome isAltScreenMode
  · unfold altScreenMode at alternate
    repeat' split at alternate
    all_goals first
      | contradiction
      | rename_i spelled
        rw [spelled]
        decide +kernel
  · intro mode alternate
    simp [ParserConfig.intercepts, alternate]

theorem isMouseReportingMode_intercepted (hidden : config.mouseReporting = false)
    (mouse : isMouseReportingMode params = true) :
    (config.interceptedModes params).isSome = true := by
  apply interceptedModes_isSome isMouseMode
  · obtain ⟨name, member, spelled⟩ := List.any_eq_true.mp mouse
    rw [decide_eq_true_eq] at spelled
    have names : ∀ name ∈ ["?9", "?1000", "?1001", "?1002", "?1003", "?1005", "?1006", "?1015",
        "?1016"], (privateModes (ofAscii name)).any (·.any isMouseMode) = true := by decide +kernel
    rw [spelled]
    exact names name member
  · intro mode mouse
    simp [ParserConfig.intercepts, ParserConfig.suppresses, hidden, mouse]

theorem isFocusReportingMode_intercepted (hidden : config.focusReporting = false)
    (focus : isFocusReportingMode params = true) :
    (config.interceptedModes params).isSome = true := by
  apply interceptedModes_isSome (· = 1004)
  · rw [isFocusReportingMode, decide_eq_true_eq] at focus
    rw [focus]
    decide +kernel
  · intro mode focus
    simp [ParserConfig.intercepts, ParserConfig.suppresses, hidden, focus]

end

end JtermCore.StreamParser
