import JtermCore.StreamParser.Chunks
import JtermCore.StreamParser.ModeList
import JtermCore.StreamParser.Shown
import JtermCore.StreamParser.Tokenizer

/-!
# The filter and its seams

An aborted control sequence is shown before the sequence that follows it is
known.  When that one is taken out of the stream, the prefix stays open
downstream and the bytes behind it complete a sequence the parser never saw.
This file follows the open prefix along the input and shows that the filter
holds exactly as long as no such splice spells an intercepted mode list.
-/

namespace JtermCore.StreamParser

open Bytes ExecutionJournal

/-- The bytes an open sequence has collected are bytes the reference terminal
collects too. -/
def State.Framed : State → Prop
  | .csi introducer buf => introducer = .escBracket ∧ buf.all isCsiByte = true
  | .osc buf | .oscEsc buf => buf.all isStringByte = true ∧ 0x07 ∉ buf
  | .dcs buf | .dcsEsc buf => buf.all isStringByte = true
  | _ => True

def continuePrefix (opened : Option Bytes) (byte : UInt8) : Option Bytes :=
  opened.bind fun collected =>
    if isCancel byte then none
    else if !isParameterByte byte then some collected
    else if byte < 0x40 then some (collected ++ [byte])
    else none

def opensSequence (byte : UInt8) : Bool :=
  byte = escape || byte = 0x5b || byte = 0x5d || byte = 0x5f || byte = 0x50 || byte = 0x5e ||
    byte = 0x58

def escapePrefix (opened : Option Bytes) (byte : UInt8) : Option Bytes :=
  if opensSequence byte then opened else none

/-- The prefix open downstream after a control sequence. -/
def csiPrefix (config : ParserConfig) (opened : Option Bytes) (params : Bytes) (final : UInt8) :
    Option Bytes :=
  match (if final = 0x68 || final = 0x6c then config.interceptedModes params else none) with
  | some modes => if modes.all config.intercepts then opened else none
  | none => none

def nextPrefix [Libraries] (config : ParserConfig) (state : State) (opened : Option Bytes)
    (byte : UInt8) : Option Bytes :=
  match state with
  | .ground => if byte = escape then opened else continuePrefix opened byte
  | .esc => escapePrefix opened byte
  | .csi _ buf =>
    if isCancel byte then none
    else if byte = escape then some (buf.filter isParameterByte)
    else if 0x40 ≤ byte && byte ≤ 0x7e then csiPrefix config opened buf byte
    else opened
  | .osc buf => if byte = 0x07 then oscPrefix buf else opened
  | .oscEsc buf => if byte = 0x5c then oscPrefix buf else abandoned
  | .dcsEsc _ => if byte = 0x5c then none else abandoned
  | .oscDiscardEsc | .apcEsc _ | .apcDiscardEsc | .dcsDiscardEsc | .ignoreEsc =>
    if byte = 0x5c then opened else abandoned
  | _ => opened
where
  oscPrefix (payload : Bytes) : Option Bytes :=
    if (displayBytes (handleOsc payload)).isEmpty then opened else none
  abandoned : Option Bytes :=
    if isCancel byte then opened else escapePrefix opened byte

/-- The byte that completes an open prefix to an intercepted mode list. -/
def Splices (config : ParserConfig) (state : State) (opened : Option Bytes) (byte : UInt8) :
    Prop :=
  state = .ground ∧ ∃ collected, opened = some collected ∧ config.Forbids (collected, byte)

/-- A stretch of output from one open prefix to the next. -/
def Shows (config : ParserConfig) (opened : Option Bytes) (before after : Bytes)
    (closed : Option Bytes) : Prop :=
  ∃ delta, after = before ++ delta ∧ Passes config (.ofPrefix opened) delta (.ofPrefix closed)

namespace Shows

variable {config : ParserConfig} {opened middle closed : Option Bytes}
variable {first second third : Bytes}

theorem nothing : Shows config opened first first opened :=
  ⟨[], (List.append_nil first).symm, Passes.nil⟩

theorem trans (left : Shows config opened first second middle)
    (right : Shows config middle second third closed) : Shows config opened first third closed := by
  obtain ⟨shown, rfl, passes⟩ := left
  obtain ⟨later, rfl, continues⟩ := right
  exact ⟨shown ++ later, List.append_assoc .., passes.append continues⟩

end Shows

namespace Feeding

section

variable {config : ParserConfig} {opened : Option Bytes}

theorem escapeFinal_shown (feeding : Feeding) (byte : UInt8) : (feeding.escapeFinal byte).shown =
      if opensSequence byte then feeding.shown else feeding.shown ++ [escape, byte] := by
  unfold escapeFinal opensSequence
  repeat' split
  all_goals simp_all [shown_hardReset]

theorem escapeFinal_shows (feeding : Feeding) (byte : UInt8) :
    Shows config opened feeding.shown (feeding.escapeFinal byte).shown
      (escapePrefix opened byte) := by
  rw [escapeFinal_shown, escapePrefix]
  split
  · exact .nothing
  · rename_i closed
    simp only [opensSequence, Bool.or_eq_true, decide_eq_true_eq, not_or] at closed
    obtain ⟨⟨⟨⟨⟨⟨notEscape, notCsi⟩, notOsc⟩, -⟩, notDcs⟩, -⟩, -⟩ := closed
    exact ⟨_, rfl, passes_pair opened notEscape notCsi notOsc notDcs⟩

theorem escapeFinal_framed (feeding : Feeding) (byte : UInt8) :
    (feeding.escapeFinal byte).state.Framed := by
  unfold escapeFinal
  repeat' split
  all_goals simp [goto, hardReset, push, State.Framed]

def passedMode (config : ParserConfig) (final : UInt8) (mode : Nat) : Bytes :=
  if config.intercepts mode then []
  else ofAscii "\x1b[?" ++ decimalText mode ++ [final]

theorem interceptMode_shown (config : ParserConfig) (final : UInt8) (feeding : Feeding)
    (mode : Nat) :
    (interceptMode config final feeding mode).shown =
      feeding.shown ++ passedMode config final mode := by
  unfold interceptMode passedMode ParserConfig.intercepts
  dsimp only
  split
  · rename_i alternate
    rw [shown_flush_push]
    by_cases set : final = 0x68 <;> simp [set, alternate, displayBytes, ParserEvent.payload]
  split
  · rename_i suppressed
    simp [suppressed]
  · rename_i passed suppressed
    have quiet : ∀ event ∈ [ParserEvent.decsetMode mode (final = 0x68)], event.isQuiet = true := by
      simp [ParserEvent.isQuiet]
    rw [shown_emit, shown_push_quiet _ quiet]
    simp [passed, suppressed]

variable {final : UInt8}

theorem passedMode_passes (switch : final = 0x68 ∨ final = 0x6c) {mode : Nat}
    (small : mode ≤ u32Max) (opened : Option Bytes) :
    Passes config (.ofPrefix opened) (passedMode config final mode)
      (.ofPrefix (if config.intercepts mode then opened else none)) := by
  unfold passedMode
  split
  · exact Passes.nil
  rename_i passed
  have digits := List.all_eq_true.mp (all_isAsciiDigit_decimalText mode)
  have inside : (ofAscii "?" ++ decimalText mode).all isCsiByte = true := by
    rw [List.all_append, Bool.and_eq_true]
    exact ⟨rfl, List.all_eq_true.mpr fun byte member => isCsiByte_of_digit (digits byte member)⟩
  have isFinal : 0x40 ≤ final ∧ final ≤ 0x7e := by rcases switch with rfl | rfl <;> decide
  apply passes_csi opened inside isFinal
  intro forbids
  have forbidden := (forbids_iff.mp forbids).2
  rw [interceptedModes_filter] at forbidden
  simp [ParserConfig.interceptedModes, privateModes_decimalText small, passed] at forbidden

theorem foldl_interceptMode_shows (switch : final = 0x68 ∨ final = 0x6c)
    {modes : List Nat} (small : ∀ mode ∈ modes, mode ≤ u32Max) (feeding : Feeding) :
    Shows config opened feeding.shown (modes.foldl (interceptMode config final) feeding).shown
      (if modes.all config.intercepts then opened else none) := by
  induction modes generalizing opened feeding with
  | nil => exact .nothing
  | cons mode modes ih =>
    have first : Shows config opened feeding.shown
        (interceptMode config final feeding mode).shown
        (if config.intercepts mode then opened else none) :=
      ⟨_, interceptMode_shown config final feeding mode,
        passedMode_passes switch (small mode (by simp)) opened⟩
    have both := first.trans (ih (fun other member => small other (by simp [member])) _)
    cases hidden : config.intercepts mode <;> simpa [hidden] using both

variable {params : Bytes}

theorem controls_passes (inside : params.all isCsiByte = true) (opened : Option Bytes) :
    Passes config (.ofPrefix opened) (params.filter (· < 0x20)) (.ofPrefix opened) := by
  apply passes_controls
  · rw [List.all_eq_true] at inside ⊢
    exact fun byte member => inside byte (List.mem_filter.mp member).1
  · rw [List.all_eq_true]
    exact fun byte member => (List.mem_filter.mp member).2

theorem intercept_shows (switch : final = 0x68 ∨ final = 0x6c)
    (inside : params.all isCsiByte = true) {modes : List Nat}
    (list : config.interceptedModes params = some modes) (feeding : Feeding) :
    Shows config opened feeding.shown (feeding.intercept config final params modes).shown
      (if modes.all config.intercepts then opened else none) := by
  have controls : Shows config opened feeding.shown
      (feeding.emit (params.filter (· < 0x20))).flush.shown opened := by
    rw [shown_flush, shown_emit]
    exact ⟨_, rfl, controls_passes inside opened⟩
  exact controls.trans (foldl_interceptMode_shows switch (interceptedModes_le list) _)

theorem snoopModes_shown (feeding : Feeding) (final : UInt8) (params : Bytes) :
    (feeding.snoopModes final params).shown = feeding.shown := by
  unfold snoopModes
  split
  · generalize (privateModes params).getD [] = modes
    induction modes generalizing feeding with
    | nil => rfl
    | cons mode modes ih =>
      rw [List.foldl_cons, ih, snoopMode, shown_push_quiet _ (by simp [ParserEvent.isQuiet]),
        shown_updateModes]
  · rfl

theorem finishCsi_shown (feeding : Feeding) (introducer : CsiIntroducer)
    (whole : (if final = 0x68 || final = 0x6c then config.interceptedModes params else none) =
      none) :
    (feeding.finishCsi config introducer params final).shown =
      feeding.shown ++ (introducer.toBytes ++ params ++ [final]) := by
  have untouched (switch : (final = 0x68 || final = 0x6c) = true) :
      ¬ (config.interceptedModes params).isSome = true := by
    rw [if_pos switch] at whole
    simp [whole]
  unfold finishCsi
  dsimp only
  split
  · rename_i event erased
    rw [shown_flush_push]
    unfold eraseEvent at erased
    repeat' split at erased
    all_goals first
      | contradiction
      | cases erased
        simp [displayBytes, ParserEvent.payload]
  split
  · rename_i alternate
    split at alternate
    · rename_i switch
      exact absurd (altScreenMode_intercepted alternate) (untouched switch)
    · contradiction
  split
  · rename_i mouse
    simp only [Bool.and_eq_true, Bool.not_eq_true'] at mouse
    exact absurd (isMouseReportingMode_intercepted mouse.1.1 mouse.2) (untouched mouse.1.2)
  split
  · rename_i focus
    simp only [Bool.and_eq_true, Bool.not_eq_true'] at focus
    exact absurd (isFocusReportingMode_intercepted focus.1.1 focus.2) (untouched focus.1.2)
  · rw [shown_emit, shown_push_quiet _ (Congruence.handshake_isQuiet final params)]

theorem csiFinal_shows (inside : params.all isCsiByte = true)
    (isFinal : 0x40 ≤ final ∧ final ≤ 0x7e) (feeding : Feeding) :
    Shows config opened feeding.shown
      (feeding.csiFinal config .escBracket params final).shown
      (csiPrefix config opened params final) := by
  unfold csiFinal csiPrefix
  cases list : (if final = 0x68 || final = 0x6c then config.interceptedModes params else none) with
  | some modes =>
    dsimp only
    split at list
    · rename_i switch
      simp only [Bool.or_eq_true, decide_eq_true_eq] at switch
      exact intercept_shows switch inside list (feeding.goto .ground)
    · contradiction
  | none =>
    dsimp only
    rw [finishCsi_shown _ _ list, snoopModes_shown, shown_goto]
    refine ⟨_, rfl, passes_csi opened inside isFinal ?_⟩
    intro forbids
    obtain ⟨switch, forbidden⟩ := forbids_iff.mp forbids
    rw [if_pos (by simpa using switch)] at list
    simp [interceptedModes_filter, list] at forbidden

variable [Libraries]

variable {feeding : Feeding} {byte : UInt8}

theorem cancel_shows (framed : feeding.state.Framed)
    (sequence : feeding.state ≠ .ground) (cancels : isCancel byte = true) :
    Shows config opened feeding.shown (feeding.cancel byte).shown
      (nextPrefix config feeding.state opened byte) := by
  have isCancelByte : byte = 0x18 ∨ byte = 0x1a := by simpa [isCancel] using cancels
  have notEscape : byte ≠ escape := by rcases isCancelByte with rfl | rfl <;> decide
  have notBell : byte ≠ 0x07 := by rcases isCancelByte with rfl | rfl <;> decide
  have notBackslash : byte ≠ 0x5c := by rcases isCancelByte with rfl | rfl <;> decide
  have closed : opensSequence byte = false := by rcases isCancelByte with rfl | rfl <;> rfl
  unfold cancel
  cases state : feeding.state with
  | ground => exact absurd state sequence
  | esc =>
    rw [nextPrefix, escapePrefix, closed]
    simp only [opensSequence, Bool.or_eq_false_iff, decide_eq_false_iff_not] at closed
    obtain ⟨⟨⟨⟨⟨⟨-, notCsi⟩, notOsc⟩, -⟩, notDcs⟩, -⟩, -⟩ := closed
    exact ⟨_, shown_emit feeding _, passes_pair opened notEscape notCsi notOsc notDcs⟩
  | csi introducer buf =>
    rw [state] at framed
    obtain ⟨rfl, inside⟩ := framed
    rw [nextPrefix, if_pos cancels]
    exact ⟨_, shown_emit feeding _, passes_cancelled opened inside cancels⟩
  | _ =>
    simp only [nextPrefix, nextPrefix.abandoned, notBell, notBackslash, cancels, if_true, if_false]
    exact .nothing

theorem finishOsc_shows {payload : Bytes} (inside : payload.all isStringByte = true)
    (noBell : 0x07 ∉ payload) (feeding : Feeding) :
    Shows config opened feeding.shown (feeding.finishOsc payload).shown
      (nextPrefix.oscPrefix opened payload) := by
  have shown : (feeding.finishOsc payload).shown =
      feeding.shown ++ displayBytes (handleOsc payload) := shown_flush_push (feeding.goto .ground) _
  rw [shown, nextPrefix.oscPrefix]
  cases echo : displayBytes (handleOsc payload) with
  | nil =>
    rw [List.append_nil]
    exact .nothing
  | cons byte bytes =>
    refine ⟨_, rfl, ?_⟩
    rw [← echo]
    have echoed := handleOsc_echo payload
    generalize displayBytes (handleOsc payload) = passed at echo echoed
    cases echoed with
    | hidden => contradiction
    | bell => exact passes_osc_bell opened inside noBell
    | stringTerminator => exact passes_osc_st opened inside noBell

omit [Libraries] in
theorem abandoned_shows (feeding : Feeding) {byte : UInt8} (notCancel : isCancel byte = false) :
    Shows config opened feeding.shown (feeding.escapeFinal byte).shown
      (nextPrefix.abandoned opened byte) := by
  rw [nextPrefix.abandoned, notCancel]
  exact escapeFinal_shows feeding byte

theorem csiByte_shows {buf : Bytes} (inside : buf.all isCsiByte = true) (feeding : Feeding)
    {introducer : CsiIntroducer} (notCancel : isCancel byte = false) :
    Shows config opened feeding.shown (feeding.csiByte config .escBracket buf byte).shown
      (nextPrefix config (.csi introducer buf) opened byte) := by
  unfold csiByte
  dsimp only [nextPrefix]
  rw [notCancel, if_neg Bool.false_ne_true]
  split
  · exact ⟨_, shown_emit feeding _, passes_csi_front opened inside⟩
  split
  · rename_i isFinal
    exact csiFinal_shows inside (by simpa using isFinal) feeding
  split <;> exact .nothing

theorem sequenceByte_shows (framed : feeding.state.Framed)
    (sequence : feeding.state ≠ .ground) (notCancel : isCancel byte = false) :
    Shows config opened feeding.shown (feeding.sequenceByte config byte).shown
      (nextPrefix config feeding.state opened byte) := by
  unfold sequenceByte
  cases state : feeding.state with
  | ground => exact absurd state sequence
  | esc => exact escapeFinal_shows feeding byte
  | csi introducer buf =>
    rw [state] at framed
    obtain ⟨rfl, inside⟩ := framed
    exact csiByte_shows inside feeding notCancel
  | osc buf =>
    rw [state] at framed
    dsimp only [nextPrefix]
    split
    · exact finishOsc_shows framed.1 framed.2 feeding
    repeat' split
    all_goals exact .nothing
  | oscEsc payload =>
    rw [state] at framed
    dsimp only [nextPrefix]
    split
    · exact finishOsc_shows framed.1 framed.2 feeding
    · exact abandoned_shows feeding notCancel
  | dcsEsc payload =>
    rw [state] at framed
    dsimp only [nextPrefix]
    split
    · exact ⟨_, shown_emit _ _, passes_dcs opened framed⟩
    · exact abandoned_shows feeding notCancel
  | apcEsc payload =>
    dsimp only [nextPrefix]
    split
    · rw [shown_flush_push]
      exact ⟨_, rfl, Passes.nil⟩
    · exact abandoned_shows feeding notCancel
  | oscDiscardEsc | apcDiscardEsc | dcsDiscardEsc | ignoreEsc =>
    dsimp only [nextPrefix]
    split
    · exact .nothing
    · exact abandoned_shows feeding notCancel
  | _ =>
    dsimp only [nextPrefix]
    repeat' split
    all_goals exact .nothing

theorem controlByte_shows {feeding : Feeding} (framed : feeding.state.Framed)
    (sequence : feeding.state ≠ .ground) (byte : UInt8) :
    Shows config opened feeding.shown (feeding.controlByte config byte).shown
      (nextPrefix config feeding.state opened byte) := by
  unfold controlByte
  split
  · rename_i cancels
    exact cancel_shows framed sequence cancels
  · rename_i notCancel
    exact sequenceByte_shows framed sequence (by simpa using notCancel)

section

omit [Libraries]

@[simp]
theorem state_flush (feeding : Feeding) : feeding.flush.state = feeding.state := by
  unfold flush
  split <;> rfl

theorem state_interceptMode (config : ParserConfig) (final : UInt8) (feeding : Feeding)
    (mode : Nat) : (interceptMode config final feeding mode).state = feeding.state := by
  unfold interceptMode
  dsimp only
  split
  · exact state_flush feeding
  split
  · exact state_flush feeding
  · exact state_flush feeding

theorem state_intercept (feeding : Feeding) (final : UInt8) (params : Bytes) (modes : List Nat) :
    (feeding.intercept config final params modes).state = feeding.state := by
  have start := state_flush (feeding.emit (params.filter (· < 0x20)))
  unfold intercept
  rw [show feeding.state = (feeding.emit (params.filter (· < 0x20))).state from rfl, ← start]
  generalize (feeding.emit (params.filter (· < 0x20))).flush = feeding
  induction modes generalizing feeding with
  | nil => rfl
  | cons mode modes ih => rw [List.foldl_cons, ih, state_interceptMode]

theorem state_snoopModes (feeding : Feeding) (final : UInt8) (params : Bytes) :
    (feeding.snoopModes final params).state = feeding.state := by
  unfold snoopModes
  split
  · generalize (privateModes params).getD [] = modes
    induction modes generalizing feeding with
    | nil => rfl
    | cons mode modes ih => rw [List.foldl_cons, ih]; rfl
  · rfl

theorem state_finishCsi (feeding : Feeding) (introducer : CsiIntroducer) (params : Bytes)
    (final : UInt8) : (feeding.finishCsi config introducer params final).state = feeding.state := by
  unfold finishCsi
  dsimp only
  split
  · exact state_flush feeding
  split
  · exact state_flush feeding
  split
  · rfl
  split <;> rfl

theorem state_csiFinal (feeding : Feeding) (introducer : CsiIntroducer) (params : Bytes)
    (final : UInt8) : (feeding.csiFinal config introducer params final).state = .ground := by
  unfold csiFinal
  dsimp only
  split
  · rw [state_intercept]
    rfl
  · rw [state_finishCsi, state_snoopModes]
    rfl

theorem csiByte_framed {buf : Bytes} (inside : buf.all isCsiByte = true) (feeding : Feeding)
    (notCancel : isCancel byte = false) (ascii : byte < 0x80) :
    (feeding.csiByte config .escBracket buf byte).state.Framed := by
  unfold csiByte
  split
  · trivial
  split
  · rw [state_csiFinal]
    trivial
  split
  · trivial
  · rename_i notEscape notFinal _
    refine ⟨rfl, ?_⟩
    have inside₂ : isCsiByte byte = true := by
      have open_ : (0x40 ≤ byte && byte ≤ 0x7e) = false := Bool.eq_false_iff.mpr notFinal
      rw [isCsiByte, open_, notCancel]
      simp [notEscape, ascii]
    rw [List.all_append, inside, List.all_cons, inside₂]
    rfl

end

omit [Libraries] in
theorem isStringByte_append {payload : Bytes} (inside : payload.all isStringByte = true)
    {byte : UInt8} (notEscape : byte ≠ escape) (notCancel : isCancel byte = false) :
    (payload ++ [byte]).all isStringByte = true := by
  rw [List.all_append, inside]
  simp [isStringByte, notEscape, notCancel]

theorem finishOsc_state (feeding : Feeding) (payload : Bytes) :
    (feeding.finishOsc payload).state = .ground := by
  rw [finishOsc, push, state_flush]
  rfl

theorem sequenceByte_framed (framed : feeding.state.Framed)
    (sequence : feeding.state ≠ .ground) (notCancel : isCancel byte = false)
    (ascii : byte < 0x80) : (feeding.sequenceByte config byte).state.Framed := by
  unfold sequenceByte
  cases state : feeding.state with
  | ground => exact absurd state sequence
  | csi introducer buf =>
    rw [state] at framed
    obtain ⟨rfl, inside⟩ := framed
    exact csiByte_framed inside feeding notCancel ascii
  | osc buf =>
    rw [state] at framed
    dsimp only
    split
    · rw [finishOsc_state]
      trivial
    rename_i notBell
    split
    · exact framed
    rename_i notEscape
    split
    · trivial
    · exact ⟨isStringByte_append framed.1 notEscape notCancel, by simp [framed.2, Ne.symm notBell]⟩
  | oscEsc payload =>
    dsimp only
    split
    · rw [finishOsc_state]
      trivial
    · exact escapeFinal_framed feeding byte
  | dcs buf =>
    rw [state] at framed
    dsimp only
    split
    · exact framed
    rename_i notEscape
    split
    · trivial
    · exact isStringByte_append framed notEscape notCancel
  | apcEsc payload =>
    dsimp only
    split
    · rw [push, state_flush]
      trivial
    · exact escapeFinal_framed feeding byte
  | dcsEsc payload =>
    dsimp only
    split
    · trivial
    · exact escapeFinal_framed feeding byte
  | _ =>
    dsimp only
    repeat' split
    all_goals first
      | exact escapeFinal_framed feeding byte
      | simp [goto, state, State.Framed]

theorem controlByte_framed (framed : feeding.state.Framed)
    (sequence : feeding.state ≠ .ground) (ascii : byte < 0x80) :
    (feeding.controlByte config byte).state.Framed := by
  unfold controlByte
  split
  · trivial
  · rename_i notCancel
    exact sequenceByte_framed framed sequence (by simpa using notCancel) ascii

omit [Libraries] in
theorem display_advances (opened : Option Bytes) {byte : UInt8} (notEscape : byte ≠ escape) :
    (Harmless config (.ofPrefix opened) [byte] ↔ ¬ Splices config .ground opened byte) ∧
      (Token.ofPrefix opened).after [byte] = .ofPrefix (continuePrefix opened byte) := by
  cases opened with
  | none =>
    refine ⟨by simp [Harmless, Token.dispatches, Token.dispatched, Token.ofPrefix, Splices], ?_⟩
    simp [Token.after, Token.ofPrefix, Token.next, continuePrefix, notEscape]
  | some collected =>
    constructor
    · have range (switch : byte = 0x68 ∨ byte = 0x6c) : 0x40 ≤ byte ∧ byte ≤ 0x7e := by
        rcases switch with rfl | rfl <;> decide
      have spliced : Splices config .ground (some collected) byte ↔
          config.Forbids (collected, byte) := by simp [Splices]
      rw [spliced]
      by_cases isFinal : 0x40 ≤ byte ∧ byte ≤ 0x7e
      · simp [Harmless, Token.dispatches, Token.dispatched, Token.ofPrefix, isFinal]
      · have notSwitch : ¬ config.Forbids (collected, byte) :=
          fun forbids => isFinal (range forbids.1)
        simp [Harmless, Token.dispatches, Token.dispatched, Token.ofPrefix, isFinal, notSwitch]
    · simp only [Token.after, List.foldl_cons, List.foldl_nil, Token.ofPrefix, Token.next,
        notEscape, continuePrefix, Option.bind_some, if_false]
      split
      · rfl
      split
      · rfl
      split <;> rfl

theorem byteStep_advances (framed : feeding.state.Framed)
    (ascii : byte < 0x80) (opened : Option Bytes) :
    ∃ delta, (feeding.byteStep config byte).shown = feeding.shown ++ delta ∧
      (Harmless config (.ofPrefix opened) delta ↔ ¬ Splices config feeding.state opened byte) ∧
      (Token.ofPrefix opened).after delta =
        .ofPrefix (nextPrefix config feeding.state opened byte) := by
  unfold byteStep
  split
  · rename_i ground
    rw [ground]
    dsimp only [nextPrefix]
    have notIntroducer : byte ≠ c1Csi := by
      rintro rfl
      exact absurd ascii (by decide)
    by_cases isEscape : byte = escape
    · refine ⟨[], ?_, ?_, ?_⟩
      · simp [isGroundStop, groundStop, isEscape]
      · have notSplice : ¬ Splices config .ground opened byte := by
          rintro ⟨-, collected, -, switch, -⟩
          rcases switch with switch | switch <;> exact absurd (isEscape.symm.trans switch)
              (by decide)
        simp [Harmless, Token.dispatches, notSplice]
      · rw [if_pos isEscape]
        rfl
    · have advance := @display_advances config opened byte isEscape
      refine ⟨[byte], ?_, advance.1, ?_⟩
      · simp [isGroundStop, isEscape, notIntroducer]
      · rw [if_neg isEscape, advance.2]
  · rename_i sequence
    obtain ⟨delta, shown, passes⟩ := @controlByte_shows config opened _ _ framed sequence byte
    refine ⟨delta, shown, ?_, passes.after⟩
    have notGround : ¬ Splices config feeding.state opened byte := fun splices =>
      sequence splices.1
    simp [passes.harmless, notGround]

theorem byteStep_framed (framed : feeding.state.Framed)
    (ascii : byte < 0x80) : (feeding.byteStep config byte).state.Framed := by
  unfold byteStep
  split
  · rename_i ground
    unfold isGroundStop groundStop
    have notIntroducer : byte ≠ c1Csi := by
      rintro rfl
      exact absurd ascii (by decide)
    by_cases isEscape : byte = escape
    · simp [isEscape, goto, State.Framed]
    · simp [isEscape, notIntroducer, plain, ground, State.Framed]
  · rename_i sequence
    exact controlByte_framed framed sequence ascii

end

end Feeding

section

open Feeding

variable [Libraries] (config : ParserConfig)

def stateAfter (seen : Bytes) : State := (Parser.new.feed config seen).1.state

/-- The prefix open downstream after some input, the last byte first. -/
def prefixAfterReverse : Bytes → Option Bytes
  | [] => none
  | byte :: earlier =>
    nextPrefix config (stateAfter config earlier.reverse) (prefixAfterReverse earlier) byte

def prefixAfter (seen : Bytes) : Option Bytes := prefixAfterReverse config seen.reverse

/-- No byte of the input completes an aborted prefix to an intercepted list. -/
def Unspliced (input : Bytes) : Prop := ∀ seen byte rest, input = seen ++ byte :: rest →
    ¬ Splices config (stateAfter config seen) (prefixAfter config seen) byte

theorem unspliced_append_singleton {seen : Bytes} {byte : UInt8} :
    Unspliced config (seen ++ [byte]) ↔ Unspliced config seen ∧
        ¬ Splices config (stateAfter config seen) (prefixAfter config seen) byte := by
  constructor
  · intro unspliced
    refine ⟨fun earlier other rest parts => ?_, unspliced seen byte [] rfl⟩
    apply unspliced earlier other (rest ++ [byte])
    rw [parts, List.append_assoc]
    rfl
  · rintro ⟨unspliced, last⟩ earlier other rest parts
    rcases List.eq_nil_or_concat rest with rfl | ⟨rest, final, rfl⟩
    · obtain ⟨rfl, same⟩ := List.append_inj' parts rfl
      cases same
      exact last
    · rw [List.concat_eq_append, ← List.cons_append, ← List.append_assoc] at parts
      obtain ⟨parts, -⟩ := List.append_inj' parts rfl
      exact unspliced earlier other rest parts

theorem stateAfter_eq (seen : Bytes) :
    stateAfter config seen = ((ofParser .new).bytewise config seen).state := by
  rw [stateAfter, Parser.feed_eq]
  exact state_flush _

theorem bytewise_follows {seen : Bytes} (ascii : ∀ byte ∈ seen, byte < 0x80) :
    ((ofParser .new).bytewise config seen).state.Framed ∧
      (Harmless config .ground ((ofParser .new).bytewise config seen).shown ↔
        Unspliced config seen) ∧
      Token.ground.after ((ofParser .new).bytewise config seen).shown =
        .ofPrefix (prefixAfter config seen) := by
  induction seen using List.reverseRecOn with
  | nil =>
    refine ⟨trivial, ?_, rfl⟩
    have nothing : Unspliced config [] := by
      intro seen byte rest parts
      simp at parts
    simp [bytewise, ofParser, Parser.new, shown, displayBytes, Harmless, Token.dispatches, nothing]
  | append_singleton seen byte ih =>
    obtain ⟨framed, harmless, token⟩ := ih fun other member => ascii other (by simp [member])
    have last : byte < 0x80 := ascii byte (by simp)
    obtain ⟨delta, shown, step, after⟩ := byteStep_advances framed last (prefixAfter config seen)
    have grown : ((ofParser .new).bytewise config (seen ++ [byte])) =
        ((ofParser .new).bytewise config seen).byteStep config byte := by simp [bytewise]
    have extended : prefixAfter config (seen ++ [byte]) =
        nextPrefix config (stateAfter config seen) (prefixAfter config seen) byte := by
      simp [prefixAfter, prefixAfterReverse]
    rw [grown, shown]
    refine ⟨byteStep_framed framed last, ?_, ?_⟩
    · rw [harmless_append, harmless, token, step, unspliced_append_singleton, stateAfter_eq]
    · rw [Token.after_append, token, after, extended, stateAfter_eq]

/-- The filter holds exactly on the streams in which no aborted prefix is
completed by a later display byte: however the stream is cut, the display bytes
dispatch no forbidden mode list if and only if the stream is unspliced. -/
theorem feedAll_harmless_iff (chunks : List Bytes)
    (ascii : ∀ byte ∈ chunks.flatten, byte < 0x80) :
    (∀ sequence ∈ Token.ground.dispatches
        (displayBytes (Parser.new.feedAll config chunks).2), ¬ config.Forbids sequence) ↔
      Unspliced config chunks.flatten := by
  have view := (feedAll_observed config chunks (cutsKeepIntroducers_of_ascii ascii)).observed
  rw [observed_ofParser, Observed.nothing_addAll] at view
  have bytes : displayBytes (Parser.new.feedAll config chunks).2 =
      ((ofParser .new).bytewise config chunks.flatten).shown := by
    rw [← observed_nothing_bytes, ← view]
  rw [bytes]
  exact (bytewise_follows config ascii).2.1

end

def splicedSwitch : List Bytes := [ofAscii "\x1b[?1049\x1b]133;A\x07h"]

/-- The prompt mark vanishes, and the switch to the alternate screen is
dispatched downstream. -/
theorem splicedSwitch_dispatched :
    let _ := asciiLibraries
    let config : ParserConfig := ⟨true, true⟩
    (∀ byte ∈ splicedSwitch.flatten, byte < 0x80) ∧
      ∃ sequence ∈ Token.ground.dispatches
        (displayBytes (Parser.new.feedAll config splicedSwitch).2), config.Forbids sequence := by
  refine ⟨by decide +kernel, (ofAscii "?1049", 0x68), by decide +kernel, by decide +kernel⟩

theorem feedAll_harmless_iff_splitSwitch :
    let _ := asciiLibraries
    let config : ParserConfig := ⟨true, true⟩
    (∀ sequence ∈ Token.ground.dispatches
        (displayBytes (Parser.new.feedAll config splitSwitch).2), ¬ config.Forbids sequence) ↔
      Unspliced config splitSwitch.flatten :=
  let _ := asciiLibraries
  feedAll_harmless_iff ⟨true, true⟩ splitSwitch (by decide +kernel)

end JtermCore.StreamParser
