import JtermCore.CommandCorrection.Words

/-!
# Stages of a command

`shell_stages` keeps the same mode of the quoting as the words do, and splits at
control operators outside quotes.  All of these end a word as well, so that no
word is split.
-/

namespace JtermCore.CommandCorrection

open Bytes Quoting Utf8

/-- Whether a character splits, given the character before it. -/
def splitsAt (allControls : Bool) (previous : Option Char) (char : Char) : Bool :=
  (char = '|' || char = ';' || char = '&' || char = '(' || char = ')') &&
    (char = '|' || allControls) && !(char = '&' && (previous = some '<' || previous = some '>'))

/-- The machine over characters: what was read, the stages with the text before
each, the text before the current stage, this stage, and the mode. -/
structure StageLex where
  done : List Char := []
  stages : List (List Char × List Char) := []
  start : List Char := []
  stage : List Char := []
  mode : Mode := outside

/-- The machine behind a character. -/
def StageLex.step (allControls : Bool) (lex : StageLex) (char : Char) : StageLex :=
  if lex.mode = outside ∧ splitsAt allControls lex.done.getLast? char = true then
    { done := lex.done ++ [char]
      stages := lex.stages ++ [(lex.start, lex.stage)]
      start := lex.done ++ [char]
      stage := []
      mode := outside }
  else
    { done := lex.done ++ [char]
      stages := lex.stages
      start := lex.start
      stage := lex.stage ++ [char]
      mode := lex.mode.next char }

def StageLex.run (allControls : Bool) (lex : StageLex) (text : List Char) : StageLex :=
  text.foldl (StageLex.step allControls) lex

def StageLex.flush (lex : StageLex) : List (List Char × List Char) :=
  lex.stages ++ [(lex.start, lex.stage)]

def lexStages (allControls : Bool) (command : List Char) : List (List Char × List Char) :=
  (StageLex.run allControls {} command).flush

/-- The variables of the loop in `shell_stages`. -/
def StageLex.scan (lex : StageLex) : StageScan where
  stages := lex.stages.map spanOf
  start := byteLength lex.start
  quote := quoteByte lex.mode.quote

variable {allControls : Bool}

variable {char : Char}

theorem isSeparator_of_splitsAt {previous : Option Char}
    (splits : splitsAt allControls previous char = true) : isSeparator char = true := by
  rw [splitsAt, Bool.and_eq_true, Bool.and_eq_true] at splits
  have control := splits.1.1
  simp only [Bool.or_eq_true, decide_eq_true_eq] at control
  rcases control with (((rfl | rfl) | rfl) | rfl) | rfl <;> decide

theorem StageLex.step_mode (allControls : Bool) (lex : StageLex) (char : Char) :
    (lex.step allControls char).mode = lex.mode.next char := by
  unfold StageLex.step
  split
  · rename_i both
    rw [both.1, next_outside (isOrdinary_of_isSeparator (isSeparator_of_splitsAt both.2))]
  · rfl

theorem StageLex.step_done (allControls : Bool) (lex : StageLex) (char : Char) :
    (lex.step allControls char).done = lex.done ++ [char] := by
  unfold StageLex.step
  split <;> rfl

theorem StageLex.run_cons (allControls : Bool) (lex : StageLex) (char : Char) (text : List Char) :
    lex.run allControls (char :: text) = (lex.step allControls char).run allControls text :=
  rfl

theorem StageLex.run_append (allControls : Bool) (lex : StageLex) (first second : List Char) :
    lex.run allControls (first ++ second) = (lex.run allControls first).run allControls second :=
  List.foldl_append

theorem StageLex.run_mode (allControls : Bool) (lex : StageLex) (text : List Char) :
    (lex.run allControls text).mode = lex.mode.run text := by
  induction text generalizing lex with
  | nil => rfl
  | cons char text ih => rw [StageLex.run_cons, ih, lex.step_mode, Quoting.run_cons]

theorem StageLex.run_done (allControls : Bool) (lex : StageLex) (text : List Char) :
    (lex.run allControls text).done = lex.done ++ text := by
  induction text generalizing lex with
  | nil => exact (List.append_nil lex.done).symm
  | cons char text ih =>
    rw [StageLex.run_cons, ih, lex.step_done, List.append_assoc]
    rfl

variable {lex : StageLex}

theorem StageLex.step_placed (placed : lex.done = lex.start ++ lex.stage) :
    (lex.step allControls char).done =
      (lex.step allControls char).start ++ (lex.step allControls char).stage := by
  unfold StageLex.step
  split
  · exact (List.append_nil _).symm
  · rw [placed, List.append_assoc]

theorem ascii_splits (allControls : Bool) : ∀ code < 128, ∀ amp : Bool,
    ((UInt8.ofNat code = 0x7c || UInt8.ofNat code = 0x3b || UInt8.ofNat code = 0x26 ||
        UInt8.ofNat code = 0x28 || UInt8.ofNat code = 0x29) &&
      (UInt8.ofNat code = 0x7c || allControls) && !(UInt8.ofNat code = 0x26 && amp)) =
    ((Char.ofNat code = '|' || Char.ofNat code = ';' || Char.ofNat code = '&' ||
        Char.ofNat code = '(' || Char.ofNat code = ')') &&
      (Char.ofNat code = '|' || allControls) && !(Char.ofNat code = '&' && amp)) := by
  cases allControls <;> decide +kernel

theorem getLast?_encodeUtf8_concat (text : List Char) (char : Char) :
    (encodeUtf8 (text ++ [char])).getLast? = (String.utf8EncodeChar char).getLast? := by
  have single : encodeUtf8 [char] = String.utf8EncodeChar char := List.append_nil _
  rw [encodeUtf8_append, single,
    List.getLast?_append_of_ne_nil _ (String.utf8EncodeChar_ne_nil (c := char))]

theorem getLast?_encodeUtf8 (text : List Char) {mark : Char} (small : mark.toNat < 128) :
    (encodeUtf8 text).getLast? = some (UInt8.ofNat mark.toNat) ↔ text.getLast? = some mark := by
  rcases List.eq_nil_or_concat' text with rfl | ⟨init, char, rfl⟩
  · simp [encodeUtf8]
  · rw [getLast?_encodeUtf8_concat, List.getLast?_concat, Option.some.injEq]
    rcases encodeChar_cases char with ⟨single, tiny⟩ | ⟨large, far⟩
    · rw [single, List.getLast?_singleton, Option.some.injEq]
      constructor
      · intro same
        have codes := congrArg UInt8.toNat same
        rw [toNat_ofNat (by omega), toNat_ofNat (by omega)] at codes
        rw [← Char.ofNat_toNat char, codes, Char.ofNat_toNat]
      · rintro rfl
        rfl
    · constructor
      · intro same
        have bound := large _ (List.mem_of_getLast? same)
        rw [toNat_ofNat (by omega)] at bound
        omega
      · rintro rfl
        omega

theorem splitsStage_ascii (allControls : Bool) (text : List Char) (small : char.toNat < 128) :
    splitsStage allControls (encodeUtf8 text).getLast? (UInt8.ofNat char.toNat) =
      splitsAt allControls text.getLast? char := by
  have less : ((encodeUtf8 text).getLast? = some 0x3c) ↔ text.getLast? = some '<' :=
    @getLast?_encodeUtf8 text '<' (by decide)
  have greater : ((encodeUtf8 text).getLast? = some 0x3e) ↔ text.getLast? = some '>' :=
    @getLast?_encodeUtf8 text '>' (by decide)
  have same := ascii_splits allControls char.toNat small
    (decide (text.getLast? = some '<') || decide (text.getLast? = some '>'))
  rw [Char.ofNat_toNat] at same
  rw [splitsStage, splitsAt, ← same]
  simp only [less, greater]

variable {scan : StageScan} {byte : UInt8} {previous : Option UInt8}

theorem StageScan.step_split (index : Nat) (bare : scan.quote = none)
    (splits : splitsStage allControls previous byte = true) :
    scan.step allControls previous index byte =
      ({ scan with stages := scan.stages ++ [(scan.start, index)], start := index + 1 }, false) := by
  have control := splits
  rw [splitsStage, Bool.and_eq_true, Bool.and_eq_true] at control
  have marks := control.1.1
  simp only [Bool.or_eq_true, decide_eq_true_eq] at marks
  unfold StageScan.step
  rw [if_neg (by rw [bare]; exact fun none_ => nomatch none_),
    if_neg (by rw [bare]; exact Bool.false_ne_true), if_pos splits]
  rcases marks with (((rfl | rfl) | rfl) | rfl) | rfl <;> rfl

theorem StageScan.step_keep
    {kind : Quote} (index : Nat) (quote : scan.quote = quoteByte kind)
    (keeps : ¬(scan.quote = none ∧ splitsStage allControls previous byte = true)) :
    scan.step allControls previous index byte =
      ({ scan with quote := (nextQuote scan.quote byte).1 }, (nextQuote scan.quote byte).2) := by
  obtain ⟨stages, start, kept⟩ := scan
  simp only at quote keeps ⊢
  subst quote
  unfold StageScan.step nextQuote
  cases kind with
  | bare =>
    have unsplit : splitsStage allControls previous byte = false := by simpa [quoteByte] using keeps
    by_cases slash : byte = 0x5c
    · subst slash
      rfl
    · by_cases mark : byte = 0x27 ∨ byte = 0x22
      · simp [quoteByte, slash, mark]
      · simp [quoteByte, slash, mark, unsplit]
  | single =>
    by_cases tick : byte = 0x27
    · simp [quoteByte, tick]
    · simp [quoteByte, tick]
  | double =>
    by_cases slash : byte = 0x5c
    · subst slash
      rfl
    · by_cases mark : byte = 0x22
      · simp [quoteByte, mark]
      · simp [quoteByte, slash, mark]

theorem step_stage_ascii (placed : lex.done = lex.start ++ lex.stage) (small : char.toNat < 128)
    (unescaped : lex.mode.escaped = false) :
    lex.scan.step allControls (encodeUtf8 lex.done).getLast? (byteLength lex.done)
        (UInt8.ofNat char.toNat) =
      ((lex.step allControls char).scan, (lex.step allControls char).mode.escaped) := by
  have bare : lex.scan.quote = none ↔ lex.mode = outside := by
    change quoteByte lex.mode.quote = none ↔ _
    rw [quoteByte_eq_none]
    generalize lex.mode = mode at unescaped ⊢
    obtain ⟨quote, escaped⟩ := mode
    rw [outside, Mode.mk.injEq]
    simpa using fun _ => unescaped
  have single : char.utf8Size = 1 := by
    rcases encodeChar_cases char with ⟨one, -⟩ | ⟨-, far⟩
    · rw [← String.length_utf8EncodeChar, one]
      rfl
    · omega
  by_cases splits : lex.mode = outside ∧ splitsAt allControls lex.done.getLast? char = true
  · rw [StageScan.step_split _ (bare.mpr splits.1)
      ((splitsStage_ascii allControls lex.done small).trans splits.2), StageLex.step, if_pos splits]
    unfold StageLex.scan
    rw [splits.1, List.map_append, List.map_singleton, spanOf, ← placed, byteLength_append,
      byteLength_single, single]
    rfl
  · have keeps : ¬(lex.scan.quote = none ∧ splitsStage allControls
        (encodeUtf8 lex.done).getLast? (UInt8.ofNat char.toNat) = true) := by
      rw [bare, splitsStage_ascii allControls lex.done small]
      exact splits
    have quote : lex.scan.quote = quoteByte lex.mode.quote := rfl
    rw [StageScan.step_keep _ quote keeps, quote, nextQuote_eq small unescaped, StageLex.step,
      if_neg splits]
    rfl

theorem splitsStage_of_large (large : 128 ≤ byte.toNat) (allControls : Bool)
    (previous : Option UInt8) : splitsStage allControls previous byte = false := by
  have apart : ∀ code : UInt8, code.toNat < 128 → byte ≠ code := by
    rintro code small rfl
    omega
  have pipe := apart 0x7c (by decide)
  have semicolon := apart 0x3b (by decide)
  have ampersand := apart 0x26 (by decide)
  have left := apart 0x28 (by decide)
  have right := apart 0x29 (by decide)
  simp [splitsStage, pipe, semicolon, ampersand, left, right]

theorem splitsAt_of_large (large : 128 ≤ char.toNat) (allControls : Bool)
    (previous : Option Char) : splitsAt allControls previous char = false := by
  cases splits : splitsAt allControls previous char with
  | false => rfl
  | true =>
    have separator := isSeparator_of_splitsAt splits
    rw [isSeparator_of_large large] at separator
    cases separator

theorem stageLoop_large {bytes : Bytes} (large : ∀ byte ∈ bytes, 128 ≤ byte.toNat) {kind : Quote}
    (quote : scan.quote = quoteByte kind) (previous : Option UInt8) (index : Nat) (rest : Bytes) :
    stageLoop allControls scan previous index false (bytes ++ rest) =
      stageLoop allControls scan (bytes.getLast?.or previous) (index + bytes.length) false rest := by
  induction bytes generalizing index previous with
  | nil => rfl
  | cons byte bytes ih =>
    have far := large byte List.mem_cons_self
    have same : scan.step allControls previous index byte = (scan, false) := by
      rw [StageScan.step_keep index quote (by
        rw [splitsStage_of_large far]
        exact fun both => Bool.false_ne_true both.2), nextQuote_of_large far]
    have last : bytes.getLast?.or (some byte) = ((byte :: bytes).getLast?).or previous := by
      rw [List.getLast?_cons]
      cases bytes.getLast? <;> rfl
    rw [List.cons_append, stageLoop, if_neg Bool.false_ne_true, same,
      ih fun other member => large other (List.mem_cons_of_mem byte member), last,
      List.length_cons, Nat.add_assoc, Nat.add_comm 1]

theorem stageLoop_char
    (placed : lex.done = lex.start ++ lex.stage) (char : Char) (rest : Bytes) :
    stageLoop allControls lex.scan (encodeUtf8 lex.done).getLast? (byteLength lex.done)
        lex.mode.escaped (String.utf8EncodeChar char ++ rest) =
      stageLoop allControls (lex.step allControls char).scan
        (encodeUtf8 (lex.step allControls char).done).getLast?
        (byteLength (lex.step allControls char).done) (lex.step allControls char).mode.escaped
        rest := by
  have length : byteLength (lex.step allControls char).done =
      byteLength lex.done + char.utf8Size := by
    rw [lex.step_done, byteLength_append, byteLength_single]
  have last : (encodeUtf8 (lex.step allControls char).done).getLast? =
      (String.utf8EncodeChar char).getLast? := by rw [lex.step_done, getLast?_encodeUtf8_concat]
  have kept : lex.mode.escaped = true ∨ 128 ≤ char.toNat →
      (lex.step allControls char).scan = lex.scan ∧
        (lex.step allControls char).mode.escaped = false := by
    intro either
    have next : lex.mode.next char = ⟨lex.mode.quote, false⟩ := by
      rcases either with escaped | far
      · rw [Mode.next, if_pos escaped]
      · exact next_of_large far
    have keeps : ¬(lex.mode = outside ∧ splitsAt allControls lex.done.getLast? char = true) := by
      rintro ⟨bare, splits⟩
      rcases either with escaped | far
      · rw [bare] at escaped
        cases escaped
      · rw [splitsAt_of_large far] at splits
        cases splits
    rw [StageLex.step, if_neg keeps]
    unfold StageLex.scan
    rw [next]
    exact ⟨rfl, rfl⟩
  rw [length, last]
  rcases encodeChar_cases char with ⟨single, small⟩ | ⟨large, far⟩
  · have size : char.utf8Size = 1 := by
      rw [← String.length_utf8EncodeChar, single]
      rfl
    rw [single, size, List.getLast?_singleton]
    cases escaped : lex.mode.escaped with
    | true =>
      obtain ⟨same, unescaped⟩ := kept (.inl escaped)
      rw [List.singleton_append, stageLoop, if_pos rfl, same, unescaped]
    | false =>
      rw [List.singleton_append, stageLoop, if_neg Bool.false_ne_true,
        step_stage_ascii placed small escaped]
  · obtain ⟨same, unescaped⟩ := kept (.inr far)
    rw [same, unescaped]
    have quote : lex.scan.quote = quoteByte lex.mode.quote := rfl
    have size := String.length_utf8EncodeChar char
    cases escaped : lex.mode.escaped with
    | false =>
      rw [stageLoop_large large quote, size]
      congr 1
      obtain ⟨first, more, encoded⟩ :=
        List.exists_cons_of_ne_nil (String.utf8EncodeChar_ne_nil (c := char))
      rw [encoded, List.getLast?_cons]
      rfl
    | true =>
      obtain ⟨first, more, encoded⟩ :=
        List.exists_cons_of_ne_nil (String.utf8EncodeChar_ne_nil (c := char))
      rw [encoded] at large size ⊢
      rw [List.length_cons] at size
      rw [List.cons_append, stageLoop, if_pos rfl,
        stageLoop_large (fun byte member => large byte (List.mem_cons_of_mem first member)) quote,
        ← size, Nat.add_assoc, Nat.add_comm 1]
      congr 1
      rw [List.getLast?_cons]
      cases more.getLast? <;> rfl

theorem stageLoop_run {allControls : Bool} {lex : StageLex}
    (placed : lex.done = lex.start ++ lex.stage) (text : List Char) :
    stageLoop allControls lex.scan (encodeUtf8 lex.done).getLast? (byteLength lex.done)
        lex.mode.escaped (encodeUtf8 text) = (lex.run allControls text).scan ∧
      (lex.run allControls text).done =
        (lex.run allControls text).start ++ (lex.run allControls text).stage := by
  induction text generalizing lex with
  | nil => exact ⟨rfl, placed⟩
  | cons char text ih =>
    rw [encodeUtf8_cons, stageLoop_char placed, StageLex.run_cons]
    exact ih (StageLex.step_placed placed)

theorem shellStageRanges_eq (command : List Char) (allControls : Bool) :
    shellStageRanges command allControls = (lexStages allControls command).map spanOf := by
  obtain ⟨run, placed⟩ : stageLoop allControls {} none 0 false (encodeUtf8 command) =
      (StageLex.run allControls {} command).scan ∧ _ := @stageLoop_run allControls {} rfl command
  rw [StageLex.run_done] at placed
  rw [shellStageRanges, run, lexStages, StageLex.flush, List.map_append, List.map_singleton,
    spanOf, ← placed]
  rfl

theorem run_stage_concat (allControls : Bool) (text : List Char) (char : Char) :
    StageLex.run allControls {} (text ++ [char]) =
      (StageLex.run allControls {} text).step allControls char :=
  StageLex.run_append allControls {} text [char]

theorem stages_closed (allControls : Bool) (text : List Char) :
    ∀ stage ∈ (StageLex.run allControls {} text).stages, ∃ char rest,
      text = stage.1 ++ (stage.2 ++ char :: rest) ∧ outside.run (stage.1 ++ stage.2) = outside ∧
      splitsAt allControls (stage.1 ++ stage.2).getLast? char = true := by
  induction text using List.reverseRecOn with
  | nil =>
    intro stage member
    cases member
  | append_singleton text char ih =>
    intro stage member
    have older : stage ∈ (StageLex.run allControls {} text).stages → ∃ char' rest,
        text ++ [char] = stage.1 ++ (stage.2 ++ char' :: rest) ∧
        outside.run (stage.1 ++ stage.2) = outside ∧
        splitsAt allControls (stage.1 ++ stage.2).getLast? char' = true := by
      intro earlier
      obtain ⟨control, rest, whole, closed, splits⟩ := ih stage earlier
      refine ⟨control, rest ++ [char], ?_, closed, splits⟩
      rw [whole]
      simp only [List.append_assoc, List.cons_append]
    have placed := (@stageLoop_run allControls {} rfl text).2
    have mode := StageLex.run_mode allControls {} text
    rw [StageLex.run_done] at placed
    rw [run_stage_concat] at member
    unfold StageLex.step at member
    split at member
    · rename_i both
      rcases List.mem_append.mp member with earlier | last
      · exact older earlier
      · obtain rfl := List.mem_singleton.mp last
        rw [mode, StageLex.run_done] at both
        refine ⟨char, [], ?_, ?_, ?_⟩
        · rw [← List.append_assoc, ← placed]
          rfl
        · rw [← placed]
          exact both.1
        · rw [← placed]
          exact both.2
    · exact older member

theorem shellStages_eq (command : List Char) (allControls : Bool) :
    shellStages command allControls = some ((lexStages allControls command).map Prod.snd) := by
  rw [shellStages, shellStageRanges_eq, List.mapM_map]
  refine mapM_eq_some fun stage member => ?_
  have placed := (@stageLoop_run allControls {} rfl command).2
  rw [StageLex.run_done] at placed
  rcases List.mem_append.mp member with earlier | last
  · obtain ⟨char, rest, whole, -⟩ := stages_closed allControls command stage earlier
    rw [Function.comp_apply, spanOf, whole]
    exact slice_append stage.1 stage.2 (char :: rest)
  · obtain rfl := List.mem_singleton.mp last
    have whole : command = (StageLex.run allControls {} command).start ++
        ((StageLex.run allControls {} command).stage ++ []) := by
      rw [List.append_nil, ← placed]
      rfl
    have sliced := slice_append (StageLex.run allControls {} command).start
      (StageLex.run allControls {} command).stage []
    rw [← whole] at sliced
    exact sliced

theorem inside_word {command before word after front rest : List Char}
    (whole : command = before ++ (word ++ after)) (cut : command = front ++ char :: rest)
    (least : byteLength before ≤ byteLength front)
    (most : byteLength front < byteLength (before ++ word)) (bare : outside.run before = outside)
    (inner : Inner outside word) : ¬(outside.run front = outside ∧ isSeparator char = true) := by
  have same : before ++ (word ++ after) = front ++ char :: rest := whole ▸ cut
  have within : ∃ more, front = before ++ more := by
    rcases List.append_eq_append_iff.mp same with ⟨more, behind, -⟩ | ⟨more, ahead, -⟩
    · exact ⟨more, behind⟩
    · rw [ahead, byteLength_append] at least
      cases more with
      | nil => exact ⟨[], by rw [ahead, List.append_nil, List.append_nil]⟩
      | cons first more =>
        have positive := byteLength_pos (List.cons_ne_nil first more)
        omega
  obtain ⟨more, rfl⟩ := within
  rw [List.append_assoc, List.append_cancel_left_eq] at same
  have place : ∃ last, word = more ++ char :: last := by
    rcases List.append_eq_append_iff.mp same with ⟨extra, behind, -⟩ | ⟨extra, ahead, tail⟩
    · rw [behind, ← List.append_assoc, byteLength_append (before ++ word)] at most
      exact absurd most (Nat.not_lt.mpr (Nat.le_add_right _ _))
    · cases extra with
      | nil =>
        rw [ahead, List.append_nil] at most
        exact absurd most (Nat.lt_irrefl _)
      | cons first extra =>
        obtain ⟨rfl, -⟩ := List.cons.inj tail
        exact ⟨extra, ahead⟩
  obtain ⟨last, split⟩ := place
  rw [Quoting.run_append, bare]
  exact inner more char last split

theorem separators_outside_words (command : List Char) (allControls : Bool) :
    ∀ range ∈ (shellStageRanges command allControls).dropLast, ∀ span ∈ shellWordSpans command,
      ¬(span.1 ≤ range.2 ∧ range.2 < span.2) := by
  rw [shellStageRanges_eq, shellWordSpans_eq, lexStages, StageLex.flush, List.map_append,
    List.map_singleton, List.dropLast_concat]
  rintro range member span inside ⟨least, most⟩
  obtain ⟨stage, listed, rfl⟩ := List.mem_map.mp member
  obtain ⟨word, found, rfl⟩ := List.mem_map.mp inside
  obtain ⟨char, rest, cut, closed, splits⟩ := stages_closed allControls command stage listed
  obtain ⟨front, back, -, begins, after, whole, -⟩ := lexWords_mem found
  rw [← List.append_assoc] at cut
  exact inside_word whole cut least most begins.bare begins.inner
    ⟨closed, isSeparator_of_splitsAt splits⟩

end JtermCore.CommandCorrection
