import JtermCore.CharBoundary
import JtermCore.Workflows.Render

/-!
# The walk stays between characters

A brace is a character of one byte, so both its sides are character boundaries.
Every offset at which the walk over a template stops, and every close it looks
up, is such a boundary: the walk never stops the program.
-/

namespace JtermCore.Workflows

open Bytes Checked ExecutionJournal Utf8

/-- An offset between two characters. -/
def Between (text : List Char) (offset : Nat) : Prop :=
  ∃ before after, text = before ++ after ∧ (encodeUtf8 before).length = offset

theorem between_zero (text : List Char) : Between text 0 := ⟨[], text, rfl, rfl⟩

theorem between_length (text : List Char) : Between text (encodeUtf8 text).length :=
  ⟨text, [], (List.append_nil text).symm, rfl⟩

variable {text : List Char} {offset : Nat}

theorem Between.le (between : Between text offset) : offset ≤ (encodeUtf8 text).length := by
  obtain ⟨before, after, rfl, rfl⟩ := between
  rw [encodeUtf8_append, List.length_append]
  exact Nat.le_add_right ..

theorem Between.isCharBoundary (between : Between text offset) :
    isCharBoundary (encodeUtf8 text) offset = true := by
  obtain ⟨before, after, rfl, rfl⟩ := between
  rw [ExecutionJournal.isCharBoundary, encodeUtf8_append,
    List.getElem?_append_right (Nat.le_refl _), Nat.sub_self]
  cases after with
  | nil => simp [encodeUtf8_nil]
  | cons char after =>
    obtain ⟨first, rest, encoded⟩ :=
      List.exists_cons_of_ne_nil (String.utf8EncodeChar_ne_nil (c := char))
    rw [encodeUtf8_cons, encoded, List.cons_append]
    simp [isContinuation_head encoded]

theorem split_at_ascii {byte : UInt8}
    (found : (encodeUtf8 text)[offset]? = some byte) (ascii : byte.toNat < 128) :
    ∃ before char after, text = before ++ char :: after ∧
      (encodeUtf8 before).length = offset ∧ String.utf8EncodeChar char = [byte] := by
  obtain ⟨inside, here⟩ := List.getElem?_eq_some_iff.mp found
  have split := List.take_append_drop offset (encodeUtf8 text)
  rw [List.drop_eq_getElem_cons inside, here] at split
  have starts : isContinuation byte = false := by
    simp only [isContinuation, Bool.and_eq_false_iff, decide_eq_false_iff_not,
      UInt8.le_iff_toNat_le, Nat.not_le, UInt8.reduceToNat]
    exact .inl ascii
  obtain ⟨before, after, rfl, front, back⟩ := encodeUtf8_split split.symm starts
  have length : (encodeUtf8 before).length = offset := by
    rw [front, List.length_take, Nat.min_eq_left (Nat.le_of_lt inside)]
  cases after with
  | nil => cases back
  | cons char after =>
    rw [encodeUtf8_cons] at back
    obtain ⟨first, rest, encoded⟩ :=
      List.exists_cons_of_ne_nil (String.utf8EncodeChar_ne_nil (c := char))
    have member : byte ∈ String.utf8EncodeChar char := by
      rw [encoded, List.cons_append] at back
      rw [encoded, (List.cons.inj back).1]
      exact List.mem_cons_self
    exact ⟨before, char, after, rfl, length, (encodeChar_ascii member ascii).2⟩

theorem between_ascii {byte : UInt8}
    (found : (encodeUtf8 text)[offset]? = some byte) (ascii : byte.toNat < 128) :
    Between text offset ∧ Between text (offset + 1) := by
  obtain ⟨before, char, after, rfl, length, encoded⟩ := split_at_ascii found ascii
  refine ⟨⟨before, char :: after, rfl, length⟩, ⟨before ++ [char], after, by simp, ?_⟩⟩
  rw [encodeUtf8_append, encodeUtf8_cons, encoded, List.length_append, length]
  rfl

theorem between_pair {brace : UInt8} (ascii : brace.toNat < 128)
    (pair : pairAt brace (encodeUtf8 text) offset = true) :
    Between text offset ∧ Between text (offset + 1) ∧ Between text (offset + 2) := by
  simp only [pairAt, Bool.and_eq_true, decide_eq_true_eq] at pair
  have first := between_ascii pair.1 ascii
  have second := between_ascii pair.2 ascii
  exact ⟨first.1, first.2, second.2⟩

theorem sliceText_between {start stop : Nat} (ordered : start ≤ stop)
    (first : Between text start) (second : Between text stop) :
    sliceText (encodeUtf8 text) start stop = some (((encodeUtf8 text).take stop).drop start) :=
  if_pos ⟨ordered, second.le, first.isCharBoundary, second.isCharBoundary⟩

/-- A round that goes on does so between two characters, further on. -/
def Advances (text : List Char) (offset : Nat) (result : Except Bytes (Rendering × Nat)) : Prop :=
  ∀ rendering next, result = .ok (rendering, next) → offset < next ∧ Between text next

theorem advances_push {next : Nat} (rendering : Rendering)
    (addition : Bytes) (further : offset < next) (between : Between text next) :
    Advances text offset (rendering.push addition next) := by
  intro later stop pushed
  unfold Rendering.push at pushed
  obtain ⟨out, -, same⟩ := Result.map_eq_ok.mp pushed
  cases same
  exact ⟨further, between⟩

theorem placeholder_yields {next : Nat}
    (bindings : List (Bytes × Bytes)) (missingBindings : List Bytes) (rendering : Rendering)
    (name : Bytes) {unbound : Option (Except Bytes (Rendering × Nat))} (further : offset < next)
    (between : Between text next) (otherwise : Yields unbound (Advances text offset)) :
    Yields (placeholder bindings missingBindings rendering name next unbound)
      (Advances text offset) := by
  unfold placeholder
  split
  · exact .pure (advances_push rendering _ further between)
  split
  · refine .pure fun later stop same => ?_
    cases same
    exact ⟨further, between⟩
  · exact otherwise

theorem character_eq {before after : List Char} {char : Char}
    (same : text = before ++ char :: after) (rendering : Rendering) :
    character (encodeUtf8 text) rendering (encodeUtf8 before).length =
      some (rendering.push (String.utf8EncodeChar char)
        ((encodeUtf8 before).length + (String.utf8EncodeChar char).length)) := by
  have between : Between text (encodeUtf8 before).length := ⟨before, char :: after, same, rfl⟩
  have slice := sliceText_between between.le between (between_length text)
  have rest : ((encodeUtf8 text).take (encodeUtf8 text).length).drop (encodeUtf8 before).length =
      encodeUtf8 (char :: after) := by
    rw [List.take_length, same, encodeUtf8_append, List.drop_left]
  have first : (chars (encodeUtf8 (char :: after))).head? = some char := by
    rw [chars, decodeUtf8_encodeUtf8]
    rfl
  unfold character
  rw [slice, rest]
  show ((chars (encodeUtf8 (char :: after))).head? >>= _) = _
  rw [first]
  rfl

theorem character_yields (rendering : Rendering)
    (between : Between text offset) (inside : offset < (encodeUtf8 text).length) :
    Yields (character (encodeUtf8 text) rendering offset) (Advances text offset) := by
  obtain ⟨before, after, same, rfl⟩ := between
  cases after with
  | nil =>
    rw [same, List.append_nil] at inside
    omega
  | cons char after =>
    rw [character_eq same]
    refine .pure (advances_push rendering _ ?_ ⟨before ++ [char], after, by simp [same], ?_⟩)
    · have nonempty := List.length_pos_iff.mpr (String.utf8EncodeChar_ne_nil (c := char))
      omega
    · rw [encodeUtf8_append, encodeUtf8_cons, encodeUtf8_nil, List.append_nil, List.length_append]

section

variable {text : List Char} {closes nexts : List (Option Nat)}
  (closesLength : closes.length = (encodeUtf8 text).length)
  (closesHold : HoldsFrom closes (matchingClose (encodeUtf8 text)) 0)
  (nextsLength : nexts.length = (encodeUtf8 text).length + 1)
  (nextsHold : HoldsFrom nexts (nextClose (encodeUtf8 text)) 0)
  (bindings : List (Bytes × Bytes)) (missingBindings : List Bytes)

include closesLength closesHold nextsLength nextsHold

theorem renderStep_yields (rendering : Rendering) (between : Between text offset)
    (inside : offset < (encodeUtf8 text).length) :
    Yields (renderStep (encodeUtf8 text) closes nexts bindings missingBindings rendering offset)
      (Advances text offset) := by
  have read := List.getElem?_eq_getElem inside
  unfold renderStep
  rw [read]
  show Yields (if _ then _ else _) _
  split
  · rename_i opens
    have ascii : openBrace.toNat < 128 := by decide
    have closing : closeBrace.toNat < 128 := by decide
    rw [opens] at read
    split
    · rename_i pair
      have sides := between_pair ascii pair
      rw [closesHold offset (Nat.zero_le _) (by omega), matchingClose, if_pos pair]
      rw [Option.bind_eq_bind, Option.bind_some]
      cases found : legacyFindClose (encodeUtf8 text) (offset + 2) with
      | none =>
        exact .pure (advances_push rendering _ (Nat.lt_succ_self _) sides.2.1)
      | some stop =>
        have behind := findCloseLoop_found found
        have stops := between_pair closing behind.2
        dsimp only
        rw [sliceText_between behind.1 sides.2.2 stops.1]
        exact placeholder_yields bindings missingBindings rendering _ (by omega) stops.2.2
          (.pure (advances_push rendering _ (by omega) sides.2.2))
    · have sides := between_ascii read ascii
      rw [nextsHold (offset + 1) (Nat.zero_le _) (by omega)]
      rw [Option.bind_eq_bind, Option.bind_some]
      cases found : nextClose (encodeUtf8 text) (offset + 1) with
      | none => exact character_yields rendering between inside
      | some stop =>
        obtain ⟨behind, here, -⟩ := nextClose_eq_some.mp found
        have stops := between_ascii here closing
        dsimp only
        rw [sliceText_between behind sides.2 stops.1]
        refine placeholder_yields bindings missingBindings rendering _ (by omega) stops.2 ?_
        rw [sliceText_between (by omega) sides.1 stops.2]
        exact .pure (advances_push rendering _ (by omega) stops.2)
  split
  · rename_i pair
    have sides := between_pair (by decide) pair
    exact .pure (advances_push rendering _ (by omega) sides.2.2)
  · exact character_yields rendering between inside

theorem renderLoop_isSome (rendering : Rendering) {fuel : Nat}
    (between : Between text offset) (enough : (encodeUtf8 text).length ≤ offset + fuel) :
    ∃ result, renderLoop (encodeUtf8 text) closes nexts bindings missingBindings fuel rendering
      offset = some result := by
  induction fuel generalizing rendering offset with
  | zero =>
    rw [renderLoop, if_neg (by omega)]
    exact ⟨_, rfl⟩
  | succ fuel ih =>
    rw [renderLoop]
    split
    · rename_i inside
      obtain ⟨result, ran, advances⟩ := renderStep_yields closesLength closesHold nextsLength
        nextsHold bindings missingBindings rendering between inside
      rw [ran]
      cases result with
      | error error => exact ⟨_, rfl⟩
      | ok done =>
        obtain ⟨further, next⟩ := advances done.1 done.2 rfl
        exact ih done.1 next (by omega)
    · exact ⟨_, rfl⟩

end

theorem renderTemplate_isSome (text : List Char) (bindings : List (Bytes × Bytes))
    (missingBindings : List Bytes) :
    ∃ result, renderTemplate (encodeUtf8 text) bindings missingBindings = some result := by
  unfold renderTemplate
  split
  · exact ⟨_, rfl⟩
  · obtain ⟨closes, ranCloses, closesLength, closesHold⟩ :=
      matchingDoubleBraceCloses_holds (encodeUtf8 text)
    obtain ⟨nexts, ranNexts, nextsLength, nextsHold⟩ := nextClosingBraces_holds (encodeUtf8 text)
    rw [ranCloses, ranNexts]
    exact renderLoop_isSome closesLength closesHold nextsLength nextsHold bindings missingBindings
      ⟨[], []⟩ (between_zero text) (by omega)

/-- The tables are what the scans find, and the walk over a template that looks
them up stays in bounds and between characters. -/
theorem brace_tables (bytes : Bytes) :
    (∃ closes nexts, matchingDoubleBraceCloses bytes = some closes ∧
      nextClosingBraces bytes = some nexts ∧
      (∀ i, pairAt openBrace bytes i = true →
        closes[i]? = some (legacyFindClose bytes (i + 2))) ∧
      (∀ i close, closes[i]? = some (some close) →
        i + 2 ≤ close ∧ pairAt closeBrace bytes close = true) ∧
      ∀ i ≤ bytes.length, ∃ next, nexts[i]? = some next ∧
        ∀ close, next = some close ↔ i ≤ close ∧ bytes[close]? = some closeBrace ∧
          ∀ place, i ≤ place → place < close → bytes[place]? ≠ some closeBrace) ∧
    ∀ text bindings missingBindings, bytes = encodeUtf8 text →
      ∃ result, renderTemplate bytes bindings missingBindings = some result := by
  refine ⟨?_, fun text bindings missingBindings same =>
    same ▸ renderTemplate_isSome text bindings missingBindings⟩
  obtain ⟨closes, ranCloses, closesLength, closesHold⟩ := matchingDoubleBraceCloses_holds bytes
  obtain ⟨nexts, ranNexts, nextsLength, nextsHold⟩ := nextClosingBraces_holds bytes
  refine ⟨closes, nexts, ranCloses, ranNexts, fun i pair => ?_, fun i close found => ?_,
    fun i inside => ?_⟩
  · have within := pairAt_lt pair
    rw [closesHold i (Nat.zero_le _) (by omega), matchingClose, if_pos pair]
  · have within := (List.getElem?_eq_some_iff.mp found).1
    rw [closesHold i (Nat.zero_le _) within, Option.some.injEq, matchingClose] at found
    split at found
    · exact findCloseLoop_found found
    · cases found
  · exact ⟨_, nextsHold i (Nat.zero_le _) (by omega), fun close => nextClose_eq_some⟩

end JtermCore.Workflows
