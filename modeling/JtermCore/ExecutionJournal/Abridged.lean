import JtermCore.CharBoundary
import JtermCore.ExecutionJournal.OutputAppend
import Mathlib.Data.Nat.Digits.Defs

/-!
# Abridged texts

A text that is too long keeps characters from its beginning and from its end.
Each cut moves by less than one character, so a text that is abridged once more
still consists of a beginning and an end of the original.
-/

namespace JtermCore

namespace ExecutionJournal

open Bytes Utf8

def Abridged (original kept : List Char) : Prop :=
  ∃ front dropped back, original = front ++ dropped ++ back ∧ kept = front ++ back

theorem Abridged.refl (text : List Char) : Abridged text text := ⟨text, [], [], by simp, by simp⟩

theorem length_encodeChar_le (char : Char) : (String.utf8EncodeChar char).length ≤ 4 := by
  rw [String.length_utf8EncodeChar]
  exact Char.utf8Size_le_four char

variable {text : List Char}

theorem cut_of_boundary {index : Nat} (boundary : isCharBoundary (encodeUtf8 text) index = true) :
    ∃ before after, text = before ++ after ∧ encodeUtf8 before = (encodeUtf8 text).take index ∧
      encodeUtf8 after = (encodeUtf8 text).drop index := by
  rcases Nat.lt_or_ge index (encodeUtf8 text).length with inside | atEnd
  · rw [isCharBoundary, List.getElem?_eq_getElem inside] at boundary
    have starts : isContinuation (encodeUtf8 text)[index] = false := by simpa using boundary
    have same : encodeUtf8 text = (encodeUtf8 text).take index ++
        (encodeUtf8 text)[index] :: (encodeUtf8 text).drop (index + 1) := by
      rw [← List.drop_eq_getElem_cons, List.take_append_drop]
    obtain ⟨before, after, split, beforeEq, afterEq⟩ := encodeUtf8_split same starts
    refine ⟨before, after, split, beforeEq, ?_⟩
    rw [afterEq, ← List.drop_eq_getElem_cons]
  · refine ⟨text, [], by simp, ?_, ?_⟩
    · rw [List.take_of_length_le atEnd]
    · rw [List.drop_of_length_le atEnd, encodeUtf8_nil]

theorem boundary_of_cut (before after : List Char) :
    isCharBoundary (encodeUtf8 (before ++ after)) (encodeUtf8 before).length = true := by
  rw [encodeUtf8_append, isCharBoundary]
  cases after with
  | nil => simp [encodeUtf8_nil]
  | cons char after =>
    obtain ⟨lead, rest, encoded⟩ := List.exists_cons_of_ne_nil
      (String.utf8EncodeChar_ne_nil : String.utf8EncodeChar char ≠ [])
    rw [List.getElem?_append_right (Nat.le_refl _), Nat.sub_self, encodeUtf8_cons, encoded]
    simp [isContinuation_head encoded]

theorem boundaryBefore_spec (text : Bytes) (index : Nat) :
    (boundaryBefore text index = 0 ∨
      isCharBoundary text (boundaryBefore text index) = true) ∧
    ∀ position, boundaryBefore text index < position → position ≤ index →
      isCharBoundary text position = false := by
  induction index with
  | zero => exact ⟨.inl rfl, fun position above below => by omega⟩
  | succ index ih =>
    unfold boundaryBefore
    split
    · rename_i boundary
      exact ⟨.inr boundary, fun position above below => by omega⟩
    · rename_i inner
      refine ⟨ih.1, fun position above below => ?_⟩
      rcases Nat.lt_or_eq_of_le below with lower | rfl
      · exact ih.2 position above (by omega)
      · simpa using inner

theorem boundaryAfter_le (text : Bytes) (fuel : Nat) : boundaryAfter text fuel ≤ text.length := by
  induction fuel with
  | zero => simp [boundaryAfter]
  | succ fuel ih =>
    unfold boundaryAfter
    split <;> omega

theorem boundaryAfter_spec (text : Bytes) (fuel : Nat) (enough : fuel ≤ text.length) :
    isCharBoundary text (boundaryAfter text fuel) = true ∧
      ∀ position, text.length - fuel ≤ position → position < boundaryAfter text fuel →
        isCharBoundary text position = false := by
  induction fuel with
  | zero => exact ⟨by simp [boundaryAfter, isCharBoundary], fun position above below => by
    simp only [boundaryAfter] at below
    omega⟩
  | succ fuel ih =>
    unfold boundaryAfter
    split
    · rename_i boundary
      exact ⟨boundary, fun position above below => by omega⟩
    · rename_i inner
      obtain ⟨boundary, none⟩ := ih (by omega)
      refine ⟨boundary, fun position above below => ?_⟩
      rcases Nat.lt_or_eq_of_le above with higher | rfl
      · exact none position (by omega) below
      · simpa using inner

theorem cut_before {index : Nat} (within : index < (encodeUtf8 text).length) :
    ∃ before after, text = before ++ after ∧
      encodeUtf8 before = (encodeUtf8 text).take (boundaryBefore (encodeUtf8 text) index) ∧
      (encodeUtf8 before).length ≤ index ∧ index < (encodeUtf8 before).length + 4 := by
  have low := boundaryBefore_le (encodeUtf8 text) index
  obtain ⟨boundary, none⟩ := boundaryBefore_spec (encodeUtf8 text) index
  obtain ⟨before, after, split, beforeEq, afterEq⟩ : ∃ before after, text = before ++ after ∧
      encodeUtf8 before = (encodeUtf8 text).take (boundaryBefore (encodeUtf8 text) index) ∧
      encodeUtf8 after = (encodeUtf8 text).drop (boundaryBefore (encodeUtf8 text) index) := by
    rcases boundary with zero | boundary
    · exact ⟨[], text, rfl, by simp [zero, encodeUtf8_nil], by simp [zero]⟩
    · exact cut_of_boundary boundary
  have size : (encodeUtf8 before).length = boundaryBefore (encodeUtf8 text) index := by
    rw [beforeEq, List.length_take]
    omega
  refine ⟨before, after, split, beforeEq, by omega, ?_⟩
  cases after with
  | nil =>
    have all : (encodeUtf8 text).length = (encodeUtf8 before).length := by
      rw [split, List.append_nil]
    omega
  | cons char after =>
    -- The character behind the cut reaches past the index.
    have next := boundary_of_cut (before ++ [char]) after
    have grown : (encodeUtf8 (before ++ [char])).length =
        (encodeUtf8 before).length + (String.utf8EncodeChar char).length := by
      simp [encodeUtf8_append, encodeUtf8_cons, encodeUtf8_nil]
    have positive : 0 < (String.utf8EncodeChar char).length :=
      List.length_pos_iff.mpr String.utf8EncodeChar_ne_nil
    have small := length_encodeChar_le char
    rw [List.append_assoc, List.singleton_append, ← split, grown] at next
    rcases Nat.lt_or_ge index ((encodeUtf8 before).length +
      (String.utf8EncodeChar char).length) with past | reached
    · omega
    · rw [none _ (by omega) reached] at next
      cases next

theorem cut_after {fuel : Nat} (within : fuel < (encodeUtf8 text).length) :
    ∃ before after, text = before ++ after ∧
      encodeUtf8 after = (encodeUtf8 text).drop (boundaryAfter (encodeUtf8 text) fuel) ∧
      (encodeUtf8 after).length ≤ fuel ∧ fuel < (encodeUtf8 after).length + 4 := by
  have high := boundaryAfter_le (encodeUtf8 text) fuel
  have low := length_sub_boundaryAfter (encodeUtf8 text) fuel
  obtain ⟨boundary, none⟩ := boundaryAfter_spec (encodeUtf8 text) fuel (by omega)
  obtain ⟨before, after, split, beforeEq, afterEq⟩ := cut_of_boundary boundary
  have size : (encodeUtf8 after).length =
      (encodeUtf8 text).length - boundaryAfter (encodeUtf8 text) fuel := by
    rw [afterEq, List.length_drop]
  have front : (encodeUtf8 before).length = boundaryAfter (encodeUtf8 text) fuel := by
    rw [beforeEq, List.length_take]
    omega
  refine ⟨before, after, split, afterEq, by omega, ?_⟩
  rcases List.eq_nil_or_concat before with rfl | ⟨start, char, rfl⟩
  · rw [encodeUtf8_nil, List.length_nil] at front
    omega
  · -- The character in front of the cut begins before the budget does.
    have previous := boundary_of_cut start ([char] ++ after)
    have grown : (encodeUtf8 (start.concat char)).length =
        (encodeUtf8 start).length + (String.utf8EncodeChar char).length := by
      simp [encodeUtf8_append, encodeUtf8_cons, encodeUtf8_nil]
    have positive : 0 < (String.utf8EncodeChar char).length :=
      List.length_pos_iff.mpr String.utf8EncodeChar_ne_nil
    have small := length_encodeChar_le char
    rw [← List.append_assoc, ← List.concat_eq_append, ← split] at previous
    rcases Nat.lt_or_ge (encodeUtf8 start).length ((encodeUtf8 text).length - fuel) with
      early | late
    · omega
    · rw [none _ late (by omega)] at previous
      cases previous

theorem boundedText_long {maxBytes : Nat} (long : maxBytes < (encodeUtf8 text).length) :
    ∃ front dropped back, text = front ++ dropped ++ back ∧
      boundedText (encodeUtf8 text) maxBytes = encodeUtf8 (front ++ back) ∧
      (encodeUtf8 front).length ≤ maxBytes / 2 ∧ maxBytes / 2 < (encodeUtf8 front).length + 4 ∧
      (encodeUtf8 back).length ≤ maxBytes - maxBytes / 2 ∧
      maxBytes - maxBytes / 2 < (encodeUtf8 back).length + 4 := by
  obtain ⟨front, rest, frontSplit, frontEq, frontSmall, frontLarge⟩ :=
    cut_before (show maxBytes / 2 < (encodeUtf8 text).length by omega)
  obtain ⟨start, back, backSplit, backEq, backSmall, backLarge⟩ :=
    cut_after (show maxBytes - maxBytes / 2 < (encodeUtf8 text).length by omega)
  have total : (encodeUtf8 text).length = (encodeUtf8 start).length + (encodeUtf8 back).length := by
    rw [backSplit, encodeUtf8_append, List.length_append]
  obtain ⟨dropped, startEq⟩ : ∃ dropped, start = front ++ dropped := by
    rcases List.append_eq_append_iff.mp (frontSplit.symm.trans backSplit) with
      ⟨between, startEq, _⟩ | ⟨between, frontSame, _⟩
    · exact ⟨between, startEq⟩
    · have sizes : (encodeUtf8 front).length =
          (encodeUtf8 start).length + (encodeUtf8 between).length := by
        rw [frontSame, encodeUtf8_append, List.length_append]
      omega
  refine ⟨front, dropped, back, ?_, ?_, frontSmall, frontLarge, backSmall, backLarge⟩
  · rw [backSplit, startEq]
  · rw [boundedText, if_neg (by omega), encodeUtf8_append, frontEq, backEq]

theorem front_of_short {first second front rest : List Char}
    (same : first ++ second = front ++ rest)
    (short : (encodeUtf8 front).length ≤ (encodeUtf8 first).length) :
    ∃ between, first = front ++ between := by
  rcases List.append_eq_append_iff.mp same with ⟨between, frontEq, _⟩ | ⟨between, firstEq, _⟩
  · have sizes := congrArg (fun text => (encodeUtf8 text).length) frontEq
    simp only [encodeUtf8_append, List.length_append] at sizes
    have empty : encodeUtf8 between = [] := List.eq_nil_of_length_eq_zero (by omega)
    cases between with
    | nil => exact ⟨[], by simpa using frontEq.symm⟩
    | cons char between =>
      rw [encodeUtf8_cons] at empty
      exact absurd (List.append_eq_nil_iff.mp empty).1 String.utf8EncodeChar_ne_nil
  · exact ⟨between, firstEq⟩

theorem back_of_short {first second rest back : List Char} (same : first ++ second = rest ++ back)
    (short : (encodeUtf8 back).length ≤ (encodeUtf8 second).length) :
    ∃ between, second = between ++ back := by
  rcases List.append_eq_append_iff.mp same with ⟨between, _, secondEq⟩ | ⟨between, _, backEq⟩
  · exact ⟨between, secondEq⟩
  · have sizes := congrArg (fun text => (encodeUtf8 text).length) backEq
    simp only [encodeUtf8_append, List.length_append] at sizes
    have empty : encodeUtf8 between = [] := List.eq_nil_of_length_eq_zero (by omega)
    cases between with
    | nil => exact ⟨[], by simpa using backEq.symm⟩
    | cons char between =>
      rw [encodeUtf8_cons] at empty
      exact absurd (List.append_eq_nil_iff.mp empty).1 String.utf8EncodeChar_ne_nil

theorem boundedText_abridged (text : List Char) (maxBytes : Nat) :
    ∃ kept, Abridged text kept ∧ boundedText (encodeUtf8 text) maxBytes = encodeUtf8 kept := by
  rcases Nat.lt_or_ge maxBytes (encodeUtf8 text).length with long | short
  · obtain ⟨front, dropped, back, split, bounded, _⟩ := boundedText_long long
    exact ⟨front ++ back, ⟨front, dropped, back, split, rfl⟩, bounded⟩
  · exact ⟨text, .refl text, by rw [boundedText, if_pos short]⟩

theorem boundedText_twice {outer inner : Nat} (smaller : inner + 8 ≤ outer) :
    ∃ kept, Abridged text kept ∧
      boundedText (boundedText (encodeUtf8 text) outer) inner = encodeUtf8 kept := by
  rcases Nat.lt_or_ge outer (encodeUtf8 text).length with long | short
  · obtain ⟨front, dropped, back, split, bounded, -, frontLarge, -, backLarge⟩ :=
      boundedText_long long
    rw [bounded]
    rcases Nat.lt_or_ge inner (encodeUtf8 (front ++ back)).length with again | fits
    · obtain ⟨start, removed, finish, same, result, startSmall, -, finishSmall, -⟩ :=
        boundedText_long again
      obtain ⟨early, frontEq⟩ := front_of_short (same.trans (List.append_assoc ..)) (by omega)
      obtain ⟨late, backEq⟩ := back_of_short same (by omega)
      refine ⟨start ++ finish, ⟨start, early ++ dropped ++ late, finish, ?_, rfl⟩, result⟩
      rw [split, frontEq, backEq]
      simp
    · exact ⟨front ++ back, ⟨front, dropped, back, split, rfl⟩, by rw [boundedText, if_pos fits]⟩
  · have kept : boundedText (encodeUtf8 text) outer = encodeUtf8 text := by
      rw [boundedText, if_pos short]
    rw [kept]
    exact boundedText_abridged text inner

end ExecutionJournal

end JtermCore

/-!
# Captured outputs

The terminal reports the output of a completed command.  This file embeds
`OutputEvent::from_completed`, which makes the journal event of it, and bounds
the line that the event is written as.
-/

namespace JtermCore

namespace ExecutionJournal

open Bytes Utf8

/-- `CompletedExecution`.  Its output is a string, so a list of characters. -/
structure CompletedExecution where
  lifecycle : ExecutionLifecycle
  output : List Char
  outputAvailable : Bool
  truncated : Bool
  totalBytes : Nat
deriving DecidableEq

def saturatingU64 (value : Nat) : Nat :=
  if value < 2 ^ 64 then value else 2 ^ 64 - 1

def OutputEvent.fromCompleted (completed : CompletedExecution) (unixTimeMs : Nat) :
    Option BoundOutput :=
  if !completed.outputAvailable || !completed.lifecycle.isValid then
    none
  else
    let output := encodeUtf8 completed.output
    let observedTotalBytes := saturatingU64 output.length
    let bounded :=
      if output.length > maxOutputBytes then (boundedText output maxOutputBytes, true)
      else (output, completed.truncated)
    let suppliedTotal := saturatingU64 completed.totalBytes
    let metadata :=
      normalizeOutputMetadata bounded.1.length bounded.2 (max suppliedTotal observedTotalBytes)
    some {
      lifecycle := completed.lifecycle
      event := {
        id := completed.lifecycle.id
        text := bounded.1
        truncated := metadata.1
        totalBytes := metadata.2
        capturedAtMs := unixTimeMs } }

theorem saturatingU64_lt (value : Nat) : saturatingU64 value < 2 ^ 64 := by
  unfold saturatingU64
  split <;> omega

def OutputEvent.Normal (event : OutputEvent) : Prop :=
  normalizeOutputMetadata event.text.length event.truncated event.totalBytes =
    (event.truncated, event.totalBytes)

variable {event : OutputEvent}

theorem normal_iff : event.Normal ↔ event.text.length ≤ event.totalBytes ∧
      (event.text.length < event.totalBytes → event.truncated = true) := by
  simp only [OutputEvent.Normal, normalizeOutputMetadata, Prod.mk.injEq, gt_iff_lt]
  constructor
  · rintro ⟨flag, total⟩
    refine ⟨by omega, fun less => ?_⟩
    rw [← flag, decide_eq_true (by omega), Bool.or_true]
  · rintro ⟨covered, flag⟩
    have total : max event.totalBytes event.text.length = event.totalBytes := by omega
    rw [total]
    refine ⟨?_, rfl⟩
    rcases Nat.lt_or_ge event.text.length event.totalBytes with less | equal
    · simp [flag less]
    · simp [Nat.not_lt.mpr equal]

/-- What the event says about the completed command. -/
structure Captures (completed : CompletedExecution) (unixTimeMs : Nat) (event : OutputEvent) :
    Prop where
  id : event.id = completed.lifecycle.id
  capturedAtMs : event.capturedAtMs = unixTimeMs
  text : event.text = boundedText (encodeUtf8 completed.output) maxOutputBytes
  totalBytes : event.totalBytes < 2 ^ 64
  normal : event.Normal
  dropped : event.text ≠ encodeUtf8 completed.output → event.truncated = true

variable {completed : CompletedExecution}

theorem fromCompleted_captures (unixTimeMs : Nat)
    (available : completed.outputAvailable = true) (valid : completed.lifecycle.isValid = true) :
    ∃ bound, OutputEvent.fromCompleted completed unixTimeMs = some bound ∧
      bound.lifecycle = completed.lifecycle ∧ Captures completed unixTimeMs bound.event := by
  have supplied := saturatingU64_lt completed.totalBytes
  have observed := saturatingU64_lt (encodeUtf8 completed.output).length
  rw [OutputEvent.fromCompleted, if_neg (by simp [available, valid])]
  refine ⟨_, rfl, rfl, ?_⟩
  by_cases long : (encodeUtf8 completed.output).length > maxOutputBytes
  · have small := length_boundedText (encodeUtf8 completed.output) maxOutputBytes
    have few : maxOutputBytes < 2 ^ 64 := by decide
    simp only [if_pos long]
    refine ⟨rfl, rfl, rfl, ?_, ?_, fun _ => by simp [normalizeOutputMetadata]⟩
    · simp only [normalizeOutputMetadata]
      omega
    · rw [normal_iff]
      refine ⟨?_, fun _ => by simp [normalizeOutputMetadata]⟩
      simp only [normalizeOutputMetadata]
      omega
  · have few : maxOutputBytes < 2 ^ 64 := by decide
    simp only [if_neg long]
    refine ⟨rfl, rfl, ?_, ?_, ?_, fun different => absurd rfl different⟩
    · rw [boundedText, if_pos (by omega)]
    · simp only [normalizeOutputMetadata]
      omega
    · rw [normal_iff]
      simp only [normalizeOutputMetadata]
      refine ⟨by omega, fun less => ?_⟩
      simp only [Bool.or_eq_true, decide_eq_true_eq, gt_iff_lt]
      exact .inr (by omega)

theorem Captures.length_text {unixTimeMs : Nat} (captures : Captures completed unixTimeMs event) :
    event.text.length ≤ maxOutputBytes := by
  rw [captures.text]
  exact length_boundedText _ _

theorem length_escapeByte_le (byte : UInt8) : (escapeByte byte).length ≤ 6 := by
  unfold escapeByte
  repeat' split
  all_goals simp [ofAscii]

theorem length_jsonString_le (text : Bytes) : (jsonString text).length ≤ 6 * text.length + 2 := by
  have escaped : (text.flatMap escapeByte).length ≤ 6 * text.length := by
    induction text with
    | nil => simp
    | cons byte text ih =>
      have one := length_escapeByte_le byte
      rw [List.flatMap_cons, List.length_append, List.length_cons]
      omega
  simp only [jsonString, List.length_append, List.length_cons, List.length_nil]
  omega

theorem length_jsonNumber_le {value : Nat} (small : value < 2 ^ 64) :
    (jsonNumber value).length ≤ 20 := by
  have digits := Nat.toDigits_length 10 value 20 (by decide) (by omega)
  rw [jsonNumber, ofAscii, List.length_map, Nat.toString_eq_repr, Nat.repr_eq_ofList_toDigits,
    String.toList_ofList]
  exact digits

theorem length_toVec_le (totalBytes : event.totalBytes < 2 ^ 64)
    (capturedAtMs : event.capturedAtMs < 2 ^ 64) :
    event.toVec.length ≤ 6 * event.id.length + 6 * event.text.length + 200 := by
  have id := length_jsonString_le event.id
  have text := length_jsonString_le event.text
  have total := length_jsonNumber_le totalBytes
  have captured := length_jsonNumber_le capturedAtMs
  have opening : (ofAscii
      "\x7b\"jsh_execution_version\":1,\"event\":\"output\",\"id\":").length = 49 := rfl
  have textName : (ofAscii ",\"text\":").length = 8 := rfl
  have truncatedName : (ofAscii ",\"truncated\":").length = 13 := rfl
  have totalName : (ofAscii ",\"total_bytes\":").length = 15 := rfl
  have capturedName : (ofAscii ",\"captured_at_ms\":").length = 18 := rfl
  have closing : (ofAscii "\x7d").length = 1 := rfl
  have flag : (ofAscii (if event.truncated then "true" else "false")).length ≤ 5 := by
    cases event.truncated <;> decide
  simp only [OutputEvent.toVec, List.length_append, opening, textName, truncatedName, totalName,
    capturedName, closing]
  omega

theorem newline_not_mem_escapeByte (byte : UInt8) : newline ∉ escapeByte byte := by
  have each : ∀ value < 256, newline ∉ escapeByte (UInt8.ofNat value) := by decide +kernel
  have same := each byte.toNat byte.toNat_lt
  rwa [UInt8.ofNat_toNat] at same

theorem newline_not_mem_jsonString (text : Bytes) : newline ∉ jsonString text := by
  simp only [jsonString, List.mem_append, List.mem_flatMap, not_or, not_exists, not_and]
  exact ⟨⟨by decide, fun byte _ => newline_not_mem_escapeByte byte⟩, by decide⟩

theorem newline_not_mem_jsonNumber (value : Nat) : newline ∉ jsonNumber value := by
  have digits := all_isAsciiDigit_decimalText value
  rw [List.all_eq_true] at digits
  have same : jsonNumber value = decimalText value := by
    rw [jsonNumber, ofAscii, decimalText, Nat.toString_eq_repr, Nat.repr_eq_ofList_toDigits,
      String.toList_ofList]
  intro member
  rw [same] at member
  exact absurd (digits newline member) (by decide)

theorem newline_not_mem_toVec (event : OutputEvent) : newline ∉ event.toVec := by
  have opening : newline ∉ ofAscii
      "\x7b\"jsh_execution_version\":1,\"event\":\"output\",\"id\":" := by decide
  have textName : newline ∉ ofAscii ",\"text\":" := by decide
  have truncatedName : newline ∉ ofAscii ",\"truncated\":" := by decide
  have totalName : newline ∉ ofAscii ",\"total_bytes\":" := by decide
  have capturedName : newline ∉ ofAscii ",\"captured_at_ms\":" := by decide
  have closing : newline ∉ ofAscii "\x7d" := by decide
  have flag : newline ∉ ofAscii (if event.truncated then "true" else "false") := by
    cases event.truncated <;> decide
  simp only [OutputEvent.toVec, List.mem_append, not_or]
  exact ⟨⟨⟨⟨⟨⟨⟨⟨⟨⟨opening, newline_not_mem_jsonString event.id⟩, textName⟩,
    newline_not_mem_jsonString event.text⟩, truncatedName⟩, flag⟩, totalName⟩,
    newline_not_mem_jsonNumber event.totalBytes⟩, capturedName⟩,
    newline_not_mem_jsonNumber event.capturedAtMs⟩, closing⟩

structure Written (completed : CompletedExecution) (event written : OutputEvent) (line : Bytes) :
    Prop where
  id : written.id = event.id
  capturedAtMs : written.capturedAtMs = event.capturedAtMs
  line : line = written.toVec ++ [newline]
  within : written.toVec.length ≤ maxEventLineBytes
  length : written.text.length ≤ maxOutputBytes
  totalBytes : written.totalBytes < 2 ^ 64
  abridged : ∃ kept, Abridged completed.output kept ∧ written.text = encodeUtf8 kept
  normal : written.Normal
  dropped : written.text ≠ encodeUtf8 completed.output → written.truncated = true

theorem length_toVec_shortened
    (id : event.id.length ≤ maxExecutionIdBytes) (text : event.text.length ≤ maxOutputBytes / 2)
    (totalBytes : event.totalBytes < 2 ^ 64) (capturedAtMs : event.capturedAtMs < 2 ^ 64) :
    event.toVec.length ≤ maxEventLineBytes := by
  have size := length_toVec_le totalBytes capturedAtMs
  have room : 6 * maxExecutionIdBytes + 6 * (maxOutputBytes / 2) + 200 ≤ maxEventLineBytes := by
    decide
  omega

theorem Captures.encodes {unixTimeMs : Nat} (captures : Captures completed unixTimeMs event)
    (valid : completed.lifecycle.isValid = true) (now : unixTimeMs < 2 ^ 64) :
    ∃ written line, encodeEventWithValue event = some (written, line) ∧
      Written completed event written line := by
  have captured : event.capturedAtMs < 2 ^ 64 := captures.capturedAtMs ▸ now
  have small := captures.length_text
  by_cases long : event.toVec.length > maxEventLineBytes
  · have shorter := length_boundedText event.text (maxOutputBytes / 2)
    have few : maxOutputBytes < 2 ^ 64 := by decide
    have total := captures.totalBytes
    have idLength : event.id.length ≤ maxExecutionIdBytes := by
      rw [captures.id]
      simp only [ExecutionLifecycle.isValid, isValidJshExecutionId, Bool.and_eq_true,
        decide_eq_true_eq] at valid
      exact valid.1.1.2
    set shortened : OutputEvent := { event with
      text := boundedText event.text (maxOutputBytes / 2)
      truncated := true
      totalBytes := max event.totalBytes (boundedText event.text (maxOutputBytes / 2)).length }
      with shortens
    have totalBytes : shortened.totalBytes < 2 ^ 64 := by
      simp only [shortens]
      omega
    have within : shortened.toVec.length ≤ maxEventLineBytes :=
      length_toVec_shortened idLength shorter totalBytes captured
    refine ⟨shortened, _, encodeEventWithValue_long long shortens within, ?_⟩
    refine ⟨rfl, rfl, rfl, within, ?_, totalBytes, ?_, ?_, fun _ => rfl⟩
    · exact Nat.le_trans shorter (by decide)
    · obtain ⟨kept, abridged, result⟩ := boundedText_twice
        (show maxOutputBytes / 2 + 8 ≤ maxOutputBytes by decide)
      refine ⟨kept, abridged, ?_⟩
      rw [← result, ← captures.text]
    · rw [normal_iff]
      refine ⟨?_, fun _ => rfl⟩
      simp only [shortens]
      omega
  · refine ⟨event, event.toVec ++ [newline], ?_, ?_⟩
    · rw [encodeEventWithValue, if_neg long]
      exact if_neg long
    · refine ⟨rfl, rfl, rfl, by omega, small, captures.totalBytes, ?_, captures.normal,
        captures.dropped⟩
      rw [captures.text]
      exact boundedText_abridged completed.output maxOutputBytes

end ExecutionJournal

end JtermCore
