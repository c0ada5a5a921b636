import JtermCore.CharBoundary
import JtermCore.CommandHistory.Record

/-!
# Compaction

A compaction reads the history from its start, line by line and never more of a
line than a record may have, and writes the newest valid records back.  The
reads are of text, so a line with bytes that are no UTF-8 ends it with an error.
-/

namespace JtermCore.CommandHistory

open Bytes ExecutionJournal Lines Result Utf8

def readLine (limit : Nat) (remaining : Bytes) : Bytes × Bytes :=
  match (remaining.take limit).findIdx? fun byte => byte = newline with
  | some place => (remaining.take (place + 1), remaining.drop (place + 1))
  | none => (remaining.take limit, remaining.drop limit)

def discardThroughNewline (remaining : Bytes) : Bytes :=
  match remaining.findIdx? fun byte => byte = newline with
  | some place => remaining.drop (place + 1)
  | none => []

theorem readLine_append (limit : Nat) (remaining : Bytes) :
    (readLine limit remaining).1 ++ (readLine limit remaining).2 = remaining := by
  rw [readLine]
  split <;> exact List.take_append_drop _ _

theorem length_discardThroughNewline (remaining : Bytes) :
    (discardThroughNewline remaining).length ≤ remaining.length := by
  rw [discardThroughNewline]
  split
  · rw [List.length_drop]
    omega
  · exact Nat.zero_le _

theorem length_rest {limit : Nat} {remaining : Bytes}
    (some_ : (readLine limit remaining).1.isEmpty = false) :
    (readLine limit remaining).2.length < remaining.length := by
  have lengths := congrArg List.length (readLine_append limit remaining)
  rw [List.length_append] at lengths
  have positive := List.length_pos_of_ne_nil (List.isEmpty_eq_false_iff.mp some_)
  omega

/-- The loop that evicts the oldest lines while there are too many of them or
too many bytes. -/
def evict (maxEntries maxFileBytes : Nat) : List Bytes → Nat → List Bytes × Nat
  | [], recentBytes => ([], recentBytes)
  | line :: lines, recentBytes =>
    if maxEntries < (line :: lines).length ∨ maxFileBytes < recentBytes then
      evict maxEntries maxFileBytes lines (recentBytes - line.length)
    else (line :: lines, recentBytes)

/-- What `read_line` says of a line that is no UTF-8. -/
def notUtf8 : IoError where
  kind := .invalidData
  message := ofAscii "stream did not contain valid UTF-8"

section

variable [Libraries]

def compactLoop (decode : Decode) (maxEntries maxFileBytes : Nat) (remaining : Bytes)
    (recent : List Bytes × Nat) : Except IoError (List Bytes × Nat) :=
  let line := (readLine (maxRecordBytes + 1) remaining).1
  let rest := (readLine (maxRecordBytes + 1) remaining).2
  if isValidUtf8 line = false then .error notUtf8
  else if some_ : line.isEmpty then .ok recent
  else if maxRecordBytes < line.length ∨ line.getLast? ≠ some newline then
    if line.getLast? ≠ some newline then
      compactLoop decode maxEntries maxFileBytes (discardThroughNewline rest) recent
    else
      compactLoop decode maxEntries maxFileBytes rest recent
  else
    match decode (trimEnd line) with
    | none => compactLoop decode maxEntries maxFileBytes rest recent
    | some record =>
      if (validateRecordFields record.command record.cwd).toOption.isNone then
        compactLoop decode maxEntries maxFileBytes rest recent
      else
        compactLoop decode maxEntries maxFileBytes rest
          (evict maxEntries maxFileBytes (recent.1 ++ [line]) (saturatingAdd recent.2 line.length))
termination_by remaining.length
decreasing_by
  all_goals
    have shorter := length_rest (Bool.eq_false_iff.mpr some_)
    have discarded := length_discardThroughNewline (readLine (maxRecordBytes + 1) remaining).2
    omega

def compactLockedWithBudget (decode : Decode) (content : Bytes) (maxEntries maxFileBytes : Nat) :
    Except IoError Bytes :=
  (compactLoop decode maxEntries maxFileBytes content ([], 0)).map fun recent => recent.1.flatten

structure Appended where
  result : Except IoError Unit
  content : Bytes
  count : Nat

def append (decode : Decode) (count : Nat) (content : Bytes) (maxEntries : Nat)
    (record : CommandHistoryRecord) : Appended :=
  if (trimChars record.command).isEmpty then ⟨.ok (), content, count⟩
  else
    match encodeRecord record with
    | .error error => ⟨.error error, content, count⟩
    | .ok encoded =>
      let separated :=
        if 0 < content.length ∧ content.getLast? ≠ some newline then newline :: encoded
        else encoded
      let content := content ++ separated
      if maxFileBytes < content.length ∨ (count + 1) % compactEvery = 0 then
        match compactLockedWithBudget decode content (max maxEntries 1) maxFileBytes with
        | .error error => ⟨.error error, content, count + 1⟩
        | .ok compacted => ⟨.ok (), compacted, count + 1⟩
      else ⟨.ok (), content, count + 1⟩

end

def bytesOf (lines : List Bytes) : Nat := (lines.map List.length).sum

/-- Lines that are neither too many nor too long. -/
def Fits (maxEntries maxFileBytes : Nat) (lines : List Bytes) : Prop :=
  lines.length ≤ maxEntries ∧ bytesOf lines ≤ maxFileBytes

instance (maxEntries maxFileBytes : Nat) (lines : List Bytes) :
    Decidable (Fits maxEntries maxFileBytes lines) :=
  inferInstanceAs (Decidable (_ ∧ _))

def newest (maxEntries maxFileBytes : Nat) : List Bytes → List Bytes
  | [] => []
  | line :: lines =>
    if Fits maxEntries maxFileBytes (line :: lines) then line :: lines
    else newest maxEntries maxFileBytes lines

section

variable {maxEntries maxFileBytes : Nat}

@[simp]
theorem bytesOf_nil : bytesOf [] = 0 :=
  rfl

@[simp]
theorem bytesOf_cons (line : Bytes) (lines : List Bytes) :
    bytesOf (line :: lines) = line.length + bytesOf lines := by simp [bytesOf]

@[simp]
theorem bytesOf_append (first second : List Bytes) :
    bytesOf (first ++ second) = bytesOf first + bytesOf second := by simp [bytesOf]

theorem newest_suffix (lines : List Bytes) : newest maxEntries maxFileBytes lines <:+ lines := by
  induction lines with
  | nil => exact List.suffix_refl []
  | cons line lines ih =>
    rw [newest]
    split
    · exact List.suffix_refl _
    · exact ih.trans (List.suffix_cons line lines)

theorem newest_fits (lines : List Bytes) :
    Fits maxEntries maxFileBytes (newest maxEntries maxFileBytes lines) := by
  induction lines with
  | nil => exact ⟨Nat.zero_le _, Nat.zero_le _⟩
  | cons line lines ih =>
    rw [newest]
    split
    · assumption
    · exact ih

theorem newest_of_fits {lines : List Bytes} (fits : Fits maxEntries maxFileBytes lines) :
    newest maxEntries maxFileBytes lines = lines := by
  cases lines with
  | nil => rfl
  | cons line lines => rw [newest, if_pos fits]

theorem newest_longest {lines other : List Bytes} (ends : other <:+ lines)
    (fits : Fits maxEntries maxFileBytes other) :
    other <:+ newest maxEntries maxFileBytes lines := by
  induction lines with
  | nil => exact ends
  | cons line lines ih =>
    rw [newest]
    split
    · exact ends
    · rename_i large
      rcases List.suffix_cons_iff.mp ends with rfl | inner
      · exact absurd fits large
      · exact ih inner

theorem newest_append (lines later : List Bytes) :
    newest maxEntries maxFileBytes (newest maxEntries maxFileBytes lines ++ later) =
      newest maxEntries maxFileBytes (lines ++ later) := by
  induction lines with
  | nil => rfl
  | cons line lines ih =>
    rw [newest]
    split
    · rfl
    · rename_i large
      have larger : ¬ Fits maxEntries maxFileBytes (line :: (lines ++ later)) := by
        intro fits
        apply large
        refine ⟨?_, ?_⟩
        · have count := fits.1
          simp only [List.length_cons, List.length_append] at count ⊢
          omega
        · have bytes := fits.2
          rw [← List.cons_append, bytesOf_append] at bytes
          omega
      rw [ih, List.cons_append, newest, if_neg larger]

variable (maxEntries maxFileBytes) in
theorem bytesOf_newest_append (lines later : List Bytes) :
    bytesOf (newest maxEntries maxFileBytes (lines ++ later)) ≤
      bytesOf (newest maxEntries maxFileBytes lines) + bytesOf later := by
  rw [← newest_append, ← bytesOf_append]
  obtain ⟨front, same⟩ : newest maxEntries maxFileBytes
      (newest maxEntries maxFileBytes lines ++ later) <:+ _ := newest_suffix _
  have bytes := congrArg bytesOf same
  rw [bytesOf_append] at bytes
  omega

theorem evict_eq (lines : List Bytes) :
    evict maxEntries maxFileBytes lines (bytesOf lines) =
      (newest maxEntries maxFileBytes lines, bytesOf (newest maxEntries maxFileBytes lines)) := by
  induction lines with
  | nil => rfl
  | cons line lines ih =>
    rw [evict, newest]
    by_cases fits : Fits maxEntries maxFileBytes (line :: lines)
    · have within : ¬ (maxEntries < (line :: lines).length ∨
          maxFileBytes < bytesOf (line :: lines)) := by
        rw [not_or, Nat.not_lt, Nat.not_lt]
        exact fits
      rw [if_neg within, if_pos fits]
    · have beyond : maxEntries < (line :: lines).length ∨
          maxFileBytes < bytesOf (line :: lines) := by
        by_contra within
        rw [not_or, Nat.not_lt, Nat.not_lt] at within
        exact fits within
      have left : bytesOf (line :: lines) - line.length = bytesOf lines := by
        rw [bytesOf_cons]
        omega
      rw [if_pos beyond, if_neg fits, left, ih]

end

end JtermCore.CommandHistory
