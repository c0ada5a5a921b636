import JtermCore.CommandHistory.Compaction
import JtermCore.Utf8Decoder

/-!
# What a compaction leaves

A compaction succeeds if what it reads of every line is UTF-8.  It then leaves
the longest end of the valid lines that is within the limits.
-/

namespace JtermCore

namespace CommandHistory

open Bytes ExecutionJournal Lines Result Utf8

theorem not_first_newline (first : UInt8) : validFirstContinuation first newline = false := by
  unfold validFirstContinuation isContinuation newline
  grind

theorem isValidUtf8_newline (text : Bytes) :
    isValidUtf8 (text ++ [newline]) = isValidUtf8 text := by
  have stranded : isContinuation newline = false := by decide
  unfold isValidUtf8
  fun_induction decodeUtf8 text with
  | case1 => decide
  | _ =>
    simp only [List.cons_append, List.nil_append]
    rw [decodeUtf8.eq_def]
    grind [not_first_newline]

def Readable (content : Bytes) : Prop :=
  ∀ line ∈ content.splitOn newline, isValidUtf8 (line.take (maxRecordBytes + 1)) = true

variable {text : Bytes}

theorem readable_of_not_mem (absent : newline ∉ text) :
    Readable text ↔ isValidUtf8 (text.take (maxRecordBytes + 1)) = true := by
  rw [Readable, List.splitOn_eq_singleton absent]
  simp

variable {line : Bytes}

section

variable (absent : newline ∉ line)

include absent

theorem readable_cons (rest : Bytes) :
    Readable (line ++ newline :: rest) ↔
      isValidUtf8 (line.take (maxRecordBytes + 1)) = true ∧ Readable rest := by
  rw [Readable, List.splitOn_append_cons_self_of_not_mem absent, List.forall_mem_cons]
  rfl

theorem readLine_short (rest : Bytes) {limit : Nat} (short : line.length ≤ limit) :
    readLine (limit + 1) (line ++ newline :: rest) = (line ++ [newline], rest) := by
  have window : (line ++ newline :: rest).take (limit + 1) =
      line ++ newline :: rest.take (limit - line.length) := by
    rw [List.take_append, List.take_of_length_le (by omega),
      show limit + 1 - line.length = limit - line.length + 1 by omega, List.take_succ_cons]
  rw [readLine, window, findIdx?_append_cons absent]
  have whole : line.take (line.length + 1) = line := List.take_of_length_le (by omega)
  simp [List.take_append, List.drop_append, whole]

theorem readLine_long (rest : Bytes) {limit : Nat} (long : limit < line.length) :
    readLine (limit + 1) (line ++ newline :: rest) =
      (line.take (limit + 1), line.drop (limit + 1) ++ newline :: rest) := by
  have window : (line ++ newline :: rest).take (limit + 1) = line.take (limit + 1) :=
    List.take_append_of_le_length long
  rw [readLine, window, findIdx?_of_not_mem fun member => absent (List.mem_of_mem_take member)]
  dsimp only
  rw [List.drop_append_of_le_length long]

end

theorem readLine_of_not_mem (absent : newline ∉ text) (limit : Nat) :
    readLine limit text = (text.take limit, text.drop limit) := by
  rw [readLine, findIdx?_of_not_mem fun member => absent (List.mem_of_mem_take member)]

theorem discardThroughNewline_cons (absent : newline ∉ line) (rest : Bytes) :
    discardThroughNewline (line ++ newline :: rest) = rest := by
  rw [discardThroughNewline, findIdx?_append_cons absent]
  simp

theorem discardThroughNewline_of_not_mem (absent : newline ∉ text) :
    discardThroughNewline text = [] := by rw [discardThroughNewline, findIdx?_of_not_mem absent]

section

variable [Libraries] {decode : Decode} {maxEntries maxFileBytes : Nat}

/-- Whether a compaction takes a line for a valid record. -/
def keepsLine (decode : Decode) (line : Bytes) : Bool :=
  decide (line.length + 1 ≤ maxRecordBytes) &&
    (decode (trimEnd (line ++ [newline]))).any fun record =>
      (validateRecordFields record.command record.cwd).toOption.isSome

def heldAfter (decode : Decode) (maxEntries maxFileBytes : Nat) (line : Bytes)
    (recent : List Bytes × Nat) : List Bytes × Nat :=
  if keepsLine decode line then
    evict maxEntries maxFileBytes (recent.1 ++ [line ++ [newline]])
      (saturatingAdd recent.2 (line.length + 1))
  else recent

theorem compactLoop_cons (absent : newline ∉ line) (rest : Bytes) (recent : List Bytes × Nat) :
    compactLoop decode maxEntries maxFileBytes (line ++ newline :: rest) recent =
      if isValidUtf8 (line.take (maxRecordBytes + 1)) = true then
        compactLoop decode maxEntries maxFileBytes rest
          (heldAfter decode maxEntries maxFileBytes line recent)
      else .error notUtf8 := by
  rw [compactLoop]
  by_cases short : line.length ≤ maxRecordBytes
  · rw [readLine_short absent rest short, List.take_of_length_le (by omega)]
    dsimp only
    rw [isValidUtf8_newline]
    have last : (line ++ [newline]).getLast? = some newline := by simp
    have length : (line ++ [newline]).length = line.length + 1 := by simp
    by_cases valid : isValidUtf8 line = true
    · rw [if_neg (by rw [valid]; decide), dif_neg (by simp), if_pos valid, last, length]
      simp only [ne_eq, not_true_eq_false, or_false, if_false]
      rw [heldAfter, keepsLine]
      by_cases full : maxRecordBytes < line.length + 1
      · rw [if_pos full, decide_eq_false (Nat.not_le.mpr full), Bool.false_and,
          if_neg Bool.false_ne_true]
      · rw [if_neg full, decide_eq_true (Nat.le_of_not_lt full), Bool.true_and]
        cases decode (trimEnd (line ++ [newline])) with
        | none => rw [Option.any_none, if_neg Bool.false_ne_true]
        | some record =>
          rw [Option.any_some]
          dsimp only
          cases (validateRecordFields record.command record.cwd).toOption with
          | none => rfl
          | some checked => rfl
    · rw [if_pos (by simpa using valid), if_neg valid]
  · have long : maxRecordBytes < line.length := Nat.lt_of_not_le short
    have other : (line.take (maxRecordBytes + 1)).getLast? ≠ some newline := by
      intro last
      exact absent (List.mem_of_mem_take (List.mem_of_getLast? last))
    have nonempty : (line.take (maxRecordBytes + 1)).isEmpty = false := by
      rw [List.isEmpty_eq_false_iff, ne_eq, List.take_eq_nil_iff, not_or]
      exact ⟨Nat.succ_ne_zero _, List.ne_nil_of_length_pos (Nat.zero_lt_of_lt long)⟩
    have skipped : heldAfter decode maxEntries maxFileBytes line recent = recent := by
      rw [heldAfter, keepsLine, decide_eq_false (by omega), Bool.false_and,
        if_neg Bool.false_ne_true]
    have rest_ : newline ∉ line.drop (maxRecordBytes + 1) :=
      fun member => absent (List.mem_of_mem_drop member)
    rw [readLine_long absent rest long, skipped]
    dsimp only
    rw [discardThroughNewline_cons rest_]
    by_cases valid : isValidUtf8 (line.take (maxRecordBytes + 1)) = true
    · rw [if_neg (by rw [valid]; decide), dif_neg (by rw [nonempty]; decide), if_pos valid,
        if_pos (.inr other), if_pos other]
    · rw [if_pos (by simpa using valid), if_neg valid]

theorem compactLoop_of_not_mem (absent : newline ∉ text) (recent : List Bytes × Nat) :
    compactLoop decode maxEntries maxFileBytes text recent =
      if isValidUtf8 (text.take (maxRecordBytes + 1)) = true then .ok recent
      else .error notUtf8 := by
  have atEnd : compactLoop decode maxEntries maxFileBytes [] recent = .ok recent := by
    rw [compactLoop, readLine_of_not_mem List.not_mem_nil, List.take_nil]
    rfl
  cases text with
  | nil =>
    rw [atEnd, List.take_nil]
    rfl
  | cons byte text =>
    have other : ((byte :: text).take (maxRecordBytes + 1)).getLast? ≠ some newline := by
      intro last
      exact absent (List.mem_of_mem_take (List.mem_of_getLast? last))
    have rest : newline ∉ (byte :: text).drop (maxRecordBytes + 1) :=
      fun member => absent (List.mem_of_mem_drop member)
    rw [compactLoop, readLine_of_not_mem absent]
    dsimp only
    rw [discardThroughNewline_of_not_mem rest, atEnd]
    by_cases valid : isValidUtf8 ((byte :: text).take (maxRecordBytes + 1)) = true
    · rw [if_neg (by rw [valid]; decide), dif_neg (by simp), if_pos valid, if_pos (.inr other),
        if_pos other]
    · rw [if_pos (by simpa using valid), if_neg valid]

/-- The lines that a compaction takes for valid records, with their newlines. -/
def keptLines (decode : Decode) (content : Bytes) : List Bytes :=
  ((terminated newline content).filter fun line => keepsLine decode line).map (· ++ [newline])

theorem keptLines_of_not_mem (absent : newline ∉ text) : keptLines decode text = [] := by
  rw [keptLines, terminated_of_not_mem absent]
  rfl

theorem keptLines_cons (absent : newline ∉ line) (rest : Bytes) :
    keptLines decode (line ++ newline :: rest) =
      (if keepsLine decode line then [line ++ [newline]] else []) ++ keptLines decode rest := by
  rw [keptLines, keptLines, terminated_cons absent, List.filter_cons]
  split <;> rfl

def held (maxEntries maxFileBytes : Nat) (lines : List Bytes) : List Bytes × Nat :=
  (newest maxEntries maxFileBytes lines, bytesOf (newest maxEntries maxFileBytes lines))

theorem heldAfter_held {lines : List Bytes}
    (small : bytesOf (newest maxEntries maxFileBytes lines) + (line.length + 1) < usizeValues) :
    heldAfter decode maxEntries maxFileBytes line (held maxEntries maxFileBytes lines) =
      held maxEntries maxFileBytes
        (lines ++ if keepsLine decode line then [line ++ [newline]] else []) := by
  rw [heldAfter]
  split
  · have bytes : saturatingAdd (bytesOf (newest maxEntries maxFileBytes lines)) (line.length + 1) =
        bytesOf (newest maxEntries maxFileBytes lines ++ [line ++ [newline]]) := by
      rw [saturatingAdd, bytesOf_append, bytesOf_cons, bytesOf_nil, List.length_append,
        List.length_singleton]
      omega
    rw [held, bytes, evict_eq, newest_append]
    rfl
  · rw [List.append_nil]

theorem compactLoop_held {text : Bytes} {lines : List Bytes}
    (small : bytesOf (newest maxEntries maxFileBytes lines) + text.length < usizeValues) :
    compactLoop decode maxEntries maxFileBytes text (held maxEntries maxFileBytes lines) =
        .ok (held maxEntries maxFileBytes (lines ++ keptLines decode text)) ∧ Readable text ∨
      compactLoop decode maxEntries maxFileBytes text (held maxEntries maxFileBytes lines) =
        .error notUtf8 ∧ ¬ Readable text := by
  induction text using text_induction newline generalizing lines with
  | unterminated text absent =>
    rw [compactLoop_of_not_mem absent, readable_of_not_mem absent, keptLines_of_not_mem absent,
      List.append_nil]
    by_cases valid : isValidUtf8 (text.take (maxRecordBytes + 1)) = true
    · exact .inl ⟨if_pos valid, valid⟩
    · exact .inr ⟨if_neg valid, valid⟩
  | line line rest absent ih =>
    rw [List.length_append, List.length_cons] at small
    rw [compactLoop_cons absent, readable_cons absent, keptLines_cons absent]
    by_cases valid : isValidUtf8 (line.take (maxRecordBytes + 1)) = true
    · have grown : bytesOf (newest maxEntries maxFileBytes
            (lines ++ if keepsLine decode line then [line ++ [newline]] else [])) + rest.length <
          usizeValues := by
        have bound := bytesOf_newest_append maxEntries maxFileBytes lines
          (if keepsLine decode line then [line ++ [newline]] else [])
        have one : bytesOf (if keepsLine decode line then [line ++ [newline]] else []) ≤
            line.length + 1 := by split <;> simp
        omega
      rw [if_pos valid, heldAfter_held (by omega), ← List.append_assoc]
      rcases ih grown with ⟨ran, readable⟩ | ⟨failed, unreadable⟩
      · exact .inl ⟨ran, valid, readable⟩
      · exact .inr ⟨failed, fun both => unreadable both.2⟩
    · exact .inr ⟨if_neg valid, fun both => valid both.1⟩

theorem compactLockedWithBudget_eq {content : Bytes} (small : content.length < usizeValues) :
    compactLockedWithBudget decode content maxEntries maxFileBytes =
        .ok (newest maxEntries maxFileBytes (keptLines decode content)).flatten ∧
          Readable content ∨
      compactLockedWithBudget decode content maxEntries maxFileBytes = .error notUtf8 ∧
        ¬ Readable content := by
  have ran := @compactLoop_held _ decode maxEntries maxFileBytes content []
    (by simpa [newest] using small)
  rw [compactLockedWithBudget]
  have start : held maxEntries maxFileBytes [] = ([], 0) := rfl
  rw [start] at ran
  rcases ran with ⟨ran, readable⟩ | ⟨failed, unreadable⟩
  · rw [ran]
    exact .inl ⟨rfl, readable⟩
  · rw [failed]
    exact .inr ⟨rfl, unreadable⟩

end

end CommandHistory

end JtermCore

/-!
# The line of a record

A record is written as one line of text that ends in a closing brace.  Readers
and compactions take the line of a valid record for that record.
-/

namespace JtermCore

namespace CommandHistory

open Bytes CompactJson ExecutionJournal Lines Result Utf8

theorem newline_not_mem_escapeChar (char : Char) : '\n' ∉ escapeChar char := by
  unfold escapeChar
  split
  · decide
  split
  · decide
  split
  · decide
  split
  · decide
  split
  · decide
  split
  · decide
  split
  · decide
  split
  · rename_i small
    have digit : ∀ value < 16, Nat.digitChar value ≠ '\n' := by decide
    simp only [List.mem_cons, List.not_mem_nil, or_false, not_or]
    exact ⟨by decide, by decide, by decide, by decide,
      Ne.symm (digit (char.toNat / 16) (by omega)), Ne.symm (digit (char.toNat % 16) (by omega))⟩
  · rename_i other _ _ _
    intro member
    have same := List.mem_singleton.mp member
    subst same
    simp_all

theorem newline_not_mem_quote (text : List Char) : '\n' ∉ quote text := by
  simp only [quote, List.mem_cons, List.mem_append, List.mem_flatMap, not_or, not_exists, not_and]
  exact ⟨by decide, fun char _ => newline_not_mem_escapeChar char, by decide, by simp⟩

theorem newline_not_mem_toDigits (value : Nat) : '\n' ∉ Nat.toDigits 10 value := by
  intro member
  have digit := Nat.isDigit_of_mem_toDigits (by decide) (by decide) member
  revert digit
  decide

theorem newline_not_mem_printInteger (value : Int) : '\n' ∉ printInteger value := by
  unfold printInteger
  split
  · rw [List.mem_cons, not_or]
    exact ⟨by decide, newline_not_mem_toDigits _⟩
  · exact newline_not_mem_toDigits _

theorem newline_not_mem_separated {texts : List (List Char)} (each : ∀ text ∈ texts, '\n' ∉ text) :
    '\n' ∉ separated texts := by
  induction texts with
  | nil => exact List.not_mem_nil
  | cons text texts ih =>
    rw [List.forall_mem_cons] at each
    cases texts with
    | nil => exact each.1
    | cons next texts =>
      rw [separated, List.mem_append, List.mem_cons, not_or, not_or]
      exact ⟨each.1, by decide, ih each.2⟩

namespace CommandHistoryRecord

variable (record : CommandHistoryRecord)

theorem json_members : ∃ members, record.json = .object members ∧
      ∀ member ∈ members, (∃ text, member.2 = .string text) ∨
        ∃ value, member.2 = .integer value ∧ -(2 ^ 63) ≤ value ∧ value < 2 ^ 64 := by
  refine ⟨_, rfl, ?_⟩
  intro member inside
  simp only [List.mem_cons, List.mem_append, List.mem_map] at inside
  rcases inside with rfl | ⟨cwd, -, rfl⟩ | rfl | ⟨time, -, rfl⟩
  · exact .inl ⟨_, rfl⟩
  · exact .inl ⟨_, rfl⟩
  · have least := record.exitCode.le_toInt
    have most := record.exitCode.toInt_lt
    exact .inr ⟨_, rfl, by omega, by omega⟩
  · have most := time.toNat_lt
    exact .inr ⟨_, rfl, by omega, by omega⟩

theorem json_exact : record.json.Exact 1 := by
  obtain ⟨members, same, each⟩ := record.json_members
  rw [same]
  refine .object fun member inside => ?_
  rcases each member inside with ⟨text, same⟩ | ⟨value, same, least, most⟩
  · rw [same]
    exact .string text
  · rw [same]
    exact .integer least most

theorem print_json : ∃ inner, record.json.print = '\x7b' :: (inner ++ ['\x7d']) ∧ '\n' ∉ inner := by
  obtain ⟨members, same, each⟩ := record.json_members
  refine ⟨separated (memberTexts members), by rw [same, Json.print], ?_⟩
  rw [memberTexts_eq]
  refine newline_not_mem_separated fun text inside => ?_
  obtain ⟨member, found, rfl⟩ := List.mem_map.mp inside
  rw [memberText, List.mem_append, List.mem_cons, not_or, not_or]
  refine ⟨newline_not_mem_quote _, by decide, ?_⟩
  rcases each member found with ⟨text, same⟩ | ⟨value, same, -⟩
  · rw [same, Json.print]
    exact newline_not_mem_quote text
  · rw [same, Json.print]
    exact newline_not_mem_printInteger value

theorem newline_not_mem_toVec : newline ∉ record.toVec := by
  obtain ⟨inner, same, absent⟩ := record.print_json
  intro member
  have inside := mem_of_decodeUtf8 (decodeUtf8_encodeUtf8 record.json.print) (by decide) member
  have line : Char.ofNat newline.toNat = '\n' := by decide
  rw [line, same, List.mem_cons, List.mem_append, List.mem_singleton] at inside
  rcases inside with brace | inside | brace
  · exact absurd brace (by decide)
  · exact absent inside
  · exact absurd brace (by decide)

theorem isValidUtf8_toVec : isValidUtf8 record.toVec = true := by
  rw [isValidUtf8, toVec, decodeUtf8_encodeUtf8]
  rfl

theorem trimEnd_toVec : trimEnd (record.toVec ++ [newline]) = record.toVec := by
  obtain ⟨inner, same, -⟩ := record.print_json
  have line : [newline] = encodeUtf8 ['\n'] := by decide
  rw [trimEnd, toVec, line, ← encodeUtf8_append, chars, decodeUtf8_encodeUtf8, Option.getD_some,
    same]
  congr 1
  have space : isWhitespace '\n' = true := by decide
  have brace : isWhitespace '\x7d' = false := by decide
  simp [space, brace]

end CommandHistoryRecord

end CommandHistory

end JtermCore
