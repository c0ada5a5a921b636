import JtermCore.CompactJson
import JtermCore.Lines
import JtermCore.Workflows.Render

/-!
# The records of the command history

The history is a file of lines, each a record in JSON.  A reader takes the tail
of the file and goes through its complete lines from the newest on; whatever is
no valid record is skipped.
-/

namespace JtermCore

namespace CommandHistory

open Bytes ExecutionJournal Lines Result Utf8 Workflows

def compactEvery : Nat := 128

def maxFileBytes : Nat := 32 * 1024 * 1024

def maxRecordBytes : Nat := 1024 * 1024

def maxCwdBytes : Nat := 16 * 1024

def readRecentTailBytes : Nat := 4 * 1024 * 1024

structure CommandHistoryRecord where
  command : List Char
  cwd : Option (List Char)
  exitCode : Int32
  endTimeMs : Option UInt64
deriving DecidableEq

/-- The kinds of `io::Error` that the contents of a history lead to. -/
inductive ErrorKind where
  | invalidInput
  | invalidData
deriving DecidableEq

structure IoError where
  kind : ErrorKind
  message : Bytes
deriving DecidableEq

/-- The value that a record is serialized as: a field without a value is left out. -/
def CommandHistoryRecord.json (record : CommandHistoryRecord) : CompactJson.Json :=
  .object (("command".toList, .string record.command) ::
    (record.cwd.toList.map (fun cwd => ("cwd".toList, .string cwd)) ++
      ("exit_code".toList, .integer record.exitCode.toInt) ::
        record.endTimeMs.toList.map fun time => ("end_time_ms".toList, .integer time.toNat)))

def CommandHistoryRecord.toVec (record : CommandHistoryRecord) : Bytes :=
  encodeUtf8 record.json.print

abbrev Decode : Type := Bytes → Option CommandHistoryRecord

/-- What `serde_json` promises: a written record is read back, nothing is no
record, and where whitespace at the end is accepted it does not matter. -/
structure Reads (decode : Decode) : Prop where
  decode_toVec : ∀ record : CommandHistoryRecord, decode record.toVec = some record
  decode_nil : decode [] = none
  decode_trimEnd : ∀ line record, isValidUtf8 line = true → decode line = some record →
    decode (trimEnd (line ++ [newline])) = some record

section

variable [Libraries]

def validateRecordFields (command : List Char) (cwd : Option (List Char)) :
    Except IoError Unit := do
  let _ ← (validateReviewInput (encodeUtf8 command)).mapError fun error =>
    IoError.mk .invalidInput (ofAscii "command is unsafe for review-only history: " ++ error.text)
  match cwd with
  | none => pure ()
  | some cwd => do
    reject (maxCwdBytes < (encodeUtf8 cwd).length)
      (IoError.mk .invalidInput (ofAscii "command-history cwd exceeds " ++
        decimalText maxCwdBytes ++ ofAscii " bytes"))
    reject (cwd.any isControl = true ∨ containsVisualSpoofing (encodeUtf8 cwd) = true)
      (IoError.mk .invalidInput
        (ofAscii "command-history cwd contains a control or invisible formatting character"))

def encodeRecord (record : CommandHistoryRecord) : Except IoError Bytes := do
  validateRecordFields record.command record.cwd
  let encoded := record.toVec
  reject (maxRecordBytes < encoded.length + 1)
    (IoError.mk .invalidData (ofAscii "command history record exceeds 1 MiB"))
  return encoded ++ [newline]

/-- The loop of `read_recent_from` over the lines, newest first, with the
commands that were seen. -/
def collect (decode : Decode) (maxEntries : Nat) :
    List (List Char) → List CommandHistoryRecord → List Bytes → List CommandHistoryRecord
  | _, records, [] => records
  | seen, records, line :: lines =>
    if maxRecordBytes < line.length + 1 then
      collect decode maxEntries seen records lines
    else
      match decode line with
      | none => collect decode maxEntries seen records lines
      | some record =>
        if (validateRecordFields record.command record.cwd).toOption.isNone ||
            decide (record.command ∈ seen) then
          collect decode maxEntries seen records lines
        else if (records ++ [record]).length = maxEntries then
          records ++ [record]
        else
          collect decode maxEntries (record.command :: seen) (records ++ [record]) lines

/-- The part of `read_recent_from` behind the choice of the start. -/
def readSince (decode : Decode) (content : Bytes) (start maxEntries : Nat) :
    List CommandHistoryRecord :=
  let startsAtLineBoundary :=
    decide (start = 0) || decide (content[start - 1]? = some newline)
  let tail := (content.drop start).take (content.length - start)
  if tail.isEmpty then []
  else
    let firstComplete :=
      if startsAtLineBoundary then some 0
      else (tail.findIdx? fun byte => byte = newline).map (· + 1)
    match firstComplete, rposition newline tail with
    | some firstComplete, some lastNewline =>
      if lastNewline ≤ firstComplete then []
      else
        collect decode maxEntries [] []
          (((((tail.take lastNewline).drop firstComplete).splitOn newline).reverse).filter
            fun line => !line.isEmpty)
    | _, _ => []

def readRecentFrom (decode : Decode) (content : Bytes) (maxEntries : Nat) :
    List CommandHistoryRecord :=
  if maxEntries = 0 ∨ content.length = 0 then []
  else readSince decode content (content.length - readRecentTailBytes) maxEntries

def recordOf (decode : Decode) (line : Bytes) : Option CommandHistoryRecord :=
  if maxRecordBytes < line.length + 1 then none
  else
    (decode line).filter fun record =>
      (validateRecordFields record.command record.cwd).toOption.isSome

def firstOfEach : List CommandHistoryRecord → List CommandHistoryRecord
  | [] => []
  | record :: records =>
    record :: (firstOfEach records).filter fun other => other.command ≠ record.command

def recent (decode : Decode) (maxEntries : Nat) (lines : List Bytes) : List CommandHistoryRecord :=
  (firstOfEach (lines.reverse.filterMap (recordOf decode))).take maxEntries

end

end CommandHistory

end JtermCore

/-!
# What a reading of the history returns

A reading returns the newest valid records of the lines that start in the tail
window, one for each command.
-/

namespace JtermCore

namespace CommandHistory

open Bytes ExecutionJournal Lines Result Utf8

variable [Libraries] {decode : Decode} {maxEntries : Nat}

theorem collect_eq (lines : List Bytes) (seen : List (List Char))
    (records : List CommandHistoryRecord) (open_ : records.length < maxEntries) :
    collect decode maxEntries seen records lines =
      records ++ ((firstOfEach (lines.filterMap (recordOf decode))).filter
        fun record => decide (record.command ∉ seen)).take (maxEntries - records.length) := by
  induction lines generalizing seen records with
  | nil => simp [collect, firstOfEach]
  | cons line lines ih =>
    rw [collect]
    split
    · rename_i long
      have none_ : recordOf decode line = none := by rw [recordOf, if_pos long]
      rw [List.filterMap_cons_none none_, ih seen records open_]
    · rename_i short
      split
      · rename_i undecoded
        have none_ : recordOf decode line = none := by
          rw [recordOf, if_neg short, undecoded]
          rfl
        rw [List.filterMap_cons_none none_, ih seen records open_]
      · rename_i record decoded
        by_cases valid : (validateRecordFields record.command record.cwd).toOption.isSome = true
        · have some_ : recordOf decode line = some record := by
            rw [recordOf, if_neg short, decoded, Option.filter_some, if_pos valid]
          have present : (validateRecordFields record.command record.cwd).toOption.isNone =
              false := by
            rw [← Option.not_isSome, valid]
            rfl
          rw [List.filterMap_cons_some some_, firstOfEach, present, Bool.false_or]
          by_cases old : record.command ∈ seen
          · rw [if_pos (decide_eq_true old), ih seen records open_,
              List.filter_cons_of_neg (by simpa using old), List.filter_filter]
            congr 2
            apply List.filter_congr
            intro other _
            by_cases same : other.command = record.command
            · simp [same, old]
            · simp [same]
          · rw [if_neg (by simpa using old), List.filter_cons_of_pos (by simpa using old)]
            have rest : maxEntries - records.length =
                maxEntries - (records ++ [record]).length + 1 := by
              rw [List.length_append, List.length_singleton]
              omega
            rw [rest, List.take_succ_cons]
            split
            · rename_i full
              rw [full, Nat.sub_self, List.take_zero]
            · rename_i more
              rw [ih (record.command :: seen) (records ++ [record]) (by
                  rw [List.length_append, List.length_singleton] at more ⊢
                  omega), List.append_assoc, List.singleton_append, List.filter_filter]
              congr 3
              apply List.filter_congr
              intro other _
              by_cases same : other.command = record.command
              · simp [same]
              · simp [same]
        · have none_ : recordOf decode line = none := by
            rw [recordOf, if_neg short, decoded, Option.filter_some, if_neg valid]
          have absent : (validateRecordFields record.command record.cwd).toOption.isNone =
              true := by
            rw [Option.isNone_iff_eq_none]
            simpa using valid
          rw [List.filterMap_cons_none none_, absent, Bool.true_or, if_pos rfl,
            ih seen records open_]

section

variable (documented : Reads decode)

include documented

theorem recordOf_nil : recordOf decode [] = none := by
  rw [recordOf, documented.decode_nil]
  split <;> rfl

theorem filterMap_recordOf_nonempty (lines : List Bytes) :
    (lines.filter fun line => !line.isEmpty).filterMap (recordOf decode) =
      lines.filterMap (recordOf decode) := by
  induction lines with
  | nil => rfl
  | cons line lines ih =>
    cases line with
    | nil =>
      rw [List.filter_cons_of_neg (by simp), List.filterMap_cons_none (recordOf_nil documented), ih]
    | cons byte line =>
      rw [List.filter_cons_of_pos (by simp), List.filterMap_cons, List.filterMap_cons, ih]

theorem collect_recent (some_ : 0 < maxEntries) (lines : List Bytes) :
    collect decode maxEntries [] [] (lines.reverse.filter fun line => !line.isEmpty) =
      recent decode maxEntries lines := by
  rw [collect_eq _ _ _ (by simpa using some_), filterMap_recordOf_nonempty documented, recent]
  simp

theorem recent_of_empty {lines : List Bytes}
    (empty : ∀ line ∈ lines, line = []) : recent decode maxEntries lines = [] := by
  have none_ : lines.reverse.filterMap (recordOf decode) = [] := by
    rw [List.filterMap_eq_nil_iff]
    intro line member
    rw [empty line (List.mem_reverse.mp member), recordOf_nil documented]
  rw [recent, none_]
  simp [firstOfEach]

theorem readSince_eq (some_ : 0 < maxEntries) {content : Bytes}
    {start : Nat} (inside : start < content.length) :
    readSince decode content start maxEntries =
      recent decode maxEntries (since newline start content) := by
  rw [readSince, since_eq_ofTail, List.take_of_length_le (by rw [List.length_drop])]
  generalize tailEq : content.drop start = tail
  generalize (decide (start = 0) || decide (content[start - 1]? = some newline)) = starts
  have nonempty : tail.isEmpty = false := by
    rw [← tailEq, List.isEmpty_eq_false_iff, ne_eq, List.drop_eq_nil_iff]
    omega
  dsimp only
  rw [nonempty]
  simp only [Bool.false_eq_true, if_false]
  have read (firstComplete : Nat) :
      (match some firstComplete, rposition newline tail with
        | some firstComplete, some lastNewline =>
          if lastNewline ≤ firstComplete then []
          else
            collect decode maxEntries [] []
              (((((tail.take lastNewline).drop firstComplete).splitOn newline).reverse).filter
                fun line => !line.isEmpty)
        | _, _ => []) =
        recent decode maxEntries (terminated newline (tail.drop firstComplete)) := by
    cases found : rposition newline tail with
    | none =>
      have absent : newline ∉ tail := by
        intro member
        rcases rest_cases newline tail with absent | ⟨front, rest, absent, same⟩
        · exact absent member
        · rw [same, rposition_append_cons front absent] at found
          cases found
      rw [terminated_of_not_mem fun inside => absent (List.mem_of_mem_drop inside),
        recent_of_empty documented (by simp)]
    | some lastNewline =>
      dsimp only
      split
      · rename_i behind
        rw [recent_of_empty documented (eq_nil_of_mem_terminated_drop found behind)]
      · rename_i before
        rw [splitOn_drop_take found (Nat.lt_of_not_le before), collect_recent documented some_]
  cases starts with
  | true =>
    rw [ofTail, if_pos rfl, if_pos rfl]
    exact read 0
  | false =>
    rw [ofTail]
    simp only [Bool.false_eq_true, if_false]
    cases tail.findIdx? fun byte => byte = newline with
    | none =>
      rw [recent_of_empty documented (by simp)]
      rfl
    | some place => exact read (place + 1)

theorem readRecentFrom_eq (content : Bytes) (maxEntries : Nat) :
    readRecentFrom decode content maxEntries =
      recent decode maxEntries (since newline (content.length - readRecentTailBytes) content) := by
  rw [readRecentFrom]
  split
  · rename_i nothing
    rcases nothing with none_ | empty
    · rw [none_, recent, List.take_zero]
    · rw [List.eq_nil_of_length_eq_zero empty, recent_of_empty documented]
      intro line member
      rw [since_of_not_mem List.not_mem_nil] at member
      cases member
  · rename_i something
    rw [not_or] at something
    have window : 0 < readRecentTailBytes := by decide
    exact readSince_eq documented (Nat.pos_of_ne_zero something.1)
      (Nat.sub_lt (Nat.pos_of_ne_zero something.2) window)

end

end CommandHistory

end JtermCore
