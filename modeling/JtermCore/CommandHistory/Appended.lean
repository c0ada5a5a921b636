import JtermCore.CommandHistory.Retained

/-!
# Reading after an append

An append ends the last line if it has to, writes the line of its record and may
compact the file.  The next reading returns the record first, and then what a
reading of the rest of the file returns, without the command of the record.
-/

namespace JtermCore.CommandHistory

open Bytes ExecutionJournal Lines Result Utf8 Workflows

def endLine (content : Bytes) : Bytes :=
  if 0 < content.length ∧ content.getLast? ≠ some newline then content ++ [newline] else content

theorem ended_endLine (content : Bytes) : Ended newline (endLine content) := by
  rw [endLine]
  split
  · exact .inr (by simp)
  · rename_i ended
    cases content with
    | nil => exact .inl rfl
    | cons byte content =>
      right
      simpa using ended

section

variable [Libraries] {decode : Decode}

variable {record : CommandHistoryRecord}

theorem ended_flatten {content : Bytes} {kept : List Bytes}
    (ends : kept <:+ keptLines decode content) : Ended newline kept.flatten := by
  rcases List.eq_nil_or_concat kept with rfl | ⟨lines, line, rfl⟩
  · exact .inl rfl
  · have member : line ∈ keptLines decode content := ends.subset (by simp)
    obtain ⟨text, -, rfl⟩ := List.mem_map.mp member
    rw [List.concat_eq_append, List.flatten_append, List.flatten_singleton]
    exact ended_append _ _

def Compacts (count : Nat) (content encoded : Bytes) : Prop :=
  maxFileBytes < (endLine content ++ encoded).length ∨ (count + 1) % compactEvery = 0

instance (count : Nat) (content encoded : Bytes) : Decidable (Compacts count content encoded) :=
  inferInstanceAs (Decidable (_ ∨ _))

/-- What is left of a file in front of an appended record: the whole file, or
after a compaction its newest records. -/
inductive Remains (decode : Decode) (count : Nat) (content encoded : Bytes) : Bytes → Prop
  | whole (kept : ¬ Compacts count content encoded) :
      Remains decode count content encoded (endLine content)
  | compacted (compacts : Compacts count content encoded) {kept : List Bytes}
      (ends : kept <:+ keptLines decode (endLine content)) :
      Remains decode count content encoded kept.flatten

theorem Remains.ended {count : Nat} {content encoded front : Bytes}
    (remains : Remains decode count content encoded front) : Ended newline front := by
  cases remains with
  | whole kept => exact ended_endLine content
  | compacted _ ends => exact ended_flatten ends

end

end JtermCore.CommandHistory
