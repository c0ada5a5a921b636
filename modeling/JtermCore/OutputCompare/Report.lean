import JtermCore.Chats.Conversation
import JtermCore.OutputCompare.Alignment
import JtermCore.Workflows.Render

/-!
# The comparison report

Two captured outputs are cut to bounded lists of lines, which are aligned and
written one line after the other.  A writer that has clipped a text writes no
more.  Texts are lists of characters, weighed in UTF-8 bytes.
-/

namespace JtermCore.OutputCompare

open Bytes Checked Chats CommonSublist ExecutionJournal Workflows

def maxInputBytes : Nat := 256 * 1024

def maxInputLines : Nat := 4096

def maxRenderBytes : Nat := 512 * 1024

def renderLimitNotice : Text :=
  ("\n[Comparison display clipped; counts describe the bounded input, not only the lines " ++
    "shown.]\n").toList

structure OutputSnapshot where
  text : Text
  truncated : Bool
deriving DecidableEq

structure OutputComparison where
  text : Text
  addedLines : Nat
  removedLines : Nat
  unchangedLines : Nat
  beforeLimited : Bool
  afterLimited : Bool
  alignmentLimited : Bool
  renderingLimited : Bool
deriving DecidableEq

def splitInclusive : Text → List Text
  | [] => []
  | char :: text =>
    if char = '\n' then [char] :: splitInclusive text
    else
      match splitInclusive text with
      | [] => [[char]]
      | line :: lines => (char :: line) :: lines

structure BoundedLines where
  lines : List Text
  limited : Bool
deriving DecidableEq

def boundedLines (snapshot : OutputSnapshot) : BoundedLines :=
  let bounded := cut maxInputBytes snapshot.text
  let pieces := splitInclusive bounded
  { lines := pieces.take maxInputLines
    limited := snapshot.truncated || byteLen bounded < byteLen snapshot.text ||
      maxInputLines < pieces.length }

/-- A number in lower case hexadecimal digits. -/
def hexText (value : Nat) : Text := Nat.toDigits 16 value

def escapeDefault (char : Char) : Text :=
  if char = '\t' then ['\\', 't']
  else if char = '\r' then ['\\', 'r']
  else if char = '\n' then ['\\', 'n']
  else if char = '\'' ∨ char = '"' ∨ char = '\\' then ['\\', char]
  else if 0x20 ≤ char.toNat ∧ char.toNat ≤ 0x7e then [char]
  else ['\\', 'u', '\x7b'] ++ hexText char.toNat ++ ['\x7d']

structure ReportWriter where
  text : Text
  clipped : Bool
deriving DecidableEq

namespace ReportWriter

def new : ReportWriter := ⟨[], false⟩

def push (writer : ReportWriter) (text : Text) : ReportWriter :=
  if writer.clipped then writer
  else
    let remaining := maxRenderBytes - byteLen renderLimitNotice - byteLen writer.text
    let piece := cut remaining text
    { text := writer.text ++ piece, clipped := byteLen piece < byteLen text }

def finish (writer : ReportWriter) : Text × Bool :=
  (if writer.clipped then writer.text ++ renderLimitNotice else writer.text, writer.clipped)

end ReportWriter

def Kind.sign : Kind → Char
  | .same => ' '
  | .removed => '-'
  | .added => '+'

def contents (line : Text) : Text :=
  if line.getLast? = some '\n' then line.dropLast else line

/-- What marks a line that does not end in a line break. -/
def noNewlineMarker : Text := "\\ No newline at end of compared text\n".toList

section

variable [Libraries]

def isTerminalVisualSpoofingCharacter (char : Char) : Bool :=
  isVisualSpoofingCharacter char || (0xfff9 ≤ char.toNat && char.toNat ≤ 0xfffb)

def isEscaped (char : Char) : Bool :=
  char = '\\' || isControl char || isTerminalVisualSpoofingCharacter char

def ReportWriter.character (writer : ReportWriter) (char : Char) : ReportWriter :=
  if writer.clipped then writer
  else if isEscaped char then
    (escapeDefault char).foldl (fun writer escaped => writer.push [escaped]) writer
  else writer.push [char]

def ReportWriter.line (writer : ReportWriter) (kind : Kind) (line : Text) : ReportWriter :=
  if writer.clipped then writer
  else
    let written := ((contents line).foldl ReportWriter.character (writer.push [kind.sign])).push
      ['\n']
    if line.getLast? = some '\n' then written else written.push noNewlineMarker

def countsLine (before after : BoundedLines) : Text :=
  "@@ -".toList ++ Nat.toDigits 10 (if before.lines.isEmpty then 0 else 1) ++ [','] ++
    Nat.toDigits 10 before.lines.length ++ " +".toList ++
    Nat.toDigits 10 (if after.lines.isEmpty then 0 else 1) ++ [','] ++
    Nat.toDigits 10 after.lines.length ++ " @@".toList

def heading (before after : BoundedLines) (alignmentLimited : Bool) : List Text :=
  ["--- Earlier retained output\n+++ Later retained output\n".toList] ++
    (if before.limited then
      ["[Earlier output is partial: capture or comparison input limit reached.]\n".toList]
    else []) ++
    (if after.limited then
      ["[Later output is partial: capture or comparison input limit reached.]\n".toList]
    else []) ++
    (if alignmentLimited then
      [("[Coarse comparison: alignment budget reached; changed-region counts are not a minimal " ++
        "edit distance.]\n").toList]
    else []) ++
    [countsLine before after ++ ['\n']]

def closing (before after : BoundedLines) : Text :=
  if before.limited || after.limited then
    ("[No differences in the compared text; uncaptured or unexamined output may differ.]\n").toList
  else "[The two available output snapshots are identical.]\n".toList

def compare (before after : OutputSnapshot) : Option OutputComparison := do
  let before := boundedLines before
  let after := boundedLines after
  let (edits, alignmentLimited) ← align before.lines after.lines
  let addedLines := countKind .added edits
  let removedLines := countKind .removed edits
  let headed := (heading before after alignmentLimited).foldl ReportWriter.push .new
  let written := edits.foldl (fun writer edit => writer.line edit.1 edit.2) headed
  let closed := if addedLines = 0 ∧ removedLines = 0 then written.push (closing before after)
    else written
  let (text, renderingLimited) := closed.finish
  return { text, addedLines, removedLines, unchangedLines := countKind .same edits
           beforeLimited := before.limited, afterLimited := after.limited, alignmentLimited
           renderingLimited }

end

section

variable {α : Type}

theorem lines_eq_of_counts {edits : List (Kind × α)} (added : countKind .added edits = 0)
    (removed : countKind .removed edits = 0) : beforeLines edits = afterLines edits := by
  unfold countKind at added removed
  rw [List.countP_eq_zero] at added removed
  refine List.filterMap_congr fun edit member => ?_
  rw [if_neg (by simpa using added edit member), if_neg (by simpa using removed edit member)]

theorem counts_of_same (lines : List α) : countKind .added (lines.map (Kind.same, ·)) = 0 ∧
      countKind .removed (lines.map (Kind.same, ·)) = 0 := by simp [countKind, List.countP_map]

theorem align_self [DecidableEq α] (lines : List α) :
    ∃ edits limited, align lines lines = some (edits, limited) ∧
      countKind .added edits = 0 ∧ countKind .removed edits = 0 := by
  obtain ⟨front, old, new, back, cut, aligned⟩ := align_cut lines lines
  have whole := cut.front_longest lines (List.prefix_refl _) (List.prefix_refl _)
  have length := congrArg List.length cut.before_eq
  have length' := congrArg List.length cut.after_eq
  simp only [List.length_append] at length length'
  obtain rfl : old = [] := List.length_eq_zero_iff.mp (by omega)
  obtain rfl : new = [] := List.length_eq_zero_iff.mp (by omega)
  obtain rfl : back = [] := List.length_eq_zero_iff.mp (by omega)
  refine ⟨_, false, aligned, ?_⟩
  simp only [List.map_nil, List.append_nil]
  exact counts_of_same front

end

theorem compare_eq [Libraries] {before after : OutputSnapshot} {edits : List (Kind × Text)}
    {limited : Bool}
    (aligned : align (boundedLines before).lines (boundedLines after).lines =
      some (edits, limited)) : ∃ report, compare before after = some report ∧
      report.addedLines = countKind .added edits ∧
      report.removedLines = countKind .removed edits := by
  unfold compare
  dsimp only
  rw [aligned]
  exact ⟨_, rfl, rfl, rfl⟩

/-- Alignment gives a shortest script that loses no line, and a report counts no
change exactly when the compared lines are equal. -/
theorem alignment_lossless [Libraries] :
    (∀ (α : Type) [DecidableEq α] (before after : List α),
      ∃ edits limited, align before after = some (edits, limited) ∧
        beforeLines edits = before ∧ afterLines edits = after ∧
        (limited = false → IsLongest before after (countKind .same edits)) ∧
        (limited = true → ∃ front old new back, Cut before after front old new back ∧
          edits = front.map (.same, ·) ++ (old.map (.removed, ·) ++ new.map (.added, ·)) ++
            back.map (.same, ·))) ∧
    ∀ before after, ∃ report, compare before after = some report ∧
      (report.addedLines = 0 ∧ report.removedLines = 0 ↔
        (boundedLines before).lines = (boundedLines after).lines) := by
  refine ⟨fun α _ before after => align_minimal before after, fun before after => ?_⟩
  obtain ⟨edits, limited, aligned, keeps, leads, -, -⟩ :=
    align_minimal (boundedLines before).lines (boundedLines after).lines
  obtain ⟨report, compared, added, removed⟩ := compare_eq aligned
  refine ⟨report, compared, ?_⟩
  rw [added, removed]
  constructor
  · rintro ⟨none_, none_'⟩
    rw [← keeps, ← leads, lines_eq_of_counts none_ none_']
  · intro same
    rw [same] at aligned
    obtain ⟨edits', limited', aligned', counts⟩ := align_self (boundedLines after).lines
    cases aligned.symm.trans aligned'
    exact counts

end JtermCore.OutputCompare
