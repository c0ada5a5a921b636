import JtermCore.OutputCompare.Unique

/-!
# A report stands for one script

What a writer writes without clipping is the concatenation of its texts, and
whatever it writes fits and may be shown.  Two reports of the same text that are
cut alike show the same script.
-/

namespace JtermCore.OutputCompare

open Bytes Checked Chats ExecutionJournal Workflows

def Writes (step : ReportWriter → ReportWriter) (text : Text) : Prop :=
  ∀ writer, (step writer).clipped = false →
    writer.clipped = false ∧ (step writer).text = writer.text ++ text

theorem writes_push (text : Text) : Writes (fun writer => writer.push text) text := by
  intro writer whole
  dsimp only at whole ⊢
  unfold ReportWriter.push at whole ⊢
  split at whole
  · rename_i clipped
    rw [clipped] at whole
    cases whole
  · rename_i open_
    rw [if_neg open_]
    refine ⟨by simpa using open_, ?_⟩
    have kept := of_decide_eq_false whole
    have room := Budget.total_fit_le Char.utf8Size
      (maxRenderBytes - byteLen renderLimitNotice - byteLen writer.text) text
    have fits : cut (maxRenderBytes - byteLen renderLimitNotice - byteLen writer.text) text =
        text := by
      refine Budget.fit_eq_self Char.utf8Size ?_
      exact Nat.le_trans (Nat.not_lt.mp kept) room
    show writer.text ++ cut _ text = _
    rw [fits]

variable {text : Text}

theorem Writes.comp {first second : ReportWriter → ReportWriter} {text' : Text}
    (front : Writes first text) (back : Writes second text') :
    Writes (fun writer => second (first writer)) (text ++ text') := by
  intro writer whole
  obtain ⟨open_, wrote⟩ := back (first writer) whole
  obtain ⟨open', wrote'⟩ := front writer open_
  refine ⟨open', ?_⟩
  rw [wrote, wrote', List.append_assoc]

theorem writes_foldl {ι : Type} {step : ReportWriter → ι → ReportWriter} {text : ι → Text}
    (each : ∀ item, Writes (fun writer => step writer item) (text item)) (items : List ι) :
    Writes (fun writer => items.foldl step writer) (items.flatMap text) := by
  induction items with
  | nil => exact fun writer whole => ⟨whole, (List.append_nil _).symm⟩
  | cons item items ih =>
    rw [List.flatMap_cons]
    exact (each item).comp ih

theorem Writes.guard {step : ReportWriter → ReportWriter} (writes : Writes step text) :
    Writes (fun writer => if writer.clipped then writer else step writer) text := by
  intro writer whole
  dsimp only at whole ⊢
  split at whole
  · rename_i clipped
    rw [clipped] at whole
    cases whole
  · rename_i open_
    rw [if_neg open_]
    exact writes writer whole

theorem foldl_keeps {ι σ : Type} {step : σ → ι → σ} {keeps : σ → Prop} {items : List ι}
    (each : ∀ state, keeps state → ∀ item ∈ items, keeps (step state item)) {state : σ}
    (start : keeps state) : keeps (items.foldl step state) := by
  induction items generalizing state with
  | nil => exact start
  | cons item items ih =>
    exact ih (fun state kept other member => each state kept other
        (List.mem_cons_of_mem _ member)) (each state start item List.mem_cons_self)

theorem forall_of_all {property : Char → Prop} [DecidablePred property]
    (all : text.all (fun char => decide (property char)) = true) :
    ∀ char ∈ text, property char := fun char member =>
  of_decide_eq_true (List.all_eq_true.mp all char member)

/-- A visible character of ASCII. -/
def Visible (char : Char) : Prop := 0x20 ≤ char.toNat ∧ char.toNat ≤ 0x7e

instance (char : Char) : Decidable (Visible char) :=
  inferInstanceAs (Decidable (_ ∧ _))

theorem visible_toDigits {base : Nat} (least : 1 < base) (most : base ≤ 16) (value : Nat) :
    ∀ char ∈ Nat.toDigits base value, Visible char := by
  intro char member
  obtain ⟨digit, small, rfl⟩ := mem_toDigits least member
  have each : ∀ digit < 16, Visible (Nat.digitChar digit) := by decide
  exact each digit (by omega)

theorem visible_escapeDefault (char : Char) : ∀ escaped ∈ escapeDefault char, Visible escaped := by
  unfold escapeDefault
  split
  · exact forall_of_all (by decide)
  split
  · exact forall_of_all (by decide)
  split
  · exact forall_of_all (by decide)
  split
  · rename_i here
    rcases here with rfl | rfl | rfl <;> exact forall_of_all (by decide)
  split
  · rename_i visible
    intro escaped member
    rw [List.mem_singleton.mp member]
    exact visible
  · intro escaped member
    rcases List.mem_append.mp member with front | last
    · rcases List.mem_append.mp front with first | hex
      · have each : ∀ escaped ∈ ['\\', 'u', '\x7b'], Visible escaped := forall_of_all (by decide)
        exact each escaped first
      · exact visible_toDigits (by decide) (by decide) _ escaped hex
    · rw [List.mem_singleton.mp last]
      decide

section

variable [Libraries]

theorem writes_character (char : Char) :
    Writes (fun writer => writer.character char) (charCode char) := by
  unfold ReportWriter.character charCode
  refine Writes.guard ?_
  split
  · have each := writes_foldl (fun escaped => writes_push [escaped]) (escapeDefault char)
    rw [List.flatMap_singleton'] at each
    exact each
  · exact writes_push [char]

theorem writes_line (kind : Kind) (line : Text) :
    Writes (fun writer => writer.line kind line) (lineText (kind, line)) := by
  have sign := writes_push [kind.sign]
  have body := sign.comp (writes_foldl writes_character (contents line))
  have broken := body.comp (writes_push ['\n'])
  unfold ReportWriter.line
  refine Writes.guard ?_
  unfold lineText marker
  by_cases ends : line.getLast? = some '\n'
  · simp only [if_pos ends]
    have same : kind.sign :: (escapedText (contents line) ++ ['\n']) =
        [kind.sign] ++ (contents line).flatMap charCode ++ ['\n'] := by simp [escapedText]
    rw [same]
    exact broken
  · simp only [if_neg ends]
    have same : kind.sign :: (escapedText (contents line) ++ '\n' :: noNewlineMarker) =
        [kind.sign] ++ (contents line).flatMap charCode ++ ['\n'] ++ noNewlineMarker := by
      simp [escapedText]
    rw [same]
    exact broken.comp (writes_push noNewlineMarker)

def Shows (char : Char) : Prop :=
  char = '\n' ∨ (isControl char = false ∧ isTerminalVisualSpoofingCharacter char = false)

structure Safe (writer : ReportWriter) : Prop where
  short : byteLen writer.text ≤ maxRenderBytes - byteLen renderLimitNotice
  shown : ∀ char ∈ writer.text, Shows char

theorem Safe.new : Safe .new where
  short := Nat.zero_le _
  shown := fun _ member => (List.not_mem_nil member).elim

variable {writer : ReportWriter}

theorem Safe.push (safe : Safe writer)
    (shown : ∀ char ∈ text, Shows char) : Safe (writer.push text) := by
  unfold ReportWriter.push
  split
  · exact safe
  · have room := Budget.total_fit_le Char.utf8Size
      (maxRenderBytes - byteLen renderLimitNotice - byteLen writer.text) text
    constructor
    · show byteLen (writer.text ++ cut _ text) ≤ _
      rw [byteLen, Budget.total_append]
      have short := safe.short
      unfold cut
      unfold byteLen at *
      omega
    · intro char member
      rcases List.mem_append.mp member with old | new
      · exact safe.shown char old
      · exact shown char ((Budget.fit_prefix Char.utf8Size _ _).subset new)

/-- Visible characters of ASCII are not classified as unsafe. -/
def VisibleSafe : Prop := ∀ char, Visible char → Libraries.isUnsafeInvisibleChar char = false

section

variable (visibleSafe : VisibleSafe)

include visibleSafe

theorem shows_visible {char : Char} (visible : Visible char) : Shows char := by
  obtain ⟨least, most⟩ := visible
  refine .inr ⟨?_, ?_⟩
  · simp only [isControl, Bool.or_eq_false_iff, Bool.and_eq_false_iff, decide_eq_false_iff_not]
    omega
  · have safe : isVisualSpoofingCharacter char = false := visibleSafe char ⟨least, most⟩
    rw [isTerminalVisualSpoofingCharacter, safe, Bool.false_or, Bool.and_eq_false_iff,
      decide_eq_false_iff_not, decide_eq_false_iff_not]
    omega

theorem shows_text (plain : ∀ char ∈ text, char = '\n' ∨ Visible char) :
    ∀ char ∈ text, Shows char := by
  intro char member
  rcases plain char member with newline | visible
  · exact .inl newline
  · exact shows_visible visibleSafe visible

theorem Safe.character (safe : Safe writer) (char : Char) : Safe (writer.character char) := by
  unfold ReportWriter.character
  split
  · exact safe
  split
  · refine foldl_keeps (fun state kept escaped member => kept.push ?_) safe
    intro other inside
    rw [List.mem_singleton.mp inside]
    exact shows_visible visibleSafe (visible_escapeDefault char escaped member)
  · rename_i shown
    refine safe.push fun other inside => ?_
    rw [List.mem_singleton.mp inside]
    simp only [isEscaped, Bool.not_eq_true, Bool.or_eq_false_iff] at shown
    exact .inr ⟨shown.1.2, shown.2⟩

theorem Safe.line (safe : Safe writer) (kind : Kind) (line : Text) :
    Safe (writer.line kind line) := by
  have plain : ∀ char ∈ ['\n'], char = '\n' ∨ Visible char := forall_of_all (by decide)
  have marked : ∀ char ∈ noNewlineMarker, char = '\n' ∨ Visible char := forall_of_all (by decide)
  have signed : ∀ char ∈ [kind.sign], char = '\n' ∨ Visible char := by
    cases kind <;> exact forall_of_all (by decide)
  have written := (foldl_keeps (fun state kept char _ => kept.character visibleSafe char)
    (safe.push (shows_text visibleSafe signed)) : Safe ((contents line).foldl _ _)).push
      (shows_text visibleSafe plain)
  unfold ReportWriter.line
  split
  · exact safe
  dsimp only
  split
  · exact written
  · exact written.push (shows_text visibleSafe marked)

end

end

theorem visible_heading (before after : BoundedLines) (limited : Bool) :
    ∀ text ∈ heading before after limited, ∀ char ∈ text, char = '\n' ∨ Visible char := by
  have digits (value : Nat) : ∀ char ∈ Nat.toDigits 10 value, char = '\n' ∨ Visible char :=
    fun char member => .inr (visible_toDigits (by decide) (by decide) value char member)
  intro text listed
  simp only [heading, List.mem_append] at listed
  rcases listed with (((title | first) | second) | coarse) | counts
  · rw [List.mem_singleton.mp title]
    exact forall_of_all (by decide)
  · split at first
    · rw [List.mem_singleton.mp first]
      exact forall_of_all (by decide)
    · exact (List.not_mem_nil first).elim
  · split at second
    · rw [List.mem_singleton.mp second]
      exact forall_of_all (by decide)
    · exact (List.not_mem_nil second).elim
  · split at coarse
    · rw [List.mem_singleton.mp coarse]
      exact forall_of_all (by decide)
    · exact (List.not_mem_nil coarse).elim
  · rw [List.mem_singleton.mp counts]
    unfold countsLine
    simp only [List.forall_mem_append]
    exact ⟨⟨⟨⟨⟨⟨⟨⟨⟨forall_of_all (by decide), digits _⟩, forall_of_all (by decide)⟩, digits _⟩,
      forall_of_all (by decide)⟩, digits _⟩, forall_of_all (by decide)⟩, digits _⟩,
      forall_of_all (by decide)⟩, forall_of_all (by decide)⟩

theorem visible_closing (before after : BoundedLines) :
    ∀ char ∈ closing before after, char = '\n' ∨ Visible char := by
  unfold closing
  split <;> exact forall_of_all (by decide)

theorem newline_not_mem_countsLine (before after : BoundedLines) :
    '\n' ∉ countsLine before after := by
  have digits (value : Nat) : '\n' ∉ Nat.toDigits 10 value :=
    not_mem_toDigits (by decide) (by decide) (by decide) value
  unfold countsLine
  simp only [List.mem_append, not_or]
  exact ⟨⟨⟨⟨⟨⟨⟨⟨by decide, digits _⟩, by decide⟩, digits _⟩, by decide⟩, digits _⟩, by decide⟩,
    digits _⟩, by decide⟩

theorem heading_unique {before after before' after' : BoundedLines} {limited limited' : Bool}
    {rest rest' : Text} (first : before.limited = before'.limited)
    (second : after.limited = after'.limited)
    (same : (heading before after limited).flatten ++ rest =
      (heading before' after' limited').flatten ++ rest') : rest = rest' := by
  have counts (before after : BoundedLines) : ∃ text, countsLine before after = '@' :: text :=
    ⟨_, rfl⟩
  unfold heading at same
  rw [first, second] at same
  simp only [List.flatten_append, List.append_assoc, List.flatten_singleton] at same
  have behind := List.append_cancel_left (List.append_cancel_left (List.append_cancel_left same))
  cases limited with
  | false =>
    cases limited' with
    | false =>
      exact (split_unique (newline_not_mem_countsLine _ _) (newline_not_mem_countsLine _ _)
        behind).2
    | true =>
      obtain ⟨text, starts⟩ := counts before after
      rw [starts] at behind
      exact absurd (List.cons.inj behind).1 (by decide)
  | true =>
    cases limited' with
    | false =>
      obtain ⟨text, starts⟩ := counts before' after'
      rw [starts] at behind
      exact absurd (List.cons.inj behind).1 (by decide)
    | true =>
      exact (split_unique (newline_not_mem_countsLine _ _) (newline_not_mem_countsLine _ _)
        (List.append_cancel_left behind)).2

section

variable [Libraries] {before after : OutputSnapshot} {report : OutputComparison}

theorem compare_text (compared : compare before after = some report) :
    ∃ edits limited,
      align (boundedLines before).lines (boundedLines after).lines = some (edits, limited) ∧
      report.beforeLimited = (boundedLines before).limited ∧
      report.afterLimited = (boundedLines after).limited ∧
      (report.renderingLimited = false →
        ∃ tail, Behind tail ∧ report.text =
          (heading (boundedLines before) (boundedLines after) limited).flatten ++
            (edits.flatMap lineText ++ tail)) := by
  unfold compare at compared
  dsimp only at compared
  obtain ⟨⟨edits, limited⟩, aligned, built⟩ := Option.bind_eq_some_iff.mp compared
  dsimp only at built
  cases built
  refine ⟨edits, limited, aligned, rfl, rfl, fun whole => ?_⟩
  have headed :=
      writes_foldl writes_push (heading (boundedLines before) (boundedLines after) limited)
  have written := headed.comp (writes_foldl (fun edit => writes_line edit.1 edit.2) edits)
  rw [List.flatMap_id'] at written
  by_cases unchanged : countKind .added edits = 0 ∧ countKind .removed edits = 0
  · have closed := written.comp (writes_push (closing (boundedLines before) (boundedLines after)))
    simp only [if_pos unchanged] at whole ⊢
    refine ⟨closing (boundedLines before) (boundedLines after), ?_, ?_⟩
    · intro char rest same
      have starts : char = '[' := by
        unfold closing at same
        split at same
        · exact (List.cons.inj same).1.symm
        · exact (List.cons.inj same).1.symm
      rw [starts]
      decide
    · have text := (closed .new whole).2
      unfold ReportWriter.finish
      rw [if_neg (by rw [Bool.not_eq_true]; exact whole)]
      refine text.trans ?_
      show [] ++ _ = _
      rw [List.nil_append, List.append_assoc]
  · simp only [if_neg unchanged] at whole ⊢
    refine ⟨[], fun char rest same => (nomatch same), ?_⟩
    have text := (written .new whole).2
    unfold ReportWriter.finish
    rw [if_neg (by rw [Bool.not_eq_true]; exact whole)]
    refine text.trans ?_
    show [] ++ _ = _
    rw [List.nil_append, List.append_nil]

theorem compare_safe (visibleSafe : VisibleSafe) (compared : compare before after = some report) :
    byteLen report.text ≤ maxRenderBytes ∧ ∀ char ∈ report.text, Shows char := by
  unfold compare at compared
  dsimp only at compared
  obtain ⟨⟨edits, limited⟩, -, built⟩ := Option.bind_eq_some_iff.mp compared
  dsimp only at built
  cases built
  have headed : Safe ((heading (boundedLines before) (boundedLines after) limited).foldl
      ReportWriter.push .new) :=
    foldl_keeps (fun state kept text listed => kept.push
      (shows_text visibleSafe (visible_heading _ _ _ text listed))) Safe.new
  have written : Safe (edits.foldl (fun writer edit => writer.line edit.1 edit.2) _) :=
    foldl_keeps (fun state kept edit _ => kept.line visibleSafe edit.1 edit.2) headed
  have notice : ∀ char ∈ renderLimitNotice, char = '\n' ∨ Visible char := forall_of_all (by decide)
  have finished (writer : ReportWriter) (safe : Safe writer) :
      byteLen writer.finish.1 ≤ maxRenderBytes ∧ ∀ char ∈ writer.finish.1, Shows char := by
    have room : byteLen renderLimitNotice ≤ maxRenderBytes := by decide
    have short := safe.short
    unfold ReportWriter.finish
    split
    · refine ⟨?_, fun char member => ?_⟩
      · rw [byteLen, Budget.total_append]
        unfold byteLen at *
        omega
      · rcases List.mem_append.mp member with old | new
        · exact safe.shown char old
        · exact shows_text visibleSafe notice char new
    · exact ⟨Nat.le_trans safe.short (Nat.sub_le _ _), safe.shown⟩
  refine finished _ ?_
  split
  · exact written.push (shows_text visibleSafe (visible_closing _ _))
  · exact written

/-- A report shows nothing that could hide, and two unclipped reports of outputs that
are cut alike have the same text only if they show the same script. -/
theorem report_faithful (visibleSafe : VisibleSafe) :
    (∀ before after, ∃ report, compare before after = some report ∧
      byteLen report.text ≤ maxRenderBytes ∧ ∀ char ∈ report.text, Shows char) ∧
    ∀ before after before' after' report report',
      compare before after = some report → compare before' after' = some report' →
      report.renderingLimited = false → report'.renderingLimited = false →
      report.beforeLimited = report'.beforeLimited →
      report.afterLimited = report'.afterLimited → report.text = report'.text →
      ∃ edits limited limited',
        align (boundedLines before).lines (boundedLines after).lines = some (edits, limited) ∧
        align (boundedLines before').lines (boundedLines after').lines =
          some (edits, limited') := by
  constructor
  · intro before after
    obtain ⟨edits, limited, aligned, -⟩ :=
      align_minimal (boundedLines before).lines (boundedLines after).lines
    obtain ⟨report, compared, -⟩ := compare_eq aligned
    exact ⟨report, compared, compare_safe visibleSafe compared⟩
  · intro before after before' after' report report' compared compared' whole whole'
    intro first second same
    obtain ⟨edits, limited, aligned, flag, flag', text⟩ := compare_text compared
    obtain ⟨edits', limited', aligned', flag₁, flag₁', text'⟩ := compare_text compared'
    obtain ⟨tail, behind, text⟩ := text whole
    obtain ⟨tail', behind', text'⟩ := text' whole'
    rw [text, text'] at same
    rw [flag, flag₁] at first
    rw [flag', flag₁'] at second
    have lines := lines_unique behind behind' (heading_unique first second same)
    exact ⟨edits, limited, limited', aligned, lines ▸ aligned'⟩

end

theorem report_faithful_of_zero_width :
    let libraries : Libraries := ⟨fun _ => none, fun _ => true, fun char => char.toNat = 0x200b⟩
    ∃ report, @compare libraries ⟨['a', '\n'], false⟩ ⟨['b', Char.ofNat 0x200b], false⟩ =
      some report ∧ byteLen report.text ≤ maxRenderBytes := by
  intro libraries
  have visibleSafe : @VisibleSafe libraries := by
    intro char visible
    have small := visible.2
    show decide (char.toNat = 0x200b) = false
    rw [decide_eq_false_iff_not]
    omega
  obtain ⟨report, compared, short, -⟩ := (@report_faithful libraries visibleSafe).1
    ⟨['a', '\n'], false⟩ ⟨['b', Char.ofNat 0x200b], false⟩
  exact ⟨report, compared, short⟩

end JtermCore.OutputCompare
