import JtermCore.OutputCompare.Report

/-!
# Reading lines back

Every line of a report starts with a sign that no marker and no notice starts
with, and a character is read back from the way it is written, so that the lines
of a script are read back from their text.
-/

namespace JtermCore.OutputCompare

open Bytes Checked Chats CommonSublist ExecutionJournal Workflows

variable {base : Nat}

theorem toDigits_injective (least : 1 < base) (most : base ≤ 16) :
    ∀ {first second : Nat}, Nat.toDigits base first = Nat.toDigits base second →
      first = second := by
  have digits : ∀ first < 16, ∀ second < 16,
      Nat.digitChar first = Nat.digitChar second → first = second := by decide
  intro first
  induction first using Nat.strongRecOn with
  | ind first ih =>
    intro second same
    rcases Nat.lt_or_ge first base with small | large
    · rw [Nat.toDigits_of_lt_base small] at same
      rcases Nat.lt_or_ge second base with small' | large'
      · rw [Nat.toDigits_of_lt_base small'] at same
        exact digits first (by omega) second (by omega) (List.cons.inj same).1
      · rw [Nat.toDigits_of_base_le least large'] at same
        have length := congrArg List.length same
        have positive := Nat.length_toDigits_pos (b := base) (n := second / base)
        simp only [List.length_append, List.length_singleton] at length
        omega
    · rw [Nat.toDigits_of_base_le least large] at same
      rcases Nat.lt_or_ge second base with small' | large'
      · rw [Nat.toDigits_of_lt_base small'] at same
        have length := congrArg List.length same
        have positive := Nat.length_toDigits_pos (b := base) (n := first / base)
        simp only [List.length_append, List.length_singleton] at length
        omega
      · rw [Nat.toDigits_of_base_le least large'] at same
        obtain ⟨front, last⟩ := List.append_inj' same rfl
        have quotient := ih (first / base) (Nat.div_lt_self (by omega) least) front
        have below := Nat.mod_lt first (show 0 < base by omega)
        have below' := Nat.mod_lt second (show 0 < base by omega)
        have rest := digits (first % base) (by omega) (second % base) (by omega)
          (List.cons.inj last).1
        rw [← Nat.div_add_mod first base, ← Nat.div_add_mod second base, quotient, rest]

variable {char : Char}

theorem mem_toDigits (least : 1 < base) : ∀ {value : Nat}, char ∈ Nat.toDigits base value →
      ∃ digit < base, char = Nat.digitChar digit := by
  intro value
  induction value using Nat.strongRecOn with
  | ind value ih =>
    intro member
    rcases Nat.lt_or_ge value base with small | large
    · rw [Nat.toDigits_of_lt_base small, List.mem_singleton] at member
      exact ⟨value, small, member⟩
    · rw [Nat.toDigits_of_base_le least large, List.mem_append, List.mem_singleton] at member
      rcases member with front | last
      · exact ih (value / base) (Nat.div_lt_self (by omega) least) front
      · exact ⟨value % base, Nat.mod_lt _ (by omega), last⟩

theorem not_mem_toDigits (least : 1 < base) (most : base ≤ 16)
    (other : ∀ digit < 16, char ≠ Nat.digitChar digit) (value : Nat) :
    char ∉ Nat.toDigits base value := by
  intro member
  obtain ⟨digit, small, same⟩ := mem_toDigits least member
  exact other digit (by omega) same

theorem split_unique {mark : Char} {front front' back back' : Text} (clean : mark ∉ front)
    (clean' : mark ∉ front') (same : front ++ mark :: back = front' ++ mark :: back') :
    front = front' ∧ back = back' := by
  induction front generalizing front' with
  | nil =>
    cases front' with
    | nil => exact ⟨rfl, (List.cons.inj same).2⟩
    | cons char front' =>
      exact absurd (List.cons.inj same).1 fun here => clean' (here ▸ List.mem_cons_self)
  | cons char front ih =>
    cases front' with
    | nil => exact absurd (List.cons.inj same).1 fun here => clean (here ▸ List.mem_cons_self)
    | cons char' front' =>
      obtain ⟨rfl, rest⟩ := List.cons.inj same
      obtain ⟨rfl, rfl⟩ := ih (fun inside => clean (List.mem_cons_of_mem _ inside))
        (fun inside => clean' (List.mem_cons_of_mem _ inside)) rest
      exact ⟨rfl, rfl⟩

/-- The character that a letter behind a backslash stands for. -/
def unescapeLetter (letter : Char) : Char :=
  if letter = 't' then '\t'
  else if letter = 'r' then '\r'
  else if letter = 'n' then '\n'
  else letter

inductive Escape (char : Char) : Text → Prop where
  | letter (letter : Char) (stands : unescapeLetter letter = char) (other : letter ≠ 'u')
      (visible : letter ≠ '\n') : Escape char [letter]
  | code : Escape char ('u' :: '\x7b' :: (hexText char.toNat ++ ['\x7d']))

theorem escapeDefault_cases (char : Char) :
    (escapeDefault char = [char] ∧ char ≠ '\\' ∧ char ≠ '\n') ∨
      ∃ rest, escapeDefault char = '\\' :: rest ∧ Escape char rest := by
  unfold escapeDefault
  split
  · rename_i here
    exact .inr ⟨['t'], rfl, .letter 't' here.symm (by decide) (by decide)⟩
  split
  · rename_i here
    exact .inr ⟨['r'], rfl, .letter 'r' here.symm (by decide) (by decide)⟩
  split
  · rename_i here
    exact .inr ⟨['n'], rfl, .letter 'n' here.symm (by decide) (by decide)⟩
  rename_i notNewline
  split
  · rename_i here
    refine .inr ⟨[char], rfl, ?_⟩
    rcases here with rfl | rfl | rfl <;> exact .letter _ (by decide) (by decide) (by decide)
  rename_i plain
  split
  · exact .inl ⟨rfl, fun same => plain (.inr (.inr same)), notNewline⟩
  · exact .inr ⟨_, rfl, .code⟩

theorem closing_not_mem_hexText (value : Nat) : '\x7d' ∉ hexText value :=
  not_mem_toDigits (by decide) (by decide) (by decide) value

variable {char char' : Char}

theorem Escape.unique {rest rest' back back' : Text} (first : Escape char rest)
    (second : Escape char' rest') (same : rest ++ back = rest' ++ back') :
    char = char' ∧ back = back' := by
  cases first with
  | letter letter stands other =>
    cases second with
    | letter letter' stands' other' =>
      obtain ⟨rfl, rest⟩ := List.cons.inj same
      exact ⟨stands.symm.trans stands', rest⟩
    | code => exact absurd (List.cons.inj same).1 other
  | code =>
    cases second with
    | letter letter' stands' other' => exact absurd (List.cons.inj same).1.symm other'
    | code =>
      simp only [List.cons_append, List.append_assoc] at same
      have digits := (List.cons.inj (List.cons.inj same).2).2
      obtain ⟨hex, rest⟩ := split_unique (closing_not_mem_hexText _)
        (closing_not_mem_hexText _) digits
      exact ⟨Char.toNat_inj.mp (toDigits_injective (by decide) (by decide) hex), rest⟩

def marker (line : Text) : Text :=
  if line.getLast? = some '\n' then [] else noNewlineMarker

/-- A text that is empty or starts with none of the signs. -/
def Behind (text : Text) : Prop :=
  ∀ char rest, text = char :: rest → char ≠ ' ' ∧ char ≠ '-' ∧ char ≠ '+' ∧ char ≠ '\\'

theorem sign_injective {kind kind' : Kind} (same : kind.sign = kind'.sign) : kind = kind' := by
  cases kind <;> cases kind' <;> first | rfl | exact absurd same (by decide)

variable {line line' : Text}

theorem line_eq (same : contents line = contents line')
    (marked : marker line = marker line') : line = line' := by
  unfold contents at same
  unfold marker at marked
  by_cases ends : line.getLast? = some '\n'
  · by_cases ends' : line'.getLast? = some '\n'
    · rw [if_pos ends, if_pos ends'] at same
      rw [← List.dropLast_append_getLast? _ ends, ← List.dropLast_append_getLast? _ ends', same]
    · rw [if_pos ends, if_neg ends'] at marked
      cases marked
  · by_cases ends' : line'.getLast? = some '\n'
    · rw [if_neg ends, if_pos ends'] at marked
      cases marked
    · rw [if_neg ends, if_neg ends'] at same
      exact same

theorem marker_unique {rest rest' : Text} (front : ∀ char text, rest = char :: text → char ≠ '\\')
    (front' : ∀ char text, rest' = char :: text → char ≠ '\\')
    (same : marker line ++ rest = marker line' ++ rest') :
    marker line = marker line' ∧ rest = rest' := by
  have starts : ∃ text, noNewlineMarker = '\\' :: text := ⟨_, rfl⟩
  obtain ⟨text, starts⟩ := starts
  unfold marker at same ⊢
  by_cases ends : line.getLast? = some '\n'
  · by_cases ends' : line'.getLast? = some '\n'
    · rw [if_pos ends, if_pos ends'] at same ⊢
      exact ⟨rfl, same⟩
    · rw [if_pos ends, if_neg ends', starts] at same
      exact absurd rfl (front _ _ same)
  · by_cases ends' : line'.getLast? = some '\n'
    · rw [if_neg ends, if_pos ends', starts] at same
      exact absurd rfl (front' _ _ same.symm)
    · rw [if_neg ends, if_neg ends'] at same ⊢
      exact ⟨rfl, List.append_cancel_left same⟩

section

variable [Libraries]

/-- How a character of a line is written. -/
def charCode (char : Char) : Text :=
  if isEscaped char then escapeDefault char else [char]

theorem charCode_cases (char : Char) :
    (charCode char = [char] ∧ char ≠ '\\' ∧ char ≠ '\n') ∨
      ∃ rest, charCode char = '\\' :: rest ∧ Escape char rest := by
  unfold charCode
  split
  · exact escapeDefault_cases char
  · rename_i shown
    refine .inl ⟨rfl, ?_, ?_⟩
    · rintro rfl
      exact shown rfl
    · rintro rfl
      exact shown rfl

theorem charCode_unique {back back' : Text}
    (same : charCode char ++ back = charCode char' ++ back') : char = char' ∧ back = back' := by
  rcases charCode_cases char with ⟨plain, other, -⟩ | ⟨rest, escaped, escape⟩
  · rcases charCode_cases char' with ⟨plain', -, -⟩ | ⟨rest', escaped', -⟩
    · rw [plain, plain'] at same
      exact List.cons.inj same
    · rw [plain, escaped'] at same
      exact absurd (List.cons.inj same).1 other
  · rcases charCode_cases char' with ⟨plain', other', -⟩ | ⟨rest', escaped', escape'⟩
    · rw [escaped, plain'] at same
      exact absurd (List.cons.inj same).1.symm other'
    · rw [escaped, escaped'] at same
      exact escape.unique escape' (List.cons.inj same).2

theorem newline_not_mem_charCode (char : Char) : '\n' ∉ charCode char := by
  rcases charCode_cases char with ⟨plain, -, other⟩ | ⟨rest, escaped, escape⟩
  · rw [plain, List.mem_singleton]
    exact fun same => other same.symm
  · rw [escaped, List.mem_cons, not_or]
    refine ⟨by decide, ?_⟩
    cases escape with
    | letter letter stands other visible =>
      rw [List.mem_singleton]
      exact fun same => visible same.symm
    | code =>
      have digits : '\n' ∉ hexText char.toNat :=
        not_mem_toDigits (by decide) (by decide) (by decide) _
      simp [digits]

/-- How the contents of a line are written. -/
def escapedText (text : Text) : Text := text.flatMap charCode

theorem escapedText_injective : ∀ {text text' : Text}, escapedText text = escapedText text' →
    text = text'
  | [], [], _ => rfl
  | [], char :: text, same => by
    rcases charCode_cases char with ⟨plain, -⟩ | ⟨rest, escaped, -⟩
    · rw [escapedText, escapedText, List.flatMap_cons, plain] at same
      cases same
    · rw [escapedText, escapedText, List.flatMap_cons, escaped] at same
      cases same
  | char :: text, [], same => by
    rcases charCode_cases char with ⟨plain, -⟩ | ⟨rest, escaped, -⟩
    · rw [escapedText, escapedText, List.flatMap_cons, plain] at same
      cases same
    · rw [escapedText, escapedText, List.flatMap_cons, escaped] at same
      cases same
  | char :: text, char' :: text', same => by
    rw [escapedText, escapedText, List.flatMap_cons, List.flatMap_cons] at same
    obtain ⟨rfl, rest⟩ := charCode_unique same
    rw [escapedText_injective rest]

theorem newline_not_mem_escapedText (text : Text) : '\n' ∉ escapedText text := by
  intro member
  obtain ⟨char, -, inside⟩ := List.mem_flatMap.mp member
  exact newline_not_mem_charCode char inside

def lineText (edit : Kind × Text) : Text :=
  edit.1.sign :: (escapedText (contents edit.2) ++ '\n' :: marker edit.2)

theorem follows {edits : List (Kind × Text)} {tail : Text} (behind : Behind tail)
    {rest : Text} (same : edits.flatMap lineText ++ tail = char :: rest) : char ≠ '\\' := by
  cases edits with
  | nil => exact (behind char rest same).2.2.2
  | cons edit edits =>
    rw [List.flatMap_cons, lineText] at same
    obtain ⟨rfl, -⟩ := List.cons.inj same
    cases edit.1 <;> decide

theorem lines_unique {edits edits' : List (Kind × Text)} {tail tail' : Text} (behind : Behind tail)
    (behind' : Behind tail')
    (same : edits.flatMap lineText ++ tail = edits'.flatMap lineText ++ tail') :
    edits = edits' := by
  have signed (edit : Kind × Text) (edits : List (Kind × Text)) {tail other : Text}
      (behind : Behind other) (same : other = (edit :: edits).flatMap lineText ++ tail) :
    False := by
    rw [List.flatMap_cons, lineText] at same
    have apart := behind _ _ same
    cases kind : edit.1 <;> rw [kind] at apart <;> simp [Kind.sign] at apart
  induction edits generalizing edits' with
  | nil =>
    cases edits' with
    | nil => rfl
    | cons edit' edits' => exact (signed edit' edits' behind same).elim
  | cons edit edits ih =>
    cases edits' with
    | nil => exact (signed edit edits behind' same.symm).elim
    | cons edit' edits' =>
      simp only [List.flatMap_cons, lineText, List.cons_append, List.append_assoc] at same
      obtain ⟨sign, rest⟩ := List.cons.inj same
      obtain ⟨escaped, rest⟩ := split_unique (newline_not_mem_escapedText _)
        (newline_not_mem_escapedText _) rest
      obtain ⟨marked, rest⟩ := marker_unique (fun _ _ => follows behind)
        (fun _ _ => follows behind') rest
      have kinds := sign_injective sign
      have lines := line_eq (escapedText_injective escaped) marked
      rw [ih rest, Prod.ext kinds lines]

end

end JtermCore.OutputCompare
