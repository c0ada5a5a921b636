import JtermCore.Keybindings.RoundTrip

/-!
# A chord under other spellings

The spellings of a chord differ in the order of the modifiers, in the names of
the tokens, in the case of their letters, and in the whitespace around them.
All that are short enough are read as the same chord.
-/

namespace JtermCore.Keybindings

open ExecutionJournal Result Utf8
open Search (capital_cases named named_eq_some toAsciiLowercase)

section

variable [KeyLibraries]

/-- Another spelling of a written chord: its modifiers in some order, each token
in other letters or under another name, with other whitespace around it. -/
structure Written.Respelled (written other : Written) : Prop where
  mods : ∃ order, order.Perm written.words ∧ List.Forall₂ SameModifier order other.words
  key : SameKey written.key.word other.key.word
  spaced : ∀ token ∈ other.key :: other.mods, ∀ char ∈ token.before ++ token.after, Allowed char

theorem allowed_of_letter {char other : Char} (same : toAsciiLowercase char = toAsciiLowercase other)
    (allowed : Allowed char) : Allowed other := by
  rcases capital_cases other with ⟨index, small, rfl⟩ | plain
  · have printable : ∀ index < 26, 0x20 ≤ (Char.ofNat (65 + index)).toNat ∧
        (Char.ofNat (65 + index)).toNat < 0x7f := by decide
    exact allowed_of_printable (printable index small).1 (printable index small).2
  · rcases capital_cases char with ⟨index, small, rfl⟩ | unchanged
    · have printable : ∀ index < 26, 0x20 ≤ (toAsciiLowercase (Char.ofNat (65 + index))).toNat ∧
          (toAsciiLowercase (Char.ofNat (65 + index))).toNat < 0x7f := by decide
      rw [plain] at same
      rw [← same]
      exact allowed_of_printable (printable index small).1 (printable index small).2
    · rw [unchanged, plain] at same
      exact same ▸ allowed

variable {token other : List Char}

theorem allowed_of_letters (same : SameLetters token other)
    (allowed : ∀ char ∈ token, Allowed char) : ∀ char ∈ other, Allowed char := by
  intro char member
  have listed : toAsciiLowercase char ∈ token.map toAsciiLowercase := by
    rw [same]
    exact List.mem_map_of_mem member
  obtain ⟨source, there, low⟩ := List.mem_map.mp listed
  exact allowed_of_letter low (allowed source there)

theorem allowed_of_named {α : Type} {table : List (String × α)} {value : α}
    (printable : table.all (fun entry => entry.1.toList.all fun char =>
      0x20 ≤ char.toNat && char.toNat < 0x7f) = true)
    (found : named table (token.map toAsciiLowercase) = some value) :
    ∀ char ∈ token, Allowed char := by
  obtain ⟨entry, listed, name, -⟩ := named_eq_some found
  have all := List.all_eq_true.mp (List.all_eq_true.mp printable entry listed)
  rw [name] at all
  have letters : SameLetters (token.map toAsciiLowercase) token := by
    unfold SameLetters
    rw [List.map_map]
    exact List.map_congr_left fun char _ => Search.toAsciiLowercase_idem char
  refine allowed_of_letters letters fun char member => ?_
  have range := all char member
  simp only [Bool.and_eq_true, decide_eq_true_eq] at range
  exact allowed_of_printable range.1 range.2

theorem allowed_of_sameModifier (same : SameModifier token other)
    (allowed : ∀ char ∈ token, Allowed char) : ∀ char ∈ other, Allowed char := by
  have printable : modifierNames.all (fun entry => entry.1.toList.all fun char =>
      0x20 ≤ char.toNat && char.toNat < 0x7f) = true := by decide +kernel
  rcases same with letters | ⟨slot, -, there⟩
  · exact allowed_of_letters letters allowed
  · exact allowed_of_named printable there

theorem allowed_of_sameKey (same : SameKey token other)
    (allowed : ∀ char ∈ token, Allowed char) : ∀ char ∈ other, Allowed char := by
  have printable : keyNames.all (fun entry => entry.1.toList.all fun char =>
      0x20 ≤ char.toNat && char.toNat < 0x7f) = true := by decide +kernel
  rcases same with letters | ⟨sym, -, there⟩
  · exact allowed_of_letters letters allowed
  · exact allowed_of_named printable there

omit [KeyLibraries] in
theorem mem_joined {tokens : List Token} {rest : List Char} {char : Char} :
    char ∈ joined tokens rest ↔
      (∃ token ∈ tokens, char ∈ token.text ∨ char = '+') ∨ char ∈ rest := by
  induction tokens with
  | nil => simp [joined]
  | cons token tokens ih =>
    change char ∈ token.text ++ '+' :: joined tokens rest ↔ _
    rw [List.mem_append, List.mem_cons, ih]
    simp only [List.mem_cons, exists_eq_or_imp, or_assoc]

variable {written : Written}

theorem allowed_words (allowed : ∀ char ∈ written.text, Allowed char) :
    (∀ word ∈ written.words, ∀ char ∈ word, Allowed char) ∧
      ∀ char ∈ written.key.word, Allowed char := by
  constructor
  · intro word member char inside
    obtain ⟨token, listed, rfl⟩ := List.mem_map.mp member
    apply allowed
    rw [Written.text, mem_joined, Token.text]
    exact .inl ⟨token, listed, .inl (List.mem_append_right _ (List.mem_append_left _ inside))⟩
  · intro char inside
    apply allowed
    rw [Written.text, mem_joined, Token.text]
    exact .inr (List.mem_append_right _ (List.mem_append_left _ inside))

theorem allowed_text (words : ∀ word ∈ written.words, ∀ char ∈ word, Allowed char)
    (key : ∀ char ∈ written.key.word, Allowed char)
    (spaced : ∀ token ∈ written.key :: written.mods, ∀ char ∈ token.before ++ token.after,
      Allowed char) : ∀ char ∈ written.text, Allowed char := by
  intro char member
  rw [Written.text, mem_joined] at member
  rcases member with ⟨token, listed, inside | rfl⟩ | inside
  · have around := spaced token (List.mem_cons_of_mem written.key listed) char
    simp only [Token.text, List.mem_append] at inside around
    rcases inside with before | word | after
    · exact around (.inl before)
    · exact words token.word (List.mem_map_of_mem listed) char word
    · exact around (.inr after)
  · exact allowed_of_printable (by decide) (by decide)
  · have around := spaced written.key List.mem_cons_self char
    simp only [Token.text, List.mem_append] at inside around
    rcases inside with before | word | after
    · exact around (.inl before)
    · exact key char word
    · exact around (.inr after)

theorem allowed_of_forall₂ {words others : List (List Char)}
    (same : List.Forall₂ SameModifier words others)
    (allowed : ∀ word ∈ words, ∀ char ∈ word, Allowed char) :
    ∀ other ∈ others, ∀ char ∈ other, Allowed char := by
  induction same with
  | nil => simp
  | cons first _ ih =>
    intro other member
    rcases List.mem_cons.mp member with rfl | later
    · exact allowed_of_sameModifier first (allowed _ List.mem_cons_self)
    · exact ih (fun word listed => allowed word (List.mem_cons_of_mem _ listed)) other later

theorem parse_respelled {other : Written} {chord : Chord}
    (accepted : parse written.text = .ok chord) (respelled : written.Respelled other)
    (short : byteLength other.text ≤ maxChordInputBytes) : parse other.text = .ok chord := by
  obtain ⟨-, allowed, applied, read⟩ := parse_written.mp accepted
  obtain ⟨order, permuted, same⟩ := respelled.mods
  obtain ⟨words, key⟩ := allowed_words allowed
  have moved : ∀ word ∈ order, ∀ char ∈ word, Allowed char := by
    intro word member
    exact words word (permuted.mem_iff.mp member)
  refine parse_written.mpr ⟨short, ?_, foldlM_applyModifier_of_same permuted same applied,
    parseKeyToken_of_same respelled.key read⟩
  exact allowed_text (allowed_of_forall₂ same moved) (allowed_of_sameKey respelled.key key)
    respelled.spaced

/-- Chord strings round-trip. -/
theorem chord_strings_round_trip {text : List Char} {chord : Chord}
    (accepted : parse text = .ok chord) :
    parse chord.display = .ok chord ∧
    parse chord.canonical = .ok chord ∧
    (parse chord.canonical).map Chord.canonical = .ok chord.canonical ∧
    (∀ {other : List Char} {otherChord : Chord}, parse other = .ok otherChord →
      (chord = otherChord ↔ chord.canonical = otherChord.canonical)) ∧
    chord.key.Valid ∧
    (∃ written : Written, written.text = text) ∧
    ∀ written other : Written, written.text = text → written.Respelled other →
      byteLength other.text ≤ maxChordInputBytes → parse other.text = .ok chord := by
  have canonical := parse_canonical accepted
  refine ⟨parse_display accepted, canonical, by rw [canonical]; rfl, ?_,
    (storable_of_parse accepted).1, exists_written accepted, ?_⟩
  · intro other otherChord otherAccepted
    constructor
    · rintro rfl
      rfl
    · intro same
      have both := parse_canonical otherAccepted
      rw [← same, canonical] at both
      exact Except.ok.inj both
  · rintro written other rfl respelled short
    exact parse_respelled accepted respelled short

end

/-- The libraries on ASCII, where only sigma has another case. -/
def asciiKeys : KeyLibraries where
  parseJson _ := none
  noDuplicateMembers _ := true
  isUnsafeInvisibleChar _ := false
  lowercaseChar char := if char = 'Σ' then ['σ'] else [toAsciiLowercase char]
  uppercaseChar char :=
    if 'a' ≤ char ∧ char ≤ 'z' then [Char.ofNat (char.toNat - 32)] else [char]
  isCased char := ('a' ≤ char && char ≤ 'z') || ('A' ≤ char && char ≤ 'Z')
  isCaseIgnorable char := char = '\'' || char = '.'
  lowercaseChar_idem {char low} lowered := by
    split at lowered
    · obtain rfl := (List.cons.inj lowered).1
      decide
    · obtain rfl := (List.cons.inj lowered).1
      rename_i plain
      rw [if_neg fun same => plain (sigma_of_same same), Search.toAsciiLowercase_idem]
  lowercaseChar_ascii {char} small := by
    rw [if_neg]
    rintro rfl
    exact absurd small (by decide)
  lowercaseChar_sigma := rfl
  lowercaseChar_visible {char low} lowered space control _ := by
    split at lowered
    · obtain rfl := (List.cons.inj lowered).1
      decide
    · obtain rfl := (List.cons.inj lowered).1
      refine ⟨by rw [Search.isWhitespace_toAsciiLowercase, space], ?_, rfl⟩
      rcases capital_cases char with ⟨index, small, rfl⟩ | same
      · clear space control
        revert index
        decide
      · rw [same, control]
  uppercaseChar_visible {char high} raised space control _ := by
    split at raised
    · rename_i letter
      obtain rfl := (List.cons.inj raised).1
      have least : 97 ≤ char.toNat := letter.1
      have most : char.toNat ≤ 122 := letter.2
      have each : ∀ code, 65 ≤ code → code ≤ 90 → isWhitespace (Char.ofNat code) = false ∧
          isControl (Char.ofNat code) = false := by
        intro code from_ upto
        have range : code ∈ List.range' 65 26 := by
          rw [List.mem_range'_1]
          omega
        revert code
        decide
      obtain ⟨shown, plain⟩ := each (char.toNat - 32) (by omega) (by omega)
      exact ⟨shown, plain, rfl⟩
    · obtain rfl := (List.cons.inj raised).1
      exact ⟨space, control, rfl⟩
  visible_ascii _ _ _ := rfl

theorem chord_strings_round_trip_ascii :
    @parse asciiKeys "Control+T".toList = .ok ⟨{ ctrl := true }, .char 't'⟩ ∧
      @parse asciiKeys (@Chord.display asciiKeys ⟨{ ctrl := true }, .char 't'⟩) =
        .ok ⟨{ ctrl := true }, .char 't'⟩ := by
  have accepted : @parse asciiKeys "Control+T".toList = .ok ⟨{ ctrl := true }, .char 't'⟩ := by
    decide +kernel
  exact ⟨accepted, (@chord_strings_round_trip asciiKeys _ _ accepted).1⟩

/-- A space before the plus sign as a key, and too many spaces behind a key. -/
theorem spaced_plus_refused :
    @parse asciiKeys "ctrl++".toList = .ok ⟨{ ctrl := true }, .char '+'⟩ ∧
      @parse asciiKeys "ctrl+ +".toList = .error .missingKey ∧
      @parse asciiKeys "t".toList = .ok ⟨{}, .char 't'⟩ ∧
      @parse asciiKeys ("t".toList ++ List.replicate 256 ' ') =
        .error (.unknownKey "<overlong chord>".toList) := by
  decide +kernel

end JtermCore.Keybindings
