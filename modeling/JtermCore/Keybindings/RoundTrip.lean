import JtermCore.Keybindings.Spelling

/-!
# Chords are read as they are written

What `display` and `canonical` write of an accepted chord is accepted again and
is the same chord, and so is every other spelling of its text.  Two spellings
are refused that one might expect: a text of more than 256 bytes, and a plus
sign as the key that does not stand right behind the one that separates it.
-/

namespace JtermCore.Keybindings

open ExecutionJournal Lines Result Utf8
open Search (capital_cases named named_eq_some toAsciiLowercase)

variable [KeyLibraries]

/-- A character that `parse` lets through. -/
def Allowed (char : Char) : Prop :=
  isControl char = false ∧ Libraries.isUnsafeInvisibleChar char = false

variable {char : Char}

theorem allowed_of_printable (least : 0x20 ≤ char.toNat) (most : char.toNat < 0x7f) :
    Allowed char := by
  refine ⟨?_, KeyLibraries.visible_ascii char least most⟩
  rw [isControl, Bool.or_eq_false_iff, Bool.and_eq_false_iff]
  exact ⟨decide_eq_false (by omega), .inl (decide_eq_false (by omega))⟩

variable {text : List Char} {chord : Chord}

theorem parse_eq_ok :
    parse text = .ok chord ↔ byteLength text ≤ maxChordInputBytes ∧ (∀ char ∈ text, Allowed char) ∧
      trimChars text ≠ [] ∧ ∃ words key, splitChord (trimChars text) = .ok (words, key) ∧
        words.foldlM applyModifier {} = .ok chord.mods ∧ parseKeyToken key = .ok chord.key := by
  have safe : (text.any isControl || text.any Libraries.isUnsafeInvisibleChar) = false ↔
      ∀ char ∈ text, Allowed char := by
    simp only [Bool.or_eq_false_iff, List.any_eq_false, Bool.not_eq_true, ← forall_and, Allowed]
  rw [← safe]
  unfold parse
  by_cases long : maxChordInputBytes < byteLength text
  · rw [if_pos long]
    constructor
    · intro done
      cases done
    · rintro ⟨short, -⟩
      exact absurd long (Nat.not_lt.mpr short)
  rw [if_neg long, ← Nat.not_lt]
  cases unsafe_ : text.any isControl || text.any Libraries.isUnsafeInvisibleChar with
  | true => simp
  | false =>
    by_cases blank : trimChars text = []
    · simp [blank]
    · simp only [Bool.false_eq_true, if_false, if_neg blank, bind_eq_ok, pure_eq_ok]
      constructor
      · rintro ⟨⟨words, key⟩, split, mods, applied, sym, read, rfl⟩
        exact ⟨long, trivial, blank, words, key, split, applied, read⟩
      · rintro ⟨-, -, -, words, key, split, applied, read⟩
        exact ⟨(words, key), split, chord.mods, applied, chord.key, read, rfl⟩

theorem parse_written {written : Written} :
    parse written.text = .ok chord ↔ byteLength written.text ≤ maxChordInputBytes ∧
      (∀ char ∈ written.text, Allowed char) ∧
      written.words.foldlM applyModifier {} = .ok chord.mods ∧
      parseKeyToken written.key.word = .ok chord.key := by
  rw [parse_eq_ok, splitChord_text]
  constructor
  · rintro ⟨short, safe, -, words, key, split, applied, read⟩
    obtain ⟨rfl, rfl⟩ := Prod.mk.inj (Except.ok.inj split)
    exact ⟨short, safe, applied, read⟩
  · rintro ⟨short, safe, applied, read⟩
    exact ⟨short, safe, trimChars_text_ne_nil written, _, _, rfl, applied, read⟩

theorem word_ne_nil {words : List (List Char)} {mods result : Mods}
    (applied : words.foldlM applyModifier mods = .ok result) : ∀ word ∈ words, word ≠ [] := by
  rintro word member rfl
  have known := exists_slots ((foldlM_applyModifier words mods result).mp applied)
  exact known (slotOf []) (List.mem_map_of_mem member) rfl

theorem exists_written (accepted : parse text = .ok chord) :
    ∃ written : Written, written.text = text := by
  obtain ⟨-, -, -, words, key, split, applied, -⟩ := parse_eq_ok.mp accepted
  obtain ⟨inner, trimmed⟩ := exists_split split (word_ne_nil applied)
  obtain ⟨before, after, whole, front, back⟩ := exists_padding text
  obtain ⟨padded, same⟩ := exists_padded inner front back
  exact ⟨padded, by rw [same, trimmed, ← whole]⟩

def KeySym.Valid : KeySym → Prop
  | .char letter => KeyLibraries.lowercaseChar letter = [letter]
  | .named _ => True
  | .function number => 1 ≤ number ∧ number ≤ 24

/-- A character that can stand in a chord by itself. -/
def Shown (char : Char) : Prop := isWhitespace char = false ∧ Allowed char

theorem shown_of_printable (least : 0x20 < char.toNat) (most : char.toNat < 0x7f) : Shown char := by
  refine ⟨?_, allowed_of_printable (Nat.le_of_lt least) most⟩
  simp only [isWhitespace, Bool.or_eq_false_iff, Bool.and_eq_false_iff, decide_eq_false_iff_not]
  omega

def KeySym.Storable (key : KeySym) : Prop := key.Valid ∧ ∀ char, key = .char char → Shown char

variable {key : KeySym}

theorem storable_of_named {name : List Char}
    (found : named keyNames name = some key) : key.Storable := by
  have characters : keyNames.all (fun entry =>
      match entry.2 with
      | .char char => 0x20 < char.toNat && char.toNat < 0x7f && toAsciiLowercase char = char
      | .named _ => true
      | .function _ => false) = true := by decide +kernel
  obtain ⟨⟨spelled, key⟩, listed, -, rfl⟩ := named_eq_some found
  have fits := List.all_eq_true.mp characters (spelled, key) listed
  cases key with
  | named key => exact ⟨trivial, fun char same => by cases same⟩
  | function number => cases fits
  | char char =>
    simp only [Bool.and_eq_true, decide_eq_true_eq] at fits
    obtain ⟨⟨least, most⟩, low⟩ := fits
    refine ⟨?_, ?_⟩
    · change KeyLibraries.lowercaseChar char = [char]
      rw [KeyLibraries.lowercaseChar_ascii (by omega), low]
    · rintro other same
      cases same
      exact shown_of_printable least most

theorem storable_of_parseKeyToken {token : List Char}
    (accepted : parseKeyToken token = .ok key) (trimmed : trimChars token = token)
    (safe : ∀ char ∈ token, Allowed char) : key.Storable := by
  obtain ⟨-, found | ⟨-, fallback⟩⟩ := parseKeyToken_eq_ok.mp accepted
  · exact storable_of_named found
  · rcases parseFallbackKey_eq_ok.mp fallback with
      ⟨digits, -, least, most, rfl⟩ | ⟨-, char, low, rfl, lowered, rfl⟩
    · exact ⟨⟨least, most⟩, fun char same => by cases same⟩
    · refine ⟨KeyLibraries.lowercaseChar_idem lowered, ?_⟩
      have front := head?_trimChars [char]
      rw [trimmed] at front
      obtain ⟨control, invisible⟩ := safe char List.mem_cons_self
      obtain ⟨space, control, invisible⟩ :=
        KeyLibraries.lowercaseChar_visible lowered (front char rfl) control invisible
      rintro other same
      cases same
      exact ⟨space, control, invisible⟩

def KeySym.displayWord : KeySym → List Char
  | .named key => key.displayName.toList
  | .function number => 'F' :: Nat.toDigits 10 number
  | .char letter => pushDisplayChar [] letter

def KeySym.canonicalWord : KeySym → List Char
  | .named key => key.canonicalName.toList
  | .function number => 'f' :: Nat.toDigits 10 number
  | .char letter => if letter = '\\' then "backslash".toList else [letter]

theorem pushDisplayChar_eq (out : List Char) (char : Char) :
    pushDisplayChar out char = out ++ pushDisplayChar [] char := by
  unfold pushDisplayChar
  split
  · split <;> rfl
  · rfl

theorem display_eq (chord : Chord) :
    chord.display = pushMods [] chord.mods ["Ctrl+", "Shift+", "Alt+", "Super+"] ++
      chord.key.displayWord := by
  unfold Chord.display KeySym.displayWord
  cases chord.key with
  | named key => rfl
  | function number => rfl
  | char char => exact pushDisplayChar_eq _ char

omit [KeyLibraries] in
theorem canonical_eq (chord : Chord) :
    chord.canonical = pushMods [] chord.mods ["ctrl+", "shift+", "alt+", "super+"] ++
      chord.key.canonicalWord := by
  unfold Chord.canonical KeySym.canonicalWord
  cases chord.key with
  | named key => rfl
  | function number => rfl
  | char char =>
    simp only
    split <;> rfl

structure Reads (word : List Char) (key : KeySym) : Prop where
  read : parseKeyToken word = .ok key
  shown : ∀ char ∈ word, Shown char
  filled : word ≠ []
  plain : '+' ∉ word ∨ word = ['+']
  short : byteLength word ≤ 9

theorem exists_display (storable : (KeySym.char char).Storable) :
    ∃ high, pushDisplayChar [] char = [high] ∧ KeyLibraries.lowercaseChar high = [char] ∧
      Shown high := by
  have shown := storable.2 char rfl
  unfold pushDisplayChar
  split
  · rename_i high raised
    split
    · rename_i back
      obtain ⟨space, control, invisible⟩ :=
        KeyLibraries.uppercaseChar_visible raised shown.1 shown.2.1 shown.2.2
      exact ⟨high, rfl, back, space, control, invisible⟩
    · exact ⟨char, rfl, storable.1, shown⟩
  · exact ⟨char, rfl, storable.1, shown⟩

theorem parseKeyToken_single {low : Char} (lowered : KeyLibraries.lowercaseChar char = [low]) :
    parseKeyToken [char] = .ok (.char low) := by
  have symbols : keyNames.all (fun entry =>
      decide (entry.1.toList.length = 1 → entry.1.toList.map KeySym.char = [entry.2])) = true := by
    decide +kernel
  have lower : lowercase [char] = [low] := by rw [lowercase_single, lowered]
  have plain : isModifierName [low] = false := by
    have long : ["ctrl", "control", "shift", "alt", "option", "super", "cmd", "command", "win",
        "meta"].all (fun name => name.toList.length ≠ 1) = true := by decide
    rw [isModifierName, List.any_eq_false]
    intro name listed same
    have lengths := List.all_eq_true.mp long name listed
    rw [of_decide_eq_true same] at lengths
    cases lengths
  rw [parseKeyToken_eq_ok, lower]
  refine ⟨plain, ?_⟩
  cases found : named keyNames [low] with
  | some sym =>
    obtain ⟨entry, listed, name, rfl⟩ := named_eq_some found
    have single := of_decide_eq_true (List.all_eq_true.mp symbols entry listed)
    rw [name] at single
    have same : [KeySym.char low] = [entry.2] := single rfl
    exact .inl (congrArg some (List.cons.inj same).1.symm)
  | none =>
    have digits : functionDigits [low] = none := by
      unfold functionDigits
      split
      · rename_i more same
        obtain ⟨-, rfl⟩ := List.cons.inj same
        rfl
      · rfl
    exact .inr ⟨rfl, parseFallbackKey_eq_ok.mpr (.inr ⟨digits, char, low, rfl, lowered, rfl⟩)⟩

theorem reads_single {low : Char} (lowered : KeyLibraries.lowercaseChar char = [low])
    (shown : Shown char) : Reads [char] (.char low) where
  read := parseKeyToken_single lowered
  shown := by simpa using shown
  filled := List.cons_ne_nil char []
  plain := by
    by_cases plus : char = '+'
    · exact .inr (by rw [plus])
    · left
      rw [List.mem_singleton]
      exact Ne.symm plus
  short := by
    have most := char.utf8Size_le_four
    simp only [byteLength, List.map_cons, List.map_nil, List.sum_cons, List.sum_nil]
    omega

def Printable (word : List Char) : Prop :=
  word.all (fun char => 0x20 < char.toNat && char.toNat < 0x7f && char ≠ '+' &&
    char.utf8Size = 1) = true ∧ word ≠ [] ∧ word.length ≤ 9

instance (word : List Char) : Decidable (Printable word) :=
  inferInstanceAs (Decidable (_ ∧ _))

variable {word : List Char}

omit [KeyLibraries] in
theorem byteLength_of_all (single : ∀ char ∈ word, char.utf8Size = 1) :
    byteLength word = word.length := by
  induction word with
  | nil => rfl
  | cons char word ih =>
    have rest := ih fun other member => single other (List.mem_cons_of_mem char member)
    unfold byteLength at rest ⊢
    rw [List.map_cons, List.sum_cons, rest, single char List.mem_cons_self, List.length_cons,
      Nat.add_comm]

theorem reads_printable (printable : Printable word)
    (read : parseKeyToken word = .ok key) : Reads word key := by
  obtain ⟨all, filled, short⟩ := printable
  simp only [List.all_eq_true, Bool.and_eq_true, decide_eq_true_eq] at all
  exact
    { read := read
      shown := fun char member =>
        shown_of_printable (all char member).1.1.1 (all char member).1.1.2
      filled := filled
      plain := .inl fun plus => (all '+' plus).1.2 rfl
      short := by
        rw [byteLength_of_all fun char member => (all char member).2]
        exact short }

omit [KeyLibraries] in
theorem isAscii_of_printable (printable : Printable word) : IsAscii word := by
  intro char member
  have fits := List.all_eq_true.mp printable.1 char member
  simp only [Bool.and_eq_true, decide_eq_true_eq] at fits
  omega

theorem reads_named (printable : Printable word)
    (found : named keyNames (word.map toAsciiLowercase) = some key) : Reads word key := by
  refine reads_printable printable (parseKeyToken_of_named ?_)
  rw [lowercase_ascii (isAscii_of_printable printable), found]

theorem reads_function {number : Nat} (least : 1 ≤ number) (most : number ≤ 24) {letter : Char}
    (letters : letter = 'F' ∨ letter = 'f') :
    Reads (letter :: Nat.toDigits 10 number) (.function number) := by
  have checked : (List.range' 1 24).all (fun number => ['F', 'f'].all fun letter =>
      Printable (letter :: Nat.toDigits 10 number) ∧
      isModifierName ((letter :: Nat.toDigits 10 number).map toAsciiLowercase) = false ∧
      named keyNames ((letter :: Nat.toDigits 10 number).map toAsciiLowercase) = none ∧
      functionDigits ((letter :: Nat.toDigits 10 number).map toAsciiLowercase) =
        some (Nat.toDigits 10 number) ∧
      digitsValue (Nat.toDigits 10 number) = number) = true := by decide +kernel
  have listed : number ∈ List.range' 1 24 := by
    rw [List.mem_range'_1]
    omega
  have named_ : letter ∈ ['F', 'f'] := by simpa using letters
  obtain ⟨printable, plain, unknown, digits, value⟩ :=
    of_decide_eq_true (List.all_eq_true.mp (List.all_eq_true.mp checked number listed) letter named_)
  refine reads_printable printable ?_
  rw [parseKeyToken_eq_ok, lowercase_ascii (isAscii_of_printable printable)]
  refine ⟨plain, .inr ⟨unknown, parseFallbackKey_eq_ok.mpr (.inl ⟨_, digits, ?_⟩)⟩⟩
  rw [value]
  exact ⟨least, most, rfl⟩

omit [KeyLibraries] in
theorem displayName_reads (key : NamedKey) : Printable key.displayName.toList ∧
    named keyNames (key.displayName.toList.map toAsciiLowercase) = some (.named key) := by
  cases key <;> decide +kernel

omit [KeyLibraries] in
theorem canonicalName_reads (key : NamedKey) : Printable key.canonicalName.toList ∧
    named keyNames (key.canonicalName.toList.map toAsciiLowercase) = some (.named key) := by
  cases key <;> decide +kernel

omit [KeyLibraries] in
theorem backslash_reads : Printable "backslash".toList ∧
    named keyNames ("backslash".toList.map toAsciiLowercase) = some (.char '\\') := by
  decide +kernel

theorem reads_displayWord (storable : key.Storable) : Reads key.displayWord key := by
  cases key with
  | named key => exact reads_named (displayName_reads key).1 (displayName_reads key).2
  | function number => exact reads_function storable.1.1 storable.1.2 (.inl rfl)
  | char char =>
    obtain ⟨high, word, lowered, shown⟩ := exists_display storable
    rw [KeySym.displayWord, word]
    exact reads_single lowered shown

theorem reads_canonicalWord (storable : key.Storable) : Reads key.canonicalWord key := by
  cases key with
  | named key => exact reads_named (canonicalName_reads key).1 (canonicalName_reads key).2
  | function number => exact reads_function storable.1.1 storable.1.2 (.inr rfl)
  | char char =>
    rw [KeySym.canonicalWord]
    split
    · rename_i backslash
      rw [backslash]
      exact reads_named backslash_reads.1 backslash_reads.2
    · exact reads_single storable.1 (storable.2 char rfl)

def selected {α : Type} (mods : Mods) (items : List α) : List α :=
  (([mods.ctrl, mods.shift, mods.alt, mods.sup].zip items).filter Prod.fst).map Prod.snd

/-- A word without whitespace around it. -/
def bare (word : List Char) (shown : word ≠ [] ∧ trimChars word = word) : Token :=
  ⟨[], word, [], nil_blank, nil_blank, shown.1, shown.2⟩

/-- The modifiers as `display` writes them. -/
def displayMods : List Token :=
  [bare "Ctrl".toList (by decide), bare "Shift".toList (by decide), bare "Alt".toList (by decide),
    bare "Super".toList (by decide)]

/-- The modifiers as `canonical` writes them. -/
def canonicalMods : List Token :=
  [bare "ctrl".toList (by decide), bare "shift".toList (by decide), bare "alt".toList (by decide),
    bare "super".toList (by decide)]

omit [KeyLibraries] in
theorem map_selected {α β : Type} (mods : Mods) (items : List α) (image : α → β) :
    (selected mods items).map image = selected mods (items.map image) := by
  simp only [selected, List.zip_map_right, List.filter_map, List.map_map]
  rfl

omit [KeyLibraries] in
theorem selected_subset {α : Type} {mods : Mods} {items : List α} {item : α}
    (member : item ∈ selected mods items) : item ∈ items := by
  obtain ⟨entry, kept, rfl⟩ := List.mem_map.mp member
  exact (List.of_mem_zip (List.mem_of_mem_filter kept)).2

omit [KeyLibraries] in
theorem pushMods_display (mods : Mods) (rest : List Char) :
    pushMods [] mods ["Ctrl+", "Shift+", "Alt+", "Super+"] ++ rest =
      joined (selected mods displayMods) rest := by
  obtain ⟨ctrl, shift, alt, sup⟩ := mods
  cases ctrl <;> cases shift <;> cases alt <;> cases sup <;> rfl

omit [KeyLibraries] in
theorem pushMods_canonical (mods : Mods) (rest : List Char) :
    pushMods [] mods ["ctrl+", "shift+", "alt+", "super+"] ++ rest =
      joined (selected mods canonicalMods) rest := by
  obtain ⟨ctrl, shift, alt, sup⟩ := mods
  cases ctrl <;> cases shift <;> cases alt <;> cases sup <;> rfl

omit [KeyLibraries] in
theorem foldlM_add_selected (mods : Mods) :
    (selected mods [some .ctrl, some .shift, some .alt, some .sup]).foldlM Mods.add {} =
      some mods := by
  obtain ⟨ctrl, shift, alt, sup⟩ := mods
  cases ctrl <;> cases shift <;> cases alt <;> cases sup <;> rfl

structure Names (tokens : List Token) : Prop where
  printable : ∀ token ∈ tokens, Printable token.word ∧ token.before = [] ∧ token.after = []
  four : tokens.length ≤ 4
  ordered : tokens.map (fun token => named modifierNames (token.word.map toAsciiLowercase)) =
    [some .ctrl, some .shift, some .alt, some .sup]

omit [KeyLibraries] in
theorem names_displayMods : Names displayMods where
  printable := by decide +kernel
  four := by decide
  ordered := by decide +kernel

omit [KeyLibraries] in
theorem names_canonicalMods : Names canonicalMods where
  printable := by decide +kernel
  four := by decide
  ordered := by decide +kernel

section

variable {tokens : List Token} (names : Names tokens)

include names

theorem Names.applied (mods : Mods) :
    ((selected mods tokens).map Token.word).foldlM applyModifier {} = .ok mods := by
  have slots : (tokens.map Token.word).map slotOf =
      [some .ctrl, some .shift, some .alt, some .sup] := by
    rw [List.map_map, ← names.ordered]
    apply List.map_congr_left
    intro token member
    rw [Function.comp_apply, slotOf,
      lowercase_ascii (isAscii_of_printable (names.printable token member).1)]
  rw [foldlM_applyModifier, map_selected, map_selected, slots, foldlM_add_selected]

omit [KeyLibraries] in
theorem Names.plain (mods : Mods) : ∀ token ∈ selected mods tokens, '+' ∉ token.word := by
  intro token member plus
  have printable := (names.printable token (selected_subset member)).1.1
  have fits := List.all_eq_true.mp printable '+' plus
  simp at fits

theorem Names.row (mods : Mods) : (∀ char ∈ joined (selected mods tokens) [], Shown char) ∧
      byteLength (joined (selected mods tokens) []) ≤ 40 := by
  have each : ∀ row : List Token, row.length ≤ 4 → (∀ token ∈ row, token ∈ tokens) →
      (∀ char ∈ joined row [], Shown char) ∧ byteLength (joined row []) ≤ 10 * row.length := by
    intro row
    induction row with
    | nil =>
      intro _ _
      exact ⟨by simp [joined], Nat.le_refl 0⟩
    | cons token row ih =>
      intro short subset
      obtain ⟨shown, bounded⟩ := ih (Nat.le_of_succ_le short) fun other member =>
        subset other (List.mem_cons_of_mem token member)
      obtain ⟨⟨all, -, length⟩, before, after⟩ :=
        names.printable token (subset token List.mem_cons_self)
      simp only [List.all_eq_true, Bool.and_eq_true, decide_eq_true_eq] at all
      have whole : joined (token :: row) [] = token.word ++ '+' :: joined row [] := by
        change token.text ++ _ = _
        rw [Token.text, before, after, List.append_nil, List.nil_append]
        rfl
      rw [whole]
      constructor
      · intro char member
        rcases List.mem_append.mp member with word | rest
        · exact shown_of_printable (all char word).1.1.1 (all char word).1.1.2
        · rcases List.mem_cons.mp rest with rfl | further
          · exact shown_of_printable (by decide) (by decide)
          · exact shown char further
      · have front := byteLength_of_all fun char member => (all char member).2
        have plus : '+'.utf8Size = 1 := by decide
        unfold byteLength at front bounded ⊢
        rw [List.map_append, List.sum_append, front, List.map_cons, List.sum_cons, plus,
          List.length_cons]
        omega
  have few : (selected mods tokens).length ≤ 4 := by
    have cut : (selected mods tokens).length ≤ tokens.length := by
      rw [selected, List.length_map]
      refine (List.length_filter_le _ _).trans ?_
      rw [List.length_zip]
      exact Nat.min_le_right _ _
    exact cut.trans names.four
  obtain ⟨shown, bounded⟩ := each (selected mods tokens) few fun token member =>
    selected_subset member
  exact ⟨shown, by omega⟩

theorem Names.parse {mods : Mods} {word : List Char} {key : KeySym} (reads : Reads word key) :
    parse (joined (selected mods tokens) word) = .ok ⟨mods, key⟩ := by
  have trimmed : trimChars word = word := by
    apply trimChars_eq_self
    · intro char same
      exact (reads.shown char (List.mem_of_head? same)).1
    · intro char same
      exact (reads.shown char (List.mem_of_getLast? same)).1
  let written : Written :=
    { mods := selected mods tokens
      key := bare word ⟨reads.filled, trimmed⟩
      mods_plain := names.plain mods
      key_plain := reads.plain
      key_joined := fun _ _ => rfl }
  have text : written.text = joined (selected mods tokens) word := by
    change joined (selected mods tokens) ([] ++ (word ++ [])) = _
    rw [List.append_nil, List.nil_append]
  obtain ⟨shown, bounded⟩ := names.row mods
  rw [← text, parse_written, text]
  rw [joined_eq_append]
  refine ⟨?_, ?_, names.applied mods, reads.read⟩
  · have short := reads.short
    unfold byteLength at short bounded ⊢
    rw [List.map_append, List.sum_append, maxChordInputBytes]
    omega
  · intro char member
    rcases List.mem_append.mp member with front | back
    · exact (shown char front).2
    · exact (reads.shown char back).2

end

section

variable (accepted : parse text = .ok chord)

include accepted

theorem storable_of_parse : chord.key.Storable := by
  obtain ⟨written, rfl⟩ := exists_written accepted
  obtain ⟨-, safe, -, read⟩ := parse_written.mp accepted
  refine storable_of_parseKeyToken read written.key.word_trimmed fun char member => ?_
  apply safe
  rw [Written.text, joined_eq_append, Token.text]
  simp only [List.mem_append]
  exact .inr (.inr (.inl member))

theorem parse_display : parse chord.display = .ok chord := by
  rw [display_eq, pushMods_display]
  exact names_displayMods.parse (reads_displayWord (storable_of_parse accepted))

theorem parse_canonical : parse chord.canonical = .ok chord := by
  rw [canonical_eq, pushMods_canonical]
  exact names_canonicalMods.parse (reads_canonicalWord (storable_of_parse accepted))

end

end JtermCore.Keybindings
