import Mathlib.Data.List.Infix
import JtermCore.CommandCorrection.Lexers

/-!
# Replacing a word

`replace_shell_word` looks for the one word that spells a name, bare or inside a
pair of quotes, and puts another name of harmless characters in its place.
-/

namespace JtermCore.CommandCorrection

open Bytes Quoting Utf8

/-- The library function that the replacement rests on. -/
class ShellLibraries where
  isAlphanumeric : Char → Bool
  isAlphanumeric_ascii : ∀ char : Char, char.toNat < 0x80 →
    isAlphanumeric char = (('a' ≤ char && char ≤ 'z') || ('A' ≤ char && char ≤ 'Z') ||
      ('0' ≤ char && char ≤ '9'))

section

variable [ShellLibraries]

def isShellWordCharacter (character : Char) : Bool :=
  ShellLibraries.isAlphanumeric character || character = '_' || character = '-' ||
    character = '+' || character = '.' || character = '/' || character = ':' ||
    character = '@' || character = '%'

/-- Where a word spells a name, bare or inside quotes. -/
def matchedSpan (command old : List Char) (span : Nat × Nat) : Option (Option (Nat × Nat)) :=
  (slice command span).bind fun raw =>
    if raw = old then some (some span)
    else if 2 ≤ byteLength raw ∧
        ((encodeUtf8 raw).head? = some 0x27 ∨ (encodeUtf8 raw).head? = some 0x22) ∧
        (encodeUtf8 raw).head? = (encodeUtf8 raw).getLast? then
      (slice raw (1, byteLength raw - 1)).map fun inner =>
        if inner = old then some (span.1 + 1, span.2 - 1) else none
    else some none

def replaceShellWord (command old new : List Char) : Option (Option (List Char)) :=
  if old = [] ∨ new = [] ∨ old = new ∨ new.all isShellWordCharacter = false then some none
  else
    ((shellWordSpans command).mapM (matchedSpan command old)).bind fun found =>
      match found.filterMap id with
      | [span] =>
        (slice command (0, span.1)).bind fun front =>
          (slice command (span.2, byteLength command)).map fun back =>
            some (front ++ (new ++ back))
      | _ => some none

end

def syntaxMarkers (command : List Char) : List String :=
  ["&&", "||", ";", "|", "&", ">", "<", "$(", "\x60"].filter fun marker =>
    marker.toList <:+: command

/-- A word that spells a name bare or inside one pair of quotes. -/
def Spells (old word : List Char) : Prop :=
  word = old ∨ word = '\'' :: (old ++ ['\'']) ∨ word = '"' :: (old ++ ['"'])

instance (old word : List Char) : Decidable (Spells old word) :=
  inferInstanceAs (Decidable (_ ∨ _ ∨ _))

def rawWords (command : List Char) : Option (List (List Char)) :=
  (shellWordSpans command).mapM (slice command)

theorem rawWords_eq (command : List Char) :
    rawWords command = some ((lexWords command).map Prod.snd) := by
  rw [rawWords, shellWordSpans_eq, List.mapM_map]
  refine mapM_eq_some fun word member => ?_
  obtain ⟨-, -, -, -, ends⟩ := lexWords_mem member
  exact slice_spanOf ends

section

variable [ShellLibraries]

theorem unsafe_marks : ∀ mark ∈ [' ', '\t', '\n', '\x0c', '\r', '|', ';', '&', '(', ')', '<', '>',
    '\\', '\'', '"', '$', '\x60'], isShellWordCharacter mark = false := by
  intro mark member
  have checked : [' ', '\t', '\n', '\x0c', '\r', '|', ';', '&', '(', ')', '<', '>', '\\', '\'',
      '"', '$', '\x60'].all (fun mark => mark.toNat < 0x80 &&
        !(('a' ≤ mark && mark ≤ 'z') || ('A' ≤ mark && mark ≤ 'Z') ||
          ('0' ≤ mark && mark ≤ '9')) &&
        !(mark = '_' || mark = '-' || mark = '+' || mark = '.' || mark = '/' || mark = ':' ||
          mark = '@' || mark = '%')) = true := by decide
  have plain := List.all_eq_true.mp checked mark member
  rw [Bool.and_eq_true, Bool.and_eq_true, Bool.not_eq_true', Bool.not_eq_true'] at plain
  obtain ⟨⟨small, letter⟩, extra⟩ := plain
  rw [isShellWordCharacter, ShellLibraries.isAlphanumeric_ascii mark (of_decide_eq_true small),
    letter, Bool.false_or]
  exact extra

theorem safe_ne {char mark : Char} (safe : isShellWordCharacter char = true)
    (listed : mark ∈ [' ', '\t', '\n', '\x0c', '\r', '|', ';', '&', '(', ')', '<', '>',
      '\\', '\'', '"', '$', '\x60']) : char ≠ mark := by
  rintro rfl
  rw [unsafe_marks char listed] at safe
  cases safe

theorem isOrdinary_of_safe {char : Char} (safe : isShellWordCharacter char = true) :
    isOrdinary char = true := by
  have slash : char ≠ '\\' := safe_ne safe (by decide)
  have tick : char ≠ '\'' := safe_ne safe (by decide)
  have mark : char ≠ '"' := safe_ne safe (by decide)
  simp [isOrdinary, slash, tick, mark]

theorem isSeparator_of_safe {char : Char} (safe : isShellWordCharacter char = true) :
    isSeparator char = false := by
  cases separator : isSeparator char with
  | false => rfl
  | true =>
    unfold isSeparator at separator
    simp only [Bool.or_eq_true, decide_eq_true_eq] at separator
    rcases separator with ((((((((((rfl | rfl) | rfl) | rfl) | rfl) | rfl) | rfl) | rfl) | rfl) |
      rfl) | rfl) | rfl <;> exact absurd rfl (safe_ne safe (by decide))

theorem read_spelled {new word : List Char} (filled : new ≠ [])
    (safe : ∀ char ∈ new, isShellWordCharacter char = true) (spells : Spells new word) :
    outside.run word = outside ∧ decode word = new ∧ Inner outside word ∧ word ≠ [] := by
  rcases spells with rfl | rfl | rfl
  · have ordinary : ∀ char ∈ word, isOrdinary char = true := fun char member =>
      isOrdinary_of_safe (safe char member)
    have closed := run_outside ordinary
    refine ⟨closed, by rw [decode_of_outside closed, emits_outside ordinary], ?_, filled⟩
    intro front char back whole both
    rw [isSeparator_of_safe (safe char (by rw [whole]; simp))] at both
    exact Bool.false_ne_true both.2
  · have absent : '\'' ∉ new := fun member => safe_ne (safe _ member) (by decide) rfl
    obtain ⟨closed, value, inner, shown⟩ := (Piece.single new absent).read
    refine ⟨closed, ?_, inner, shown⟩
    exact (decode_of_outside closed).trans value
  · have plain : ∀ char ∈ new, char ≠ '"' ∧ char ≠ '\\' := fun char member =>
      ⟨safe_ne (safe char member) (by decide), safe_ne (safe char member) (by decide)⟩
    obtain ⟨units, texts, values⟩ : ∃ units : List DoubleUnit,
        units.flatMap DoubleUnit.text = new ∧ units.flatMap DoubleUnit.value = new := by
      clear filled safe
      induction new with
      | nil => exact ⟨[], rfl, rfl⟩
      | cons char new ih =>
        obtain ⟨units, texts, values⟩ := ih fun other member =>
          plain other (List.mem_cons_of_mem char member)
        refine ⟨.raw char (plain char List.mem_cons_self) :: units, ?_, ?_⟩
        · rw [List.flatMap_cons, texts]
          rfl
        · rw [List.flatMap_cons, values]
          rfl
    obtain ⟨closed, value, inner, shown⟩ := (Piece.double units).read
    have text : (Piece.double units).text = '"' :: (new ++ ['"']) := by rw [Piece.text, texts]
    rw [text] at closed value inner shown
    refine ⟨closed, ?_, inner, shown⟩
    rw [decode_of_outside closed, value]
    exact values

end

def quotesOf (old word : List Char) : List Char :=
  if word = old then [] else word.take 1

theorem spells_iff {old word : List Char} :
    Spells old word ↔ ∃ quotes, (quotes = [] ∨ quotes = ['\''] ∨ quotes = ['"']) ∧
      word = quotes ++ (old ++ quotes) := by
  constructor
  · rintro (rfl | rfl | rfl)
    · exact ⟨[], .inl rfl, (List.append_nil _).symm⟩
    · exact ⟨['\''], .inr (.inl rfl), rfl⟩
    · exact ⟨['"'], .inr (.inr rfl), rfl⟩
  · rintro ⟨quotes, rfl | rfl | rfl, rfl⟩
    · exact .inl (List.append_nil _)
    · exact .inr (.inl rfl)
    · exact .inr (.inr rfl)

theorem quotesOf_append {old quotes : List Char} (marks : quotes = [] ∨ quotes = ['\''] ∨
    quotes = ['"']) : quotesOf old (quotes ++ (old ++ quotes)) = quotes := by
  have longer : ∀ mark : Char, [mark] ++ (old ++ [mark]) ≠ old := by
    intro mark same
    have lengths := congrArg List.length same
    simp only [List.length_append, List.length_singleton] at lengths
    omega
  rcases marks with rfl | rfl | rfl
  · rw [quotesOf, if_pos (by simp)]
  · rw [quotesOf, if_neg (longer _)]
    rfl
  · rw [quotesOf, if_neg (longer _)]
    rfl

def innerSpan (old : List Char) (word : List Char × List Char) : Nat × Nat :=
  (byteLength (word.1 ++ quotesOf old word.2), byteLength (word.1 ++ (quotesOf old word.2 ++ old)))

variable {mark : Char}

theorem head?_encodeUtf8 (text : List Char) (small : mark.toNat < 128) :
    (encodeUtf8 text).head? = some (UInt8.ofNat mark.toNat) ↔ text.head? = some mark := by
  cases text with
  | nil => simp [encodeUtf8]
  | cons char text =>
    rw [encodeUtf8_cons, List.head?_append_of_ne_nil _ (String.utf8EncodeChar_ne_nil (c := char)),
      List.head?_cons, Option.some.injEq]
    rcases encodeChar_cases char with ⟨single, tiny⟩ | ⟨large, far⟩
    · rw [single, List.head?_cons, Option.some.injEq]
      constructor
      · intro same
        have codes := congrArg UInt8.toNat same
        rw [toNat_ofNat (by omega), toNat_ofNat (by omega)] at codes
        rw [← Char.ofNat_toNat char, codes, Char.ofNat_toNat]
      · rintro rfl
        rfl
    · constructor
      · intro same
        have bound := large _ (List.mem_of_head? same)
        rw [toNat_ofNat (by omega)] at bound
        omega
      · rintro rfl
        omega

section

variable (small : mark.toNat < 128)

include small

theorem between_marks {raw : List Char}
    (long : 2 ≤ byteLength raw) (first : (encodeUtf8 raw).head? = some (UInt8.ofNat mark.toNat))
    (last : (encodeUtf8 raw).getLast? = some (UInt8.ofNat mark.toNat)) :
    ∃ inner, raw = mark :: (inner ++ [mark]) := by
  rw [head?_encodeUtf8 raw small] at first
  rw [getLast?_encodeUtf8 raw small] at last
  cases raw with
  | nil => cases first
  | cons char rest =>
    obtain rfl := Option.some.inj first
    rcases List.eq_nil_or_concat' rest with rfl | ⟨init, final, rfl⟩
    · have one : byteLength [char] = 1 := by
        rcases encodeChar_cases char with ⟨single, -⟩ | ⟨-, far⟩
        · rw [byteLength_single, ← String.length_utf8EncodeChar, single]
          rfl
        · omega
      omega
    · have same : (char :: (init ++ [final])).getLast? = some final := by
        rw [← List.cons_append, List.getLast?_concat]
      rw [same] at last
      obtain rfl := Option.some.inj last
      exact ⟨init, rfl⟩

theorem utf8Size_mark : mark.utf8Size = 1 := by
  rcases encodeChar_cases mark with ⟨single, -⟩ | ⟨-, far⟩
  · rw [← String.length_utf8EncodeChar, single]
    rfl
  · omega

theorem slice_between (inner : List Char) :
    slice (mark :: (inner ++ [mark])) (1, byteLength (mark :: (inner ++ [mark])) - 1) =
      some inner := by
  have one := utf8Size_mark small
  have sliced := slice_append [mark] inner [mark]
  have front : byteLength [mark] = 1 := by rw [byteLength_single, one]
  have stop : byteLength ([mark] ++ inner) = byteLength (mark :: (inner ++ [mark])) - 1 := by
    rw [byteLength_append, front, byteLength_cons, one, byteLength_append, front]
    omega
  rw [front, stop] at sliced
  exact sliced

end

variable {command old : List Char} {word : List Char × List Char}

theorem matchedSpan_eq (ends : Ends command word) :
    matchedSpan command old (spanOf word) =
      some (if Spells old word.2 then some (innerSpan old word) else none) := by
  rw [matchedSpan, slice_spanOf ends, Option.bind_some]
  by_cases bare : word.2 = old
  · rw [if_pos bare, if_pos (.inl bare), innerSpan, quotesOf, if_pos bare, spanOf, bare,
      List.append_nil, List.nil_append]
  · rw [if_neg bare]
    have quoted : ∀ mark : Char, mark.toNat < 128 → word.2 = mark :: (old ++ [mark]) →
        innerSpan old word = ((spanOf word).1 + 1, (spanOf word).2 - 1) := by
      intro mark small whole
      have one := utf8Size_mark small
      rw [innerSpan, quotesOf, if_neg bare, spanOf, whole]
      simp only [List.take_succ_cons, List.take_zero, byteLength_append, byteLength_cons, one,
        Prod.mk.injEq]
      have empty : byteLength [] = 0 := rfl
      constructor <;> omega
    by_cases marked : 2 ≤ byteLength word.2 ∧
        ((encodeUtf8 word.2).head? = some 0x27 ∨ (encodeUtf8 word.2).head? = some 0x22) ∧
        (encodeUtf8 word.2).head? = (encodeUtf8 word.2).getLast?
    · rw [if_pos marked]
      obtain ⟨long, first, last⟩ := marked
      obtain ⟨mark, small, either, inner, whole⟩ : ∃ mark : Char, mark.toNat < 128 ∧
          (mark = '\'' ∨ mark = '"') ∧ ∃ inner, word.2 = mark :: (inner ++ [mark]) := by
        rcases first with tick | double
        · exact ⟨'\'', by decide, .inl rfl,
            between_marks (by decide) long tick (last.symm.trans tick)⟩
        · exact ⟨'"', by decide, .inr rfl,
            between_marks (by decide) long double (last.symm.trans double)⟩
      have sliced := slice_between small inner
      rw [← whole] at sliced
      rw [sliced, Option.map_some]
      by_cases same : inner = old
      · rw [same] at whole
        have spells : Spells old word.2 := by
          rcases either with rfl | rfl
          · exact .inr (.inl whole)
          · exact .inr (.inr whole)
        rw [if_pos same, if_pos spells, quoted mark small whole]
      · rw [if_neg same, if_neg]
        rintro (plain | tick | double)
        · exact bare plain
        · rw [whole] at tick
          obtain ⟨rfl, rest⟩ := List.cons.inj tick
          exact same (List.append_inj' rest rfl).1
        · rw [whole] at double
          obtain ⟨rfl, rest⟩ := List.cons.inj double
          exact same (List.append_inj' rest rfl).1
    · rw [if_neg marked, if_neg]
      have long : ∀ mark : Char, mark.toNat < 128 → word.2 = mark :: (old ++ [mark]) →
          2 ≤ byteLength word.2 ∧ (encodeUtf8 word.2).head? = some (UInt8.ofNat mark.toNat) ∧
          (encodeUtf8 word.2).getLast? = some (UInt8.ofNat mark.toNat) := by
        intro mark small whole
        have one := utf8Size_mark small
        rw [head?_encodeUtf8 _ small, getLast?_encodeUtf8 _ small, whole]
        refine ⟨?_, rfl, ?_⟩
        · rw [byteLength_cons, byteLength_append, byteLength_single, one]
          omega
        · rw [← List.cons_append, List.getLast?_concat]
      rintro (plain | tick | double)
      · exact bare plain
      · obtain ⟨two, first, last⟩ := long '\'' (by decide) tick
        exact marked ⟨two, .inl first, first.trans last.symm⟩
      · obtain ⟨two, first, last⟩ := long '"' (by decide) double
        exact marked ⟨two, .inr first, first.trans last.symm⟩

def matching (old : List Char) (words : List (List Char × List Char)) :
    List (List Char × List Char) := words.filter fun word => Spells old word.2

theorem found_eq (command old : List Char) :
    ((shellWordSpans command).mapM (matchedSpan command old)).map (fun found =>
      found.filterMap id) = some ((matching old (lexWords command)).map (innerSpan old)) := by
  have each : (shellWordSpans command).mapM (matchedSpan command old) =
      some ((lexWords command).map fun word =>
        if Spells old word.2 then some (innerSpan old word) else none) := by
    rw [shellWordSpans_eq, List.mapM_map]
    refine mapM_eq_some fun word member => ?_
    obtain ⟨-, -, -, -, ends⟩ := lexWords_mem member
    exact matchedSpan_eq ends
  rw [each, Option.map_some, Option.some.injEq, matching]
  induction lexWords command with
  | nil => rfl
  | cons word words ih =>
    rw [List.map_cons, List.filterMap_cons, List.filter_cons]
    by_cases spells : Spells old word.2
    · rw [if_pos spells, if_pos (decide_eq_true spells), List.map_cons, ← ih]
      rfl
    · rw [if_neg spells, if_neg (by simpa using spells), ← ih]
      rfl

/-- A command around a name in one of its words. -/
structure Site (command old : List Char) where
  before : List Char
  quotes : List Char
  after : List Char
  marks : quotes = [] ∨ quotes = ['\''] ∨ quotes = ['"']
  whole : command = before ++ ((quotes ++ (old ++ quotes)) ++ after)

/-- The command with another name. -/
def Site.replaced {command old : List Char} (site : Site command old) (new : List Char) :
    List Char := site.before ++ ((site.quotes ++ (new ++ site.quotes)) ++ site.after)

theorem Site.slices (site : Site command old) :
    slice command (0, (innerSpan old (site.before, site.quotes ++ (old ++ site.quotes))).1) =
        some (site.before ++ site.quotes) ∧
      slice command ((innerSpan old (site.before, site.quotes ++ (old ++ site.quotes))).2,
        byteLength command) = some (site.quotes ++ site.after) := by
  have first : (innerSpan old (site.before, site.quotes ++ (old ++ site.quotes))).1 =
      byteLength (site.before ++ site.quotes) := by rw [innerSpan, quotesOf_append site.marks]
  have second : (innerSpan old (site.before, site.quotes ++ (old ++ site.quotes))).2 =
      byteLength (site.before ++ (site.quotes ++ old)) := by
    rw [innerSpan, quotesOf_append site.marks]
  have front := slice_append [] (site.before ++ site.quotes) (old ++ (site.quotes ++ site.after))
  have back := slice_append (site.before ++ (site.quotes ++ old)) (site.quotes ++ site.after) []
  have whole := site.whole
  simp only [List.append_assoc, List.nil_append, List.append_nil] at whole front back
  rw [← whole] at front back
  rw [first, second]
  exact ⟨front, back⟩

variable [ShellLibraries]

def Requested (old new : List Char) : Prop :=
  old ≠ [] ∧ new ≠ [] ∧ old ≠ new ∧ ∀ char ∈ new, isShellWordCharacter char = true

omit [ShellLibraries] in
theorem exists_site {front back : List (List Char × List Char)}
    (whole : lexWords command = front ++ word :: back)
    (spells : Spells old word.2) : ∃ site : Site command old, site.before = word.1 ∧
      site.quotes ++ (old ++ site.quotes) = word.2 := by
  obtain ⟨quotes, marks, same⟩ := spells_iff.mp spells
  obtain ⟨-, after, text, -⟩ := lexWords_split whole
  exact ⟨⟨word.1, quotes, after, marks, by rw [text, same]⟩, rfl, same.symm⟩

theorem replaceShellWord_eq (command old new : List Char) :
    (¬(Requested old new ∧ (matching old (lexWords command)).length = 1) →
      replaceShellWord command old new = some none) ∧
    ∀ word, Requested old new → matching old (lexWords command) = [word] →
      ∀ site : Site command old, site.before = word.1 →
        site.quotes ++ (old ++ site.quotes) = word.2 →
        replaceShellWord command old new = some (some (site.replaced new)) := by
  have refuses : (old = [] ∨ new = [] ∨ old = new ∨ new.all isShellWordCharacter = false) ↔
      ¬Requested old new := by
    rw [Requested]
    constructor
    · rintro (rfl | rfl | rfl | bad) ⟨filled, shown, apart, safe⟩
      · exact filled rfl
      · exact shown rfl
      · exact apart rfl
      · rw [List.all_eq_true.mpr safe] at bad
        cases bad
    · intro refused
      by_contra none_
      simp only [not_or, Bool.not_eq_false] at none_
      exact refused ⟨none_.1, none_.2.1, none_.2.2.1, List.all_eq_true.mp none_.2.2.2⟩
  obtain ⟨found, each, spans⟩ := Option.map_eq_some_iff.mp (found_eq command old)
  constructor
  · intro neither
    unfold replaceShellWord
    split
    · rfl
    · rename_i asked
      have requested : Requested old new := by
        by_contra refused
        exact asked (refuses.mpr refused)
      rw [each, Option.bind_some, spans]
      split
      · rename_i span single
        have count := congrArg List.length single
        rw [List.length_map] at count
        exact absurd ⟨requested, count⟩ neither
      · rfl
  · intro word requested only site before quoted
    unfold replaceShellWord
    rw [if_neg fun refused => refuses.mp refused requested, each, Option.bind_some, spans, only]
    have same : innerSpan old word =
        innerSpan old (site.before, site.quotes ++ (old ++ site.quotes)) := by rw [before, quoted]
    obtain ⟨front, back⟩ := site.slices
    simp only [List.map_singleton, same]
    rw [front, back]
    simp only [Option.bind_some, Option.map_some, Site.replaced, List.append_assoc]

end JtermCore.CommandCorrection
