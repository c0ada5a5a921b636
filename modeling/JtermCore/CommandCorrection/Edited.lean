import JtermCore.CommandCorrection.Replacement

/-!
# What a replacement changes

With another name in one of its words a command has the same other words, no new
marker of syntax, and the same stages but for the one around the word.  The last
holds unless the name ends in an escaped mark of a redirection and an ampersand
follows it at once: `shell_stages` takes that ampersand for a part of the
redirection.
-/

namespace JtermCore.CommandCorrection

open Bytes Quoting Utf8

/-- The machine with more words before. -/
def Lex.behind (lex : Lex) (words : List (List Char × List Char)) : Lex :=
  { lex with words := words ++ lex.words }

theorem flush_behind (lex : Lex) (words : List (List Char × List Char)) :
    (lex.behind words).flush = words ++ lex.flush := by
  unfold Lex.flush Lex.behind
  cases lex.current with
  | none => rfl
  | some word =>
    simp only
    split
    · rfl
    · exact List.append_assoc _ _ _

theorem step_behind (lex : Lex) (words : List (List Char × List Char)) (char : Char) :
    (lex.behind words).step char = (lex.step char).behind words := by
  have flush := flush_behind lex words
  have mode : (lex.behind words).mode = lex.mode := rfl
  unfold Lex.step
  rw [mode]
  split
  · unfold Lex.close
    rw [flush]
    rfl
  · rfl

theorem run_behind (lex : Lex) (words : List (List Char × List Char)) (text : List Char) :
    (lex.behind words).run text = (lex.run text).behind words := by
  induction text generalizing lex with
  | nil => rfl
  | cons char text ih => rw [Lex.run_cons, step_behind, ih, Lex.run_cons]

theorem lexWords_replaced {command before word word' after : List Char}
    {front back : List (List Char × List Char)}
    (words : lexWords command = front ++ (before, word) :: back)
    (whole : command = before ++ (word ++ after)) (closed : outside.run word' = outside)
    (inner : Inner outside word') (filled : word' ≠ []) :
    (lexWords (before ++ (word' ++ after))).map Prod.snd =
      front.map Prod.snd ++ word' :: back.map Prod.snd := by
  obtain ⟨begins, after_, same, follows⟩ := lexWords_split words
  obtain rfl : after_ = after := by
    rw [whole] at same
    exact (List.append_cancel_left (List.append_cancel_left same)).symm
  have mode : (Lex.run {} before).mode = outside := (run_init_mode before).trans begins.bare
  have read : ∀ text : List Char, text ≠ [] → Inner outside text →
      Lex.run {} (before ++ (text ++ after_)) = Lex.run
        ⟨before ++ text, front, some (before, text), outside.run text, false⟩ after_ := by
    intro text shown within
    rw [Lex.run_append, Lex.run_append, Lex.run_word begins.fresh shown (by rwa [mode]), mode,
      begins.before, begins.flagged, run_init_done]
  have here := read word begins.filled begins.inner
  have there := read word' filled inner
  rw [closed] at there
  rw [← whole] at here
  unfold lexWords at words ⊢
  rw [here] at words
  rw [there]
  rcases follows with rfl | ⟨char, rest, rfl, ends, separator⟩
  · have single : front ++ [(before, word)] = front ++ (before, word) :: back := words
    have none_ : back = [] := (List.cons.inj (List.append_cancel_left single)).2.symm
    rw [none_]
    change (front ++ [(before, word')]).map Prod.snd = _
    rw [List.map_append]
    rfl
  · rw [Quoting.run_append, begins.bare] at ends
    rw [Lex.run_cons, Lex.step, if_pos ⟨ends, separator⟩] at words
    rw [Lex.run_cons, Lex.step, if_pos ⟨rfl, separator⟩]
    -- Behind the separator both machines go on alike, with other words before.
    let fresh : List Char → Lex := fun text =>
      ⟨before ++ text ++ [char], [], none, outside, if char = '<' ∨ char = '>' then true else false⟩
    have split : ∀ text mode, (Lex.close ⟨before ++ text, front, some (before, text), mode, false⟩
        char) = (fresh text).behind (front ++ [(before, text)]) := by
      intro text mode
      unfold Lex.close Lex.flush Lex.behind
      simp [fresh]
    rw [split, run_behind, flush_behind] at words ⊢
    have shifted : Shifted (fresh word') (fresh word) := ⟨rfl, rfl, rfl, rfl⟩
    have others : back = ((fresh word).run rest).flush := by
      rw [List.append_assoc] at words
      exact (List.cons.inj (List.append_cancel_left words)).2.symm
    rw [others, List.map_append, (shifted.run rest).flush, List.map_append, List.append_assoc]
    rfl

theorem infix_of_disjoint {α : Type} {marker front middle back : List α} (shown : middle ≠ [])
    (disjoint : ∀ item ∈ marker, item ∉ middle) (within : marker <:+: front ++ (middle ++ back)) :
    marker <:+: front ∨ marker <:+: back := by
  obtain ⟨first, last, whole⟩ := within
  rw [List.append_assoc] at whole
  rcases List.append_eq_append_iff.mp whole with ⟨more, inside, rest⟩ | ⟨more, beyond, rest⟩
  · rcases List.append_eq_append_iff.mp rest with ⟨further, final, tail⟩ | ⟨further, spans, tail⟩
    · left
      exact ⟨first, further, by rw [inside, final, List.append_assoc]⟩
    · cases further with
      | nil =>
        left
        exact ⟨first, [], by rw [inside, spans]; simp⟩
      | cons item further =>
        exfalso
        obtain ⟨start, middle', rfl⟩ := List.exists_cons_of_ne_nil shown
        obtain ⟨rfl, -⟩ := List.cons.inj tail
        exact disjoint start (by rw [spans]; simp) List.mem_cons_self
  · rcases List.append_eq_append_iff.mp rest with ⟨further, final, tail⟩ | ⟨further, spans, tail⟩
    · right
      exact ⟨further, last, by rw [tail, List.append_assoc]⟩
    · cases further with
      | nil =>
        right
        exact ⟨[], last, by rw [List.nil_append, tail, List.nil_append]⟩
      | cons other further =>
        cases marker with
        | nil => exact .inl ⟨front, [], by simp⟩
        | cons item marker =>
          exfalso
          obtain ⟨rfl, -⟩ := List.cons.inj tail
          exact disjoint item List.mem_cons_self (by rw [spans]; simp)

variable [ShellLibraries]

theorem syntaxMarkers_replaced {front old new back : List Char} (filled : new ≠ [])
    (safe : ∀ char ∈ new, isShellWordCharacter char = true) :
    ∀ marker ∈ syntaxMarkers (front ++ (new ++ back)),
      marker ∈ syntaxMarkers (front ++ (old ++ back)) := by
  have checked : ["&&", "||", ";", "|", "&", ">", "<", "$(", "\x60"].all (fun marker =>
      marker.toList.all (fun char => [' ', '\t', '\n', '\x0c', '\r', '|', ';', '&', '(', ')',
        '<', '>', '\\', '\'', '"', '$', '\x60'].elem char)) = true := by decide +kernel
  have marks : ∀ marker ∈ ["&&", "||", ";", "|", "&", ">", "<", "$(", "\x60"],
      ∀ char ∈ marker.toList, char ∈ [' ', '\t', '\n', '\x0c', '\r', '|', ';', '&', '(', ')',
        '<', '>', '\\', '\'', '"', '$', '\x60'] := fun marker listed char inside =>
    List.mem_of_elem_eq_true
      (List.all_eq_true.mp (List.all_eq_true.mp checked marker listed) char inside)
  intro marker member
  obtain ⟨listed, within⟩ := List.mem_filter.mp member
  have disjoint : ∀ char ∈ marker.toList, char ∉ new := fun char inside there =>
    safe_ne (safe char there) (marks marker listed char inside) rfl
  refine List.mem_filter.mpr ⟨listed, decide_eq_true ?_⟩
  rcases infix_of_disjoint filled disjoint (of_decide_eq_true within) with left | right
  · exact left.trans ⟨[], old ++ back, rfl⟩
  · exact right.trans ⟨front ++ old, [], by simp⟩

omit [ShellLibraries] in
theorem StageLex.run_inner {allControls : Bool} {lex : StageLex} {text : List Char}
    (inner : Inner lex.mode text) :
    lex.run allControls text =
      ⟨lex.done ++ text, lex.stages, lex.start, lex.stage ++ text, lex.mode.run text⟩ := by
  induction text generalizing lex with
  | nil => simp [StageLex.run]
  | cons char text ih =>
    have first : ¬(lex.mode = outside ∧ isSeparator char = true) := inner [] char text rfl
    have rest : Inner (lex.mode.next char) text := by
      intro front other back whole
      exact inner (char :: front) other back (by rw [whole]; rfl)
    have keeps : ¬(lex.mode = outside ∧ splitsAt allControls lex.done.getLast? char = true) :=
      fun both => first ⟨both.1, isSeparator_of_splitsAt both.2⟩
    have step : lex.step allControls char =
        ⟨lex.done ++ [char], lex.stages, lex.start, lex.stage ++ [char], lex.mode.next char⟩ := by
      rw [StageLex.step, if_neg keeps]
    rw [StageLex.run_cons, step, ih rest]
    simp

/-- The rest of the current stage, and the stages behind it. -/
def splitTexts (allControls : Bool) : Option Char → Mode → List Char → List Char × List (List Char)
  | _, _, [] => ([], [])
  | previous, mode, char :: rest =>
    let next := splitTexts allControls (some char) (mode.next char) rest
    if mode = outside ∧ splitsAt allControls previous char = true then ([], next.1 :: next.2)
    else (char :: next.1, next.2)

omit [ShellLibraries] in
theorem flush_run_stage (allControls : Bool) (lex : StageLex) (text : List Char) :
    (lex.run allControls text).flush.map Prod.snd = lex.stages.map Prod.snd ++
      (lex.stage ++ (splitTexts allControls lex.done.getLast? lex.mode text).1) ::
        (splitTexts allControls lex.done.getLast? lex.mode text).2 := by
  induction text generalizing lex with
  | nil =>
    change lex.flush.map Prod.snd = _
    rw [StageLex.flush, List.map_append, splitTexts, List.append_nil]
    rfl
  | cons char text ih =>
    have last : (lex.step allControls char).done.getLast? = some char := by
      rw [lex.step_done, List.getLast?_concat]
    rw [StageLex.run_cons, ih, last, lex.step_mode, splitTexts, StageLex.step]
    split
    · simp
    · simp

def StagesKept (allControls : Bool) (command old result new : List Char) : Prop :=
  ∃ stages others front stage back later, shellStages command allControls = some stages ∧
    shellStages result allControls = some others ∧
    stages = front ++ (stage ++ (old ++ back)) :: later ∧
    others = front ++ (stage ++ (new ++ back)) :: later

omit [ShellLibraries] in
theorem lexStages_word {allControls : Bool} {before text after : List Char}
    (bare : outside.run before = outside) (inner : Inner outside text) :
    (lexStages allControls (before ++ (text ++ after))).map Prod.snd =
      (StageLex.run allControls {} before).stages.map Prod.snd ++
        ((StageLex.run allControls {} before).stage ++ (text ++
          (splitTexts allControls (before ++ text).getLast? (outside.run text) after).1)) ::
        (splitTexts allControls (before ++ text).getLast? (outside.run text) after).2 := by
  have mode : (StageLex.run allControls {} before).mode = outside :=
    (StageLex.run_mode allControls {} before).trans bare
  have done : (StageLex.run allControls {} before).done = before :=
    StageLex.run_done allControls {} before
  have within : Inner (StageLex.run allControls {} before).mode text := by rwa [mode]
  have read := @StageLex.run_inner allControls _ _ within
  rw [lexStages, StageLex.run_append, StageLex.run_append, read, flush_run_stage]
  simp only [mode, done, List.append_assoc]

variable {previous other : Option Char}

omit [ShellLibraries] in
theorem splitTexts_congr {allControls : Bool} {text : List Char}
    (same : ∀ char, text.head? = some char →
      splitsAt allControls previous char = splitsAt allControls other char) (mode : Mode) :
    splitTexts allControls previous mode text = splitTexts allControls other mode text := by
  cases text with
  | nil => rfl
  | cons char text => rw [splitTexts, splitTexts, same char rfl]

omit [ShellLibraries] in
theorem splitsAt_congr {allControls : Bool} {char : Char}
    (plain : char = '&' → allControls = true →
      ((previous = some '<' ∨ previous = some '>') ↔ (other = some '<' ∨ other = some '>'))) :
    splitsAt allControls previous char = splitsAt allControls other char := by
  unfold splitsAt
  by_cases ampersand : char = '&'
  · cases allControls with
    | false =>
      subst ampersand
      rfl
    | true =>
      have same : (decide (previous = some '<') || decide (previous = some '>')) =
          (decide (other = some '<') || decide (other = some '>')) := by
        rw [Bool.eq_iff_iff]
        simpa using plain ampersand rfl
      rw [same]
  · simp [ampersand]

omit [ShellLibraries] in
theorem splitsAt_ampersand {previous : Option Char}
    (plain : ¬(previous = some '<' ∨ previous = some '>')) : splitsAt true previous '&' = true := by
  rw [not_or] at plain
  simp [splitsAt, plain.1, plain.2]

/-- A name that ends in an escaped mark of a redirection, as a bare word with an
ampersand right behind it. -/
def BeforeAmpersand (command old : List Char) : Prop :=
  (old.getLast? = some '<' ∨ old.getLast? = some '>') ∧ ∃ before after,
    command = before ++ (old ++ '&' :: after) ∧
      (byteLength before, byteLength (before ++ old)) ∈ shellWordSpans command

omit [ShellLibraries] in
theorem eq_of_byteLength {first second rest rest' : List Char}
    (same : first ++ rest = second ++ rest') (lengths : byteLength first = byteLength second) :
    first = second := by
  have empty : ∀ left right : List Char, byteLength (left ++ right) = byteLength left →
      right = [] := by
    intro left right sum
    by_contra filled
    have positive := byteLength_pos filled
    rw [byteLength_append] at sum
    omega
  rcases List.append_eq_append_iff.mp same with ⟨more, behind, -⟩ | ⟨more, behind, -⟩
  · have none_ := empty first more (by rw [← behind, lengths])
    rw [behind, none_, List.append_nil]
  · have none_ := empty second more (by rw [← behind, lengths])
    rw [behind, none_, List.append_nil]

section

variable {command old new : List Char} {front back : List (List Char × List Char)}
  {word : List Char × List Char} (words : lexWords command = front ++ word :: back)
  (site : Site command old) (before : site.before = word.1)
  (quoted : site.quotes ++ (old ++ site.quotes) = word.2)

theorem Site.last_replaced (filled : new ≠ [])
    (safe : ∀ char ∈ new, isShellWordCharacter char = true) :
    ¬((site.before ++ (site.quotes ++ (new ++ site.quotes))).getLast? = some '<' ∨
      (site.before ++ (site.quotes ++ (new ++ site.quotes))).getLast? = some '>') := by
  have ends : ∀ mark : Char, (mark = '<' ∨ mark = '>') →
      (site.before ++ (site.quotes ++ (new ++ site.quotes))).getLast? ≠ some mark := by
    intro mark redirects same
    have listed : mark ∈ ['<', '>'] := by simpa using redirects
    rw [List.getLast?_append_of_ne_nil _ (by simp [filled])] at same
    rcases site.marks with bare | tick | double
    · rw [bare, List.nil_append, List.append_nil] at same
      have harmless := safe mark (List.mem_of_getLast? same)
      rcases redirects with rfl | rfl
      · exact safe_ne harmless (by decide) rfl
      · exact safe_ne harmless (by decide) rfl
    · rw [tick, ← List.append_assoc, List.getLast?_concat] at same
      rcases redirects with rfl | rfl <;> cases same
    · rw [double, ← List.append_assoc, List.getLast?_concat] at same
      rcases redirects with rfl | rfl <;> cases same
  rintro (less | greater)
  · exact ends '<' (.inl rfl) less
  · exact ends '>' (.inr rfl) greater

include words before quoted

omit [ShellLibraries] in
theorem Site.follows : Begins front false (site.before, site.quotes ++ (old ++ site.quotes)) ∧
    (site.after = [] ∨ ∃ char rest, site.after = char :: rest ∧
      outside.run (site.quotes ++ (old ++ site.quotes)) = outside) := by
  obtain ⟨begins, after, whole, follows⟩ := lexWords_split words
  have same : word = (site.before, site.quotes ++ (old ++ site.quotes)) := by rw [before, quoted]
  rw [same] at begins whole follows
  refine ⟨begins, ?_⟩
  have text : site.before ++ ((site.quotes ++ (old ++ site.quotes)) ++ after) =
      site.before ++ ((site.quotes ++ (old ++ site.quotes)) ++ site.after) :=
    whole.symm.trans site.whole
  rw [List.append_cancel_left (List.append_cancel_left text)] at follows
  rcases follows with none_ | ⟨char, rest, more, closed, -⟩
  · exact .inl none_
  · rw [Quoting.run_append, begins.bare] at closed
    exact .inr ⟨char, rest, more, closed⟩

theorem Site.words_replaced (filled : new ≠ [])
    (safe : ∀ char ∈ new, isShellWordCharacter char = true) :
    shellWords (site.replaced new) =
      some ((front.map fun word => decode word.2) ++ new :: back.map fun word => decode word.2) := by
  have spells : Spells new (site.quotes ++ (new ++ site.quotes)) :=
    spells_iff.mpr ⟨site.quotes, site.marks, rfl⟩
  obtain ⟨closed, value, inner, shown⟩ := read_spelled filled safe spells
  have same : word = (site.before, word.2) := by rw [before]
  rw [same] at words
  have whole : command = site.before ++ (word.2 ++ site.after) := by
    rw [← quoted]
    exact site.whole
  have texts := lexWords_replaced words whole closed inner shown
  rw [shellWords_eq, values_eq, Site.replaced, texts, List.map_append, List.map_cons, value,
    List.map_map, List.map_map]
  rfl

omit [ShellLibraries] in
theorem Site.last_word :
    ((site.before ++ (site.quotes ++ (old ++ site.quotes))).getLast? = some '<' ∨
      (site.before ++ (site.quotes ++ (old ++ site.quotes))).getLast? = some '>') ↔
    site.quotes = [] ∧ (old.getLast? = some '<' ∨ old.getLast? = some '>') := by
  have shown := (site.follows words before quoted).1.filled
  rw [List.getLast?_append_of_ne_nil _ shown]
  rcases site.marks with bare | tick | double
  · rw [bare, List.nil_append, List.append_nil]
    exact ⟨fun ends => ⟨rfl, ends⟩, fun both => both.2⟩
  · rw [tick, ← List.append_assoc, List.getLast?_concat]
    simp
  · rw [double, ← List.append_assoc, List.getLast?_concat]
    simp

theorem Site.stages_replaced (allControls : Bool) (filled : new ≠ [])
    (safe : ∀ char ∈ new, isShellWordCharacter char = true) :
    StagesKept allControls command old (site.replaced new) new ↔
      ¬(allControls = true ∧ site.quotes = [] ∧
        (old.getLast? = some '<' ∨ old.getLast? = some '>') ∧ site.after.head? = some '&') := by
  have spells : Spells new (site.quotes ++ (new ++ site.quotes)) :=
    spells_iff.mpr ⟨site.quotes, site.marks, rfl⟩
  obtain ⟨closed, -, inner, -⟩ := read_spelled filled safe spells
  obtain ⟨begins, follows⟩ := site.follows words before quoted
  have here := @lexStages_word allControls _ _ site.after begins.bare begins.inner
  have there := @lexStages_word allControls _ _ site.after begins.bare inner
  simp only at here there
  rw [closed] at there
  rw [← site.whole] at here
  have last := site.last_word words before quoted
  have last' := site.last_replaced filled safe
  constructor
  · rintro ⟨stages, others, first, stage, rest, later, found, found', rfl, rfl⟩
    rintro ⟨rfl, bare, ends, ampersand⟩
    obtain ⟨more, whole⟩ : ∃ more, site.after = '&' :: more := by
      cases after : site.after with
      | nil =>
        rw [after] at ampersand
        cases ampersand
      | cons char more =>
        rw [after] at ampersand
        exact ⟨more, by rw [Option.some.inj ampersand]⟩
    rcases follows with none_ | ⟨char, tail, cut, closes⟩
    · rw [none_] at whole
      cases whole
    · have split : splitsAt true (site.before ++ (site.quotes ++ (old ++ site.quotes))).getLast?
          '&' = false := by
        rcases last.mpr ⟨bare, ends⟩ with less | greater
        · rw [less]
          rfl
        · rw [greater]
          rfl
      have split' : splitsAt true (site.before ++ (site.quotes ++ (new ++ site.quotes))).getLast?
          '&' = true := splitsAt_ampersand last'
      rw [shellStages_eq, here, closes, whole, splitTexts, split, Option.some.injEq] at found
      have target : site.replaced new =
          site.before ++ ((site.quotes ++ (new ++ site.quotes)) ++ site.after) := rfl
      rw [shellStages_eq, target, there, whole, splitTexts, split', Option.some.injEq] at found'
      have lengths := congrArg List.length found
      have lengths' := congrArg List.length found'
      simp at lengths lengths'
      omega
  · intro fits
    have same : splitTexts allControls
        (site.before ++ (site.quotes ++ (old ++ site.quotes))).getLast?
        (outside.run (site.quotes ++ (old ++ site.quotes))) site.after =
        splitTexts allControls
        (site.before ++ (site.quotes ++ (new ++ site.quotes))).getLast? outside site.after := by
      rcases follows with none_ | ⟨char, tail, cut, closes⟩
      · rw [none_]
        rfl
      · rw [closes]
        apply splitTexts_congr
        intro first starts
        apply splitsAt_congr
        intro ampersand controls
        rw [last]
        constructor
        · rintro ⟨bare, ends⟩
          exact absurd ⟨controls, bare, ends, by rw [starts, ampersand]⟩ fits
        · intro ends
          exact absurd ends last'
    refine ⟨_, _, (StageLex.run allControls {} site.before).stages.map Prod.snd,
      (StageLex.run allControls {} site.before).stage ++ site.quotes,
      site.quotes ++ (splitTexts allControls
        (site.before ++ (site.quotes ++ (new ++ site.quotes))).getLast? outside site.after).1,
      (splitTexts allControls
        (site.before ++ (site.quotes ++ (new ++ site.quotes))).getLast? outside site.after).2,
      shellStages_eq command allControls, shellStages_eq (site.replaced new) allControls, ?_, ?_⟩
    · rw [here, same]
      simp only [List.append_assoc]
    · rw [Site.replaced, there]
      simp only [List.append_assoc]

omit [ShellLibraries] in
theorem Site.beforeAmpersand_iff (only : matching old (lexWords command) = [word]) :
    (site.quotes = [] ∧ (old.getLast? = some '<' ∨ old.getLast? = some '>') ∧
      site.after.head? = some '&') ↔ BeforeAmpersand command old := by
  have text := site.whole
  constructor
  · rintro ⟨bare, ends, ampersand⟩
    obtain ⟨more, whole⟩ : ∃ more, site.after = '&' :: more := by
      cases after : site.after with
      | nil =>
        rw [after] at ampersand
        cases ampersand
      | cons char more =>
        rw [after] at ampersand
        exact ⟨more, by rw [Option.some.inj ampersand]⟩
    rw [bare, whole, List.nil_append, List.append_nil] at text
    refine ⟨ends, site.before, more, text, ?_⟩
    rw [shellWordSpans_eq, words]
    have same : spanOf word = (byteLength site.before, byteLength (site.before ++ old)) := by
      rw [spanOf, ← before, ← quoted, bare, List.nil_append, List.append_nil]
    rw [← same, List.map_append]
    exact List.mem_append_right _ List.mem_cons_self
  · rintro ⟨ends, first, after, whole, spanned⟩
    rw [shellWordSpans_eq] at spanned
    obtain ⟨other, listed, same⟩ := List.mem_map.mp spanned
    obtain ⟨-, -, -, begins, tail, split, -⟩ := lexWords_mem listed
    obtain ⟨start, stop⟩ := Prod.mk.inj same
    have front_ : other.1 = first := eq_of_byteLength (split.symm.trans whole) start
    have text_ : other.2 = old := by
      rw [front_] at split stop
      rw [whole] at split
      have behind := List.append_cancel_left split
      refine eq_of_byteLength behind.symm ?_
      rw [byteLength_append, byteLength_append] at stop
      omega
    have unique : other = word := by
      have found : other ∈ matching old (lexWords command) :=
        List.mem_filter.mpr ⟨listed, decide_eq_true (.inl text_)⟩
      rw [only] at found
      exact List.mem_singleton.mp found
    have bare : site.quotes = [] := by
      have lengths := congrArg List.length quoted
      rw [← unique, text_] at lengths
      simp only [List.length_append] at lengths
      exact List.eq_nil_of_length_eq_zero (by omega)
    refine ⟨bare, ends, ?_⟩
    rw [bare, List.nil_append, List.append_nil, before, ← unique, front_] at text
    rw [← List.append_cancel_left (List.append_cancel_left (whole.symm.trans text))]
    rfl

end

/-- A replacement edits exactly one word. -/
theorem replace_edits_one_word (command old new : List Char) :
    ∃ words values, rawWords command = some words ∧ shellWords command = some values ∧
      (replaceShellWord command old new).isSome = true ∧
      (replaceShellWord command old new = some none ↔
        ¬(Requested old new ∧ words.countP (fun word => Spells old word) = 1)) ∧
      ∀ result, replaceShellWord command old new = some (some result) →
        (∃ i, (∃ word, words[i]? = some word ∧ Spells old word) ∧
          (∀ j word, words[j]? = some word → Spells old word → j = i) ∧
          shellWords result = some (values.set i new) ∧
          ∃ span front back, (shellWordSpans command)[i]? = some span ∧
            span.1 ≤ byteLength front ∧ byteLength (front ++ old) ≤ span.2 ∧
            command = front ++ (old ++ back) ∧ result = front ++ (new ++ back)) ∧
        (∀ marker ∈ syntaxMarkers result, marker ∈ syntaxMarkers command) ∧
        StagesKept false command old result new ∧
        (StagesKept true command old result new ↔ ¬BeforeAmpersand command old) := by
  have count : ((lexWords command).map Prod.snd).countP (fun word => Spells old word) =
      (matching old (lexWords command)).length := by
    rw [List.countP_map, List.countP_eq_length_filter, matching]
    rfl
  obtain ⟨refused, edited⟩ := replaceShellWord_eq command old new
  refine ⟨_, _, rawWords_eq command, shellWords_eq command, ?_⟩
  rw [count]
  by_cases asked : Requested old new ∧ (matching old (lexWords command)).length = 1
  · obtain ⟨requested, one⟩ := asked
    obtain ⟨word, only⟩ := List.length_eq_one_iff.mp one
    obtain ⟨front, back, words, none_, spells, rest⟩ := List.filter_eq_cons_iff.mp only
    obtain ⟨site, before, quoted⟩ := exists_site words (of_decide_eq_true spells)
    have result := edited word requested only site before quoted
    have filled := requested.2.1
    have safe := requested.2.2.2
    rw [result]
    refine ⟨rfl, ⟨fun same => (by cases same), fun neither => absurd ⟨requested, one⟩ neither⟩, ?_⟩
    rintro other same
    obtain rfl := Option.some.inj (Option.some.inj same)
    refine ⟨⟨front.length, ?_, ?_, ?_, ?_⟩, ?_, ?_, ?_⟩
    · refine ⟨word.2, ?_, of_decide_eq_true spells⟩
      rw [words, List.map_append, List.getElem?_append_right (by simp)]
      simp
    · intro j text found matched
      rw [words, List.getElem?_map] at found
      obtain ⟨other, there, rfl⟩ := Option.map_eq_some_iff.mp found
      rcases Nat.lt_trichotomy j front.length with early | same_ | late
      · rw [List.getElem?_append_left early] at there
        exact absurd (decide_eq_true matched) (none_ other (List.mem_of_getElem? there))
      · exact same_
      · rw [List.getElem?_append_right (Nat.le_of_lt late)] at there
        obtain ⟨place, more⟩ : ∃ place, j - front.length = place + 1 :=
          ⟨j - front.length - 1, by omega⟩
        rw [more, List.getElem?_cons_succ] at there
        have listed : other ∈ back.filter fun word => Spells old word.2 :=
          List.mem_filter.mpr ⟨List.mem_of_getElem? there, decide_eq_true matched⟩
        rw [rest] at listed
        cases listed
    · rw [site.words_replaced words before quoted filled safe, words, List.map_append,
        List.map_cons, List.set_append_right _ _ (by simp)]
      simp
    · refine ⟨spanOf word, site.before ++ site.quotes, site.quotes ++ site.after, ?_, ?_, ?_, ?_,
        ?_⟩
      · rw [shellWordSpans_eq, words, List.map_append, List.getElem?_append_right (by simp)]
        simp
      · change byteLength word.1 ≤ _
        rw [before, byteLength_append]
        exact Nat.le_add_right _ _
      · rw [spanOf, ← before, ← quoted]
        simp only [byteLength_append]
        omega
      · have whole := site.whole
        simp only [List.append_assoc] at whole ⊢
        exact whole
      · simp only [Site.replaced, List.append_assoc]
    · have whole := site.whole
      have target : site.replaced new =
          (site.before ++ site.quotes) ++ (new ++ (site.quotes ++ site.after)) := by
        simp only [Site.replaced, List.append_assoc]
      have source : command = (site.before ++ site.quotes) ++ (old ++ (site.quotes ++ site.after)) := by
        simp only [List.append_assoc] at whole ⊢
        exact whole
      rw [target]
      intro marker member
      have kept := @syntaxMarkers_replaced _ _ old _ _ filled safe marker member
      rwa [← source] at kept
    · rw [site.stages_replaced words before quoted false filled safe]
      exact fun both => Bool.false_ne_true both.1
    · rw [site.stages_replaced words before quoted true filled safe,
        ← site.beforeAmpersand_iff words before quoted only]
      simp
  · rw [refused asked]
    exact ⟨rfl, ⟨fun _ => asked, fun _ => rfl⟩, fun result same => by cases same⟩

/-- The letters and digits of ASCII. -/
def asciiShell : ShellLibraries where
  isAlphanumeric char := ('a' ≤ char && char ≤ 'z') || ('A' ≤ char && char ≤ 'Z') ||
    ('0' ≤ char && char ≤ '9')
  isAlphanumeric_ascii _ _ := rfl

omit [ShellLibraries] in
/-- An ampersand behind an escaped mark of a redirection splits no stage, and does
once the word before it is replaced. -/
theorem escaped_redirection_replaced :
    @replaceShellWord asciiShell "a\\>&b".toList "a\\>".toList "x".toList =
        some (some "x&b".toList) ∧
      shellStages "a\\>&b".toList true = some ["a\\>&b".toList] ∧
      shellStages "x&b".toList true = some ["x".toList, "b".toList] := by
  decide +kernel

end JtermCore.CommandCorrection
