import JtermCore.CommandCorrection.Padding
import JtermCore.CommandCorrection.Stages

/-!
# The shell lexers agree

All four scanners follow the same mode of the quoting.  They differ in what they
take for whitespace: a command and its trimmed command have the same words
exactly when the padding is whitespace of ASCII, or the operand of a redirection.
-/

namespace JtermCore.CommandCorrection

open Bytes Quoting Utf8

/-- What is read next belongs to the operand of a redirection: behind the
operator there are only separators and the beginning of one word. -/
def InOperand (front : List Char) : Prop :=
  ∃ before mark gap word, front = before ++ mark :: (gap ++ word) ∧ (mark = '<' ∨ mark = '>') ∧
    outside.run before = outside ∧ (∀ char ∈ gap, isSeparator char = true) ∧ Inner outside word

theorem run_separators {lex : Lex} {gap : List Char} (mode : lex.mode = outside)
    (current : lex.current = none) (separators : ∀ char ∈ gap, isSeparator char = true) :
    (lex.operand = true → (lex.run gap).operand = true) ∧ (lex.run gap).mode = outside ∧
      (lex.run gap).current = none := by
  induction gap generalizing lex with
  | nil => exact ⟨id, mode, current⟩
  | cons char gap ih =>
    have closed : lex.step char = lex.close char :=
      if_pos ⟨mode, separators char List.mem_cons_self⟩
    have next := @ih (lex.close char) rfl rfl fun other member =>
      separators other (List.mem_cons_of_mem char member)
    rw [Lex.run_cons, closed]
    refine ⟨fun flag => next.1 ?_, next.2⟩
    rw [Lex.close, current, flag]
    simp

theorem operand_iff (front : List Char) : (Lex.run {} front).operand = true ↔ InOperand front := by
  constructor
  · have stronger : (Lex.run {} front).operand = true → ∃ before mark gap word,
        front = before ++ mark :: (gap ++ word) ∧ (mark = '<' ∨ mark = '>') ∧
        outside.run before = outside ∧ (∀ char ∈ gap, isSeparator char = true) ∧
        Inner outside word ∧ ((Lex.run {} front).current = none → word = []) := by
      induction front using List.reverseRecOn with
      | nil =>
        intro flag
        cases flag
      | append_singleton front char ih =>
        intro flag
        rw [run_init_concat] at flag ⊢
        unfold Lex.step at flag ⊢
        split at flag
        · rename_i both
          rw [if_pos both]
          unfold Lex.close at flag
          simp only at flag
          split at flag
          · rename_i mark
            rw [run_init_mode] at both
            exact ⟨front, char, [], [], rfl, mark, both.1, by simp, Inner.nil _, fun _ => rfl⟩
          · split at flag
            · cases flag
            · rename_i fresh
              obtain ⟨before, mark, gap, word, whole, redirects, bare, separators, -, empty⟩ :=
                ih flag
              obtain rfl := empty (by simpa using fresh)
              refine ⟨before, mark, gap ++ [char], [], ?_, redirects, bare, ?_, Inner.nil _,
                fun _ => rfl⟩
              · rw [whole]
                simp
              · intro other member
                rcases List.mem_append.mp member with earlier | last
                · exact separators other earlier
                · rw [List.mem_singleton.mp last]
                  exact both.2
        · rename_i inside
          rw [if_neg inside]
          obtain ⟨before, mark, gap, word, whole, redirects, bare, separators, inner, -⟩ := ih flag
          refine ⟨before, mark, gap, word ++ [char], ?_, redirects, bare, separators, ?_, ?_⟩
          · rw [whole]
            simp
          · rw [inner_concat]
            refine ⟨inner, ?_⟩
            have marked : outside.next mark = outside := by
              rcases redirects with rfl | rfl <;> decide
            have through : outside.run gap = outside :=
              run_outside fun other member => isOrdinary_of_isSeparator (separators other member)
            rw [run_init_mode, whole, Quoting.run_append, bare, Quoting.run_cons, marked,
              Quoting.run_append, through] at inside
            exact inside
          · intro none_
            unfold Lex.extend at none_
            cases current : (Lex.run {} front).current with
            | none =>
              rw [current] at none_
              cases none_
            | some first =>
              rw [current] at none_
              cases none_
    intro flag
    obtain ⟨before, mark, gap, word, whole, redirects, bare, separators, inner, -⟩ := stronger flag
    exact ⟨before, mark, gap, word, whole, redirects, bare, separators, inner⟩
  · rintro ⟨before, mark, gap, word, rfl, redirects, bare, separators, inner⟩
    have separator : isSeparator mark = true := by rcases redirects with rfl | rfl <;> decide
    have mode : (Lex.run {} before).mode = outside := by rw [run_init_mode, bare]
    have closed : (Lex.run {} before).step mark = (Lex.run {} before).close mark :=
      if_pos ⟨mode, separator⟩
    rw [Lex.run_append, Lex.run_cons, closed, Lex.run_append]
    obtain ⟨flag, between, fresh⟩ :=
      @run_separators ((Lex.run {} before).close mark) gap rfl rfl separators
    have flagged := flag (by rw [Lex.close, if_pos redirects])
    cases word with
    | nil => exact flagged
    | cons char word =>
      rw [Lex.run_word fresh (List.cons_ne_nil char word) (by rwa [between])]
      exact flagged

def isShellBlank (char : Char) : Bool :=
  char = ' ' || char = '\t' || char = '\n' || char = '\x0c' || char = '\r'

def IsLeading (front : List Char) (char : Char) : Prop :=
  ∀ other ∈ front ++ [char], isWhitespace other = true

/-- Whitespace that is neither quoted nor escaped, with nothing else behind it. -/
def IsTrailing (front : List Char) (char : Char) (back : List Char) : Prop :=
  ∀ more other rest, char :: back = more ++ other :: rest →
    isPadding (outside.run (front ++ more)) other = true

/-- The padding of a command is whitespace of ASCII, or belongs to the operand of
a redirection. -/
def PaddingIsBlank (command : List Char) : Prop :=
  ∀ front char back, command = front ++ char :: back →
    IsLeading front char ∨ IsTrailing front char back → isShellBlank char = true ∨ InOperand front

variable {char : Char}

theorem isShellBlank_of_isWhitespace (space : isWhitespace char = true) :
    isSeparator char = isShellBlank char := by
  have apart : ∀ mark : Char, isWhitespace mark = false → decide (char = mark) = false := by
    intro mark shown
    apply decide_eq_false
    rintro rfl
    rw [space] at shown
    cases shown
  unfold isSeparator isShellBlank
  rw [apart '|' (by decide), apart ';' (by decide), apart '&' (by decide), apart '(' (by decide),
    apart ')' (by decide), apart '<' (by decide), apart '>' (by decide)]
  simp only [Bool.or_false]

theorem not_redirects (space : isWhitespace char = true) : ¬(char = '<' ∨ char = '>') := by
  rintro (rfl | rfl)
  · exact absurd space (by decide)
  · exact absurd space (by decide)

theorem operand_of_whitespace {front : List Char}
    (space : ∀ char ∈ front, isWhitespace char = true) : (Lex.run {} front).operand = false := by
  rw [Bool.eq_false_iff]
  intro flag
  obtain ⟨before, mark, gap, word, rfl, redirects, -⟩ := (operand_iff front).mp flag
  exact not_redirects (space mark (by simp)) redirects

theorem isPadding_iff {mode : Mode} :
    isPadding mode char = true ↔ mode = outside ∧ isWhitespace char = true := by
  rw [isPadding, Bool.and_eq_true, decide_eq_true_eq]

variable {lex : Lex}

theorem flush_step (mode : lex.mode = outside)
    (harmless : isSeparator char = true ∨ lex.operand = true) :
    (lex.step char).flush = lex.flush := by
  unfold Lex.step
  split
  · rfl
  · rename_i inside
    have flag : lex.operand = true :=
      harmless.resolve_left fun separator => inside ⟨mode, separator⟩
    unfold Lex.flush Lex.extend
    cases lex.current <;> simp [flag]

/-- Two machines with the same texts. -/
structure Shifted (first second : Lex) : Prop where
  mode : first.mode = second.mode
  operand : first.operand = second.operand
  current : first.current.map Prod.snd = second.current.map Prod.snd
  words : first.words.map Prod.snd = second.words.map Prod.snd

variable {first second : Lex}

theorem Shifted.flush (shifted : Shifted first second) :
    first.flush.map Prod.snd = second.flush.map Prod.snd := by
  have current := shifted.current
  have words := shifted.words
  unfold Lex.flush
  rw [shifted.operand]
  cases here : first.current with
  | none =>
    rw [here] at current
    have there : second.current = none := Option.map_eq_none_iff.mp current.symm
    rw [there]
    exact words
  | some word =>
    rw [here] at current
    obtain ⟨other, there, text⟩ := Option.map_eq_some_iff.mp current.symm
    rw [there]
    simp only
    split
    · exact words
    · rw [List.map_append, List.map_append, words, List.map_singleton, List.map_singleton, text]

theorem Shifted.step {first second : Lex} (shifted : Shifted first second) (char : Char) :
    Shifted (first.step char) (second.step char) := by
  have started : first.current.isSome = second.current.isSome := by
    rw [← Option.isSome_map, shifted.current, Option.isSome_map]
  unfold Lex.step
  rw [shifted.mode]
  split
  · refine ⟨rfl, ?_, rfl, shifted.flush⟩
    unfold Lex.close
    simp only
    rw [started, shifted.operand]
  · refine ⟨?_, shifted.operand, ?_, shifted.words⟩
    · unfold Lex.extend
      simp only
      rw [shifted.mode]
    · have current := shifted.current
      unfold Lex.extend
      cases here : first.current with
      | none =>
        rw [here] at current
        rw [Option.map_eq_none_iff.mp current.symm]
        rfl
      | some word =>
        rw [here] at current
        obtain ⟨other, there, text⟩ := Option.map_eq_some_iff.mp current.symm
        rw [there]
        simp only [Option.map_some, text]

theorem Shifted.run (shifted : Shifted first second) (text : List Char) :
    Shifted (first.run text) (second.run text) := by
  induction text generalizing first second with
  | nil => exact shifted
  | cons char text ih => exact ih (shifted.step char)

theorem values_eq (text : List Char) :
    (lexWords text).map (fun word => decode word.2) =
      ((lexWords text).map Prod.snd).map decode := by
  rw [List.map_map]
  rfl

section

variable {lead kept trail : List Char} (leading : ∀ char ∈ lead, isWhitespace char = true)
  (trailing : ∀ front char back, trail = front ++ char :: back →
    isPadding (outside.run (kept ++ front)) char = true)

include leading

theorem run_lead : outside.run lead = outside :=
  run_outside fun char member => isOrdinary_of_isWhitespace (leading char member)

theorem words_lead (separators : ∀ char ∈ lead, isSeparator char = true) (text : List Char) :
    (lexWords (lead ++ text)).map Prod.snd = (lexWords text).map Prod.snd := by
  have init : ({} : Lex).Between := ⟨rfl, rfl, rfl⟩
  obtain ⟨between, words⟩ := init.gap fun char member =>
    ⟨separators char member, not_redirects (leading char member)⟩
  have shifted : Shifted (Lex.run {} lead) {} := by
    refine ⟨between.mode, between.operand, ?_, ?_⟩
    · rw [between.current]
    · rw [words]
  unfold lexWords
  rw [Lex.run_append]
  exact (shifted.run text).flush

include trailing

theorem words_trail (harmless : ∀ front char back, trail = front ++ char :: back →
      isSeparator char = true ∨ InOperand (lead ++ (kept ++ front))) :
    lexWords (lead ++ (kept ++ trail)) = lexWords (lead ++ kept) := by
  induction trail using List.reverseRecOn with
  | nil => rw [List.append_nil]
  | append_singleton trail char ih =>
    have regrouped : lead ++ (kept ++ (trail ++ [char])) = (lead ++ (kept ++ trail)) ++ [char] := by
      simp only [List.append_assoc]
    have padding := (isPadding_iff.mp (trailing trail char [] rfl)).1
    have extend : ∀ front other back, trail = front ++ other :: back →
        trail ++ [char] = front ++ other :: (back ++ [char]) := by
      rintro front other back rfl
      rw [List.append_assoc]
      rfl
    rw [← ih (fun front other back whole => trailing front other _ (extend front other back whole))
      fun front other back whole => harmless front other _ (extend front other back whole)]
    unfold lexWords
    rw [regrouped, run_init_concat]
    apply flush_step
    · rw [run_init_mode, Quoting.run_append, run_lead leading, padding]
    · rw [operand_iff]
      exact harmless trail char [] rfl

omit leading trailing in
theorem gain_padding (space : isWhitespace char = true)
    (outside_ : isSeparator char = false) : gain outside false char = 1 := by
  rw [gain, outside_, if_neg fun both => Bool.false_ne_true both.2,
    emit_outside (isOrdinary_of_isWhitespace space)]
  rfl

omit leading trailing in
theorem weight_le (aligned : lex.Aligned) (text : List Char) :
    lex.weight ≤ (lex.run text).weight := by
  induction text generalizing lex with
  | nil => exact Nat.le_refl _
  | cons char text ih =>
    have step := weight_step aligned char
    have rest := ih (aligned.step char)
    rw [Lex.run_cons]
    omega

omit leading trailing in
theorem Lex.Aligned.run (aligned : lex.Aligned) (text : List Char) : (lex.run text).Aligned := by
  induction text generalizing lex with
  | nil => exact aligned
  | cons char text ih => exact ih (aligned.step char)

omit leading trailing in
theorem weight_gain (aligned : lex.Aligned) (front back : List Char) (char : Char) :
    lex.weight + gain (lex.run front).mode (lex.run front).operand char ≤
      (lex.run (front ++ char :: back)).weight := by
  have before := weight_le aligned front
  have step := weight_step (aligned.run front) char
  have after := weight_le ((aligned.run front).step char) back
  rw [Lex.run_append, Lex.run_cons]
  omega

theorem total_padded :
    total ((lexWords (lead ++ (kept ++ trail))).map fun word => decode word.2) =
      total ((lexWords kept).map fun word => decode word.2) + (Lex.run {} lead).weight +
        ((Lex.run {} (lead ++ (kept ++ trail))).weight - (Lex.run {} (lead ++ kept)).weight) := by
  have alike : Alike (Lex.run {} lead) {} := by
    refine ⟨?_, operand_of_whitespace leading, ?_⟩
    · rw [run_init_mode, run_lead leading]
    · intro flag
      rw [operand_of_whitespace leading] at flag
      cases flag
  obtain ⟨kept_, weights⟩ := weight_alike alike (aligned_run lead) (aligned_run []) kept
  rw [← Lex.run_append] at kept_ weights
  have none_ : ({} : Lex).weight = 0 := rfl
  rw [none_, Nat.add_zero] at weights
  have grows : (Lex.run {} (lead ++ kept)).weight ≤
      (Lex.run {} (lead ++ (kept ++ trail))).weight := by
    rw [← List.append_assoc, Lex.run_append _ (lead ++ kept)]
    exact weight_le (aligned_run _) trail
  have pending : (if (Lex.run {} (lead ++ (kept ++ trail))).mode.escaped = true ∧
        (Lex.run {} (lead ++ (kept ++ trail))).operand = false then 1 else 0) =
      if (Lex.run {} kept).mode.escaped = true ∧ (Lex.run {} kept).operand = false then 1 else 0 := by
    rcases List.eq_nil_or_concat' trail with rfl | ⟨init, last, rfl⟩
    · rw [List.append_nil, kept_.mode, kept_.operand]
    · have close := isPadding_iff.mp (trailing init last [] rfl)
      have first : outside.run kept = outside := by
        cases init with
        | nil =>
          rw [List.append_nil] at close
          exact close.1
        | cons char init =>
          have padding := isPadding_iff.mp (trailing [] char (init ++ [last]) rfl)
          rw [List.append_nil] at padding
          exact padding.1
      have end_ : outside.run (lead ++ (kept ++ (init ++ [last]))) = outside := by
        rw [← List.append_assoc kept, Quoting.run_append, run_lead leading, Quoting.run_concat,
          close.1, next_outside (isOrdinary_of_isWhitespace close.2)]
      rw [run_init_mode, run_init_mode, first, end_]
      rfl
  rw [total_eq, total_eq, pending]
  omega

end

theorem place_of_padding {lead kept trail front back : List Char}
    (leading : ∀ char ∈ lead, isWhitespace char = true)
    (head : ∀ char, kept.head? = some char → isWhitespace char = false)
    (last : ∀ init last, kept = init ++ [last] → isPadding (outside.run init) last = false)
    (whole : lead ++ (kept ++ trail) = front ++ char :: back)
    (padding : IsLeading front char ∨ IsTrailing front char back) :
    (∃ more, lead = front ++ char :: more) ∨
      ∃ more, front = lead ++ (kept ++ more) ∧ trail = more ++ char :: back := by
  rcases List.append_eq_append_iff.mp whole with ⟨more, behind, rest⟩ | ⟨more, ahead, rest⟩
  · rcases List.append_eq_append_iff.mp rest with ⟨further, beyond, tail⟩ | ⟨further, inside, tail⟩
    · exact .inr ⟨further, by rw [behind, beyond], tail⟩
    · cases further with
      | nil =>
        rw [List.append_nil] at inside
        exact .inr ⟨[], by rw [behind, inside, List.append_nil], tail.symm⟩
      | cons first further =>
        obtain ⟨rfl, final⟩ := List.cons.inj tail
        exfalso
        rcases padding with leads | trails
        · -- All that stands before the place is whitespace, and so is the first kept character.
          cases more with
          | nil =>
            have shown := head char (by rw [inside]; rfl)
            rw [leads char (by simp)] at shown
            cases shown
          | cons start more =>
            have shown := head start (by rw [inside]; rfl)
            rw [leads start (by rw [behind]; simp)] at shown
            cases shown
        · -- All that stands behind the place is padding, and so is the last kept character.
          rcases List.eq_nil_or_concat' further with rfl | ⟨init, final_, rfl⟩
          · have shown := last more char inside
            have padded := trails [] char back rfl
            rw [List.append_nil, behind, Quoting.run_append, run_lead leading] at padded
            rw [padded] at shown
            cases shown
          · have shown := last (more ++ char :: init) final_ (by
              rw [inside, List.append_assoc]
              rfl)
            have padded := trails (char :: init) final_ trail (by
              rw [final]
              simp)
            rw [behind, List.append_assoc, Quoting.run_append, run_lead leading] at padded
            rw [padded] at shown
            cases shown
  · cases more with
    | nil =>
      rw [List.append_nil] at ahead
      rw [List.nil_append] at rest
      cases kept with
      | nil => exact .inr ⟨[], by rw [ahead]; simp, rest.symm⟩
      | cons first kept =>
        obtain ⟨rfl, final⟩ := List.cons.inj rest
        exfalso
        rcases padding with leads | trails
        · have shown := head char rfl
          rw [leads char (by simp)] at shown
          cases shown
        · rcases List.eq_nil_or_concat' kept with rfl | ⟨init, final_, rfl⟩
          · have shown := last [] char rfl
            have padded := trails [] char back rfl
            rw [List.append_nil, ← ahead, run_lead leading] at padded
            rw [Quoting.run_nil, padded] at shown
            cases shown
          · have shown := last (char :: init) final_ rfl
            have padded := trails (char :: init) final_ trail (by
              rw [final]
              simp)
            rw [← ahead, Quoting.run_append, run_lead leading] at padded
            rw [padded] at shown
            cases shown
    | cons first more =>
      obtain ⟨rfl, -⟩ := List.cons.inj rest
      exact .inl ⟨more, ahead⟩

theorem shellWords_trimmed_iff (command : List Char) :
    (trimCommandPadding command).bind shellWords = shellWords command ↔ PaddingIsBlank command := by
  obtain ⟨lead, trail, whole, leading, trailing⟩ := exists_padding_around command
  have head := head?_trimmed command
  have last : ∀ init last, trimmed command = init ++ [last] →
      isPadding (outside.run init) last = false := fun init last same => isPadding_last same
  rw [trimCommandPadding_eq, Option.bind_some, shellWords_eq, shellWords_eq, Option.some.injEq]
  generalize trimmed command = kept at whole trailing head last ⊢
  subst whole
  have before : ∀ front, outside.run (lead ++ front) = outside.run front := by
    intro front
    rw [Quoting.run_append, run_lead leading]
  constructor
  · intro same
    have totals := total_padded leading trailing
    rw [← same] at totals
    intro front char back split padding
    rcases place_of_padding leading head last split padding with ⟨more, within⟩ |
      ⟨more, behind, within⟩
    · have space := leading char (by rw [within]; simp)
      rw [← isShellBlank_of_isWhitespace space]
      left
      by_contra word
      have gained := weight_gain (aligned_run []) front more char
      have ahead : ∀ other ∈ front, isWhitespace other = true := fun other member =>
        leading other (by rw [within]; exact List.mem_append_left _ member)
      have mode : (Lex.run (Lex.run {} []) front).mode = outside :=
        (run_init_mode front).trans (run_lead ahead)
      have flag : (Lex.run (Lex.run {} []) front).operand = false := operand_of_whitespace ahead
      rw [mode, flag, gain_padding space (Bool.eq_false_iff.mpr word), ← within] at gained
      have same_ : Lex.run (Lex.run {} []) lead = Lex.run {} lead := rfl
      rw [same_] at gained
      omega
    · have close := isPadding_iff.mp (trailing more char back within)
      rw [← isShellBlank_of_isWhitespace close.2, ← operand_iff, behind]
      by_contra neither
      obtain ⟨word, free⟩ := not_or.mp neither
      have gained := weight_gain (aligned_run (lead ++ kept)) more back char
      rw [← Lex.run_append, ← Lex.run_append, List.append_assoc, List.append_assoc, run_init_mode,
        before, close.1, Bool.eq_false_iff.mpr free,
        gain_padding close.2 (Bool.eq_false_iff.mpr word), ← within] at gained
      omega
  · intro blank
    have separators : ∀ char ∈ lead, isSeparator char = true := by
      intro char member
      obtain ⟨front, back, split⟩ := List.append_of_mem member
      have ahead : ∀ other ∈ front ++ [char], isWhitespace other = true := by
        intro other listed
        apply leading
        rw [split]
        rcases List.mem_append.mp listed with early | late
        · exact List.mem_append_left _ early
        · rw [List.mem_singleton.mp late]
          simp
      rw [isShellBlank_of_isWhitespace (leading char member)]
      rcases blank front char (back ++ (kept ++ trail)) (by rw [split]; simp) (.inl ahead) with
        plain | operand
      · exact plain
      · rw [← operand_iff, operand_of_whitespace fun other listed =>
          ahead other (List.mem_append_left _ listed)] at operand
        cases operand
    have harmless : ∀ front char back, trail = front ++ char :: back →
        isSeparator char = true ∨ InOperand (lead ++ (kept ++ front)) := by
      intro front char back split
      have trails : IsTrailing (lead ++ (kept ++ front)) char back := by
        intro more other rest tail
        rw [List.append_assoc, before, List.append_assoc]
        exact trailing (front ++ more) other rest (by rw [split, tail, List.append_assoc])
      have space := (isPadding_iff.mp (trailing front char back split)).2
      rw [isShellBlank_of_isWhitespace space]
      exact blank (lead ++ (kept ++ front)) char back (by rw [split]; simp) (.inr trails)
    rw [values_eq, values_eq, words_trail leading trailing harmless, words_lead leading separators]

/-- Spelled arguments are read back; trimming is idempotent and removes nothing
that is quoted or escaped; it keeps the words exactly when the padding is
whitespace of ASCII; the spans are ordered slices, and no control operator that
splits the stages stands in one; and no slice is out of place. -/
theorem shell_lexers_agree (line : SpelledLine) (command : List Char) :
    shellWords line.text = some line.values ∧
    ((trimCommandPadding command).bind shellWords = shellWords command ↔
      PaddingIsBlank command) ∧
    (trimCommandPadding command).bind trimCommandPadding = trimCommandPadding command ∧
    (∃ lead kept trail, trimCommandPadding command = some kept ∧
      command = lead ++ (kept ++ trail) ∧ (∀ char ∈ lead, isWhitespace char = true) ∧
      ∀ front char back, trail = front ++ char :: back →
        isPadding (outside.run (lead ++ (kept ++ front))) char = true) ∧
    ((∀ span ∈ shellWordSpans command, span.1 < span.2 ∧
      span.2 ≤ byteLength command ∧ OnBoundaries command span) ∧
      (shellWordSpans command).Pairwise fun first second => first.2 ≤ second.1) ∧
    (∀ range ∈ (shellStageRanges command true).dropLast,
      ∀ span ∈ shellWordSpans command, ¬(span.1 ≤ range.2 ∧ range.2 < span.2)) ∧
    (shellWords command).isSome = true ∧ (trimCommandPadding command).isSome = true ∧
      ∀ allControls, (shellStages command allControls).isSome = true := by
  refine ⟨shellWords_spelled line, shellWords_trimmed_iff command, ?_, ?_, spans_ordered command,
    separators_outside_words command true, ?_⟩
  · rw [trimCommandPadding_eq, Option.bind_some, trimCommandPadding_eq, trimmed_trimmed]
  · obtain ⟨lead, trail, whole, leading, trailing⟩ := exists_padding_around command
    refine ⟨lead, trimmed command, trail, trimCommandPadding_eq command, whole, leading, ?_⟩
    intro front char back split
    rw [Quoting.run_append, run_lead leading]
    exact trailing front char back split
  · refine ⟨?_, ?_, fun allControls => ?_⟩
    · rw [shellWords_eq]
      rfl
    · rw [trimCommandPadding_eq]
      rfl
    · rw [shellStages_eq]
      rfl

/-- A no-break space before a command is part of its first word, and trimmed. -/
theorem no_break_space_trimmed :
    shellWords ['\u00a0', 'l', 's'] = some [['\u00a0', 'l', 's']] ∧
      (trimCommandPadding ['\u00a0', 'l', 's']).bind shellWords = some [['l', 's']] := by
  decide +kernel

end JtermCore.CommandCorrection
