import Mathlib.Data.List.Induction
import JtermCore.CommandCorrection.Lexing

/-!
# What the words are

A word begins outside quotes behind all that was read before it, holds no
separator outside quotes, and goes on up to one or to the end of the command.
So its span is a slice, and its value is what its text stands for.
-/

namespace JtermCore.CommandCorrection

open Bytes Quoting Utf8

/-- A quote as the loops over characters keep it. -/
def quoteChar : Quote → Option Char
  | .bare => none
  | .single => some '\''
  | .double => some '"'

theorem isDoubleEscape_eq (char : Char) : isDoubleEscape char = isEscapable char :=
  rfl

theorem valueLoop_eq (quote : Option Char) (text : List Char) :
    ∀ kind, quote = quoteChar kind → valueLoop quote text =
      (Mode.mk kind false).emits text ++ ((Mode.mk kind false).run text).pending := by
  fun_induction valueLoop quote text with
  | case1 quote =>
    rintro kind rfl
    rfl
  | case2 quote character chars closes ih =>
    rintro kind rfl
    rw [ih .bare rfl]
    cases kind with
    | bare => simp [quoteChar] at closes
    | single =>
      obtain rfl : character = '\'' := by simpa [quoteChar] using closes
      rfl
    | double =>
      obtain rfl : character = '"' := by simpa [quoteChar] using closes
      rfl
  | case3 character chars open_ ih =>
    rintro kind same
    cases kind with
    | bare => cases same
    | single =>
      have other : character ≠ '\'' := by
        rintro rfl
        exact open_ (.inl ⟨rfl, rfl⟩)
      rw [ih .single rfl, Mode.emits, Quoting.run_cons]
      simp [Mode.emit, Mode.next, other]
    | double => simp [quoteChar] at same
  | case4 quote character chars open_ single opens ih =>
    rintro kind rfl
    cases kind with
    | bare =>
      rcases opens.2 with rfl | rfl
      · rw [ih .single rfl]
        rfl
      · rw [ih .double rfl]
        rfl
    | single => exact absurd rfl single
    | double => cases opens.1
  | case5 quote single open_ plain =>
    rintro kind rfl
    cases kind with
    | bare => rfl
    | single => exact absurd rfl single
    | double => rfl
  | case6 quote single next rest escapes open_ plain ih =>
    rintro kind rfl
    rw [ih kind rfl]
    cases kind with
    | bare => rfl
    | single => exact absurd rfl single
    | double =>
      have escapable : isEscapable next = true := by
        rw [← isDoubleEscape_eq]
        simpa [quoteChar] using escapes
      rw [Mode.emits, Mode.emits, Quoting.run_cons, Quoting.run_cons]
      simp [Mode.emit, Mode.next, escapable]
  | case7 quote single next rest literal open_ plain ih =>
    rintro kind rfl
    rw [ih kind rfl]
    simp only [not_or, Bool.not_eq_true, isDoubleEscape_eq] at literal
    cases kind with
    | bare => exact absurd rfl literal.1
    | single => exact absurd rfl single
    | double =>
      have mark : next ≠ '"' := by
        rintro rfl
        exact absurd literal.2 (by decide)
      have slash : next ≠ '\\' := by
        rintro rfl
        exact absurd literal.2 (by decide)
      simp [Mode.emits, Mode.emit, Mode.next, literal.2, mark, slash]
  | case8 quote character chars open_ single plain slash ih =>
    rintro kind rfl
    rw [ih kind rfl]
    cases kind with
    | bare =>
      simp only [quoteChar, true_and, not_or] at plain
      simp [Mode.emits, Mode.emit, Mode.next, slash, plain.1, plain.2]
    | single => exact absurd rfl single
    | double =>
      have mark : character ≠ '"' := by
        rintro rfl
        exact open_ (.inr ⟨rfl, rfl⟩)
      simp [Mode.emits, Mode.emit, Mode.next, slash, mark]

theorem shellWordValue_eq (word : List Char) : shellWordValue word = decode word :=
  valueLoop_eq none word .bare rfl

def Inner (mode : Mode) (text : List Char) : Prop :=
  ∀ front char back, text = front ++ char :: back →
    ¬(mode.run front = outside ∧ isSeparator char = true)

theorem Inner.nil (mode : Mode) : Inner mode [] := by
  intro front char back whole
  simp at whole

theorem inner_concat {mode : Mode} {text : List Char} {char : Char} :
    Inner mode (text ++ [char]) ↔
      Inner mode text ∧ ¬(mode.run text = outside ∧ isSeparator char = true) := by
  constructor
  · intro inner
    refine ⟨fun front other back whole => ?_, inner text char [] rfl⟩
    refine inner front other (back ++ [char]) ?_
    rw [whole, List.append_assoc]
    rfl
  · rintro ⟨inner, last⟩ front other back whole
    rcases List.eq_nil_or_concat' back with rfl | ⟨init, final, rfl⟩
    · obtain ⟨rfl, rfl⟩ := List.append_inj' whole rfl
        |>.imp id fun same => (List.cons.inj same).1
      exact last
    · have regrouped : text ++ [char] = (front ++ other :: init) ++ [final] := by
        rw [whole, List.append_assoc]
        rfl
      obtain ⟨rfl, -⟩ := List.append_inj' regrouped rfl
      exact inner front other init rfl

theorem Lex.run_word {lex : Lex} (fresh : lex.current = none) {text : List Char}
    (filled : text ≠ []) (inner : Inner lex.mode text) :
    lex.run text =
      { done := lex.done ++ text
        words := lex.words
        current := some (lex.done, text)
        mode := lex.mode.run text
        operand := lex.operand } := by
  induction text using List.reverseRecOn with
  | nil => exact absurd rfl filled
  | append_singleton text char ih =>
    obtain ⟨before, last⟩ := inner_concat.mp inner
    rw [Lex.run_append, Quoting.run_concat]
    change (lex.run text).step char = _
    rcases List.eq_nil_or_concat' text with rfl | ⟨init, final, rfl⟩
    · rw [Quoting.run_nil] at last
      change lex.step char = _
      rw [Lex.step, if_neg last, Lex.extend, fresh]
      rfl
    · rw [ih (by simp) before, Lex.step, if_neg last, Lex.extend, List.append_assoc]

structure Begins (words : List (List Char × List Char)) (operand : Bool)
    (word : List Char × List Char) : Prop where
  fresh : (Lex.run {} word.1).current = none
  before : (Lex.run {} word.1).words = words
  flagged : (Lex.run {} word.1).operand = operand
  bare : outside.run word.1 = outside
  filled : word.2 ≠ []
  inner : Inner outside word.2

def Ends (command : List Char) (word : List Char × List Char) : Prop :=
  ∃ after, command = word.1 ++ (word.2 ++ after) ∧
    (after = [] ∨ ∃ char rest, after = char :: rest ∧
      outside.run (word.1 ++ word.2) = outside ∧ isSeparator char = true)

section

variable (text : List Char)

include text

theorem run_init_mode : (Lex.run {} text).mode = outside.run text := Lex.run_mode {} text

theorem run_init_done : (Lex.run {} text).done = text := Lex.run_done {} text

theorem run_init_concat (char : Char) :
    Lex.run {} (text ++ [char]) = (Lex.run {} text).step char := Lex.run_append {} text [char]

theorem begins_current : ∀ word, (Lex.run {} text).current = some word →
      Begins (Lex.run {} text).words (Lex.run {} text).operand word ∧ text = word.1 ++ word.2 := by
  induction text using List.reverseRecOn with
  | nil =>
    intro word none_
    cases none_
  | append_singleton text char ih =>
    intro word found
    rw [run_init_concat] at found ⊢
    unfold Lex.step at found ⊢
    split at found
    · cases found
    · rename_i inside
      rw [if_neg inside]
      rw [run_init_mode] at inside
      unfold Lex.extend at found ⊢
      cases current : (Lex.run {} text).current with
      | none =>
        rw [current] at found
        obtain rfl := Option.some.inj found
        rw [run_init_done]
        have started : outside.run text = outside := by
          by_contra open_
          rw [← run_init_mode] at open_
          have there := (Lex.Sound.init.run text).started open_
          rw [current] at there
          cases there
        refine ⟨⟨current, rfl, rfl, started, List.cons_ne_nil char [], ?_⟩, rfl⟩
        have single : ([char] : List Char) = [] ++ [char] := rfl
        rw [single, inner_concat, Quoting.run_nil]
        exact ⟨Inner.nil outside, fun both => inside ⟨started, both.2⟩⟩
      | some first =>
        obtain ⟨begins, whole⟩ := ih first current
        rw [current] at found
        obtain rfl := Option.some.inj found
        refine ⟨⟨begins.fresh, begins.before, begins.flagged, begins.bare, by simp, ?_⟩, ?_⟩
        · rw [inner_concat]
          refine ⟨begins.inner, ?_⟩
          rw [whole, Quoting.run_append, begins.bare] at inside
          exact inside
        · rw [whole, List.append_assoc]

theorem begins_words : ∀ front word back, (Lex.run {} text).words = front ++ word :: back →
      Begins front false word ∧ ∃ char rest, text = word.1 ++ (word.2 ++ char :: rest) ∧
        outside.run (word.1 ++ word.2) = outside ∧ isSeparator char = true := by
  induction text using List.reverseRecOn with
  | nil =>
    intro front word back whole
    exact absurd whole.symm (by simp [Lex.run])
  | append_singleton text char ih =>
    intro front word back whole
    have older : ∀ back, (Lex.run {} text).words = front ++ word :: back → Begins front false word ∧
        ∃ char' rest, text ++ [char] = word.1 ++ (word.2 ++ char' :: rest) ∧
          outside.run (word.1 ++ word.2) = outside ∧ isSeparator char' = true := by
      intro back same
      obtain ⟨begins, separator, rest, text_, closed, separates⟩ := ih front word back same
      refine ⟨begins, separator, rest ++ [char], ?_, closed, separates⟩
      rw [text_]
      simp only [List.append_assoc, List.cons_append]
    rw [run_init_concat] at whole
    unfold Lex.step at whole
    split at whole
    · rename_i both
      rw [run_init_mode] at both
      unfold Lex.close Lex.flush at whole
      cases current : (Lex.run {} text).current with
      | none =>
        rw [current] at whole
        exact older back whole
      | some last =>
        rw [current] at whole
        simp only at whole
        split at whole
        · exact older back whole
        · rename_i kept
          rcases List.eq_nil_or_concat' back with rfl | ⟨init, final, rfl⟩
          · obtain ⟨same, single⟩ := List.append_inj' whole rfl
            obtain rfl := (List.cons.inj single).1
            obtain ⟨begins, text_⟩ := begins_current text last current
            rw [same, Bool.eq_false_iff.mpr kept] at begins
            refine ⟨begins, char, [], ?_, ?_, both.2⟩
            · rw [text_, List.append_assoc]
            · rw [← text_]
              exact both.1
          · have regrouped : (Lex.run {} text).words ++ [last] =
                (front ++ word :: init) ++ [final] := by
              rw [whole, List.append_assoc]
              rfl
            exact older init (List.append_inj' regrouped rfl).1
    · exact older back whole

end

variable {command : List Char} {word : List Char × List Char}

theorem lexWords_split {front back : List (List Char × List Char)}
    (whole : lexWords command = front ++ word :: back) :
    Begins front false word ∧ Ends command word := by
  have complete : ∀ back, (Lex.run {} command).words = front ++ word :: back →
      Begins front false word ∧ Ends command word := by
    intro back same
    obtain ⟨begins, char, rest, text, closed, separator⟩ := begins_words command front word back same
    exact ⟨begins, char :: rest, text, .inr ⟨char, rest, rfl, closed, separator⟩⟩
  unfold lexWords Lex.flush at whole
  cases current : (Lex.run {} command).current with
  | none =>
    rw [current] at whole
    exact complete back whole
  | some last =>
    rw [current] at whole
    simp only at whole
    split at whole
    · exact complete back whole
    · rename_i kept
      rcases List.eq_nil_or_concat' back with rfl | ⟨init, final, rfl⟩
      · obtain ⟨same, single⟩ := List.append_inj' whole rfl
        obtain rfl := (List.cons.inj single).1
        obtain ⟨begins, text⟩ := begins_current command last current
        rw [same, Bool.eq_false_iff.mpr kept] at begins
        exact ⟨begins, [], by rw [List.append_nil, ← text], .inl rfl⟩
      · have regrouped : (Lex.run {} command).words ++ [last] =
            (front ++ word :: init) ++ [final] := by
          rw [whole, List.append_assoc]
          rfl
        exact complete init (List.append_inj' regrouped rfl).1

theorem lexWords_mem
    (member : word ∈ lexWords command) : ∃ front back, lexWords command = front ++ word :: back ∧
      Begins front false word ∧ Ends command word := by
  obtain ⟨front, back, whole⟩ := List.append_of_mem member
  exact ⟨front, back, whole, lexWords_split whole⟩

theorem Begins.behind {front : List (List Char × List Char)} {operand : Bool}
    {word earlier : List Char × List Char} (begins : Begins front operand word)
    (member : earlier ∈ front) : ∃ more, word.1 = earlier.1 ++ (earlier.2 ++ more) := by
  obtain ⟨first, second, whole⟩ := List.append_of_mem member
  obtain ⟨-, char, rest, text, -⟩ :=
    begins_words word.1 first earlier second (begins.before.trans whole)
  exact ⟨char :: rest, text⟩

theorem slice_spanOf (ends : Ends command word) : slice command (spanOf word) = some word.2 := by
  obtain ⟨after, rfl, -⟩ := ends
  exact slice_append word.1 word.2 after

theorem mapM_eq_some {α β : Type} {items : List α} {function : α → Option β} {image : α → β}
    (each : ∀ item ∈ items, function item = some (image item)) :
    items.mapM function = some (items.map image) := by
  induction items with
  | nil => rfl
  | cons item items ih =>
    rw [List.mapM_cons, each item List.mem_cons_self,
      ih fun other member => each other (List.mem_cons_of_mem item member)]
    rfl

theorem shellWords_eq (command : List Char) :
    shellWords command = some ((lexWords command).map fun word => decode word.2) := by
  rw [shellWords, shellWordSpans_eq, List.mapM_map]
  refine mapM_eq_some fun word member => ?_
  obtain ⟨-, -, -, -, ends⟩ := lexWords_mem member
  rw [Function.comp_apply, slice_spanOf ends, Option.map_some, shellWordValue_eq]

theorem pairwise_of_before {α : Type} {relation : α → α → Prop} {items : List α}
    (before : ∀ front item back, items = front ++ item :: back → ∀ earlier ∈ front,
      relation earlier item) : items.Pairwise relation := by
  induction items using List.reverseRecOn with
  | nil => exact List.Pairwise.nil
  | append_singleton items last ih =>
    rw [List.pairwise_append]
    refine ⟨ih ?_, List.pairwise_singleton _ _, ?_⟩
    · intro front item back whole
      exact before front item (back ++ [last]) (by
        rw [whole, List.append_assoc]
        rfl)
    · intro earlier member final same
      obtain rfl := List.mem_singleton.mp same
      exact before items final [] rfl earlier member

def OnBoundaries (command : List Char) (span : Nat × Nat) : Prop :=
  (splitAtByte command span.1).isSome = true ∧ (splitAtByte command span.2).isSome = true

theorem spans_ordered (command : List Char) :
    (∀ span ∈ shellWordSpans command, span.1 < span.2 ∧ span.2 ≤ byteLength command ∧
      OnBoundaries command span) ∧
    (shellWordSpans command).Pairwise fun first second => first.2 ≤ second.1 := by
  rw [shellWordSpans_eq]
  constructor
  · intro span member
    obtain ⟨word, listed, rfl⟩ := List.mem_map.mp member
    obtain ⟨front, back, -, begins, after, whole, -⟩ := lexWords_mem listed
    have positive := byteLength_pos begins.filled
    refine ⟨?_, ?_, ?_, ?_⟩
    · change byteLength word.1 < byteLength (word.1 ++ word.2)
      rw [byteLength_append]
      omega
    · change byteLength (word.1 ++ word.2) ≤ byteLength command
      rw [whole, ← List.append_assoc, byteLength_append (word.1 ++ word.2)]
      exact Nat.le_add_right _ _
    · rw [whole, spanOf, splitAtByte_append]
      rfl
    · rw [whole, ← List.append_assoc, spanOf, splitAtByte_append]
      rfl
  · rw [List.pairwise_map]
    refine pairwise_of_before fun front word back whole earlier member => ?_
    obtain ⟨begins, -⟩ := lexWords_split whole
    obtain ⟨more, behind⟩ := begins.behind member
    change byteLength (earlier.1 ++ earlier.2) ≤ byteLength word.1
    rw [behind, ← List.append_assoc, byteLength_append (earlier.1 ++ earlier.2)]
    exact Nat.le_add_right _ _

end JtermCore.CommandCorrection
