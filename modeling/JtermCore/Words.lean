import Mathlib.Algebra.Order.Ring.Int
import Mathlib.Data.List.Infix

/-!
# Texts free of some words

A text is free of some words when none of them occurs in it.  Two texts split a
word when one end of it stands at the end of the first and the rest at the
beginning of the second.
-/

namespace JtermCore.Words

variable {α : Type} {words : List (List α)}

def Free (words : List (List α)) (text : List α) : Prop := ∀ word ∈ words, ¬ word <:+: text

instance [DecidableEq α] (text : List α) : Decidable (Free words text) :=
  inferInstanceAs (Decidable (∀ word ∈ words, ¬ word <:+: text))

/-- A word that begins in one text and ends in the next. -/
def Split (words : List (List α)) (left right : List α) : Prop :=
  ∃ word ∈ words, ∃ first second, first ≠ [] ∧ second ≠ [] ∧ word = first ++ second ∧
    first <:+ left ∧ second <+: right

/-- No word begins at the end of a text and goes on behind it. -/
def EndsClear (words : List (List α)) (left : List α) : Prop :=
  ∀ word ∈ words, ∀ first second, first ≠ [] → second ≠ [] → word = first ++ second →
    ¬ first <:+ left

/-- No word that began earlier ends at the beginning of a text. -/
def StartsClear (words : List (List α)) (right : List α) : Prop :=
  ∀ word ∈ words, ∀ first second, first ≠ [] → second ≠ [] → word = first ++ second →
    ¬ second <+: right

variable {fewer : List (List α)}

theorem EndsClear.of_subset {left : List α} (clear : EndsClear words left)
    (subset : fewer ⊆ words) : EndsClear fewer left := fun word member => clear word (subset member)

theorem StartsClear.of_subset {right : List α}
    (clear : StartsClear words right) (subset : fewer ⊆ words) : StartsClear fewer right :=
  fun word member => clear word (subset member)

theorem EndsClear.not_split {left : List α} (clear : EndsClear words left) (right : List α) :
    ¬ Split words left right := by
  rintro ⟨word, member, first, second, nonempty, rest, same, ends, -⟩
  exact clear word member first second nonempty rest same ends

theorem StartsClear.not_split {right : List α} (clear : StartsClear words right)
    (left : List α) : ¬ Split words left right := by
  rintro ⟨word, member, first, second, nonempty, rest, same, -, begins⟩
  exact clear word member first second nonempty rest same begins

theorem endsClear_of_take {left : List α}
    (checked : ∀ word ∈ words, ∀ size ∈ List.range' 1 (word.length - 1),
      ¬ word.take size <:+ left) : EndsClear words left := by
  intro word member first second nonempty rest same ends
  have positive := List.length_pos_iff.mpr nonempty
  have behind := List.length_pos_iff.mpr rest
  have length := congrArg List.length same
  rw [List.length_append] at length
  refine checked word member first.length ?_ ?_
  · rw [List.mem_range'_1]
    omega
  · rwa [same, List.take_left]

theorem split_of_suffix {left part right : List α} (ends : part <:+ left)
    (split : Split words part right) : Split words left right := by
  obtain ⟨word, member, first, second, nonempty, rest, same, before, behind⟩ := split
  exact ⟨word, member, first, second, nonempty, rest, same, before.trans ends, behind⟩

theorem free_nil (nonempty : [] ∉ words) : Free words [] := by
  intro word member occurs
  rw [List.infix_nil.mp occurs] at member
  exact nonempty member

theorem Free.of_infix {text part : List α} (free : Free words text) (inside : part <:+: text) :
    Free words part := fun word member occurs => free word member (occurs.trans inside)

theorem Free.of_subset {text : List α} (free : Free words text)
    (subset : fewer ⊆ words) : Free fewer text := fun word member => free word (subset member)

theorem Free.concat {text : List α} (free : Free words text) {item : α}
    (completed : ∀ word ∈ words, ¬ word <:+ text ++ [item]) : Free words (text ++ [item]) := by
  intro word member occurs
  rcases List.infix_concat_iff.mp occurs with ends | earlier
  · exact completed word member ends
  · exact free word member earlier

theorem not_suffix_concat {word text : List α} {last item : α} (ends : word.getLast? = some last)
    (different : item ≠ last) : ¬ word <:+ text ++ [item] := by
  rintro ⟨before, same⟩
  have found := congrArg List.getLast? same
  rw [List.getLast?_append, ends, List.getLast?_concat] at found
  exact different (Option.some.inj found).symm

theorem free_append {left right : List α} :
    Free words (left ++ right) ↔ Free words left ∧ Free words right ∧ ¬ Split words left right := by
  constructor
  · intro free
    refine ⟨free.of_infix List.infix_append_left, free.of_infix List.infix_append_right, ?_⟩
    rintro ⟨_, member, first, second, -, -, rfl, ends, begins⟩
    obtain ⟨before, rfl⟩ := ends
    obtain ⟨after, rfl⟩ := begins
    exact free _ member ⟨before, after, by simp⟩
  · rintro ⟨freeLeft, freeRight, whole⟩ word member occurs
    rcases List.infix_append_iff_ne_nil.mp occurs with inLeft | inRight | split
    · exact freeLeft word member inLeft
    · exact freeRight word member inRight
    · exact whole ⟨word, member, split⟩

/-- No word runs across a boundary of some chunks. -/
def Whole (words : List (List α)) (chunks : List (List α)) : Prop :=
  ∀ before after, chunks = before ++ after → ¬ Split words before.flatten after.flatten

theorem split_of_prefix {left part right : List α} (begins : part <+: right)
    (split : Split words left part) : Split words left right := by
  obtain ⟨word, member, first, second, nonempty, rest, same, before, behind⟩ := split
  exact ⟨word, member, first, second, nonempty, rest, same, before, behind.trans begins⟩

variable {chunks : List (List α)}

theorem Whole.head {chunk : List α}
    (whole : Whole words (chunk :: chunks)) : ¬ Split words chunk chunks.flatten := by
  have first := whole [chunk] chunks rfl
  rwa [List.flatten_singleton] at first

theorem Whole.tail {chunk : List α}
    (whole : Whole words (chunk :: chunks)) : Whole words chunks := by
  intro before after same split
  refine whole (chunk :: before) after (by rw [same]; rfl) ?_
  exact split_of_suffix (List.suffix_append chunk before.flatten) split

theorem Whole.left {first second : List (List α)} (whole : Whole words (first ++ second)) :
    Whole words first := by
  intro before after same split
  refine whole before (after ++ second) (by rw [same, List.append_assoc]) ?_
  rw [List.flatten_append]
  exact split_of_prefix (List.prefix_append after.flatten second.flatten) split

end JtermCore.Words
