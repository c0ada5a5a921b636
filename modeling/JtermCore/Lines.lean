import Mathlib.Algebra.Order.Ring.Int
import Mathlib.Data.List.Basic

/-!
# Lines

A text is a sequence of terminated lines with an unterminated rest.  The lines
from a position on are found without a look at what stands before it: a line
that starts earlier is dropped with its terminator.
-/

namespace JtermCore.Lines

section

variable {α : Type}

def placed : Nat → List (List α) → List (Nat × List α)
  | _, [] => []
  | start, line :: lines => (start, line) :: placed (start + line.length + 1) lines

theorem placed_shift (lines : List (List α)) (start offset : Nat) :
    placed (start + offset) lines =
      (placed start lines).map fun entry => (entry.1 + offset, entry.2) := by
  induction lines generalizing start with
  | nil => rfl
  | cons line lines ih =>
    have next : start + offset + line.length + 1 = start + line.length + 1 + offset := by omega
    rw [placed, placed, next, ih, List.map_cons]

@[simp]
theorem map_placed (start : Nat) (lines : List (List α)) :
    (placed start lines).map Prod.snd = lines := by
  induction lines generalizing start with
  | nil => rfl
  | cons line lines ih => rw [placed, List.map_cons, ih]

end

variable {α : Type} [DecidableEq α] (separator : α)

def terminated (text : List α) : List (List α) := (text.splitOn separator).dropLast

def since (position : Nat) (text : List α) : List (List α) :=
  ((placed 0 (terminated separator text)).filter fun entry => position ≤ entry.1).map Prod.snd

def rposition (text : List α) : Option Nat :=
  (text.reverse.findIdx? fun item => item = separator).map fun place => text.length - 1 - place

variable {separator}

variable {text : List α}

theorem terminated_of_not_mem (absent : separator ∉ text) : terminated separator text = [] := by
  rw [terminated, List.splitOn_eq_singleton absent]
  rfl

variable {line : List α}

theorem terminated_cons (absent : separator ∉ line) (rest : List α) :
    terminated separator (line ++ separator :: rest) = line :: terminated separator rest := by
  rw [terminated, List.splitOn_append_cons_self_of_not_mem absent,
    List.dropLast_cons_of_ne_nil (List.splitOn_ne_nil _ _)]
  rfl

variable (separator) in
theorem text_cases (text : List α) :
    separator ∉ text ∨ ∃ line rest, separator ∉ line ∧ text = line ++ separator :: rest := by
  induction text with
  | nil => exact .inl (List.not_mem_nil)
  | cons item text ih =>
    by_cases here : item = separator
    · exact .inr ⟨[], text, List.not_mem_nil, by rw [here]; rfl⟩
    · rcases ih with absent | ⟨line, rest, absent, rfl⟩
      · left
        rw [List.mem_cons, not_or]
        exact ⟨Ne.symm here, absent⟩
      · right
        refine ⟨item :: line, rest, ?_, rfl⟩
        rw [List.mem_cons, not_or]
        exact ⟨Ne.symm here, absent⟩

variable (separator) in
@[elab_as_elim]
theorem text_induction {motive : List α → Prop}
    (unterminated : ∀ text, separator ∉ text → motive text)
    (line : ∀ line rest, separator ∉ line → motive rest → motive (line ++ separator :: rest))
    (text : List α) : motive text := by
  rcases text_cases separator text with absent | ⟨first, rest, absent, same⟩
  · exact unterminated text absent
  · rw [same]
    exact line first rest absent (text_induction unterminated line rest)
termination_by text.length
decreasing_by
  rw [same, List.length_append, List.length_cons]
  omega

theorem since_zero (text : List α) : since separator 0 text = terminated separator text := by
  simp [since]

theorem since_of_not_mem (absent : separator ∉ text) (position : Nat) :
    since separator position text = [] := by
  rw [since, terminated_of_not_mem absent]
  rfl

theorem since_cons (absent : separator ∉ line) (rest : List α) {position : Nat}
    (behind : 0 < position) :
    since separator position (line ++ separator :: rest) =
      since separator (position - (line.length + 1)) rest := by
  have shifted := placed_shift (terminated separator rest) 0 (line.length + 1)
  rw [Nat.zero_add] at shifted
  have next : 0 + line.length + 1 = line.length + 1 := by omega
  rw [since, since, terminated_cons absent, placed, next, shifted,
    List.filter_cons_of_neg (by simpa using Nat.pos_iff_ne_zero.mp behind), List.filter_map, List.map_map]
  have same : ((fun entry : Nat × List α => decide (position ≤ entry.1)) ∘
      fun entry : Nat × List α => (entry.1 + (line.length + 1), entry.2)) =
      fun entry : Nat × List α => decide (position - (line.length + 1) ≤ entry.1) := by
    funext entry
    simp only [Function.comp_apply, decide_eq_decide]
    omega
  rw [same]
  rfl

theorem findIdx?_append_cons (absent : separator ∉ line) (rest : List α) :
    (line ++ separator :: rest).findIdx? (fun item => item = separator) = some line.length := by
  rw [List.findIdx?_append, List.findIdx?_eq_none_iff.mpr]
  · simp [List.findIdx?_cons]
  · intro item member
    simp only [decide_eq_false_iff_not]
    exact fun same => absent (same ▸ member)

theorem findIdx?_of_not_mem (absent : separator ∉ text) :
    text.findIdx? (fun item => item = separator) = none := by
  rw [List.findIdx?_eq_none_iff]
  intro item member
  simp only [decide_eq_false_iff_not]
  exact fun same => absent (same ▸ member)

/-- What a reader of a tail takes for the complete lines: all of them if the
tail starts a line, and else those behind its first terminator. -/
def ofTail (separator : α) (starts : Bool) (tail : List α) : List (List α) :=
  if starts then terminated separator tail
  else
    match tail.findIdx? fun item => item = separator with
    | none => []
    | some place => terminated separator (tail.drop (place + 1))

theorem ofTail_false_cons (absent : separator ∉ line) (rest : List α) :
    ofTail separator false (line ++ separator :: rest) = terminated separator rest := by
  rw [ofTail, findIdx?_append_cons absent]
  simp

theorem ofTail_false_of_not_mem {tail : List α} (absent : separator ∉ tail) :
    ofTail separator false tail = [] := by
  rw [ofTail, findIdx?_of_not_mem absent]
  rfl

theorem since_eq_ofTail (text : List α) (position : Nat) :
    since separator position text =
      ofTail separator (decide (position = 0) || decide (text[position - 1]? = some separator))
        (text.drop position) := by
  rcases Nat.eq_zero_or_pos position with rfl | behind
  · rw [since_zero]
    simp [ofTail]
  induction text using text_induction separator generalizing position with
  | unterminated text absent =>
    have other : text[position - 1]? ≠ some separator :=
      fun found => absent (List.mem_of_getElem? found)
    have tail : separator ∉ text.drop position := fun member => absent (List.mem_of_mem_drop member)
    rw [since_of_not_mem absent, decide_eq_false other, decide_eq_false (by omega : position ≠ 0),
      Bool.or_false, ofTail_false_of_not_mem tail]
  | line line rest absent ih =>
    rw [since_cons absent rest behind]
    rcases Nat.lt_trichotomy position (line.length + 1) with inside | exact | past
    · have other : (line ++ separator :: rest)[position - 1]? ≠ some separator := by
        rw [List.getElem?_append_left (by omega)]
        exact fun found => absent (List.mem_of_getElem? found)
      have tail : separator ∉ line.drop position :=
        fun member => absent (List.mem_of_mem_drop member)
      have none_ : position - (line.length + 1) = 0 := by omega
      rw [none_, since_zero, decide_eq_false other, decide_eq_false (by omega : position ≠ 0),
        Bool.or_false, List.drop_append_of_le_length (by omega), ofTail_false_cons tail]
    · subst exact
      have here : (line ++ separator :: rest)[line.length + 1 - 1]? = some separator := by simp
      have dropped : (line ++ separator :: rest).drop (line.length + 1) = rest := by simp
      rw [Nat.sub_self, since_zero, here, dropped]
      simp [ofTail]
    · have later : 0 < position - (line.length + 1) := by omega
      have split : position = line.length + 1 + (position - (line.length + 1)) := by omega
      have same : (line ++ separator :: rest)[position - 1]? =
          rest[position - (line.length + 1) - 1]? := by
        rw [List.getElem?_append_right (by omega), List.getElem?_cons]
        rw [if_neg (by omega)]
        congr 1
        omega
      have dropped : (line ++ separator :: rest).drop position =
          rest.drop (position - (line.length + 1)) := by
        rw [split, ← List.drop_drop]
        simp
      rw [ih _ later, same, dropped, decide_eq_false (by omega : position ≠ 0),
        decide_eq_false (by omega : position - (line.length + 1) ≠ 0)]

theorem rposition_of_not_mem (absent : separator ∉ text) : rposition separator text = none := by
  rw [rposition, findIdx?_of_not_mem (by rwa [List.mem_reverse])]
  rfl

theorem rposition_append_cons (front : List α) {rest : List α} (absent : separator ∉ rest) :
    rposition separator (front ++ separator :: rest) = some front.length := by
  have reversed : (front ++ separator :: rest).reverse =
      rest.reverse ++ separator :: front.reverse := by simp
  rw [rposition, reversed, findIdx?_append_cons (by rwa [List.mem_reverse])]
  simp only [Option.map_some, List.length_append, List.length_cons, List.length_reverse,
    Option.some.injEq]
  omega

variable (separator) in
theorem rest_cases (text : List α) :
    separator ∉ text ∨ ∃ front rest, separator ∉ rest ∧ text = front ++ separator :: rest := by
  rcases text_cases separator text.reverse with absent | ⟨line, rest, absent, same⟩
  · exact .inl (by rwa [List.mem_reverse] at absent)
  · right
    refine ⟨rest.reverse, line.reverse, by rwa [List.mem_reverse], ?_⟩
    rw [← List.reverse_reverse text, same]
    simp

theorem terminated_append_cons (front : List α) {rest : List α} (absent : separator ∉ rest) :
    terminated separator (front ++ separator :: rest) = front.splitOn separator := by
  rw [terminated, List.splitOn_append_cons_self, List.splitOn_eq_singleton absent]
  simp

theorem splitOn_drop_take {first last : Nat}
    (found : rposition separator text = some last) (before : first < last) :
    ((text.take last).drop first).splitOn separator = terminated separator (text.drop first) := by
  rcases rest_cases separator text with absent | ⟨front, rest, absent, rfl⟩
  · rw [rposition_of_not_mem absent] at found
    cases found
  · rw [rposition_append_cons front absent] at found
    cases found
    rw [List.take_left, List.drop_append_of_le_length (Nat.le_of_lt before),
      terminated_append_cons _ absent]

theorem eq_nil_of_mem_terminated_drop {first last : Nat}
    (found : rposition separator text = some last) (behind : last ≤ first) :
    ∀ line ∈ terminated separator (text.drop first), line = [] := by
  intro line member
  rcases rest_cases separator text with absent | ⟨front, rest, absent, rfl⟩
  · rw [rposition_of_not_mem absent] at found
    cases found
  · rw [rposition_append_cons front absent] at found
    cases found
    rw [List.drop_append, List.drop_eq_nil_of_le behind, List.nil_append] at member
    cases offset : first - front.length with
    | zero =>
      rw [offset, List.drop_zero] at member
      have lines := @terminated_append_cons α _ separator [] rest absent
      rw [List.nil_append] at lines
      rw [lines, List.splitOn_nil, List.mem_singleton] at member
      exact member
    | succ further =>
      rw [offset, List.drop_succ_cons] at member
      rw [terminated_of_not_mem fun inside => absent (List.mem_of_mem_drop inside)] at member
      cases member

variable (separator) in
def Ended (text : List α) : Prop := text = [] ∨ text.getLast? = some separator

omit [DecidableEq α] in
theorem ended_append (front line : List α) : Ended separator (front ++ (line ++ [separator])) := by
  right
  rw [← List.append_assoc, List.getLast?_append, List.getLast?_singleton]
  rfl

end JtermCore.Lines
