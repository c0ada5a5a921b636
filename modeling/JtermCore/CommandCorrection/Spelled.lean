import JtermCore.CommandCorrection.Words

/-!
# Spelled arguments

An argument is spelled in pieces: ordinary characters, characters behind a
backslash, and texts in single or in double quotes.  A line of such arguments
with blanks between them is read back as the arguments.
-/

namespace JtermCore.CommandCorrection

open Bytes Quoting Utf8

/-- A character in double quotes: as it is, behind a backslash, or behind a
backslash that stands for itself. -/
inductive DoubleUnit where
  | raw (char : Char) (plain : char ≠ '"' ∧ char ≠ '\\')
  | escaped (char : Char) (special : isEscapable char = true)
  | backslash (char : Char) (literal : isEscapable char = false)

def DoubleUnit.text : DoubleUnit → List Char
  | .raw char _ => [char]
  | .escaped char _ => ['\\', char]
  | .backslash char _ => ['\\', char]

/-- What a character in double quotes stands for. -/
def DoubleUnit.value : DoubleUnit → List Char
  | .raw char _ => [char]
  | .escaped char _ => [char]
  | .backslash char _ => ['\\', char]

inductive Piece where
  | plain (char : Char) (ordinary : isOrdinary char = true) (inside : isSeparator char = false)
  | escaped (char : Char)
  | single (content : List Char) (closed : '\'' ∉ content)
  | double (units : List DoubleUnit)

def Piece.text : Piece → List Char
  | .plain char _ _ => [char]
  | .escaped char => ['\\', char]
  | .single content _ => '\'' :: (content ++ ['\''])
  | .double units => '"' :: (units.flatMap DoubleUnit.text ++ ['"'])

def Piece.value : Piece → List Char
  | .plain char _ _ => [char]
  | .escaped char => [char]
  | .single content _ => content
  | .double units => units.flatMap DoubleUnit.value

structure Spelling where
  pieces : List Piece
  filled : pieces ≠ []

def Spelling.text (spelling : Spelling) : List Char := spelling.pieces.flatMap Piece.text

def Spelling.value (spelling : Spelling) : List Char := spelling.pieces.flatMap Piece.value

variable {mode : Mode}

theorem inner_append {first second : List Char} (left : Inner mode first)
    (right : Inner (mode.run first) second) : Inner mode (first ++ second) := by
  induction second using List.reverseRecOn with
  | nil => rwa [List.append_nil]
  | append_singleton second char ih =>
    obtain ⟨before, last⟩ := inner_concat.mp right
    rw [← List.append_assoc, inner_concat, Quoting.run_append]
    exact ⟨ih before, last⟩

theorem inner_cons {char : Char} {text : List Char}
    (first : ¬(mode = outside ∧ isSeparator char = true)) (rest : Inner (mode.next char) text) :
    Inner mode (char :: text) := by
  have single : Inner mode ([] ++ [char]) := inner_concat.mpr ⟨Inner.nil mode, first⟩
  exact inner_append single rest

theorem inner_of_mode {text : List Char}
    (elsewhere : ∀ front char back, text = front ++ char :: back → mode.run front ≠ outside) :
    Inner mode text := by
  intro front char back whole both
  exact elsewhere front char back whole both.1

variable {content : List Char}

theorem run_single (closed : '\'' ∉ content) :
    (Mode.mk .single false).run content = ⟨.single, false⟩ ∧
      (Mode.mk .single false).emits content = content := by
  induction content with
  | nil => exact ⟨rfl, rfl⟩
  | cons char content ih =>
    have plain : char ≠ '\'' := fun same => closed (same ▸ List.mem_cons_self)
    obtain ⟨run, emits⟩ := ih fun member => closed (List.mem_cons_of_mem char member)
    have next : (Mode.mk .single false).next char = ⟨.single, false⟩ := by simp [Mode.next, plain]
    have emit : (Mode.mk .single false).emit char = [char] := by simp [Mode.emit, plain]
    rw [Quoting.run_cons, Mode.emits, next, run, emits, emit]
    exact ⟨rfl, rfl⟩

theorem inner_single (closed : '\'' ∉ content) : Inner ⟨.single, false⟩ (content ++ ['\'']) := by
  apply inner_of_mode
  intro front char back whole bare
  have within : '\'' ∉ front := by
    rcases List.eq_nil_or_concat' back with rfl | ⟨init, last, rfl⟩
    · obtain ⟨rfl, -⟩ := List.append_inj' whole rfl
      exact closed
    · have regrouped : content ++ ['\''] = (front ++ char :: init) ++ [last] := by
        rw [whole, List.append_assoc]
        rfl
      obtain ⟨rfl, -⟩ := List.append_inj' regrouped rfl
      exact fun member => closed (List.mem_append_left _ member)
  rw [(run_single within).1] at bare
  cases bare

theorem DoubleUnit.read (unit : DoubleUnit) :
    (Mode.mk .double false).run unit.text = ⟨.double, false⟩ ∧
      (Mode.mk .double false).emits unit.text = unit.value ∧ Inner ⟨.double, false⟩ unit.text := by
  cases unit with
  | raw char plain =>
    have next : (Mode.mk .double false).next char = ⟨.double, false⟩ := by
      simp [Mode.next, plain.1, plain.2]
    have emit : (Mode.mk .double false).emit char = [char] := by simp [Mode.emit, plain.1, plain.2]
    refine ⟨next, ?_, ?_⟩
    · change (Mode.mk .double false).emit char ++ [] = [char]
      rw [emit, List.append_nil]
    · exact inner_cons (fun both => absurd both.1 (by decide)) (Inner.nil _)
  | escaped char special =>
    refine ⟨rfl, ?_, ?_⟩
    · change (Mode.mk .double true).emit char ++ [] = [char]
      simp [Mode.emit, special]
    · exact inner_cons (fun both => absurd both.1 (by decide))
        (inner_cons (fun both => absurd both.1 (by decide)) (Inner.nil _))
  | backslash char literal =>
    refine ⟨rfl, ?_, ?_⟩
    · change (Mode.mk .double true).emit char ++ [] = ['\\', char]
      simp [Mode.emit, literal]
    · exact inner_cons (fun both => absurd both.1 (by decide))
        (inner_cons (fun both => absurd both.1 (by decide)) (Inner.nil _))

theorem read_units (units : List DoubleUnit) :
    (Mode.mk .double false).run (units.flatMap DoubleUnit.text) = ⟨.double, false⟩ ∧
      (Mode.mk .double false).emits (units.flatMap DoubleUnit.text) =
        units.flatMap DoubleUnit.value ∧
      Inner ⟨.double, false⟩ (units.flatMap DoubleUnit.text) := by
  induction units with
  | nil => exact ⟨rfl, rfl, Inner.nil _⟩
  | cons unit units ih =>
    obtain ⟨run, emits, inner⟩ := ih
    obtain ⟨first, value, within⟩ := unit.read
    rw [List.flatMap_cons, List.flatMap_cons, Quoting.run_append, emits_append, first, value]
    exact ⟨run, by rw [emits], inner_append within (by rwa [first])⟩

theorem Piece.read (piece : Piece) :
    outside.run piece.text = outside ∧ outside.emits piece.text = piece.value ∧
      Inner outside piece.text ∧ piece.text ≠ [] := by
  cases piece with
  | plain char ordinary inside =>
    refine ⟨next_outside ordinary, ?_, ?_, List.cons_ne_nil _ _⟩
    · change outside.emit char ++ [] = [char]
      rw [emit_outside ordinary, List.append_nil]
    · refine inner_concat.mpr ⟨Inner.nil _, fun both => ?_⟩
      rw [inside] at both
      exact Bool.false_ne_true both.2
  | escaped char =>
    refine ⟨rfl, rfl, ?_, List.cons_ne_nil _ _⟩
    exact inner_cons (fun both => absurd both.2 (by decide))
      (inner_cons (fun both => absurd both.1 (by decide)) (Inner.nil _))
  | single content closed =>
    obtain ⟨run, emits⟩ := run_single closed
    have start : outside.next '\'' = ⟨.single, false⟩ := rfl
    refine ⟨?_, ?_, ?_, List.cons_ne_nil _ _⟩
    · rw [Piece.text, Quoting.run_cons, start, Quoting.run_append, run]
      rfl
    · change [] ++ (Mode.mk .single false).emits (content ++ ['\'']) = content
      rw [List.nil_append, emits_append, emits, run]
      exact List.append_nil content
    · exact inner_cons (fun both => absurd both.2 (by decide)) (inner_single closed)
  | double units =>
    obtain ⟨run, emits, inner⟩ := read_units units
    have start : outside.next '"' = ⟨.double, false⟩ := rfl
    refine ⟨?_, ?_, ?_, List.cons_ne_nil _ _⟩
    · rw [Piece.text, Quoting.run_cons, start, Quoting.run_append, run]
      rfl
    · change [] ++ (Mode.mk .double false).emits (units.flatMap DoubleUnit.text ++ ['"']) = _
      rw [List.nil_append, emits_append, emits, run]
      exact List.append_nil _
    · refine inner_cons (fun both => absurd both.2 (by decide)) (inner_append inner ?_)
      rw [start, run]
      exact inner_cons (fun both => absurd both.1 (by decide)) (Inner.nil _)

theorem Spelling.read (spelling : Spelling) :
    outside.run spelling.text = outside ∧ decode spelling.text = spelling.value ∧
      Inner outside spelling.text ∧ spelling.text ≠ [] := by
  have rows : ∀ pieces : List Piece, outside.run (pieces.flatMap Piece.text) = outside ∧
      outside.emits (pieces.flatMap Piece.text) = pieces.flatMap Piece.value ∧
      Inner outside (pieces.flatMap Piece.text) := by
    intro pieces
    induction pieces with
    | nil => exact ⟨rfl, rfl, Inner.nil _⟩
    | cons piece pieces ih =>
      obtain ⟨run, emits, inner⟩ := ih
      obtain ⟨first, value, within, -⟩ := piece.read
      rw [List.flatMap_cons, List.flatMap_cons, Quoting.run_append, emits_append, first, value]
      exact ⟨run, by rw [emits], inner_append within (by rwa [first])⟩
  obtain ⟨run, emits, inner⟩ := rows spelling.pieces
  refine ⟨run, ?_, inner, ?_⟩
  · have closed : outside.run spelling.text = outside := run
    rw [decode_of_outside closed]
    exact emits
  · obtain ⟨piece, pieces, whole⟩ := List.exists_cons_of_ne_nil spelling.filled
    rw [Spelling.text, whole, List.flatMap_cons]
    exact List.append_ne_nil_of_left_ne_nil piece.read.2.2.2 _

/-- A space or a tab. -/
def isBlank (char : Char) : Bool := char = ' ' || char = '\t'

structure SpelledLine where
  lead : List Char
  arguments : List (Spelling × List Char)
  lead_blank : ∀ char ∈ lead, isBlank char = true
  blank : ∀ argument ∈ arguments, ∀ char ∈ argument.2, isBlank char = true
  apart : ∀ argument ∈ arguments.dropLast, argument.2 ≠ []

def SpelledLine.text (line : SpelledLine) : List Char :=
  line.lead ++ line.arguments.flatMap fun argument => argument.1.text ++ argument.2

def SpelledLine.values (line : SpelledLine) : List (List Char) :=
  line.arguments.map fun argument => argument.1.value

/-- The machine between two words. -/
structure Lex.Between (lex : Lex) : Prop where
  current : lex.current = none
  mode : lex.mode = outside
  operand : lex.operand = false

theorem isSeparator_of_isBlank {char : Char} (blank : isBlank char = true) :
    isSeparator char = true ∧ ¬(char = '<' ∨ char = '>') := by
  simp only [isBlank, Bool.or_eq_true, decide_eq_true_eq] at blank
  rcases blank with rfl | rfl <;> decide

variable {lex : Lex}

theorem Lex.Between.gap (between : lex.Between) {gap : List Char}
    (separators : ∀ char ∈ gap, isSeparator char = true ∧ ¬(char = '<' ∨ char = '>')) :
    (lex.run gap).Between ∧ (lex.run gap).words = lex.words := by
  induction gap generalizing lex with
  | nil => exact ⟨between, rfl⟩
  | cons char gap ih =>
    obtain ⟨separator, other⟩ := separators char List.mem_cons_self
    have closed : lex.step char = lex.close char := if_pos ⟨between.mode, separator⟩
    have words : (lex.close char).words = lex.words := by rw [Lex.close, Lex.flush, between.current]
    have next : (lex.close char).Between := by
      refine ⟨rfl, rfl, ?_⟩
      rw [Lex.close, if_neg other, between.current, between.operand]
      rfl
    obtain ⟨kept, same⟩ := ih next fun further member =>
      separators further (List.mem_cons_of_mem char member)
    rw [Lex.run_cons, closed]
    exact ⟨kept, same.trans words⟩

theorem Lex.Between.blanks (between : lex.Between) {gap : List Char}
    (blank : ∀ char ∈ gap, isBlank char = true) :
    (lex.run gap).Between ∧ (lex.run gap).words = lex.words :=
  between.gap fun char member => isSeparator_of_isBlank (blank char member)

theorem Lex.Between.word (between : lex.Between) {text gap : List Char}
    (filled : text ≠ []) (closed : outside.run text = outside) (inner : Inner outside text)
    (blank : ∀ char ∈ gap, isBlank char = true) :
    (lex.run (text ++ gap)).flush = lex.words ++ [(lex.done, text)] ∧
      (gap ≠ [] → (lex.run (text ++ gap)).Between ∧
        (lex.run (text ++ gap)).words = lex.words ++ [(lex.done, text)]) := by
  have read := Lex.run_word between.current filled (by rwa [between.mode])
  rw [between.mode, closed, between.operand] at read
  rw [Lex.run_append, read]
  cases gap with
  | nil => exact ⟨rfl, fun none_ => absurd rfl none_⟩
  | cons char gap =>
    obtain ⟨separator, other⟩ := isSeparator_of_isBlank (blank char List.mem_cons_self)
    rw [Lex.run_cons, Lex.step, if_pos ⟨rfl, separator⟩]
    have next : (Lex.close ⟨lex.done ++ text, lex.words, some (lex.done, text), outside, false⟩
        char).Between := by
      refine ⟨rfl, rfl, ?_⟩
      rw [Lex.close, if_neg other]
      rfl
    obtain ⟨kept, same⟩ := next.blanks fun other_ member =>
      blank other_ (List.mem_cons_of_mem char member)
    refine ⟨?_, fun _ => ⟨kept, same⟩⟩
    rw [Lex.flush, kept.current]
    exact same

theorem lex_arguments (arguments : List (Spelling × List Char)) (between : lex.Between)
    (blank : ∀ argument ∈ arguments, ∀ char ∈ argument.2, isBlank char = true)
    (apart : ∀ argument ∈ arguments.dropLast, argument.2 ≠ []) :
    ((lex.run (arguments.flatMap fun argument => argument.1.text ++ argument.2)).flush).map
        Prod.snd = lex.words.map Prod.snd ++ arguments.map fun argument => argument.1.text := by
  induction arguments generalizing lex with
  | nil =>
    change lex.flush.map Prod.snd = _
    rw [Lex.flush, between.current]
    exact (List.append_nil _).symm
  | cons argument arguments ih =>
    obtain ⟨closed, -, inner, filled⟩ := argument.1.read
    obtain ⟨last, more⟩ := between.word filled closed inner (blank argument List.mem_cons_self)
    cases arguments with
    | nil =>
      rw [List.flatMap_cons, List.flatMap_nil, List.append_nil, last, List.map_append]
      rfl
    | cons next arguments =>
      obtain ⟨kept, words⟩ := more (apart argument List.mem_cons_self)
      rw [List.flatMap_cons, Lex.run_append,
        ih kept (fun other member => blank other (List.mem_cons_of_mem argument member))
          (fun other member => apart other (List.mem_cons_of_mem argument member)), words,
        List.map_append, List.append_assoc]
      rfl

theorem shellWords_spelled (line : SpelledLine) : shellWords line.text = some line.values := by
  have init : ({} : Lex).Between := ⟨rfl, rfl, rfl⟩
  obtain ⟨between, words⟩ := init.blanks line.lead_blank
  have texts := lex_arguments line.arguments between line.blank line.apart
  rw [words, ← Lex.run_append] at texts
  have same : (lexWords line.text).map Prod.snd =
      line.arguments.map fun argument => argument.1.text := texts
  rw [shellWords_eq, SpelledLine.values, Option.some.injEq]
  have decoded : (lexWords line.text).map (fun word => decode word.2) =
      ((lexWords line.text).map Prod.snd).map decode := by
    rw [List.map_map]
    rfl
  rw [decoded, same, List.map_map]
  exact List.map_congr_left fun argument _ => argument.1.read.2.1

end JtermCore.CommandCorrection
