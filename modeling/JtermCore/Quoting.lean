import Mathlib.Algebra.Order.Ring.Int
import Mathlib.Data.List.Basic

/-!
# Quoting

A text is read character by character, outside quotes, in single or in double
quotes, and possibly right behind a backslash.  What a character stands for
depends on this mode alone.
-/

namespace JtermCore.Quoting

/-- Where a character stands. -/
inductive Quote where
  | bare
  | single
  | double
deriving DecidableEq

/-- Where a character stands, and whether a backslash stands before it. -/
structure Mode where
  quote : Quote := .bare
  escaped : Bool := false
deriving DecidableEq

def outside : Mode := {}

def Mode.next (mode : Mode) (char : Char) : Mode :=
  if mode.escaped then ⟨mode.quote, false⟩
  else
    match mode.quote with
    | .bare =>
      if char = '\\' then ⟨.bare, true⟩
      else if char = '\'' then ⟨.single, false⟩
      else if char = '"' then ⟨.double, false⟩
      else ⟨.bare, false⟩
    | .single => if char = '\'' then ⟨.bare, false⟩ else ⟨.single, false⟩
    | .double =>
      if char = '"' then ⟨.bare, false⟩
      else if char = '\\' then ⟨.double, true⟩
      else ⟨.double, false⟩

def Mode.run (mode : Mode) (text : List Char) : Mode := text.foldl Mode.next mode

/-- The characters that a backslash escapes in double quotes. -/
def isEscapable (char : Char) : Bool := char = '$' || char = '`' || char = '"' || char = '\\'

/-- What a character stands for. -/
def Mode.emit (mode : Mode) (char : Char) : List Char :=
  if mode.escaped then
    if mode.quote = .double ∧ isEscapable char = false then ['\\', char] else [char]
  else
    match mode.quote with
    | .bare => if char = '\\' ∨ char = '\'' ∨ char = '"' then [] else [char]
    | .single => if char = '\'' then [] else [char]
    | .double => if char = '"' ∨ char = '\\' then [] else [char]

/-- What a text stands for, but for a backslash at its end. -/
def Mode.emits : Mode → List Char → List Char
  | _, [] => []
  | mode, char :: rest => mode.emit char ++ (mode.next char).emits rest

/-- A backslash at the end of a text stands for itself. -/
def Mode.pending (mode : Mode) : List Char :=
  if mode.escaped then ['\\'] else []

def decode (text : List Char) : List Char := outside.emits text ++ (outside.run text).pending

/-- A character that does not change the mode outside quotes. -/
def isOrdinary (char : Char) : Bool := !(char = '\\' || char = '\'' || char = '"')

section

variable (mode : Mode)

include mode

@[simp]
theorem run_nil : mode.run [] = mode :=
  rfl

@[simp]
theorem run_cons (char : Char) (text : List Char) :
    mode.run (char :: text) = (mode.next char).run text :=
  rfl

theorem run_append (first second : List Char) :
    mode.run (first ++ second) = (mode.run first).run second := List.foldl_append

theorem run_concat (text : List Char) (char : Char) :
    mode.run (text ++ [char]) = (mode.run text).next char := run_append mode text [char]

theorem emits_append (first second : List Char) :
    mode.emits (first ++ second) = mode.emits first ++ (mode.run first).emits second := by
  induction first generalizing mode with
  | nil => rfl
  | cons char first ih =>
    rw [List.cons_append, Mode.emits, Mode.emits, ih, List.append_assoc, run_cons]

end

theorem next_outside {char : Char} (ordinary : isOrdinary char = true) :
    outside.next char = outside := by
  simp only [isOrdinary, Bool.not_eq_true', Bool.or_eq_false_iff, decide_eq_false_iff_not] at ordinary
  unfold Mode.next outside
  simp only [Bool.false_eq_true, if_false, if_neg ordinary.1.1, if_neg ordinary.1.2,
    if_neg ordinary.2]

theorem emit_outside {char : Char} (ordinary : isOrdinary char = true) :
    outside.emit char = [char] := by
  simp only [isOrdinary, Bool.not_eq_true', Bool.or_eq_false_iff, decide_eq_false_iff_not] at ordinary
  unfold Mode.emit outside
  have plain : ¬(char = '\\' ∨ char = '\'' ∨ char = '"') := by
    simp only [not_or]
    exact ⟨ordinary.1.1, ordinary.1.2, ordinary.2⟩
  simp only [Bool.false_eq_true, if_false, if_neg plain]

variable {text : List Char}

theorem run_outside (ordinary : ∀ char ∈ text, isOrdinary char = true) :
    outside.run text = outside := by
  induction text with
  | nil => rfl
  | cons char text ih =>
    rw [run_cons, next_outside (ordinary char List.mem_cons_self),
      ih fun other member => ordinary other (List.mem_cons_of_mem char member)]

theorem emits_outside (ordinary : ∀ char ∈ text, isOrdinary char = true) :
    outside.emits text = text := by
  induction text with
  | nil => rfl
  | cons char text ih =>
    have first := ordinary char List.mem_cons_self
    rw [Mode.emits, emit_outside first, next_outside first,
      ih fun other member => ordinary other (List.mem_cons_of_mem char member)]
    rfl

theorem decode_of_outside (closed : outside.run text = outside) :
    decode text = outside.emits text := by
  rw [decode, closed]
  exact List.append_nil _

end JtermCore.Quoting
