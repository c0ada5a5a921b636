import JtermCore.CommandCorrection.Spelled

/-!
# Padding of a command

`trim_command_padding` removes whitespace at both ends, as far as it is neither
quoted nor escaped.  It takes all of the whitespace of Unicode for padding, the
words only that of ASCII; a removed character that the words do not take for a
blank belongs to a word, unless that is the operand of a redirection.
-/

namespace JtermCore.CommandCorrection

open Bytes Quoting Utf8

/-- Whitespace that is neither quoted nor escaped. -/
def isPadding (mode : Mode) (char : Char) : Bool := mode = outside && isWhitespace char

/-- A text without the padding at its end. -/
def keep (mode : Mode) : List Char → List Char
  | [] => []
  | char :: rest =>
    if keep (mode.next char) rest = [] ∧ isPadding mode char = true then []
    else char :: keep (mode.next char) rest

def trimmed (command : List Char) : List Char := keep outside (command.dropWhile isWhitespace)

theorem isOrdinary_of_isWhitespace {char : Char} (space : isWhitespace char = true) :
    isOrdinary char = true := by
  unfold isOrdinary
  rw [Bool.not_eq_true', Bool.or_eq_false_iff, Bool.or_eq_false_iff]
  have apart : ∀ mark : Char, isWhitespace mark = false → decide (char = mark) = false := by
    intro mark shown
    apply decide_eq_false
    rintro rfl
    rw [space] at shown
    cases shown
  exact ⟨⟨apart _ (by decide), apart _ (by decide)⟩, apart _ (by decide)⟩

theorem paddingLoop_eq (kind : Quote) (escaped : Bool) (index stop : Nat) (text : List Char) :
    paddingLoop (quoteChar kind) escaped index stop text =
      if keep ⟨kind, escaped⟩ text = [] then stop
      else index + byteLength (keep ⟨kind, escaped⟩ text) := by
  induction text generalizing kind escaped index stop with
  | nil => rfl
  | cons char text ih =>
    have padding : (escaped || (quoteChar kind).isSome || !isWhitespace char) =
        !isPadding ⟨kind, escaped⟩ char := by
      cases kind <;> cases escaped <;> simp [quoteChar, isPadding, outside]
    have next : paddingLoop (quoteChar kind) escaped index stop (char :: text) =
        paddingLoop (quoteChar ((Mode.mk kind escaped).next char).quote)
          ((Mode.mk kind escaped).next char).escaped (index + char.utf8Size)
          (if isPadding ⟨kind, escaped⟩ char then stop else index + char.utf8Size) text := by
      have stops : (if (!isPadding ⟨kind, escaped⟩ char) = true then index + char.utf8Size
          else stop) =
          if isPadding ⟨kind, escaped⟩ char = true then stop else index + char.utf8Size := by
        cases isPadding ⟨kind, escaped⟩ char <;> rfl
      rw [paddingLoop, padding]
      simp only [stops]
      cases escaped with
      | true => rfl
      | false =>
        unfold Mode.next
        cases kind with
        | bare =>
          by_cases slash : char = '\\'
          · subst slash
            rfl
          · by_cases tick : char = '\''
            · subst tick
              rfl
            · by_cases mark : char = '"'
              · subst mark
                rfl
              · simp [quoteChar, slash, tick, mark]
        | single =>
          by_cases tick : char = '\''
          · subst tick
            rfl
          · simp [quoteChar, tick]
        | double =>
          by_cases mark : char = '"'
          · subst mark
            rfl
          · by_cases slash : char = '\\'
            · subst slash
              rfl
            · simp [quoteChar, slash, mark]
    rw [next, ih]
    have whole : (Mode.mk ((Mode.mk kind escaped).next char).quote
        ((Mode.mk kind escaped).next char).escaped) = (Mode.mk kind escaped).next char := rfl
    rw [whole, keep]
    by_cases dropped : keep ((Mode.mk kind escaped).next char) text = [] ∧
        isPadding ⟨kind, escaped⟩ char = true
    · rw [if_pos dropped, if_pos dropped.1, if_pos dropped.2, if_pos rfl]
    · rw [if_neg dropped, if_neg (List.cons_ne_nil _ _), byteLength_cons, ← Nat.add_assoc]
      split
      · rename_i empty
        rw [if_neg fun padded => dropped ⟨empty, padded⟩, empty]
        rfl
      · rfl

theorem exists_trail (mode : Mode) (text : List Char) :
    ∃ trail, text = keep mode text ++ trail ∧ ∀ front char back, trail = front ++ char :: back →
      isPadding (mode.run (keep mode text ++ front)) char = true := by
  induction text generalizing mode with
  | nil => exact ⟨[], rfl, fun front char back whole => by simp at whole⟩
  | cons char text ih =>
    obtain ⟨trail, whole, padding⟩ := ih (mode.next char)
    rw [keep]
    split
    · rename_i dropped
      refine ⟨char :: text, rfl, fun front other back split => ?_⟩
      cases front with
      | nil =>
        obtain ⟨rfl, -⟩ := List.cons.inj split
        exact dropped.2
      | cons first front =>
        obtain ⟨rfl, rest⟩ := List.cons.inj split
        rw [dropped.1] at whole padding
        rw [List.nil_append] at whole
        exact padding front other back (whole ▸ rest)
    · refine ⟨trail, ?_, fun front other back split => ?_⟩
      · rw [List.cons_append, ← whole]
      · rw [List.cons_append, Quoting.run_cons]
        exact padding front other back split

theorem trimCommandPadding_eq (command : List Char) :
    trimCommandPadding command = some (trimmed command) := by
  obtain ⟨trail, whole, -⟩ := exists_trail outside (command.dropWhile isWhitespace)
  have stop : paddingLoop none false 0 0 (command.dropWhile isWhitespace) =
      byteLength (trimmed command) := by
    have loop := paddingLoop_eq .bare false 0 0 (command.dropWhile isWhitespace)
    rw [Nat.zero_add] at loop
    refine loop.trans ?_
    split
    · rename_i empty
      have same : trimmed command = [] := empty
      rw [same]
      rfl
    · rfl
  unfold trimCommandPadding
  simp only
  rw [stop]
  have sliced := slice_append [] (trimmed command) trail
  rw [List.nil_append, List.nil_append] at sliced
  have same : command.dropWhile isWhitespace = trimmed command ++ trail := whole
  rw [same]
  exact sliced

theorem exists_padding_around (command : List Char) :
    ∃ lead trail, command = lead ++ (trimmed command ++ trail) ∧
      (∀ char ∈ lead, isWhitespace char = true) ∧ ∀ front char back, trail = front ++ char :: back →
        isPadding (outside.run (trimmed command ++ front)) char = true := by
  obtain ⟨trail, whole, padding⟩ := exists_trail outside (command.dropWhile isWhitespace)
  refine ⟨command.takeWhile isWhitespace, trail, ?_, ?_, padding⟩
  · rw [trimmed, ← whole, List.takeWhile_append_dropWhile]
  · intro char member
    exact List.mem_takeWhile_imp member

theorem keep_keep (mode : Mode) (text : List Char) : keep mode (keep mode text) = keep mode text := by
  induction text generalizing mode with
  | nil => rfl
  | cons char text ih =>
    rw [keep]
    split
    · rfl
    · rename_i kept
      rw [keep, ih, if_neg kept]

theorem head?_trimmed (command : List Char) :
    ∀ char, (trimmed command).head? = some char → isWhitespace char = false := by
  intro char same
  unfold trimmed at same
  cases rest : command.dropWhile isWhitespace with
  | nil =>
    rw [rest] at same
    cases same
  | cons first more =>
    rw [rest, keep] at same
    split at same
    · cases same
    · obtain rfl := Option.some.inj same
      exact head?_dropWhile command first (by rw [rest]; rfl)

theorem isPadding_last {mode : Mode} {text init : List Char} {last : Char}
    (whole : keep mode text = init ++ [last]) : isPadding (mode.run init) last = false := by
  induction text generalizing mode init with
  | nil =>
    rw [keep] at whole
    simp at whole
  | cons char text ih =>
    rw [keep] at whole
    split at whole
    · simp at whole
    · rename_i kept
      cases init with
      | nil =>
        obtain ⟨rfl, empty⟩ := List.cons.inj whole
        rw [Bool.eq_false_iff]
        exact fun padding => kept ⟨empty, padding⟩
      | cons first init =>
        obtain ⟨rfl, rest⟩ := List.cons.inj whole
        rw [Quoting.run_cons]
        exact ih rest

theorem trimmed_trimmed (command : List Char) : trimmed (trimmed command) = trimmed command := by
  have front : (trimmed command).dropWhile isWhitespace = trimmed command :=
    dropWhile_eq_self (head?_trimmed command)
  rw [trimmed, front, trimmed, keep_keep]

/-- How many characters the words of a machine stand for, a backslash at the end
aside. -/
def Lex.weight (lex : Lex) : Nat := (lex.flush.map fun word => (outside.emits word.2).length).sum

/-- What a character adds to the words. -/
def gain (mode : Mode) (operand : Bool) (char : Char) : Nat :=
  if mode = outside ∧ isSeparator char = true then 0
  else if operand then 0
  else (mode.emit char).length

def Lex.Aligned (lex : Lex) : Prop :=
  match lex.current with
  | some word => outside.run word.2 = lex.mode
  | none => lex.mode = outside

theorem aligned_run (text : List Char) : (Lex.run {} text).Aligned := by
  unfold Lex.Aligned
  cases current : (Lex.run {} text).current with
  | none =>
    simp only
    by_contra open_
    have started := (Lex.Sound.init.run text).started open_
    rw [current] at started
    cases started
  | some word =>
    obtain ⟨begins, whole⟩ := begins_current text word current
    simp only
    rw [run_init_mode]
    conv_rhs => rw [whole]
    rw [Quoting.run_append, begins.bare]

theorem Lex.Aligned.step {lex : Lex} (aligned : lex.Aligned) (char : Char) :
    (lex.step char).Aligned := by
  unfold Lex.step
  split
  · exact rfl
  · unfold Lex.Aligned at aligned ⊢
    unfold Lex.extend
    cases current : lex.current with
    | none =>
      simp only [current] at aligned ⊢
      rw [aligned]
      rfl
    | some word =>
      simp only [current] at aligned ⊢
      rw [Quoting.run_concat, aligned]

theorem weight_step {lex : Lex} (aligned : lex.Aligned) (char : Char) :
    (lex.step char).weight = lex.weight + gain lex.mode lex.operand char := by
  unfold Lex.step gain
  split
  · rw [Nat.add_zero]
    rfl
  · unfold Lex.Aligned at aligned
    unfold Lex.weight Lex.flush Lex.extend
    cases current : lex.current with
    | none =>
      simp only [current] at aligned ⊢
      split
      · rfl
      · rw [List.map_append, List.sum_append, aligned]
        change _ + (List.length (outside.emit char ++ []) + 0) = _
        rw [List.append_nil, Nat.add_zero]
    | some word =>
      simp only [current] at aligned ⊢
      split
      · rfl
      · simp only [List.map_append, List.map_singleton, List.sum_append, List.sum_singleton,
          emits_append, List.length_append, aligned]
        change _ + (_ + List.length (lex.mode.emit char ++ [])) = _
        rw [List.append_nil]
        omega

/-- Two machines that read on alike. -/
structure Alike (first second : Lex) : Prop where
  mode : first.mode = second.mode
  operand : first.operand = second.operand
  started : first.operand = true → first.current.isSome = second.current.isSome

theorem Alike.step {first second : Lex} (alike : Alike first second) (char : Char) :
    Alike (first.step char) (second.step char) := by
  unfold Lex.step
  rw [alike.mode]
  split
  · refine ⟨rfl, ?_, fun _ => rfl⟩
    unfold Lex.close
    simp only
    split
    · rfl
    · cases flag : first.operand with
      | true =>
        rw [alike.started flag, ← alike.operand, flag]
      | false =>
        rw [← alike.operand, flag]
        cases first.current.isSome <;> cases second.current.isSome <;> rfl
  · refine ⟨?_, alike.operand, fun _ => ?_⟩
    · unfold Lex.extend
      simp only
      rw [alike.mode]
    · unfold Lex.extend
      cases first.current <;> cases second.current <;> rfl

theorem weight_alike {first second : Lex} (alike : Alike first second)
    (aligned : first.Aligned) (aligned' : second.Aligned) (text : List Char) :
    Alike (first.run text) (second.run text) ∧
      (first.run text).weight + second.weight = (second.run text).weight + first.weight := by
  induction text generalizing first second with
  | nil => exact ⟨alike, Nat.add_comm _ _⟩
  | cons char text ih =>
    obtain ⟨kept, weights⟩ := ih (alike.step char) (aligned.step char) (aligned'.step char)
    rw [weight_step aligned, weight_step aligned', alike.mode, alike.operand] at weights
    exact ⟨kept, by rw [Lex.run_cons, Lex.run_cons]; omega⟩

/-- How many characters the words of a command stand for. -/
def total (words : List (List Char)) : Nat := (words.map List.length).sum

theorem total_eq (text : List Char) :
    total ((lexWords text).map fun word => decode word.2) = (Lex.run {} text).weight +
        if (Lex.run {} text).mode.escaped = true ∧ (Lex.run {} text).operand = false then 1 else 0 := by
  have older : ∀ words back, (Lex.run {} text).words = words ++ back →
      (words.map fun word : List Char × List Char => (decode word.2).length) =
        words.map fun word : List Char × List Char => (outside.emits word.2).length := by
    intro words back whole
    apply List.map_congr_left
    intro word member
    obtain ⟨front, rest, split⟩ := List.append_of_mem member
    obtain ⟨begins, -, -, -, closed, -⟩ := begins_words text front word (rest ++ back) (by
      rw [whole, split, List.append_assoc]
      rfl)
    rw [Quoting.run_append, begins.bare] at closed
    rw [decode_of_outside closed]
  have aligned := aligned_run text
  unfold Lex.Aligned at aligned
  unfold total lexWords Lex.weight Lex.flush
  rw [List.map_map]
  change ((List.map (fun word : List Char × List Char => (decode word.2).length) _).sum) = _
  cases current : (Lex.run {} text).current with
  | none =>
    simp only [current] at aligned ⊢
    rw [older _ [] (List.append_nil _).symm, aligned]
    rfl
  | some word =>
    simp only [current] at aligned ⊢
    cases flag : (Lex.run {} text).operand with
    | true =>
      simp only [if_true]
      rw [older _ [] (List.append_nil _).symm]
      simp
    | false =>
      simp only [Bool.false_eq_true, if_false, and_true]
      rw [List.map_append, List.map_append, List.sum_append, List.sum_append,
        older _ [] (List.append_nil _).symm, Nat.add_assoc]
      congr 1
      simp only [List.map_singleton, List.sum_singleton, decode, List.length_append]
      rw [aligned]
      unfold Mode.pending
      cases (Lex.run {} text).mode.escaped <;> rfl

end JtermCore.CommandCorrection
