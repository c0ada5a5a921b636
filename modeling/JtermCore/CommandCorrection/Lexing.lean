import JtermCore.CharBoundary
import JtermCore.CommandCorrection.Shell

/-!
# Words of a command

`shell_word_spans` keeps the mode of the quoting, the word it is in, and whether
that word is the operand of a redirection.  Over characters this is a small
machine; its words, each with the text before it, are the spans.
-/

namespace JtermCore.CommandCorrection

open Bytes Quoting Utf8

theorem encodeChar_cases (char : Char) :
    (String.utf8EncodeChar char = [UInt8.ofNat char.toNat] ∧ char.toNat < 128) ∨
      (∀ byte ∈ String.utf8EncodeChar char, 128 ≤ byte.toNat) ∧ 128 ≤ char.toNat := by
  by_cases plain : ∃ byte ∈ String.utf8EncodeChar char, byte.toNat < 128
  · obtain ⟨byte, member, small⟩ := plain
    obtain ⟨code, single⟩ := encodeChar_ascii member small
    left
    rw [single, code]
    exact ⟨by rw [UInt8.ofNat_toNat], small⟩
  · right
    have large : ∀ byte ∈ String.utf8EncodeChar char, 128 ≤ byte.toNat := by
      intro byte member
      exact Nat.not_lt.mp fun small => plain ⟨byte, member, small⟩
    refine ⟨large, Nat.not_lt.mp fun small => ?_⟩
    have single : String.utf8EncodeChar char = [UInt8.ofNat char.toNat] := by
      unfold String.utf8EncodeChar
      rw [if_pos (by change char.toNat ≤ 0x7f; omega)]
      rfl
    have bound := large (UInt8.ofNat char.toNat) (by rw [single]; exact List.mem_cons_self)
    rw [toNat_ofNat (by omega)] at bound
    omega

theorem byteLength_append (first second : List Char) :
    byteLength (first ++ second) = byteLength first + byteLength second := by
  rw [byteLength, encodeUtf8_append, List.length_append]
  rfl

theorem byteLength_cons (char : Char) (text : List Char) :
    byteLength (char :: text) = char.utf8Size + byteLength text := by
  rw [byteLength, encodeUtf8_cons, List.length_append, String.length_utf8EncodeChar]
  rfl

theorem byteLength_single (char : Char) : byteLength [char] = char.utf8Size :=
  byteLength_cons char []

theorem byteLength_pos {text : List Char} (filled : text ≠ []) : 0 < byteLength text := by
  obtain ⟨char, rest, rfl⟩ := List.exists_cons_of_ne_nil filled
  rw [byteLength_cons]
  exact Nat.add_pos_left char.utf8Size_pos _

theorem splitAtByte_append (first second : List Char) :
    splitAtByte (first ++ second) (byteLength first) = some (first, second) := by
  induction first with
  | nil =>
    cases second <;> rfl
  | cons char first ih =>
    have positive := char.utf8Size_pos
    rw [byteLength_cons]
    obtain ⟨place, same⟩ : ∃ place, char.utf8Size + byteLength first = place + 1 :=
      ⟨char.utf8Size + byteLength first - 1, by omega⟩
    have rest : place + 1 - char.utf8Size = byteLength first := by omega
    rw [same, List.cons_append, splitAtByte, if_neg (by omega), rest, ih]
    rfl

theorem slice_append (before word after : List Char) :
    slice (before ++ (word ++ after)) (byteLength before, byteLength (before ++ word)) =
      some word := by
  rw [slice, if_pos (by rw [byteLength_append]; exact Nat.le_add_right _ _)]
  rw [← List.append_assoc]
  simp only [splitAtByte_append, Option.bind_some, Option.map_some]

/-- What ends a word outside quotes. -/
def isSeparator (char : Char) : Bool :=
  char = ' ' || char = '\t' || char = '\n' || char = '\x0c' || char = '\r' || char = '|' ||
    char = ';' || char = '&' || char = '(' || char = ')' || char = '<' || char = '>'

/-- The machine over characters: what was read, the words with the text before
each, the word that is being read, the mode, and whether the word is an operand. -/
structure Lex where
  done : List Char := []
  words : List (List Char × List Char) := []
  current : Option (List Char × List Char) := none
  mode : Mode := outside
  operand : Bool := false

def Lex.flush (lex : Lex) : List (List Char × List Char) :=
  match lex.current with
  | some word => if lex.operand then lex.words else lex.words ++ [word]
  | none => lex.words

/-- The machine behind a separator. -/
def Lex.close (lex : Lex) (char : Char) : Lex where
  done := lex.done ++ [char]
  words := lex.flush
  current := none
  mode := outside
  operand :=
    if char = '<' ∨ char = '>' then true
    else if lex.current.isSome then false
    else lex.operand

/-- The machine behind a character of a word. -/
def Lex.extend (lex : Lex) (char : Char) : Lex where
  done := lex.done ++ [char]
  words := lex.words
  current :=
    match lex.current with
    | some word => some (word.1, word.2 ++ [char])
    | none => some (lex.done, [char])
  mode := lex.mode.next char
  operand := lex.operand

def Lex.step (lex : Lex) (char : Char) : Lex :=
  if lex.mode = outside ∧ isSeparator char = true then lex.close char else lex.extend char

def Lex.run (lex : Lex) (text : List Char) : Lex := text.foldl Lex.step lex

def lexWords (command : List Char) : List (List Char × List Char) := (Lex.run {} command).flush

def spanOf (word : List Char × List Char) : Nat × Nat :=
  (byteLength word.1, byteLength (word.1 ++ word.2))

def quoteByte : Quote → Option UInt8
  | .bare => none
  | .single => some 0x27
  | .double => some 0x22

/-- The variables of the loop in `shell_word_spans`. -/
def Lex.scan (lex : Lex) : SpanScan where
  spans := lex.words.map spanOf
  start := lex.current.map fun word => byteLength word.1
  quote := quoteByte lex.mode.quote
  redirectionOperand := lex.operand

structure Lex.Sound (lex : Lex) : Prop where
  placed : ∀ word, lex.current = some word → lex.done = word.1 ++ word.2
  started : lex.mode ≠ outside → lex.current.isSome = true

theorem Lex.run_append (lex : Lex) (first second : List Char) :
    lex.run (first ++ second) = (lex.run first).run second := List.foldl_append

theorem Lex.run_cons (lex : Lex) (char : Char) (text : List Char) :
    lex.run (char :: text) = (lex.step char).run text :=
  rfl

variable {char : Char}

theorem isOrdinary_of_isSeparator (separator : isSeparator char = true) :
    isOrdinary char = true := by
  unfold isSeparator at separator
  simp only [Bool.or_eq_true, decide_eq_true_eq] at separator
  rcases separator with ((((((((((rfl | rfl) | rfl) | rfl) | rfl) | rfl) | rfl) | rfl) | rfl) |
    rfl) | rfl) | rfl <;> decide

theorem Lex.step_mode (lex : Lex) (char : Char) : (lex.step char).mode = lex.mode.next char := by
  unfold Lex.step
  split
  · rename_i both
    rw [both.1, next_outside (isOrdinary_of_isSeparator both.2)]
    rfl
  · rfl

theorem Lex.step_done (lex : Lex) (char : Char) : (lex.step char).done = lex.done ++ [char] := by
  unfold Lex.step
  split <;> rfl

theorem Lex.run_mode (lex : Lex) (text : List Char) : (lex.run text).mode = lex.mode.run text := by
  induction text generalizing lex with
  | nil => rfl
  | cons char text ih => rw [Lex.run_cons, ih, lex.step_mode, Quoting.run_cons]

theorem Lex.run_done (lex : Lex) (text : List Char) : (lex.run text).done = lex.done ++ text := by
  induction text generalizing lex with
  | nil => exact (List.append_nil lex.done).symm
  | cons char text ih =>
    rw [Lex.run_cons, ih, lex.step_done, List.append_assoc]
    rfl

theorem Lex.Sound.step {lex : Lex} (sound : lex.Sound) (char : Char) : (lex.step char).Sound := by
  unfold Lex.step
  split
  · constructor
    · intro word none_
      cases none_
    · intro open_
      exact absurd rfl open_
  · constructor
    · intro word same
      unfold Lex.extend at same ⊢
      cases current : lex.current with
      | none =>
        simp only [current, Option.some.injEq] at same
        obtain rfl := same
        rfl
      | some first =>
        simp only [current, Option.some.injEq] at same
        obtain rfl := same
        simp only
        rw [sound.placed first current, List.append_assoc]
    · intro _
      unfold Lex.extend
      cases lex.current <;> rfl

variable {lex : Lex}

theorem Lex.Sound.run (sound : lex.Sound) (text : List Char) : (lex.run text).Sound := by
  induction text generalizing lex with
  | nil => exact sound
  | cons char text ih => exact ih (sound.step char)

theorem Lex.Sound.init : ({} : Lex).Sound where
  placed := by
    intro word none_
    cases none_
  started open_ := absurd rfl open_

theorem ascii_marks : ∀ code < 128, (isWordEnd (UInt8.ofNat code) = isSeparator (Char.ofNat code)) ∧
    ((UInt8.ofNat code = 0x27 ↔ Char.ofNat code = '\'') ∧
      (UInt8.ofNat code = 0x22 ↔ Char.ofNat code = '"') ∧
      (UInt8.ofNat code = 0x5c ↔ Char.ofNat code = '\\')) ∧
    ((UInt8.ofNat code = 0x3c ↔ Char.ofNat code = '<') ∧
      (UInt8.ofNat code = 0x3e ↔ Char.ofNat code = '>')) := by decide +kernel

theorem quoteByte_eq_none {quote : Quote} : quoteByte quote = none ↔ quote = .bare := by
  cases quote <;> simp [quoteByte]

def nextQuote (quote : Option UInt8) (byte : UInt8) : Option UInt8 × Bool :=
  if (quote = some 0x27 ∧ byte = 0x27) ∨ (quote = some 0x22 ∧ byte = 0x22) then (none, false)
  else if quote = some 0x27 then (quote, false)
  else if byte = 0x5c then (quote, true)
  else if quote = none ∧ (byte = 0x27 ∨ byte = 0x22) then (some byte, false)
  else (quote, false)

theorem nextQuote_eq {mode : Mode} (small : char.toNat < 128) (unescaped : mode.escaped = false) :
    nextQuote (quoteByte mode.quote) (UInt8.ofNat char.toNat) =
      (quoteByte (mode.next char).quote, (mode.next char).escaped) := by
  obtain ⟨-, ⟨single, double, backslash⟩, -⟩ := ascii_marks char.toNat small
  rw [Char.ofNat_toNat] at single double backslash
  obtain ⟨kind, escaped⟩ := mode
  simp only at unescaped
  subst unescaped
  unfold nextQuote Mode.next
  simp only [single, double, backslash]
  by_cases tick : char = '\''
  · subst tick
    cases kind <;> rfl
  · by_cases mark : char = '"'
    · subst mark
      cases kind <;> rfl
    · by_cases slash : char = '\\'
      · subst slash
        cases kind <;> rfl
      · simp only [tick, mark, slash, and_false, or_self, if_false, ite_self]
        cases kind <;> rfl

variable {scan : SpanScan} {byte : UInt8}

theorem SpanScan.step_close (index : Nat)
    (bare : scan.quote = none) (ends : isWordEnd byte = true) :
    scan.step index byte =
      ({ scan with
          spans :=
            match scan.start with
            | some start =>
              if scan.redirectionOperand then scan.spans else scan.spans ++ [(start, index)]
            | none => scan.spans
          start := none
          redirectionOperand :=
            if byte = 0x3c ∨ byte = 0x3e then true
            else if scan.start.isSome then false
            else scan.redirectionOperand }, false) := by
  rw [SpanScan.step]
  exact if_pos ⟨bare, ends⟩

theorem SpanScan.step_extend (index : Nat)
    (inside : ¬(scan.quote = none ∧ isWordEnd byte = true)) :
    scan.step index byte =
      ({ scan with
          start := some (scan.start.getD index)
          quote := (nextQuote scan.quote byte).1 }, (nextQuote scan.quote byte).2) := by
  rw [SpanScan.step, if_neg inside, nextQuote]
  simp only
  split
  · rfl
  · split
    · rfl
    · split
      · rfl
      · split <;> rfl

theorem step_ascii (sound : lex.Sound) (small : char.toNat < 128)
    (unescaped : lex.mode.escaped = false) :
    lex.scan.step (byteLength lex.done) (UInt8.ofNat char.toNat) =
      ((lex.step char).scan, (lex.step char).mode.escaped) := by
  obtain ⟨separator, -, less, greater⟩ := ascii_marks char.toNat small
  rw [Char.ofNat_toNat] at separator less greater
  have bare : lex.scan.quote = none ↔ lex.mode = outside := by
    change quoteByte lex.mode.quote = none ↔ _
    rw [quoteByte_eq_none]
    generalize lex.mode = mode at unescaped ⊢
    obtain ⟨quote, escaped⟩ := mode
    rw [outside, Mode.mk.injEq]
    simpa using fun _ => unescaped
  by_cases ends : lex.mode = outside ∧ isSeparator char = true
  · rw [SpanScan.step_close _ (bare.mpr ends.1) (separator.trans ends.2), Lex.step, if_pos ends]
    unfold Lex.close Lex.scan Lex.flush
    simp only [less, greater]
    cases current : lex.current with
    | none =>
      rw [ends.1]
      rfl
    | some word =>
      rw [ends.1]
      simp only [Option.map_some, Option.isSome_some, if_true]
      split
      · rfl
      · rw [List.map_append, List.map_singleton, spanOf, sound.placed word current]
        rfl
  · have inside : ¬(lex.scan.quote = none ∧ isWordEnd (UInt8.ofNat char.toNat) = true) := by
      rw [bare, separator]
      exact ends
    have quote : lex.scan.quote = quoteByte lex.mode.quote := rfl
    rw [SpanScan.step_extend _ inside, quote, nextQuote_eq small unescaped, Lex.step, if_neg ends]
    unfold Lex.extend Lex.scan
    cases lex.current <;> rfl

theorem isWordEnd_of_large (large : 128 ≤ byte.toNat) : isWordEnd byte = false := by
  have apart : ∀ code : UInt8, code.toNat < 128 → byte ≠ code := by
    rintro code small rfl
    omega
  simp only [isWordEnd, isAsciiWhitespace, Bool.or_eq_false_iff, decide_eq_false_iff_not]
  exact ⟨⟨⟨⟨⟨⟨⟨⟨⟨⟨⟨apart _ (by decide), apart _ (by decide)⟩, apart _ (by decide)⟩,
    apart _ (by decide)⟩, apart _ (by decide)⟩, apart _ (by decide)⟩, apart _ (by decide)⟩,
    apart _ (by decide)⟩, apart _ (by decide)⟩, apart _ (by decide)⟩, apart _ (by decide)⟩,
    apart _ (by decide)⟩

theorem nextQuote_of_large (large : 128 ≤ byte.toNat) (quote : Option UInt8) :
    nextQuote quote byte = (quote, false) := by
  have apart : ∀ code : UInt8, code.toNat < 128 → byte ≠ code := by
    rintro code small rfl
    omega
  have tick := apart 0x27 (by decide)
  have mark := apart 0x22 (by decide)
  have slash := apart 0x5c (by decide)
  simp only [nextQuote, tick, mark, slash, and_false, or_self, if_false, ite_self]

theorem SpanScan.step_large (index : Nat) (large : 128 ≤ byte.toNat) :
    scan.step index byte = ({ scan with start := some (scan.start.getD index) }, false) := by
  rw [SpanScan.step_extend index (by
    rw [isWordEnd_of_large large]
    exact fun both => Bool.false_ne_true both.2), nextQuote_of_large large]

theorem spanLoop_large {bytes : Bytes} (large : ∀ byte ∈ bytes, 128 ≤ byte.toNat) (scan : SpanScan)
    (started : scan.start.isSome = true) (index : Nat) (rest : Bytes) :
    spanLoop scan index false (bytes ++ rest) = spanLoop scan (index + bytes.length) false rest := by
  induction bytes generalizing index with
  | nil => rfl
  | cons byte bytes ih =>
    have same : ({ scan with start := some (scan.start.getD index) } : SpanScan) = scan := by
      obtain ⟨spans, start, quote, operand⟩ := scan
      cases start with
      | none => cases started
      | some start => rfl
    rw [List.cons_append, spanLoop, if_neg Bool.false_ne_true,
      SpanScan.step_large index (large byte List.mem_cons_self), same,
      ih fun other member => large other (List.mem_cons_of_mem byte member), List.length_cons,
      Nat.add_assoc, Nat.add_comm 1]

theorem next_of_large {mode : Mode} (large : 128 ≤ char.toNat) :
    mode.next char = ⟨mode.quote, false⟩ := by
  have apart : ∀ mark : Char, mark.toNat < 128 → char ≠ mark := by
    rintro mark small rfl
    omega
  have tick := apart '\'' (by decide)
  have double := apart '"' (by decide)
  have slash := apart '\\' (by decide)
  obtain ⟨kind, escaped⟩ := mode
  unfold Mode.next
  cases escaped with
  | true => rfl
  | false => cases kind <;> simp only [Bool.false_eq_true, if_false, if_neg tick, if_neg double, if_neg slash]

theorem isSeparator_of_large (large : 128 ≤ char.toNat) : isSeparator char = false := by
  have apart : ∀ mark : Char, mark.toNat < 128 → char ≠ mark := by
    rintro mark small rfl
    omega
  simp only [isSeparator, Bool.or_eq_false_iff, decide_eq_false_iff_not]
  exact ⟨⟨⟨⟨⟨⟨⟨⟨⟨⟨⟨apart _ (by decide), apart _ (by decide)⟩, apart _ (by decide)⟩,
    apart _ (by decide)⟩, apart _ (by decide)⟩, apart _ (by decide)⟩, apart _ (by decide)⟩,
    apart _ (by decide)⟩, apart _ (by decide)⟩, apart _ (by decide)⟩, apart _ (by decide)⟩,
    apart _ (by decide)⟩

theorem spanLoop_char (sound : lex.Sound) (char : Char) (rest : Bytes) :
    spanLoop lex.scan (byteLength lex.done) lex.mode.escaped
        (String.utf8EncodeChar char ++ rest) =
      spanLoop (lex.step char).scan (byteLength (lex.step char).done) (lex.step char).mode.escaped
        rest := by
  have length : byteLength (lex.step char).done = byteLength lex.done + char.utf8Size := by
    rw [lex.step_done, byteLength_append, byteLength_single]
  have skipped : lex.mode.escaped = true →
      (lex.step char).scan = lex.scan ∧ (lex.step char).mode.escaped = false := by
    intro escaped
    have inside : ¬(lex.mode = outside ∧ isSeparator char = true) := by
      rintro ⟨bare, -⟩
      rw [bare] at escaped
      cases escaped
    have started := sound.started (by
      intro bare
      rw [bare] at escaped
      cases escaped)
    have next : lex.mode.next char = ⟨lex.mode.quote, false⟩ := by rw [Mode.next, if_pos escaped]
    rw [Lex.step, if_neg inside]
    unfold Lex.extend Lex.scan
    rw [next]
    cases current : lex.current with
    | none =>
      rw [current] at started
      cases started
    | some word => exact ⟨rfl, rfl⟩
  rcases encodeChar_cases char with ⟨single, small⟩ | ⟨large, far⟩
  · have size : char.utf8Size = 1 := by
      rw [← String.length_utf8EncodeChar, single]
      rfl
    rw [single, length, size]
    cases escaped : lex.mode.escaped with
    | true =>
      obtain ⟨same, unescaped⟩ := skipped escaped
      rw [List.singleton_append, spanLoop, if_pos rfl, same, unescaped]
    | false =>
      rw [List.singleton_append, spanLoop, if_neg Bool.false_ne_true,
        step_ascii sound small escaped]
  · obtain ⟨first, more, encoded⟩ :=
      List.exists_cons_of_ne_nil (String.utf8EncodeChar_ne_nil (c := char))
    have size : char.utf8Size = 1 + more.length := by
      rw [← String.length_utf8EncodeChar, encoded, List.length_cons, Nat.add_comm]
    rw [encoded] at large ⊢
    have others : ∀ byte ∈ more, 128 ≤ byte.toNat := fun byte member =>
      large byte (List.mem_cons_of_mem first member)
    rw [length, size, ← Nat.add_assoc]
    cases escaped : lex.mode.escaped with
    | true =>
      obtain ⟨same, unescaped⟩ := skipped escaped
      have started : lex.scan.start.isSome = true := by
        change (lex.current.map _).isSome = true
        rw [Option.isSome_map]
        apply sound.started
        intro bare
        rw [bare] at escaped
        cases escaped
      rw [List.cons_append, spanLoop, if_pos rfl, spanLoop_large others _ started, same, unescaped]
    | false =>
      have inside : ¬(lex.mode = outside ∧ isSeparator char = true) := by
        rw [isSeparator_of_large far]
        exact fun both => Bool.false_ne_true both.2
      have next : lex.mode.next char = lex.mode := by rw [next_of_large far, ← escaped]
      have extended : (lex.step char).scan =
          { lex.scan with start := some (lex.scan.start.getD (byteLength lex.done)) } := by
        rw [Lex.step, if_neg inside]
        unfold Lex.extend Lex.scan
        rw [next]
        cases lex.current <;> rfl
      have unescaped : (lex.step char).mode.escaped = false := by rw [lex.step_mode, next, escaped]
      rw [List.cons_append, spanLoop, if_neg Bool.false_ne_true,
        SpanScan.step_large _ (large first List.mem_cons_self), extended, unescaped]
      exact spanLoop_large others _ rfl _ _

theorem spanLoop_run (sound : lex.Sound) (text : List Char) :
    spanLoop lex.scan (byteLength lex.done) lex.mode.escaped (encodeUtf8 text) =
      (lex.run text).scan := by
  induction text generalizing lex with
  | nil => rfl
  | cons char text ih =>
    rw [encodeUtf8_cons, spanLoop_char sound, ih (sound.step char), Lex.run_cons]

theorem shellWordSpans_eq (command : List Char) :
    shellWordSpans command = (lexWords command).map spanOf := by
  have run : spanLoop {} 0 false (encodeUtf8 command) = (Lex.run {} command).scan :=
    spanLoop_run Lex.Sound.init command
  have sound := Lex.Sound.init.run command
  unfold shellWordSpans lexWords
  simp only [run]
  unfold Lex.scan Lex.flush
  cases current : (Lex.run {} command).current with
  | none => rfl
  | some word =>
    simp only [Option.map_some]
    split
    · rfl
    · have whole := sound.placed word current
      rw [Lex.run_done] at whole
      rw [List.map_append, List.map_singleton, spanOf, ← whole]
      rfl

end JtermCore.CommandCorrection
