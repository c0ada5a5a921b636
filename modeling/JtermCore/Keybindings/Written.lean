import JtermCore.Keybindings.Chord
import JtermCore.Lines

/-!
# Written chords

The text of a chord is a row of tokens with plus signs between them, each with
whitespace around it.  Such a row is read token by token, and whatever `parse`
accepts is one.
-/

namespace JtermCore.Keybindings

open ExecutionJournal Lines Utf8

/-- A word with whitespace around it. -/
structure Token where
  before : List Char
  word : List Char
  after : List Char
  before_blank : ∀ char ∈ before, isWhitespace char = true
  after_blank : ∀ char ∈ after, isWhitespace char = true
  word_ne_nil : word ≠ []
  word_trimmed : trimChars word = word

def Token.text (token : Token) : List Char := token.before ++ (token.word ++ token.after)

def joined (tokens : List Token) (rest : List Char) : List Char :=
  tokens.foldr (fun token rest => token.text ++ '+' :: rest) rest

/-- A chord as it is written: its modifiers and its key.  The plus sign as a key
stands right behind the plus sign that separates it. -/
structure Written where
  mods : List Token
  key : Token
  mods_plain : ∀ token ∈ mods, '+' ∉ token.word
  key_plain : '+' ∉ key.word ∨ key.word = ['+']
  key_joined : key.word = ['+'] → mods ≠ [] → key.before = []

def Written.text (written : Written) : List Char := joined written.mods written.key.text

def Written.words (written : Written) : List (List Char) := written.mods.map Token.word

theorem plus_not_mem_of_blank {text : List Char}
    (blank : ∀ char ∈ text, isWhitespace char = true) : '+' ∉ text := by
  intro member
  have space := blank '+' member
  exact absurd space (by decide)

theorem Token.plus_not_mem_text {token : Token} (plain : '+' ∉ token.word) : '+' ∉ token.text := by
  simp only [Token.text, List.mem_append, not_or]
  exact ⟨plus_not_mem_of_blank token.before_blank, plain, plus_not_mem_of_blank token.after_blank⟩

theorem Token.trimChars_text (token : Token) : trimChars token.text = token.word := by
  rw [Token.text, trimChars_padded token.before_blank token.after_blank, token.word_trimmed]

theorem exists_token {text : List Char} (filled : trimChars text ≠ []) :
    ∃ token : Token, token.text = text ∧ token.word = trimChars text := by
  obtain ⟨before, after, whole, front, back⟩ := exists_padding text
  have trimmed : trimChars (trimChars text) = trimChars text :=
    trimChars_eq_self (head?_trimChars text) (getLast?_trimChars text)
  exact ⟨⟨before, trimChars text, after, front, back, filled, trimmed⟩, whole.symm, rfl⟩

def Token.behind (token : Token) (before : List Char)
    (blank : ∀ char ∈ before, isWhitespace char = true) : Token :=
  { token with
    before := before ++ token.before
    before_blank := by
      intro char member
      rcases List.mem_append.mp member with outer | inner
      · exact blank char outer
      · exact token.before_blank char inner }

def Token.ahead (token : Token) (after : List Char)
    (blank : ∀ char ∈ after, isWhitespace char = true) : Token :=
  { token with
    after := token.after ++ after
    after_blank := by
      intro char member
      rcases List.mem_append.mp member with inner | outer
      · exact token.after_blank char inner
      · exact blank char outer }

theorem nil_blank : ∀ char ∈ ([] : List Char), isWhitespace char = true := by
  intro char member
  cases member

def Token.flush (token : Token) : Token :=
  { token with
    before := []
    before_blank := nil_blank }

theorem Token.behind_text (token : Token) {before : List Char}
    (blank : ∀ char ∈ before, isWhitespace char = true) :
    (token.behind before blank).text = before ++ token.text := by
  simp only [Token.text, Token.behind, List.append_assoc]

theorem Token.ahead_text (token : Token) {after : List Char}
    (blank : ∀ char ∈ after, isWhitespace char = true) :
    (token.ahead after blank).text = token.text ++ after := by
  simp only [Token.text, Token.ahead, List.append_assoc]

theorem joined_append (tokens : List Token) (rest more : List Char) :
    joined tokens rest ++ more = joined tokens (rest ++ more) := by
  induction tokens with
  | nil => rfl
  | cons token tokens ih =>
    change token.text ++ '+' :: joined tokens rest ++ more = _
    rw [List.append_assoc, List.cons_append, ih]
    rfl

theorem joined_eq_append (tokens : List Token) (rest : List Char) :
    joined tokens rest = joined tokens [] ++ rest := by rw [joined_append, List.nil_append]

variable {tokens : List Token}

theorem joined_concat (filled : tokens ≠ []) :
    ∃ front, front ≠ [] ∧ joined tokens [] = front ++ ['+'] := by
  induction tokens with
  | nil => exact absurd rfl filled
  | cons token tokens ih =>
    have shown : token.text ≠ [] := by simp [Token.text, token.word_ne_nil]
    cases tokens with
    | nil => exact ⟨token.text, shown, rfl⟩
    | cons next tokens =>
      obtain ⟨front, -, whole⟩ := ih (List.cons_ne_nil next tokens)
      refine ⟨token.text ++ '+' :: front, by simp, ?_⟩
      change token.text ++ '+' :: joined (next :: tokens) [] = _
      rw [whole, List.append_assoc]
      rfl

theorem splitOn_joined (plain : ∀ token ∈ tokens, '+' ∉ token.word) (rest : List Char) :
    (joined tokens rest).splitOn '+' = tokens.map Token.text ++ rest.splitOn '+' := by
  induction tokens with
  | nil => rfl
  | cons token tokens ih =>
    have absent := Token.plus_not_mem_text (plain token List.mem_cons_self)
    change (token.text ++ '+' :: joined tokens rest).splitOn '+' = _
    rw [List.splitOn_append_cons_self_of_not_mem absent,
      ih fun other member => plain other (List.mem_cons_of_mem token member)]
    rfl

theorem map_trimChars_text (tokens : List Token) :
    (tokens.map Token.text).map trimChars = tokens.map Token.word := by
  rw [List.map_map]
  exact List.map_congr_left fun token _ => token.trimChars_text

theorem splitChord_plus (plain : ∀ token ∈ tokens, '+' ∉ token.word) :
    splitChord (joined tokens ['+']) = .ok (tokens.map Token.word, ['+']) := by
  cases tokens with
  | nil => rfl
  | cons first tokens =>
    obtain ⟨front, shown, whole⟩ := joined_concat (List.cons_ne_nil first tokens)
    have ends : joined (first :: tokens) ['+'] = front ++ ['+', '+'] := by
      rw [joined_eq_append, whole, List.append_assoc]
      rfl
    have long : joined (first :: tokens) ['+'] ≠ ['+'] := by
      intro same
      rw [ends] at same
      have lengths := congrArg List.length same
      simp at lengths
    have parts : ((joined (first :: tokens) ['+']).splitOn '+').map trimChars =
        (first :: tokens).map Token.word ++ [[], []] := by
      rw [splitOn_joined plain, List.map_append, map_trimChars_text]
      rfl
    have twice : ['+', '+'].isSuffixOf (joined (first :: tokens) ['+']) = true := by
      rw [List.isSuffixOf_iff_suffix, ends]
      exact List.suffix_append front _
    have count : 3 ≤ ((first :: tokens).map Token.word ++ [[], []]).length := by simp
    unfold splitChord
    simp only [parts]
    rw [if_neg long, if_pos ⟨twice, count⟩, List.length_append, List.length_cons,
      List.length_cons, List.length_nil, Nat.add_sub_cancel, List.take_left]

theorem splitChord_plain (plain : ∀ token ∈ tokens, '+' ∉ token.word)
    {tail : List Char} (absent : '+' ∉ tail) (filled : trimChars tail ≠ []) :
    splitChord (joined tokens tail) = .ok (tokens.map Token.word, trimChars tail) := by
  have shown : tail ≠ [] := by
    intro empty
    rw [empty] at filled
    exact filled rfl
  -- The last character belongs to the key.
  have last : (joined tokens tail).getLast? ≠ some '+' := by
    intro same
    rw [joined_eq_append, List.getLast?_append_of_ne_nil _ shown] at same
    exact absent (List.mem_of_getLast? same)
  have single : joined tokens tail ≠ ['+'] := by
    intro same
    rw [same] at last
    exact last rfl
  have parts : ((joined tokens tail).splitOn '+').map trimChars =
      tokens.map Token.word ++ [trimChars tail] := by
    rw [splitOn_joined plain, List.map_append, map_trimChars_text, List.splitOn_eq_singleton absent]
    rfl
  have once : ¬['+', '+'].isSuffixOf (joined tokens tail) = true := by
    intro twice
    obtain ⟨front, whole⟩ := List.isSuffixOf_iff_suffix.mp twice
    rw [← whole] at last
    exact last (by simp)
  unfold splitChord
  simp only [parts]
  rw [if_neg single, if_neg fun both => once both.1, List.getLast?_concat]
  simp only [if_neg filled, List.dropLast_concat]

theorem Token.head?_word (token : Token) :
    ∀ char, token.word.head? = some char → isWhitespace char = false := by
  have front := head?_trimChars token.word
  rwa [token.word_trimmed] at front

theorem Token.getLast?_word (token : Token) :
    ∀ char, token.word.getLast? = some char → isWhitespace char = false := by
  have back := getLast?_trimChars token.word
  rwa [token.word_trimmed] at back

theorem trimChars_between (first last : Token) (middle : List Char) :
    trimChars (first.text ++ (middle ++ last.text)) =
      first.word ++ (first.after ++ (middle ++ (last.before ++ last.word))) := by
  have whole : first.text ++ (middle ++ last.text) =
      first.before ++
        ((first.word ++ (first.after ++ (middle ++ (last.before ++ last.word)))) ++ last.after) := by
    simp only [Token.text, List.append_assoc]
  rw [whole, trimChars_padded first.before_blank last.after_blank]
  apply trimChars_eq_self
  · intro char same
    rw [List.head?_append_of_ne_nil _ first.word_ne_nil] at same
    exact first.head?_word char same
  · intro char same
    simp only [← List.append_assoc] at same
    rw [List.getLast?_append_of_ne_nil _ last.word_ne_nil] at same
    exact last.getLast?_word char same

theorem splitChord_text (written : Written) :
    splitChord (trimChars written.text) = .ok (written.words, written.key.word) := by
  have trimmed : trimChars (written.key.before ++ written.key.word) = written.key.word := by
    have padded : trimChars (written.key.before ++ (written.key.word ++ [])) =
        trimChars written.key.word := trimChars_padded written.key.before_blank (by simp)
    rwa [List.append_nil, written.key.word_trimmed] at padded
  cases shape : written.mods with
  | nil =>
    have alone : trimChars written.text = written.key.word := by
      rw [Written.text, shape]
      exact written.key.trimChars_text
    rw [alone, Written.words, shape]
    rcases written.key_plain with plain | plus
    · have filled := written.key.word_ne_nil
      rw [← written.key.word_trimmed] at filled
      have split : splitChord (joined [] written.key.word) = .ok ([], trimChars written.key.word) :=
        splitChord_plain (by simp) plain filled
      rwa [written.key.word_trimmed] at split
    · rw [plus]
      rfl
  | cons first others =>
    have flushed : ∀ token ∈ first.flush :: others, '+' ∉ token.word := by
      have plain := written.mods_plain
      rw [shape] at plain
      intro token member
      rcases List.mem_cons.mp member with rfl | other
      · exact plain first List.mem_cons_self
      · exact plain token (List.mem_cons_of_mem first other)
    have between : trimChars written.text =
        joined (first.flush :: others) (written.key.before ++ written.key.word) := by
      have whole : written.text =
          first.text ++ (('+' :: joined others []) ++ written.key.text) := by
        rw [Written.text, shape, List.cons_append, ← joined_eq_append]
        rfl
      rw [whole, trimChars_between, List.cons_append, ← joined_eq_append]
      change _ = ([] ++ (first.word ++ first.after)) ++ _
      rw [List.nil_append, List.append_assoc]
      rfl
    have words : (first.flush :: others).map Token.word = written.words := by
      rw [Written.words, shape]
      rfl
    rw [between, ← words]
    rcases written.key_plain with plain | plus
    · have absent : '+' ∉ written.key.before ++ written.key.word := by
        rw [List.mem_append, not_or]
        exact ⟨plus_not_mem_of_blank written.key.before_blank, plain⟩
      have split := splitChord_plain flushed absent (by
        rw [trimmed]
        exact written.key.word_ne_nil)
      rwa [trimmed] at split
    · have close := written.key_joined plus (by rw [shape]; exact List.cons_ne_nil first others)
      rw [close, plus]
      exact splitChord_plus flushed

theorem trimChars_text_ne_nil (written : Written) : trimChars written.text ≠ [] := by
  intro empty
  have split := splitChord_text written
  rw [empty] at split
  cases split

theorem exists_pieces (text : List Char) : ∃ pieces last, text.splitOn '+' = pieces ++ [last] ∧
      text = (pieces.flatMap fun piece => piece ++ ['+']) ++ last ∧
      ∀ piece ∈ pieces ++ [last], '+' ∉ piece := by
  induction text using text_induction '+' with
  | unterminated text absent =>
    exact ⟨[], text, List.splitOn_eq_singleton absent, rfl, by simpa using absent⟩
  | line line rest absent ih =>
    obtain ⟨pieces, last, split, whole, plain⟩ := ih
    refine ⟨line :: pieces, last, ?_, ?_, ?_⟩
    · rw [List.splitOn_append_cons_self_of_not_mem absent, split]
      rfl
    · rw [List.flatMap_cons, List.append_assoc, List.append_assoc, ← whole]
      rfl
    · intro piece member
      rcases List.mem_cons.mp member with rfl | later
      · exact absent
      · exact plain piece later

theorem exists_tokens {pieces : List (List Char)}
    (plain : ∀ piece ∈ pieces, '+' ∉ piece ∧ trimChars piece ≠ []) :
    ∃ tokens : List Token, (∀ token ∈ tokens, '+' ∉ token.word) ∧
      ∀ rest, joined tokens rest = (pieces.flatMap fun piece => piece ++ ['+']) ++ rest := by
  induction pieces with
  | nil => exact ⟨[], by simp, fun _ => rfl⟩
  | cons piece pieces ih =>
    obtain ⟨absent, filled⟩ := plain piece List.mem_cons_self
    obtain ⟨tokens, others, whole⟩ :=
      ih fun other member => plain other (List.mem_cons_of_mem piece member)
    obtain ⟨token, same, word⟩ := exists_token filled
    refine ⟨token :: tokens, ?_, ?_⟩
    · intro other member
      rcases List.mem_cons.mp member with rfl | later
      · intro plus
        apply absent
        rw [← same]
        simp only [Token.text, List.mem_append]
        exact .inr (.inl plus)
      · exact others other later
    · intro rest
      change token.text ++ '+' :: joined tokens rest = _
      rw [same, whole, List.flatMap_cons, List.append_assoc, List.append_assoc]
      rfl

theorem exists_padded (written : Written) {before after : List Char}
    (front : ∀ char ∈ before, isWhitespace char = true)
    (back : ∀ char ∈ after, isWhitespace char = true) :
    ∃ padded : Written, padded.text = before ++ (written.text ++ after) := by
  obtain ⟨mods, key, plain, single, close⟩ := written
  cases mods with
  | nil =>
    refine ⟨⟨[], (key.behind before front).ahead after back, plain, single,
      fun _ absent => absurd rfl absent⟩, ?_⟩
    change ((key.behind before front).ahead after back).text = before ++ (key.text ++ after)
    rw [Token.ahead_text, Token.behind_text, List.append_assoc]
  | cons first others =>
    refine ⟨⟨first.behind before front :: others, key.ahead after back, ?_, single,
      fun plus _ => close plus (List.cons_ne_nil first others)⟩, ?_⟩
    · intro token member
      rcases List.mem_cons.mp member with rfl | other
      · exact plain first List.mem_cons_self
      · exact plain token (List.mem_cons_of_mem first other)
    · change (first.behind before front).text ++ '+' :: joined others (key.ahead after back).text =
        before ++ (first.text ++ '+' :: joined others key.text ++ after)
      rw [Token.behind_text, Token.ahead_text, ← joined_append]
      simp only [List.append_assoc, List.cons_append]

def plusToken : Token := ⟨[], ['+'], [], by simp, by simp, by simp, by decide⟩

theorem exists_split {trimmed : List Char} {words : List (List Char)} {key : List Char}
    (split : splitChord trimmed = .ok (words, key)) (named_ : ∀ word ∈ words, word ≠ []) :
    ∃ written : Written, written.text = trimmed := by
  unfold splitChord at split
  simp only at split
  split at split
  · rename_i plus
    exact ⟨⟨[], plusToken, by simp, .inr rfl, fun _ _ => rfl⟩, plus.symm⟩
  · split at split
    · rename_i _ ends
      obtain ⟨front, rfl⟩ := List.isSuffixOf_iff_suffix.mp ends.1
      obtain ⟨pieces, last, cut, whole, plain⟩ := exists_pieces front
      have parts : (front ++ ['+', '+']).splitOn '+' = (pieces ++ [last]) ++ [[], []] := by
        rw [List.splitOn_append_cons_self, cut]
        rfl
      have mapped : ((front ++ ['+', '+']).splitOn '+').map trimChars =
          (pieces ++ [last]).map trimChars ++ [[], []] := by
        rw [parts, List.map_append]
        rfl
      rw [mapped, List.length_append, List.length_cons, List.length_singleton,
        Nat.add_sub_cancel, List.take_left] at split
      obtain ⟨rfl, -⟩ := Prod.mk.inj (Except.ok.inj split)
      obtain ⟨tokens, others, same⟩ := exists_tokens fun piece member =>
        ⟨plain piece member, named_ _ (List.mem_map_of_mem member)⟩
      refine ⟨⟨tokens, plusToken, others, .inr rfl, fun _ _ => rfl⟩, ?_⟩
      change joined tokens ['+'] = _
      rw [same, whole, List.flatMap_append]
      simp
    · obtain ⟨pieces, last, cut, whole, plain⟩ := exists_pieces trimmed
      rw [cut, List.map_append, List.map_singleton, List.getLast?_concat] at split
      simp only at split
      split at split
      · cases split
      · rename_i filled
        rw [List.dropLast_concat] at split
        obtain ⟨rfl, -⟩ := Prod.mk.inj (Except.ok.inj split)
        obtain ⟨tokens, others, same⟩ := exists_tokens fun piece (member : piece ∈ pieces) =>
          ⟨plain piece (List.mem_append_left _ member), named_ _ (List.mem_map_of_mem member)⟩
        obtain ⟨token, text, word⟩ := exists_token filled
        have absent : '+' ∉ token.word := by
          intro plus
          apply plain last (by simp)
          rw [← text]
          simp only [Token.text, List.mem_append]
          exact .inr (.inl plus)
        refine ⟨⟨tokens, token, others, .inl absent, ?_⟩, ?_⟩
        · intro plus
          rw [plus] at absent
          exact absurd List.mem_cons_self absent
        · change joined tokens token.text = _
          rw [text, same, ← whole]

end JtermCore.Keybindings
