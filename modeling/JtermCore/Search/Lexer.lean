import JtermCore.Utf8

/-!
# Search terms

The searches for tasks and for the whole workspace share their lexical rules.
Whitespace separates terms, a leading `-` negates one, and double quotes, within
which a backslash escapes quotes and backslashes, preserve a phrase.
-/

namespace JtermCore.Search

open Utf8

/-- A fully quoted term is literal text. -/
structure Token where
  value : List Char
  negated : Bool
  literal : Bool
deriving DecidableEq

/-- What is known of a token while it is read. -/
structure Reading where
  value : List Char
  quoted : Bool
  literal : Bool
deriving DecidableEq

/-- Append a character to the value. -/
def Reading.push (reading : Reading) (char : Char) : Reading :=
  { reading with value := reading.value ++ [char] }

/-- A double quote opens or closes a phrase. -/
def Reading.toggle (reading : Reading) : Reading :=
  { reading with
    quoted := !reading.quoted
    literal := reading.literal || (reading.value.isEmpty && !reading.quoted) }

/-- The character that a backslash within quotes escapes, and the text behind it. -/
def Reading.escaped (reading : Reading) (next : Char) : List Char → Option (Char × List Char)
  | [] => none
  | escaped :: behind =>
    if reading.quoted ∧ next = '\\' ∧ (escaped = '"' ∨ escaped = '\\') then
      some (escaped, behind)
    else none

def Reading.start (character : Char) : Reading where
  value := if character ≠ '-' ∧ character ≠ '"' then [character] else []
  quoted := character = '"'
  literal := character = '"'

variable {reading : Reading}

variable {rest : List Char}

theorem Reading.escaped_eq_some {next escaped : Char}
    {behind : List Char} :
    reading.escaped next rest = some (escaped, behind) ↔
      rest = escaped :: behind ∧ reading.quoted = true ∧ next = '\\' ∧
        (escaped = '"' ∨ escaped = '\\') := by
  cases rest with
  | nil => simp [Reading.escaped]
  | cons char rest =>
    rw [Reading.escaped]
    split
    · rename_i escapes
      simp only [Option.some.injEq, Prod.mk.injEq, List.cons.injEq]
      constructor
      · rintro ⟨rfl, rfl⟩
        exact ⟨⟨rfl, rfl⟩, escapes⟩
      · rintro ⟨same, -⟩
        exact same
    · rename_i plain
      simp only [reduceCtorEq, false_iff, List.cons.injEq]
      rintro ⟨⟨rfl, rfl⟩, escapes⟩
      exact plain escapes

/-- The inner loop of `tokenize_with_limit`: the token, and the text behind it. -/
def readToken (text : List Char) (reading : Reading) : Reading × List Char :=
  match text with
  | [] => (reading, [])
  | next :: rest =>
    if isWhitespace next = true ∧ reading.quoted = false then (reading, next :: rest)
    else if next = '"' then readToken rest reading.toggle
    else
      match _escapes : reading.escaped next rest with
      | some (escaped, behind) => readToken behind (reading.push escaped)
      | none => readToken rest (reading.push next)
termination_by text.length
decreasing_by
  · exact Nat.lt_succ_self _
  · rw [(Reading.escaped_eq_some.mp _escapes).1, List.length_cons, List.length_cons]
    omega
  · exact Nat.lt_succ_self _

theorem readToken_nil (reading : Reading) : readToken [] reading = (reading, []) := by
  rw [readToken.eq_def]

theorem readToken_cons (next : Char) (rest : List Char) (reading : Reading) :
    readToken (next :: rest) reading =
      if isWhitespace next = true ∧ reading.quoted = false then (reading, next :: rest)
      else if next = '"' then readToken rest reading.toggle
      else
        match reading.escaped next rest with
        | some (escaped, behind) => readToken behind (reading.push escaped)
        | none => readToken rest (reading.push next) := by
  rw [readToken.eq_def]
  dsimp only
  split
  · rfl
  · split
    · rfl
    · split <;> rename_i same <;> rw [same]

theorem length_readToken (text : List Char) (reading : Reading) :
    (readToken text reading).2.length ≤ text.length := by
  fun_induction readToken text reading with
  | case1 | case2 => exact Nat.le_refl _
  | case3 _ _ _ ih | case5 _ _ _ _ _ _ ih => exact Nat.le_succ_of_le ih
  | case4 _ _ _ _ _ _ _ escapes ih =>
    rw [(Reading.escaped_eq_some.mp escapes).1]
    exact Nat.le_succ_of_le (Nat.le_succ_of_le ih)

/-- What `tokenize_with_limit` makes of a token that was read. -/
def addToken (maxTerms : Nat) (character : Char) (reading : Reading) (tokens : List Token) :
    Except String (List Token) :=
  if reading.quoted then .error "Close the double quote to finish the search phrase."
  else if reading.value.isEmpty then
    .error "Enter a search term after '-' or inside the double quotes."
  else if maxTerms < tokens.length + 1 then
    .error ("Use at most " ++ toString maxTerms ++ " search terms.")
  else .ok (tokens ++ [⟨reading.value, character = '-', reading.literal⟩])

/-- `tokenize_with_limit` from a place on. -/
def tokenizeLoop (maxTerms : Nat) (text : List Char) (tokens : List Token) :
    Except String (List Token) :=
  match text with
  | [] => .ok tokens
  | character :: rest =>
    if isWhitespace character then tokenizeLoop maxTerms rest tokens
    else
      match addToken maxTerms character (readToken rest (.start character)).1 tokens with
      | .error error => .error error
      | .ok tokens => tokenizeLoop maxTerms (readToken rest (.start character)).2 tokens
termination_by text.length
decreasing_by
  · exact Nat.lt_succ_self _
  · exact Nat.lt_succ_of_le (length_readToken rest _)

theorem tokenizeLoop_nil (maxTerms : Nat) (tokens : List Token) :
    tokenizeLoop maxTerms [] tokens = .ok tokens := by rw [tokenizeLoop.eq_def]

theorem tokenizeLoop_cons (maxTerms : Nat) (character : Char) (rest : List Char)
    (tokens : List Token) : tokenizeLoop maxTerms (character :: rest) tokens =
      if isWhitespace character then tokenizeLoop maxTerms rest tokens
      else
        match addToken maxTerms character (readToken rest (.start character)).1 tokens with
        | .error error => .error error
        | .ok tokens => tokenizeLoop maxTerms (readToken rest (.start character)).2 tokens := by
  rw [tokenizeLoop.eq_def]

def tokenizeWithLimit (text : List Char) (maxTerms : Nat) : Except String (List Token) :=
  tokenizeLoop maxTerms text []

def toAsciiLowercase (char : Char) : Char :=
  if 'A' ≤ char ∧ char ≤ 'Z' then Char.ofNat (char.toNat + 32) else char

def normalize (value : List Char) : List Char :=
  ((trimChars value).map toAsciiLowercase).map fun character =>
    if character = '_' ∨ character = ' ' then '-' else character

section

variable {maxTerms : Nat}

/-- What begins behind a token: nothing or whitespace. -/
def Separates (text : List Char) : Prop := ∀ char, text.head? = some char → isWhitespace char = true

variable {more : List Char}

section

variable (separates : Separates more)

include separates

theorem Separates.escaped (reading : Reading) (next : Char) : reading.escaped next more = none := by
  rw [Option.eq_none_iff_forall_ne_some]
  rintro ⟨escaped, behind⟩ escapes
  obtain ⟨rfl, -, -, quote | backslash⟩ := Reading.escaped_eq_some.mp escapes
  · rw [quote] at separates
    exact absurd (separates '"' rfl) (by decide)
  · rw [backslash] at separates
    exact absurd (separates '\\' rfl) (by decide)

theorem Separates.escaped_append {next : Char}
    (plain : reading.escaped next rest = none) : reading.escaped next (rest ++ more) = none := by
  cases rest with
  | nil => exact separates.escaped reading next
  | cons escaped behind =>
    rw [Reading.escaped] at plain
    rw [List.cons_append, Reading.escaped]
    split at plain
    · cases plain
    · rename_i unescaped
      rw [if_neg unescaped]

theorem readToken_separates
    (closed : reading.quoted = false) : readToken more reading = (reading, more) := by
  cases more with
  | nil => rw [readToken_nil]
  | cons next rest => rw [readToken_cons, if_pos ⟨separates next rfl, closed⟩]

end

theorem readToken_append (text : List Char) (reading : Reading)
    (separates : Separates more) (closed : (readToken text reading).1.quoted = false) :
    readToken (text ++ more) reading =
      ((readToken text reading).1, (readToken text reading).2 ++ more) := by
  fun_induction readToken text reading with
  | case1 reading => exact readToken_separates separates closed
  | case2 reading next rest ends =>
    rw [List.cons_append, readToken_cons, if_pos ends]
  | case3 reading rest inside ih =>
    rw [List.cons_append, readToken_cons, if_neg inside, if_pos rfl]
    exact ih closed
  | case4 reading next rest inside other escaped behind escapes ih =>
    obtain ⟨rfl, within⟩ := Reading.escaped_eq_some.mp escapes
    have same : reading.escaped next (escaped :: behind ++ more) =
        some (escaped, behind ++ more) := Reading.escaped_eq_some.mpr ⟨rfl, within⟩
    rw [List.cons_append, readToken_cons, if_neg inside, if_neg other, same]
    exact ih closed
  | case5 reading next rest inside other plain ih =>
    rw [List.cons_append, readToken_cons, if_neg inside, if_neg other,
      separates.escaped_append plain]
    exact ih closed

section

variable (blank : ∀ char ∈ more, isWhitespace char = true)

include blank

theorem separates_of_blank
    : Separates more := fun char first => blank char (List.mem_of_head? first)

theorem readToken_blank
    (opened : reading.quoted = true) : (readToken more reading).1.quoted = true := by
  induction more generalizing reading with
  | nil => rwa [readToken_nil]
  | cons next rest ih =>
    rw [List.forall_mem_cons] at blank
    have inside : ¬ (isWhitespace next = true ∧ reading.quoted = false) := by
      rw [opened]
      exact fun ends => Bool.noConfusion ends.2
    have other : next ≠ '"' := by
      rintro rfl
      exact absurd blank.1 (by decide)
    rw [readToken_cons, if_neg inside, if_neg other,
      (separates_of_blank blank.2).escaped reading next]
    exact ih blank.2 opened

end

theorem readToken_append_open (text : List Char) (reading : Reading)
    (blank : ∀ char ∈ more, isWhitespace char = true)
    (opened : (readToken text reading).1.quoted = true) :
    (readToken (text ++ more) reading).1.quoted = true := by
  have separates := separates_of_blank blank
  fun_induction readToken text reading with
  | case1 reading => exact readToken_blank blank opened
  | case2 reading next rest ends =>
    rw [List.cons_append, readToken_cons, if_pos ends]
    exact opened
  | case3 reading rest inside ih =>
    rw [List.cons_append, readToken_cons, if_neg inside, if_pos rfl]
    exact ih opened
  | case4 reading next rest inside other escaped behind escapes ih =>
    obtain ⟨rfl, within⟩ := Reading.escaped_eq_some.mp escapes
    have same : reading.escaped next (escaped :: behind ++ more) =
        some (escaped, behind ++ more) := Reading.escaped_eq_some.mpr ⟨rfl, within⟩
    rw [List.cons_append, readToken_cons, if_neg inside, if_neg other, same]
    exact ih opened
  | case5 reading next rest inside other plain ih =>
    rw [List.cons_append, readToken_cons, if_neg inside, if_neg other,
      separates.escaped_append plain]
    exact ih opened

variable {character : Char}

theorem tokenizeLoop_white (white : isWhitespace character = true)
    (rest : List Char) (tokens : List Token) :
    tokenizeLoop maxTerms (character :: rest) tokens = tokenizeLoop maxTerms rest tokens := by
  rw [tokenizeLoop_cons, if_pos white]

theorem addToken_eq_ok {character : Char} {reading : Reading} {tokens longer : List Token} :
    addToken maxTerms character reading tokens = .ok longer ↔
      reading.quoted = false ∧ reading.value ≠ [] ∧ tokens.length + 1 ≤ maxTerms ∧
        longer = tokens ++ [⟨reading.value, character = '-', reading.literal⟩] := by
  rw [addToken]
  split
  · rename_i opened
    simp [opened]
  · rename_i closed
    split
    · rename_i empty
      simp [List.isEmpty_iff.mp empty]
    · rename_i filled
      split
      · rename_i many
        simp only [reduceCtorEq, false_iff, not_and]
        intro _ _ few
        omega
      · rename_i few
        rw [List.isEmpty_iff] at filled
        simp only [Except.ok.injEq]
        constructor
        · rintro rfl
          exact ⟨by simpa using closed, filled, by omega, rfl⟩
        · rintro ⟨-, -, -, rfl⟩
          rfl

variable {tokens : List Token} {read : List Token}

theorem tokenizeLoop_blank (text : List Char) (tokens : List Token)
    (blank : ∀ char ∈ more, isWhitespace char = true) :
    tokenizeLoop maxTerms (text ++ more) tokens = tokenizeLoop maxTerms text tokens := by
  have separates := separates_of_blank blank
  fun_induction tokenizeLoop maxTerms text tokens with
  | case1 tokens =>
    rw [List.nil_append]
    induction more with
    | nil => rw [tokenizeLoop_nil]
    | cons char more ih =>
      rw [List.forall_mem_cons] at blank
      rw [tokenizeLoop_cons, if_pos blank.1]
      exact ih blank.2 (separates_of_blank blank.2)
  | case2 tokens character rest white ih =>
    rw [List.cons_append, tokenizeLoop_cons, if_pos white]
    exact ih
  | case3 tokens character rest shown error failed =>
    rw [List.cons_append, tokenizeLoop_cons, if_neg shown]
    by_cases opened : (readToken rest (.start character)).1.quoted = true
    · have still := readToken_append_open rest (.start character) blank opened
      rw [addToken, if_pos opened] at failed
      rw [addToken, if_pos still]
      exact failed
    · rw [readToken_append rest _ separates (by simpa using opened), failed]
  | case4 tokens character rest shown longer added ih =>
    have closed := (addToken_eq_ok.mp added).1
    rw [List.cons_append, tokenizeLoop_cons, if_neg shown, readToken_append rest _ separates closed,
      added]
    exact ih

theorem tokenizeLoop_dropWhile (text : List Char) (tokens : List Token) :
    tokenizeLoop maxTerms (text.dropWhile isWhitespace) tokens =
      tokenizeLoop maxTerms text tokens := by
  induction text with
  | nil => rfl
  | cons character rest ih =>
    rw [List.dropWhile_cons]
    split
    · rename_i white
      rw [ih, tokenizeLoop_white white]
    · rfl

theorem tokenizeLoop_trimChars (text : List Char) (tokens : List Token) :
    tokenizeLoop maxTerms (trimChars text) tokens = tokenizeLoop maxTerms text tokens := by
  rw [trimChars, ← tokenizeLoop_dropWhile text]
  generalize text.dropWhile isWhitespace = rest
  have split := congrArg List.reverse (@List.takeWhile_append_dropWhile _ isWhitespace rest.reverse)
  rw [List.reverse_append, List.reverse_reverse] at split
  have blank : ∀ char ∈ (rest.reverse.takeWhile isWhitespace).reverse,
      isWhitespace char = true := by
    intro char member
    exact List.all_eq_true.mp List.all_takeWhile char (List.mem_reverse.mp member)
  rw [← tokenizeLoop_blank _ _ blank, split]

def escape (text : List Char) : List Char :=
  text.flatMap fun char => if char = '"' ∨ char = '\\' then ['\\', char] else [char]

variable {terms : List (List Char × Bool × List Char)}

section

variable (blank : ∀ term ∈ terms, ∀ char ∈ term.1, isWhitespace char = true)

include blank

end

end

end JtermCore.Search
