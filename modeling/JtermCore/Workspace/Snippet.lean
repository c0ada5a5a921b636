import JtermCore.Keybindings.Respelled

/-!
# Search snippets

The excerpt of a document that stands beside a search hit, as `snippet` of
`agent_workspace/search.rs` cuts it.  The words of the query are looked up in a
lowercase copy of the text, and the place found there is counted off in the
text itself.
-/

namespace JtermCore.Workspace

open Keybindings Chats

/-- The functions outside this repository that a snippet rests on. -/
class SnippetLibraries extends KeyLibraries where
  redactSecrets : Text → Text
  lowercaseChar_ne_nil : ∀ char, lowercaseChar char ≠ []

/-- `str::find`, counted in characters. -/
def find (pattern : Text) : Text → Option Nat
  | [] => if pattern = [] then some 0 else none
  | char :: rest =>
    if pattern.isPrefixOf (char :: rest) then some 0 else (find pattern rest).map (· + 1)

variable {text : Text} {place : Nat}

theorem find_le {pattern : Text} (found : find pattern text = some place) :
    place ≤ text.length := by
  induction text generalizing place with
  | nil =>
    rw [find] at found
    split at found
    · obtain rfl := Option.some.inj found
      exact Nat.le_refl 0
    · cases found
  | cons char rest induction =>
    rw [find] at found
    split at found
    · obtain rfl := Option.some.inj found
      exact Nat.zero_le _
    · obtain ⟨behind, later, rfl⟩ := Option.map_eq_some_iff.mp found
      exact Nat.succ_le_succ (induction later)

theorem find_lt {pattern : Text} (present : pattern ≠ [])
    (found : find pattern text = some place) : place < text.length := by
  induction text generalizing place with
  | nil => simp [find, present] at found
  | cons char rest induction =>
    rw [find] at found
    split at found
    · obtain rfl := Option.some.inj found
      simp
    · obtain ⟨behind, later, rfl⟩ := Option.map_eq_some_iff.mp found
      exact Nat.succ_lt_succ (induction later)

def trimQuotes (word : Text) : Text :=
  ((word.dropWhile (· = '"')).reverse.dropWhile (· = '"')).reverse

/-- What `snippet` looks up: the words of the query without the quotes around
them, but for those with a colon and those behind a minus. -/
def snippetTerms (query : Text) : List Text :=
  ((splitWhitespace query).map trimQuotes).filter fun term =>
    !term.isEmpty && !term.contains ':' && term.head? ≠ some '-'

/-- The words of a query that have no quote and no colon and are not negated. -/
def unquotedTerms (query : Text) : List Text := (splitWhitespace query).filter fun word =>
    !word.isEmpty && !word.contains '"' && !word.contains ':' && word.head? ≠ some '-'

theorem trimQuotes_eq_self {word : Text} (plain : '"' ∉ word) : trimQuotes word = word := by
  have kept : ∀ text : Text, '"' ∉ text → text.dropWhile (· = '"') = text := by
    intro text none
    cases text with
    | nil => rfl
    | cons char rest =>
      have other : char ≠ '"' := fun same => none (same ▸ List.mem_cons_self)
      rw [List.dropWhile_cons_of_neg (by simpa using other)]
  rw [trimQuotes, kept word plain, kept word.reverse (by simpa using plain), List.reverse_reverse]

theorem mem_snippetTerms {query word : Text} (unquoted : word ∈ unquotedTerms query) :
    word ∈ snippetTerms query := by
  simp only [unquotedTerms, List.mem_filter, Bool.and_eq_true, Bool.not_eq_true',
    decide_eq_true_eq] at unquoted
  obtain ⟨member, ⟨⟨present, plain⟩, open_⟩, positive⟩ := unquoted
  have plain : '"' ∉ word := by simpa using plain
  simp only [snippetTerms, List.mem_filter, List.mem_map, Bool.and_eq_true, Bool.not_eq_true',
    decide_eq_true_eq]
  exact ⟨⟨word, member, trimQuotes_eq_self plain⟩, ⟨present, open_⟩, positive⟩

section

variable [SnippetLibraries]

/-- The first place where one of the words stands in a lowercase text. -/
def earliest (terms : List Text) (lowered : Text) : Option Nat :=
  (terms.filterMap fun term => find (lowercase term) lowered).min?

/-- The characters that `snippet` does not take out. -/
def isShown (char : Char) : Bool := !ExecutionJournal.isControl char || char = '\n' || char = '\t'

def snippet (text query : Text) : Text :=
  let safe := SnippetLibraries.redactSecrets text
  let lower := lowercase safe
  let matchedChars := (earliest (snippetTerms query) lower).getD 0
  let start := matchedChars - 48
  let stop := min (start + 300) safe.length
  (if 0 < start then ['…'] else []) ++
    ((safe.drop start).take (stop - start)).filter isShown ++
    (if stop < safe.length then ['…'] else [])

/-- How many characters the lowercase form of a character has. -/
def lowercaseSize (char : Char) : Nat :=
  if char = 'Σ' then 1 else (KeyLibraries.lowercaseChar char).length

theorem lowercaseSize_pos (char : Char) : 0 < lowercaseSize char := by
  rw [lowercaseSize]
  split
  · exact Nat.one_pos
  · exact List.length_pos_of_ne_nil (SnippetLibraries.lowercaseChar_ne_nil char)

theorem length_lowercaseLoop (before text : Text) :
    (lowercaseLoop before text).length = (text.map lowercaseSize).sum := by
  induction text generalizing before with
  | nil => rfl
  | cons char rest induction =>
    rw [lowercaseLoop, List.length_append, induction, List.map_cons, List.sum_cons, lowercaseSize]
    split
    · split <;> rfl
    · rfl

theorem length_lowercase (text : Text) : (lowercase text).length = (text.map lowercaseSize).sum :=
  length_lowercaseLoop [] text

theorem lowercase_ne_nil (present : text ≠ []) : lowercase text ≠ [] := by
  cases text with
  | nil => exact absurd rfl present
  | cons char rest =>
    apply List.ne_nil_of_length_pos
    rw [length_lowercase, List.map_cons, List.sum_cons]
    have := lowercaseSize_pos char
    omega

def origin : Text → Nat → Nat
  | [], _ => 0
  | char :: rest, place =>
    if place < lowercaseSize char then 0 else origin rest (place - lowercaseSize char) + 1

theorem origin_spec (within : place < (lowercase text).length) : origin text place < text.length ∧
      (lowercase (text.take (origin text place))).length ≤ place ∧
      place < (lowercase (text.take (origin text place + 1))).length := by
  simp only [length_lowercase] at within ⊢
  induction text generalizing place with
  | nil => simp at within
  | cons char rest induction =>
    rw [List.map_cons, List.sum_cons] at within
    rw [origin]
    split
    · simp only [List.length_cons, List.take_zero, List.map_nil, List.sum_nil, zero_add,
        List.take_succ_cons, List.map_cons, List.sum_cons]
      omega
    · obtain ⟨inside, least, most⟩ := @induction (place - lowercaseSize char) (by omega)
      simp only [List.length_cons, List.take_succ_cons, List.map_cons, List.sum_cons]
      omega

variable {terms : List Text} {lowered : Text}

theorem earliest_mono {others : List Text}
    (fewer : ∀ term ∈ terms, term ∈ others) (found : earliest terms lowered = some place) :
    ∃ first, earliest others lowered = some first ∧ first ≤ place := by
  rw [earliest, List.min?_eq_some_iff] at found
  obtain ⟨term, member, stands⟩ := List.mem_filterMap.mp found.1
  have listed : place ∈ others.filterMap fun term => find (lowercase term) lowered :=
    List.mem_filterMap.mpr ⟨term, fewer term member, stands⟩
  cases some_ : earliest others lowered with
  | none =>
    rw [earliest, List.min?_eq_none_iff] at some_
    rw [some_] at listed
    cases listed
  | some first =>
    refine ⟨first, rfl, ?_⟩
    rw [earliest, List.min?_eq_some_iff] at some_
    exact some_.2 place listed

theorem exists_find (found : earliest terms lowered = some place) :
    ∃ term ∈ terms, find (lowercase term) lowered = some place := by
  rw [earliest, List.min?_eq_some_iff] at found
  exact List.mem_filterMap.mp found.1

theorem earliest_lt {query : Text} (unquoted : ∀ term ∈ terms, term ∈ unquotedTerms query)
    (found : earliest terms lowered = some place) : place < lowered.length := by
  obtain ⟨term, member, stands⟩ := exists_find found
  have present := unquoted term member
  simp only [unquotedTerms, List.mem_filter, Bool.and_eq_true, Bool.not_eq_true',
    List.isEmpty_eq_false_iff] at present
  exact find_lt (lowercase_ne_nil present.2.1.1.1) stands

def snippetStart (safe query : Text) : Nat :=
  (earliest (snippetTerms query) (lowercase safe)).getD 0 - 48

theorem snippetStart_nil (query : Text) : snippetStart [] query = 0 := by
  rw [snippetStart]
  cases found : earliest (snippetTerms query) (lowercase []) with
  | none => rfl
  | some place =>
    obtain ⟨term, -, stands⟩ := exists_find found
    have least : place ≤ 0 := find_le stands
    rw [Option.getD_some]
    omega

/-- A snippet shows the part `shown` of a text, with an ellipsis for each part
that is left out. -/
structure Excerpt (safe excerpt before shown after : Text) : Prop where
  whole : safe = before ++ shown ++ after
  bounded : shown.length ≤ 300
  written : excerpt = (if before = [] then [] else ['…']) ++ shown.filter isShown ++
    (if after = [] then [] else ['…'])

theorem excerpt_snippet (text query : Text) {safe : Text} {start : Nat}
    (redacted : safe = SnippetLibraries.redactSecrets text)
    (begins : start = snippetStart safe query) :
    Excerpt safe (snippet text query) (safe.take start) ((safe.drop start).take 300)
      ((safe.drop start).drop 300) := by
  refine ⟨by rw [List.append_assoc, List.take_append_drop, List.take_append_drop],
    List.length_take_le 300 _, ?_⟩
  have shown : (safe.drop start).take (min (start + 300) safe.length - start) =
      (safe.drop start).take 300 := by
    rw [List.take_eq_take_iff, List.length_drop]
    omega
  have front : safe.take start = [] ↔ ¬0 < start := by
    rw [List.take_eq_nil_iff]
    constructor
    · rintro (zero | empty)
      · omega
      · rw [begins, empty, snippetStart_nil]
        exact Nat.lt_irrefl 0
    · intro zero
      exact Or.inl (by omega)
  have back : (safe.drop start).drop 300 = [] ↔ ¬min (start + 300) safe.length < safe.length := by
    rw [List.drop_drop, List.drop_eq_nil_iff]
    omega
  have unfolded : snippet text query = (if 0 < start then ['…'] else []) ++
      ((safe.drop start).take (min (start + 300) safe.length - start)).filter isShown ++
      (if min (start + 300) safe.length < safe.length then ['…'] else []) := by
    rw [begins, redacted]
    rfl
  rw [unfolded, shown]
  simp only [front, back, ite_not]

/-- A snippet shows the first of the unquoted words exactly if lowercasing moves
the first word of the query by at most 48 characters against it, and that word
stands less than 252 characters before it. -/
theorem snippet_shows_match (text query : Text) (terms : List Text)
    (unquoted : ∀ term ∈ terms, term ∈ unquotedTerms query) :
    let safe := SnippetLibraries.redactSecrets text
    ∃ before shown after,
      Excerpt safe (snippet text query) before shown after ∧
      before.length = min (snippetStart safe query) safe.length ∧
      ∀ place, earliest terms (lowercase safe) = some place →
        ∃ first, earliest (snippetTerms query) (lowercase safe) = some first ∧
          ((before.length ≤ origin safe place ∧
              origin safe place < before.length + shown.length) ↔
            first ≤ origin safe place + 48 ∧ origin safe place < first - 48 + 300) := by
  intro safe
  refine ⟨_, _, _, excerpt_snippet text query rfl rfl, List.length_take, ?_⟩
  intro place found
  have wanted : ∀ term ∈ terms, term ∈ snippetTerms query :=
    fun term member => mem_snippetTerms (unquoted term member)
  obtain ⟨first, soonest, -⟩ := earliest_mono wanted found
  have inside := (origin_spec (earliest_lt unquoted found)).1
  have start : snippetStart safe query = first - 48 := by
    rw [snippetStart, soonest, Option.getD_some]
  refine ⟨first, soonest, ?_⟩
  rw [start, List.length_take, List.length_take, List.length_drop]
  omega

end

/-- Libraries in which the capital I with a dot is the only letter outside of
ASCII with another case, and nothing is a secret. -/
@[reducible]
def dottedSnippets : SnippetLibraries where
  __ := asciiKeys
  lowercaseChar char :=
    if char = 'İ' then ['i', Char.ofNat 0x307] else asciiKeys.lowercaseChar char
  lowercaseChar_idem {char low} lowered := by
    split at lowered
    · cases lowered
    · rename_i plain
      rw [if_neg, asciiKeys.lowercaseChar_idem lowered]
      rintro rfl
      change (if char = 'Σ' then ['σ'] else [Search.toAsciiLowercase char]) = ['İ'] at lowered
      split at lowered
      · exact absurd lowered (by decide)
      · rcases Search.capital_cases char with ⟨index, small, rfl⟩ | same
        · clear plain
          revert index
          decide
        · rw [same] at lowered
          exact plain (List.cons.inj lowered).1
  lowercaseChar_ascii {char} small := by
    rw [if_neg]
    · exact asciiKeys.lowercaseChar_ascii small
    · rintro rfl
      exact absurd small (by decide)
  lowercaseChar_sigma := rfl
  lowercaseChar_visible {char low} lowered space control shown := by
    split at lowered
    · cases lowered
    · exact asciiKeys.lowercaseChar_visible lowered space control shown
  redactSecrets text := text
  lowercaseChar_ne_nil char := by
    split
    · exact List.cons_ne_nil _ _
    · change (if char = 'Σ' then ['σ'] else [Search.toAsciiLowercase char]) ≠ []
      split <;> exact List.cons_ne_nil _ _

/-- Forty-nine dotted letters, and the word that is looked for. -/
def dottedText : Text := List.replicate 49 'İ' ++ ['x']

theorem dotted_match_hidden :
    let _ := dottedSnippets
    earliest (unquotedTerms ['x']) (lowercase (SnippetLibraries.redactSecrets dottedText)) =
        some 98 ∧
      origin (SnippetLibraries.redactSecrets dottedText) 98 = 49 ∧
      ¬∃ before shown after,
        Excerpt (SnippetLibraries.redactSecrets dottedText) (snippet dottedText ['x'])
          before shown after ∧
        before.length ≤ 49 ∧ 49 < before.length + shown.length := by
  intro libraries
  refine ⟨by decide +kernel, by decide +kernel, ?_⟩
  rintro ⟨before, shown, after, excerpt, least, most⟩
  have empty : snippet dottedText ['x'] = ['…'] := by
    decide +kernel
  have letters : ∀ char ∈ shown, char = 'İ' ∨ char = 'x' := by
    intro char member
    have inside : char ∈ dottedText := by
      rw [show dottedText = before ++ shown ++ after from excerpt.whole]
      exact List.mem_append_left _ (List.mem_append_right _ member)
    rcases List.mem_append.mp inside with dotted | last
    · exact Or.inl (List.eq_of_mem_replicate dotted)
    · exact Or.inr (List.mem_singleton.mp last)
  have kept : shown.filter isShown = shown := by
    rw [List.filter_eq_self]
    intro char member
    rcases letters char member with rfl | rfl <;> rfl
  cases shown with
  | nil =>
    simp only [List.length_nil] at most
    omega
  | cons char rest =>
    have written := excerpt.written
    rw [empty, kept] at written
    have member : char ∈ ['…'] := by
      rw [written]
      exact List.mem_append_left _ (List.mem_append_right _ List.mem_cons_self)
    rcases letters char List.mem_cons_self with rfl | rfl
    · exact absurd member (by decide)
    · exact absurd member (by decide)

theorem snippet_shows_match_word :
    let _ := dottedSnippets
    ∃ before shown after,
      Excerpt ['a', ' ', 'X'] (snippet ['a', ' ', 'X'] ['x']) before shown after ∧
      before.length = min (snippetStart ['a', ' ', 'X'] ['x']) 3 ∧
      ∀ place, earliest [['x']] (lowercase ['a', ' ', 'X']) = some place →
        ∃ first, earliest (snippetTerms ['x']) (lowercase ['a', ' ', 'X']) = some first ∧
          ((before.length ≤ origin ['a', ' ', 'X'] place ∧
              origin ['a', ' ', 'X'] place < before.length + shown.length) ↔
            first ≤ origin ['a', ' ', 'X'] place + 48 ∧
              origin ['a', ' ', 'X'] place < first - 48 + 300) := by
  intro libraries
  refine snippet_shows_match ['a', ' ', 'X'] ['x'] [['x']] ?_
  intro term member
  rw [List.mem_singleton.mp member]
  decide

end JtermCore.Workspace
