import JtermCore.Search.Lexer
import JtermCore.Tasks.Task

/-!
# Queries

A query is a list of terms that a row has to meet all.  The two searches read
their terms alike; each has its own limits, its own fields, and its own texts for
what it refuses.
-/

namespace JtermCore.Search

open ExecutionJournal Result Tasks Utf8

class SearchLibraries extends Libraries where
  lowercase : List Char → List Char
  lowercase_ne_nil : ∀ text, text ≠ [] → lowercase text ≠ []
  lowercase_ascii : ∀ text : List Char, (∀ char ∈ text, char.toNat < 0x80) →
    lowercase text = text.map toAsciiLowercase
  uuidText : TaskId → List Char
  localHostId : List Char
  visible_ascii : ∀ char : Char, 0x20 ≤ char.toNat → char.toNat < 0x7f →
    isUnsafeInvisibleChar char = false

def named {α : Type} (table : List (String × α)) (name : List Char) : Option α :=
  (table.find? fun entry => entry.1.toList = name).map Prod.snd

theorem named_cons {α : Type} (name word : String) (value : α) (table : List (String × α)) :
    named ((name, value) :: table) word.toList =
      if name = word then some value else named table word.toList := by
  by_cases same : name = word
  · rw [if_pos same, named, List.find?_cons_of_pos (by simp [same])]
    rfl
  · have other : ¬name.toList = word.toList := fun equal => same (String.toList_inj.mp equal)
    rw [if_neg same, named, List.find?_cons_of_neg (by simp [other])]
    rfl

def splitOnceColon (text : List Char) : Option (List Char × List Char) :=
  (text.findIdx? fun char => char = ':').map fun place => (text.take place, text.drop (place + 1))

def isAsciiAlphabetic (char : Char) : Bool :=
  ('a' ≤ char && char ≤ 'z') || ('A' ≤ char && char ≤ 'Z')

/-- What is ordinary text in spite of its colon: an URL or a Windows path. -/
def isAddress (name value : List Char) : Bool := "//".toList.isPrefixOf value ||
    match name with
    | [letter] => isAsciiAlphabetic letter && (value.head? = some '/' || value.head? = some '\\')
    | _ => false

/-- What a search has of its own. -/
structure Language (Field : Type) where
  maxBytes : Nat
  maxTerms : Nat
  tooLong : String
  parseField : List Char → Option Field
  text : Field
  unknown : List Char → String
  alternatives : Field → Bool
  accepts : Field → List Char → Bool
  invalid : Field → List Char → String
  text_alternatives : alternatives text = false
  accepts_text : ∀ value, value ≠ [] → accepts text value = true
  maxTerms_pos : 0 < maxTerms

/-- What a token asks for: the field, the value as it was entered, and the
values to compare with. -/
structure Constraint (Field : Type) where
  field : Field
  value : List Char
  values : List (List Char)
  negated : Bool
deriving DecidableEq

section

variable [SearchLibraries] {Field : Type} (language : Language Field)

def isHidden (character : Char) : Bool :=
  !(character = '\t' || character = '\n' || character = '\r') &&
    (isControl character || Libraries.isUnsafeInvisibleChar character)

def fieldOf (token : Token) : Except String (Field × List Char) :=
  if token.literal then .ok (language.text, token.value)
  else
    match splitOnceColon token.value with
    | some (name, value) =>
      match language.parseField name with
      | some field => .ok (field, value)
      | none =>
        if isAddress name value then .ok (language.text, token.value)
        else .error (language.unknown name)
    | none => .ok (language.text, token.value)

def constrain (token : Token) : Except String (Constraint Field) := do
  let (field, value) ← fieldOf language token
  let values :=
    if language.alternatives field then (value.splitOn ',').map normalize
    else [SearchLibraries.lowercase value]
  reject (values.any fun value => value.isEmpty || !language.accepts field value)
    (language.invalid field token.value)
  return ⟨field, value, values, token.negated⟩

def constrainAll : List Token → Except String (List (Constraint Field))
  | [] => .ok []
  | token :: tokens => do
    let term ← constrain language token
    let terms ← constrainAll tokens
    return term :: terms

def parseTerms (text : List Char) : Except String (List (Constraint Field)) := do
  reject (language.maxBytes < utf8Length text) language.tooLong
  reject (text.any isHidden)
    "Remove hidden control or direction-changing characters from the search."
  let tokens ← tokenizeWithLimit (trimChars text) language.maxTerms
  constrainAll language tokens

variable {language}

variable {text : List Char} {terms : List (Constraint Field)}

theorem parseTerms_eq_ok :
    parseTerms language text = .ok terms ↔
      utf8Length text ≤ language.maxBytes ∧ text.any isHidden = false ∧
        ∃ tokens, tokenizeWithLimit text language.maxTerms = .ok tokens ∧
          constrainAll language tokens = .ok terms := by
  simp only [parseTerms, bind_eq_ok, reject_eq_ok, Nat.not_lt, Bool.not_eq_true,
    tokenizeWithLimit, tokenizeLoop_trimChars, exists_and_left, exists_const]

variable {others : List (Constraint Field)}

end

end JtermCore.Search
