import Mathlib.Algebra.Order.Ring.Int
import Mathlib.Data.List.Basic

/-!
# Compact JSON

JSON values with the text that a compact writer gives them, and a reader of
such texts.  The reader gives back every value whose text has been written.
-/

namespace JtermCore.CompactJson

inductive Json where
  | null
  | bool (value : Bool)
  | integer (value : Int)
  | float
  | string (text : List Char)
  | array (items : List Json)
  | object (members : List (List Char × Json))

/-- A character inside a string. -/
def escapeChar (char : Char) : List Char :=
  if char = '"' then ['\\', '"']
  else if char = '\\' then ['\\', '\\']
  else if char.toNat = 0x08 then ['\\', 'b']
  else if char.toNat = 0x09 then ['\\', 't']
  else if char.toNat = 0x0a then ['\\', 'n']
  else if char.toNat = 0x0c then ['\\', 'f']
  else if char.toNat = 0x0d then ['\\', 'r']
  else if char.toNat < 0x20 then
    ['\\', 'u', '0', '0', Nat.digitChar (char.toNat / 16), Nat.digitChar (char.toNat % 16)]
  else [char]

def quote (text : List Char) : List Char := '"' :: (text.flatMap escapeChar ++ ['"'])

def printInteger (value : Int) : List Char :=
  if value < 0 then '-' :: Nat.toDigits 10 value.natAbs else Nat.toDigits 10 value.toNat

/-- Texts with a comma between each two. -/
def separated : List (List Char) → List Char
  | [] => []
  | [text] => text
  | text :: next :: texts => text ++ ',' :: separated (next :: texts)

mutual

/-- The compact text of a value. -/
def Json.print : Json → List Char
  | .null => ['n', 'u', 'l', 'l']
  | .bool true => ['t', 'r', 'u', 'e']
  | .bool false => ['f', 'a', 'l', 's', 'e']
  | .integer value => printInteger value
  | .float => ['0', '.', '0']
  | .string text => quote text
  | .array items => '[' :: (separated (itemTexts items) ++ [']'])
  | .object members => '\x7b' :: (separated (memberTexts members) ++ ['\x7d'])

def itemTexts : List Json → List (List Char)
  | [] => []
  | item :: items => item.print :: itemTexts items

def memberTexts : List (List Char × Json) → List (List Char)
  | [] => []
  | (name, value) :: members => (quote name ++ ':' :: value.print) :: memberTexts members

end

def memberText (member : List Char × Json) : List Char := quote member.1 ++ ':' :: member.2.print

theorem itemTexts_eq (items : List Json) : itemTexts items = items.map Json.print := by
  induction items with
  | nil => rfl
  | cons item items ih => rw [itemTexts, ih, List.map_cons]

theorem memberTexts_eq (members : List (List Char × Json)) :
    memberTexts members = members.map memberText := by
  induction members with
  | nil => rfl
  | cons member members ih => rw [memberTexts, ih, List.map_cons, memberText]

/-- Values of a nesting depth whose text can be read back: no fraction, and
integers of 64 bits. -/
inductive Json.Exact : Nat → Json → Prop where
  | null {depth : Nat} : Exact depth .null
  | bool {depth : Nat} (value : Bool) : Exact depth (.bool value)
  | integer {depth : Nat} {value : Int} (least : -(2 ^ 63) ≤ value) (most : value < 2 ^ 64) :
      Exact depth (.integer value)
  | string {depth : Nat} (text : List Char) : Exact depth (.string text)
  | array {depth : Nat} {items : List Json} (inner : ∀ item ∈ items, Exact depth item) :
      Exact (depth + 1) (.array items)
  | object {depth : Nat} {members : List (List Char × Json)}
      (inner : ∀ member ∈ members, Exact depth member.2) : Exact (depth + 1) (.object members)

/-- The character behind a backslash. -/
def unescape (letter : Char) : Option Char :=
  if letter = '"' then some '"'
  else if letter = '\\' then some '\\'
  else if letter = '/' then some '/'
  else if letter = 'b' then some (Char.ofNat 0x08)
  else if letter = 't' then some (Char.ofNat 0x09)
  else if letter = 'n' then some (Char.ofNat 0x0a)
  else if letter = 'f' then some (Char.ofNat 0x0c)
  else if letter = 'r' then some (Char.ofNat 0x0d)
  else none

/-- The value of a hexadecimal digit. -/
def hexDigit (char : Char) : Option Nat := (List.range 16).find? fun digit => digit.digitChar = char

/-- The rest of a string behind its opening quote. -/
def readString : List Char → Option (List Char × List Char)
  | [] => none
  | char :: afterChar =>
    if char = '"' then some ([], afterChar)
    else if char ≠ '\\' then
      (readString afterChar).map fun read => (char :: read.1, read.2)
    else
      match afterChar with
      | [] => none
      | letter :: afterLetter =>
        if letter ≠ 'u' then
          match unescape letter with
          | none => none
          | some escaped =>
            (readString afterLetter).map fun read => (escaped :: read.1, read.2)
        else
          match afterLetter with
          | '0' :: '0' :: high :: low :: afterDigits =>
            match hexDigit high, hexDigit low with
            | some high, some low =>
              (readString afterDigits).map fun read =>
                (Char.ofNat (high * 16 + low) :: read.1, read.2)
            | _, _ => none
          | _ => none

def readDigits (text : List Char) : Option (Nat × List Char) :=
  let digits := text.takeWhile Char.isDigit
  if digits.isEmpty then none
  else some (Nat.ofDigitChars 10 digits 0, text.dropWhile Char.isDigit)

def readSeparated {α : Type} (element : List Char → Option (α × List Char)) (close : Char) :
    Nat → List Char → Option (List α × List Char)
  | 0, _ => none
  | fuel + 1, text =>
    match element text with
    | none => none
    | some (_, []) => none
    | some (item, char :: rest) =>
      if char = close then some ([item], rest)
      else if char = ',' then
        (readSeparated element close fuel rest).map fun read => (item :: read.1, read.2)
      else none

def readElements {α : Type} (element : List Char → Option (α × List Char)) (close : Char)
    (fuel : Nat) (text : List Char) : Option (List α × List Char) :=
  if text.head? = some close then some ([], text.tail)
  else readSeparated element close fuel text

/-- A name, a colon and a value. -/
def readMember (readValue : List Char → Option (Json × List Char)) (text : List Char) :
    Option ((List Char × Json) × List Char) :=
  match text with
  | '"' :: afterQuote =>
    match readString afterQuote with
    | some (name, ':' :: afterColon) =>
      (readValue afterColon).map fun read => ((name, read.1), read.2)
    | _ => none
  | _ => none

/-- A value in front of a text, and the text behind it. -/
def readValue : Nat → List Char → Option (Json × List Char)
  | 0, _ => none
  | _, [] => none
  | fuel + 1, char :: rest =>
    if char = 'n' then
      (rest.dropPrefix? ['u', 'l', 'l']).map fun rest => (.null, rest)
    else if char = 't' then
      (rest.dropPrefix? ['r', 'u', 'e']).map fun rest => (.bool true, rest)
    else if char = 'f' then
      (rest.dropPrefix? ['a', 'l', 's', 'e']).map fun rest => (.bool false, rest)
    else if char = '"' then (readString rest).map fun read => (.string read.1, read.2)
    else if char = '[' then
      (readElements (readValue fuel) ']' fuel rest).map fun read => (.array read.1, read.2)
    else if char = '\x7b' then
      (readElements (readMember (readValue fuel)) '\x7d' fuel rest).map fun read =>
        (.object read.1, read.2)
    else if char = '-' then
      (readDigits rest).map fun read => (.integer (-(read.1 : Int)), read.2)
    else (readDigits (char :: rest)).map fun read => (.integer read.1, read.2)

def read (text : List Char) : Option Json :=
  match readValue (text.length + 1) text with
  | some (value, []) => some value
  | _ => none

theorem hexDigit_digitChar : ∀ digit < 16, hexDigit digit.digitChar = some digit := by decide

theorem readString_escaped {letter char : Char} (rest : List Char)
    (escaped : unescape letter = some char) :
    readString ('\\' :: letter :: rest) =
      (readString rest).map fun read => (char :: read.1, read.2) := by
  have unknown : unescape 'u' = none := rfl
  have plain : letter ≠ 'u' := by
    rintro rfl
    rw [unknown] at escaped
    cases escaped
  have slash : '\\' ≠ '"' := by decide
  rw [readString.eq_def]
  simp only [if_neg slash, ne_eq, not_true_eq_false, if_false, plain, not_false_eq_true, if_true,
    escaped]

theorem readString_escapeChar (char : Char) (rest : List Char) :
    readString (escapeChar char ++ rest) =
      (readString rest).map fun read => (char :: read.1, read.2) := by
  have same : ∀ code : Nat, char.toNat = code → char = Char.ofNat code := by
    rintro code rfl
    exact (Char.ofNat_toNat char).symm
  unfold escapeChar
  split
  · subst char
    exact readString_escaped rest rfl
  split
  · subst char
    exact readString_escaped rest rfl
  split
  · rw [same 0x08 ‹_›]
    exact readString_escaped rest rfl
  split
  · rw [same 0x09 ‹_›]
    exact readString_escaped rest rfl
  split
  · rw [same 0x0a ‹_›]
    exact readString_escaped rest rfl
  split
  · rw [same 0x0c ‹_›]
    exact readString_escaped rest rfl
  split
  · rw [same 0x0d ‹_›]
    exact readString_escaped rest rfl
  split
  · rename_i control
    have high := hexDigit_digitChar (char.toNat / 16) (by omega)
    have low := hexDigit_digitChar (char.toNat % 16) (by omega)
    have whole : char.toNat / 16 * 16 + char.toNat % 16 = char.toNat := by omega
    simp only [List.cons_append, List.nil_append]
    rw [readString.eq_def]
    simp [high, low, whole]
  · rename_i quoted slashed _ _ _ _ _ _
    rw [List.singleton_append, readString.eq_def]
    simp only [if_neg quoted, ne_eq, slashed, not_false_eq_true, if_true]

theorem readString_quote (text rest : List Char) :
    readString (text.flatMap escapeChar ++ '"' :: rest) = some (text, rest) := by
  induction text with
  | nil =>
    rw [List.flatMap_nil, List.nil_append, readString.eq_def]
    simp
  | cons char text ih =>
    rw [List.flatMap_cons, List.append_assoc, readString_escapeChar, ih]
    rfl

/-- A text that does not go on with a digit. -/
def Ends (rest : List Char) : Prop := ∀ char ∈ rest.head?, char.isDigit = false

theorem ends_cons {char : Char} (rest : List Char) (other : char.isDigit = false) :
    Ends (char :: rest) := by
  intro first head
  obtain rfl : char = first := by simpa using head
  exact other

theorem readDigits_toDigits (value : Nat) {rest : List Char} (ends : Ends rest) :
    readDigits (Nat.toDigits 10 value ++ rest) = some (value, rest) := by
  have digits : ∀ char ∈ Nat.toDigits 10 value, char.isDigit = true := fun char member =>
    Nat.isDigit_of_mem_toDigits (by decide) (by decide) member
  have stop : rest.takeWhile Char.isDigit = [] ∧ rest.dropWhile Char.isDigit = rest := by
    cases rest with
    | nil => exact ⟨rfl, rfl⟩
    | cons char rest =>
      have other := ends char rfl
      simp [other]
  rw [readDigits, List.takeWhile_append_of_pos digits, List.dropWhile_append_of_pos digits, stop.1,
    stop.2, List.append_nil]
  have some : (Nat.toDigits 10 value).isEmpty = false :=
    List.isEmpty_eq_false_iff.mpr Nat.toDigits_ne_nil
  simp only [some, Bool.false_eq_true, if_false, Nat.ofDigitChars_ten_toDigits]

variable {texts : List (List Char)}

theorem separated_cons {text : List Char} (more : texts ≠ []) :
    separated (text :: texts) = text ++ ',' :: separated texts := by
  cases texts with
  | nil => exact absurd rfl more
  | cons next texts => rfl

section

variable {α : Type} {element : List Char → Option (α × List Char)} {write : α → List Char}
  {close : Char}

theorem readSeparated_separated (bracket : close = ']' ∨ close = '\x7d') {items : List α}
    (some : items ≠ []) (rest : List Char)
    (reads : ∀ item ∈ items, ∀ rest, Ends rest → element (write item ++ rest) = .some (item, rest))
    {fuel : Nat} (enough : items.length ≤ fuel) :
    readSeparated element close fuel (separated (items.map write) ++ close :: rest) =
      .some (items, rest) := by
  have comma : ',' ≠ close := by rcases bracket with rfl | rfl <;> decide
  have closing : close.isDigit = false := by rcases bracket with rfl | rfl <;> decide
  induction items generalizing fuel with
  | nil => exact absurd rfl some
  | cons item items ih =>
    obtain ⟨fuel, rfl⟩ : ∃ less, fuel = less + 1 :=
      ⟨fuel - 1, by simp only [List.length_cons] at enough; omega⟩
    rw [readSeparated]
    by_cases last : items = []
    · subst last
      simp only [List.map_cons, List.map_nil, separated]
      rw [reads item List.mem_cons_self _ (ends_cons rest closing)]
      simp
    · rw [List.map_cons, separated_cons (by simpa using last), List.append_assoc,
        List.cons_append, reads item List.mem_cons_self _ (ends_cons _ (by decide))]
      simp only [List.length_cons, Nat.add_le_add_iff_right] at enough
      have tail := ih last (fun other member => reads other (List.mem_cons_of_mem _ member)) enough
      simp only [if_neg comma, if_true, tail, Option.map_some]

theorem readElements_separated (bracket : close = ']' ∨ close = '\x7d') (items : List α)
    (rest : List Char) (starts : ∀ item ∈ items, ∀ rest, (write item ++ rest).head? ≠ some close)
    (reads : ∀ item ∈ items, ∀ rest, Ends rest → element (write item ++ rest) = some (item, rest))
    {fuel : Nat} (enough : items.length ≤ fuel) :
    readElements element close fuel (separated (items.map write) ++ close :: rest) =
      some (items, rest) := by
  cases items with
  | nil => simp [readElements, separated]
  | cons item items =>
    have other : (separated ((item :: items).map write) ++ close :: rest).head? ≠ some close := by
      rw [List.map_cons]
      cases items with
      | nil => exact starts item List.mem_cons_self _
      | cons next items =>
        rw [List.map_cons, separated, List.append_assoc]
        exact starts item List.mem_cons_self _
    rw [readElements, if_neg other]
    exact readSeparated_separated bracket (List.cons_ne_nil _ _) rest reads enough

end

theorem length_separated (texts : List (List Char)) :
    (separated texts).length = (texts.map List.length).sum + (texts.length - 1) := by
  induction texts with
  | nil => rfl
  | cons text texts ih =>
    cases texts with
    | nil => simp [separated]
    | cons next texts =>
      rw [separated, List.length_append, List.length_cons, ih]
      simp only [List.map_cons, List.sum_cons, List.length_cons]
      omega

theorem length_le_separated {text : List Char}
    (member : text ∈ texts) : text.length ≤ (separated texts).length := by
  induction texts with
  | nil => cases member
  | cons first texts ih =>
    rw [length_separated, List.map_cons, List.sum_cons]
    rw [length_separated] at ih
    rcases List.mem_cons.mp member with rfl | later
    · omega
    · have part := ih later
      rw [List.length_cons]
      omega

theorem head_printInteger (value : Int) : ∃ char rest, printInteger value = char :: rest ∧
    (char = '-' ∨ char.isDigit = true) := by
  unfold printInteger
  split
  · exact ⟨_, _, rfl, .inl rfl⟩
  · obtain ⟨char, rest, digits⟩ := List.exists_cons_of_ne_nil
      (Nat.toDigits_ne_nil : Nat.toDigits 10 value.toNat ≠ [])
    refine ⟨char, rest, digits, .inr ?_⟩
    exact Nat.isDigit_of_mem_toDigits (n := value.toNat) (by decide) (by decide)
      (digits ▸ List.mem_cons_self)

theorem head_print (json : Json) (rest : List Char) : (json.print ++ rest).head? ≠ some ']' := by
  cases json with
  | null => simp [Json.print]
  | bool value => cases value <;> simp [Json.print]
  | integer value =>
    obtain ⟨char, digits, printed, which⟩ := head_printInteger value
    rw [Json.print, printed]
    intro head
    obtain rfl : char = ']' := by simpa using head
    revert which
    decide
  | float => simp [Json.print]
  | string text => simp [Json.print, quote]
  | array items => simp [Json.print]
  | object members => simp [Json.print]

theorem readValue_printInteger (fuel : Nat) (value : Int) {rest : List Char} (ends : Ends rest) :
    readValue (fuel + 1) (printInteger value ++ rest) = some (.integer value, rest) := by
  obtain ⟨char, digits, printed, which⟩ := head_printInteger value
  have plain : char ≠ 'n' ∧ char ≠ 't' ∧ char ≠ 'f' ∧ char ≠ '"' ∧ char ≠ '[' ∧ char ≠ '\x7b' := by
    refine ⟨?_, ?_, ?_, ?_, ?_, ?_⟩ <;> rintro rfl <;> revert which <;> decide
  obtain ⟨n, t, f, quoted, bracket, brace⟩ := plain
  rw [printed, List.cons_append, readValue, if_neg n, if_neg t, if_neg f, if_neg quoted,
    if_neg bracket, if_neg brace]
  unfold printInteger at printed
  split at printed
  · rename_i negative
    obtain ⟨rfl, rfl⟩ := List.cons.inj printed
    rw [if_pos rfl, readDigits_toDigits _ ends]
    have same : -(value.natAbs : Int) = value := by omega
    simp only [Option.map_some, same]
  · rename_i positive
    have minus : char ≠ '-' := by
      rintro rfl
      have digit := Nat.isDigit_of_mem_toDigits (b := 10) (n := value.toNat) (c := '-') (by decide)
        (by decide) (printed ▸ List.mem_cons_self)
      revert digit
      decide
    rw [if_neg minus, ← List.cons_append, ← printed, readDigits_toDigits _ ends]
    have same : (value.toNat : Int) = value := by omega
    simp [same]

theorem readValue_print {json : Json} {depth fuel : Nat} {rest : List Char}
    (exact : json.Exact depth) (enough : json.print.length < fuel) (ends : Ends rest) :
    readValue fuel (json.print ++ rest) = some (json, rest) := by
  induction fuel generalizing json depth rest with
  | zero => exact absurd enough (Nat.not_lt_zero _)
  | succ fuel ih =>
    cases exact with
    | null => simp [Json.print, readValue, List.dropPrefix?]
    | bool value => cases value <;> simp [Json.print, readValue, List.dropPrefix?]
    | integer _ _ =>
      rw [Json.print]
      exact readValue_printInteger fuel _ ends
    | string text =>
      rw [Json.print, quote, List.cons_append, List.append_assoc, readValue]
      simp [readString_quote]
    | @array _ items inner =>
      rw [Json.print, itemTexts_eq] at enough ⊢
      simp only [List.length_cons, List.length_append, List.length_nil] at enough
      have reads : ∀ item ∈ items, ∀ rest, Ends rest →
          readValue fuel (item.print ++ rest) = some (item, rest) := by
        intro item member rest ends
        have short := length_le_separated (List.mem_map_of_mem (f := Json.print) member)
        exact ih (inner item member) (by omega) ends
      have few : items.length ≤ fuel := by
        rw [length_separated, List.length_map] at enough
        omega
      rw [List.cons_append, List.append_assoc, List.singleton_append, readValue]
      simp [readElements_separated (.inl rfl) items rest (fun item _ => head_print item) reads few]
    | @object _ members inner =>
      rw [Json.print, memberTexts_eq] at enough ⊢
      simp only [List.length_cons, List.length_append, List.length_nil] at enough
      have reads : ∀ member ∈ members, ∀ rest, Ends rest →
          readMember (readValue fuel) (memberText member ++ rest) = some (member, rest) := by
        intro member inside rest ends
        have short := length_le_separated (List.mem_map_of_mem (f := memberText) inside)
        have value := @ih _ _ rest (inner member inside) (by
          simp only [memberText, List.length_append, List.length_cons] at short
          omega) ends
        simp only [memberText, quote, List.cons_append, List.append_assoc, List.nil_append,
          readMember, readString_quote, value]
        rfl
      have few : members.length ≤ fuel := by
        rw [length_separated, List.length_map] at enough
        omega
      have starts : ∀ member ∈ members, ∀ rest, (memberText member ++ rest).head? ≠
          some '\x7d' := by
        intro member _ rest
        simp [memberText, quote]
      rw [List.cons_append, List.append_assoc, List.singleton_append, readValue]
      simp [readElements_separated (.inr rfl) members rest starts reads few]

theorem read_print {json : Json} {depth : Nat} (exact : json.Exact depth) :
    read json.print = some json := by
  have ends : Ends [] := by simp [Ends]
  have whole := readValue_print exact (Nat.lt_succ_self _) ends
  rw [List.append_nil] at whole
  rw [read, whole]

end JtermCore.CompactJson
