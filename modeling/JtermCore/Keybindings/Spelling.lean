import JtermCore.Keybindings.Written
import JtermCore.Search.Agreement

/-!
# Spellings of a chord

A token says the same in capital letters and in small ones, under each name of
what it stands for; and the modifiers of a chord may stand in any order.
-/

namespace JtermCore.Keybindings

open ExecutionJournal Lines Result Utf8
open Search (capital_cases named named_eq_some toAsciiLowercase toAsciiLowercase_idem)

variable [KeyLibraries]

/-- The letters of ASCII do not matter, as long as only these differ. -/
def SameLetters (token other : List Char) : Prop :=
  token.map toAsciiLowercase = other.map toAsciiLowercase

instance (token other : List Char) : Decidable (SameLetters token other) :=
  inferInstanceAs (Decidable (_ = _))

theorem lowercase_single (char : Char) : lowercase [char] = KeyLibraries.lowercaseChar char := by
  have neither : caseIgnorableThenCased [] = false := rfl
  rw [lowercase, lowercaseLoop, lowercaseLoop, List.append_nil]
  split
  · rename_i sigma
    rw [neither, Bool.false_and, if_neg Bool.false_ne_true, sigma, KeyLibraries.lowercaseChar_sigma]
  · rfl

variable {text : List Char}

theorem lowercaseLoop_of_not_mem (absent : 'Σ' ∉ text) (before : List Char) :
    lowercaseLoop before text = text.flatMap KeyLibraries.lowercaseChar := by
  induction text generalizing before with
  | nil => rfl
  | cons char rest ih =>
    have plain : char ≠ 'Σ' := fun same => absent (same ▸ List.mem_cons_self)
    rw [lowercaseLoop, if_neg plain, ih fun member => absent (List.mem_cons_of_mem char member)]
    rfl

theorem exists_sigma (member : 'Σ' ∈ text) (before : List Char) :
    ∃ char ∈ lowercaseLoop before text, 0x80 ≤ char.toNat := by
  induction text generalizing before with
  | nil => cases member
  | cons char rest ih =>
    rw [lowercaseLoop]
    rcases List.mem_cons.mp member with rfl | later
    · rw [if_pos rfl]
      split
      · exact ⟨'ς', List.mem_cons_self, by decide⟩
      · exact ⟨'σ', List.mem_cons_self, by decide⟩
    · obtain ⟨low, found, far⟩ := ih later (char :: before)
      exact ⟨low, List.mem_append_right _ found, far⟩

def IsAscii (text : List Char) : Prop := ∀ char ∈ text, char.toNat < 0x80

theorem sigma_not_mem (ascii : IsAscii (lowercase text)) : 'Σ' ∉ text := by
  intro member
  obtain ⟨char, found, far⟩ := exists_sigma member []
  exact absurd (ascii char found) (Nat.not_lt.mpr far)

theorem lowercase_ascii (ascii : IsAscii text) : lowercase text = text.map toAsciiLowercase := by
  have absent : 'Σ' ∉ text := by
    intro member
    exact absurd (ascii 'Σ' member) (by decide)
  rw [lowercase, lowercaseLoop_of_not_mem absent]
  clear absent
  induction text with
  | nil => rfl
  | cons char rest ih =>
    rw [List.flatMap_cons, List.map_cons,
      KeyLibraries.lowercaseChar_ascii (ascii char List.mem_cons_self),
      ih fun other member => ascii other (List.mem_cons_of_mem char member)]
    rfl

variable {char : Char}

omit [KeyLibraries] in
theorem toAsciiLowercase_lt (small : (toAsciiLowercase char).toNat < 0x80) : char.toNat < 0x80 := by
  rcases capital_cases char with ⟨index, letter, rfl⟩ | same
  · revert index
    decide
  · rwa [same] at small

theorem lowercaseChar_toAsciiLowercase (char : Char) :
    KeyLibraries.lowercaseChar (toAsciiLowercase char) = KeyLibraries.lowercaseChar char := by
  by_cases ascii : char.toNat < 0x80
  · have small : (toAsciiLowercase char).toNat < 0x80 := by
      rcases capital_cases char with ⟨index, letter, rfl⟩ | same
      · revert index
        decide
      · rwa [same]
    rw [KeyLibraries.lowercaseChar_ascii ascii, KeyLibraries.lowercaseChar_ascii small,
      toAsciiLowercase_idem]
  · rcases capital_cases char with ⟨index, letter, rfl⟩ | same
    · exfalso
      revert index
      decide
    · rw [same]

theorem lowercaseChar_of_same {char other : Char}
    (same : toAsciiLowercase char = toAsciiLowercase other) :
    KeyLibraries.lowercaseChar char = KeyLibraries.lowercaseChar other := by
  rw [← lowercaseChar_toAsciiLowercase char, same, lowercaseChar_toAsciiLowercase]

omit [KeyLibraries] in
theorem sigma_of_same (same : toAsciiLowercase char = 'Σ') : char = 'Σ' := by
  rcases capital_cases char with ⟨index, letter, rfl⟩ | unchanged
  · revert index
    decide
  · rw [← unchanged, same]

variable {token other : List Char}

theorem lowercase_of_same (same : SameLetters token other)
    (ascii : IsAscii (lowercase token)) : lowercase other = lowercase token := by
  have absent := sigma_not_mem ascii
  have further : 'Σ' ∉ other := by
    intro member
    have listed : 'Σ' ∈ token.map toAsciiLowercase := by
      rw [same]
      exact List.mem_map.mpr ⟨'Σ', member, by decide⟩
    obtain ⟨char, there, low⟩ := List.mem_map.mp listed
    exact absent (sigma_of_same low ▸ there)
  rw [lowercase, lowercase, lowercaseLoop_of_not_mem absent, lowercaseLoop_of_not_mem further]
  have step : ∀ text : List Char, text.flatMap KeyLibraries.lowercaseChar =
      (text.map toAsciiLowercase).flatMap KeyLibraries.lowercaseChar := by
    intro text
    rw [List.flatMap_map]
    exact List.flatMap_congr fun char _ => (lowercaseChar_toAsciiLowercase char).symm
  rw [step token, step other, same]

omit [KeyLibraries] in
theorem isAscii_of_named {α : Type} {table : List (String × α)} {name : List Char} {value : α}
    (plain : table.all (fun entry => entry.1.toList.all fun char => char.toNat < 0x80) = true)
    (found : named table name = some value) : IsAscii name := by
  obtain ⟨entry, listed, rfl, -⟩ := named_eq_some found
  have all := List.all_eq_true.mp (List.all_eq_true.mp plain entry listed)
  intro char member
  exact of_decide_eq_true (all char member)

omit [KeyLibraries] in
theorem isAscii_of_map {text : List Char} (ascii : IsAscii (text.map toAsciiLowercase)) :
    IsAscii text := by
  intro char member
  exact toAsciiLowercase_lt (ascii _ (List.mem_map_of_mem member))

omit [KeyLibraries] in
theorem modifierNames_ascii :
    modifierNames.all (fun entry => entry.1.toList.all fun char => char.toNat < 0x80) = true := by
  decide

omit [KeyLibraries] in
theorem keyNames_ascii :
    keyNames.all (fun entry => entry.1.toList.all fun char => char.toNat < 0x80) = true := by
  decide +kernel

def slotOf (token : List Char) : Option Modifier := named modifierNames (lowercase token)

/-- One more modifier, unless there is none or it is on already. -/
def Mods.add (mods : Mods) (slot : Option Modifier) : Option Mods :=
  slot.bind fun slot => if mods.get slot then none else some (mods.set slot)

def SameModifier (token other : List Char) : Prop :=
  SameLetters token other ∨ ∃ slot, named modifierNames (lowercase token) = some slot ∧
      named modifierNames (other.map toAsciiLowercase) = some slot

theorem foldlM_applyModifier (tokens : List (List Char)) (mods result : Mods) :
    tokens.foldlM applyModifier mods = .ok result ↔
      (tokens.map slotOf).foldlM Mods.add mods = some result := by
  induction tokens generalizing mods with
  | nil =>
    change Except.ok mods = .ok result ↔ some mods = some result
    rw [Except.ok.injEq, Option.some.injEq]
  | cons token tokens ih =>
    rw [List.foldlM_cons, List.map_cons, List.foldlM_cons, applyModifier]
    change _ ↔ ((slotOf token).bind _).bind _ = _
    rw [slotOf]
    cases named modifierNames (lowercase token) with
    | none =>
      constructor
      · intro done
        cases done
      · intro done
        cases done
    | some slot =>
      simp only [Option.bind_some]
      split
      · constructor
        · intro done
          cases done
        · intro done
          cases done
      · exact ih (mods.set slot)

omit [KeyLibraries] in
theorem Mods.add_comm (mods : Mods) (first second : Option Modifier) :
    (mods.add first).bind (fun mods => mods.add second) =
      (mods.add second).bind fun mods => mods.add first := by
  cases first with
  | none => cases mods.add second <;> rfl
  | some first =>
    cases second with
    | none => cases mods.add (some first) <;> rfl
    | some second =>
      obtain ⟨ctrl, shift, alt, sup⟩ := mods
      cases first <;> cases second <;> cases ctrl <;> cases shift <;> cases alt <;>
        cases sup <;> rfl

omit [KeyLibraries] in
theorem foldlM_add_perm {slots order : List (Option Modifier)} (permuted : slots.Perm order)
    (mods : Mods) : slots.foldlM Mods.add mods = order.foldlM Mods.add mods := by
  induction permuted generalizing mods with
  | nil => rfl
  | cons slot _ ih =>
    rw [List.foldlM_cons, List.foldlM_cons]
    congr 1
    funext mods
    exact ih mods
  | swap first second slots =>
    simp only [List.foldlM_cons, Option.bind_eq_bind, ← Option.bind_assoc]
    rw [Mods.add_comm]
  | trans _ _ first second => rw [first, second]

theorem slotOf_of_same (same : SameModifier token other)
    {slot : Modifier} (found : slotOf token = some slot) : slotOf other = some slot := by
  rcases same with letters | ⟨known, here, there⟩
  · rw [slotOf, lowercase_of_same letters (isAscii_of_named modifierNames_ascii found)]
    exact found
  · obtain rfl := Option.some.inj (found.symm.trans here)
    have ascii := isAscii_of_map (isAscii_of_named modifierNames_ascii there)
    rw [slotOf, lowercase_ascii ascii, there]

omit [KeyLibraries] in
theorem exists_slots {slots : List (Option Modifier)} {mods result : Mods}
    (done : slots.foldlM Mods.add mods = some result) : ∀ slot ∈ slots, slot ≠ none := by
  induction slots generalizing mods with
  | nil => simp
  | cons slot slots ih =>
    rw [List.foldlM_cons] at done
    obtain ⟨next, added, rest⟩ := Option.bind_eq_some_iff.mp done
    intro other member
    rcases List.mem_cons.mp member with rfl | later
    · intro absent
      rw [absent] at added
      cases added
    · exact ih rest other later

theorem map_slotOf_of_same {tokens others : List (List Char)}
    (same : List.Forall₂ SameModifier tokens others)
    (known : ∀ slot ∈ tokens.map slotOf, slot ≠ none) : others.map slotOf = tokens.map slotOf := by
  induction same with
  | nil => rfl
  | cons first _ ih =>
    rename_i token other tokens others
    obtain ⟨slot, found⟩ := Option.ne_none_iff_exists'.mp (known _ List.mem_cons_self)
    rw [List.map_cons, List.map_cons, slotOf_of_same first found, found,
      ih fun slot member => known slot (List.mem_cons_of_mem _ member)]

theorem foldlM_applyModifier_of_same {tokens order others : List (List Char)} {result : Mods}
    (permuted : order.Perm tokens) (same : List.Forall₂ SameModifier order others)
    (done : tokens.foldlM applyModifier {} = .ok result) :
    others.foldlM applyModifier {} = .ok result := by
  rw [foldlM_applyModifier] at done ⊢
  have moved : (order.map slotOf).foldlM Mods.add {} = some result := by
    rw [foldlM_add_perm (permuted.map slotOf), done]
  rw [map_slotOf_of_same same (exists_slots moved), moved]

def SameKey (token other : List Char) : Prop :=
  SameLetters token other ∨ ∃ sym, named keyNames (lowercase token) = some sym ∧
      named keyNames (other.map toAsciiLowercase) = some sym

omit [KeyLibraries] in
theorem isModifierName_of_named {name : List Char} {sym : KeySym}
    (found : named keyNames name = some sym) : isModifierName name = false := by
  have apart : keyNames.all (fun entry => !isModifierName entry.1.toList) = true := by
    decide +kernel
  obtain ⟨entry, listed, rfl, -⟩ := named_eq_some found
  simpa using List.all_eq_true.mp apart entry listed

variable {key : KeySym}

theorem parseFallbackKey_eq_ok {lower : List Char} :
    parseFallbackKey token lower = .ok key ↔
      (∃ digits, functionDigits lower = some digits ∧ 1 ≤ digitsValue digits ∧
        digitsValue digits ≤ 24 ∧ key = .function (digitsValue digits)) ∨
      (functionDigits lower = none ∧ ∃ char low, token = [char] ∧
        KeyLibraries.lowercaseChar char = [low] ∧ key = .char low) := by
  unfold parseFallbackKey
  cases functionDigits lower with
  | some digits =>
    simp only [Option.some.injEq, reduceCtorEq, false_and, or_false, exists_eq_left']
    split
    · rename_i range
      rw [Except.ok.injEq]
      constructor
      · rintro rfl
        exact ⟨range.1, range.2, rfl⟩
      · rintro ⟨-, -, rfl⟩
        rfl
    · rename_i beyond
      constructor
      · intro done
        cases done
      · rintro ⟨least, most, -⟩
        exact absurd ⟨least, most⟩ beyond
  | none =>
    simp only [reduceCtorEq, false_and, exists_false, false_or, true_and]
    constructor
    · intro done
      split at done
      · rename_i char
        split at done
        · rename_i low lowered
          exact ⟨char, low, rfl, lowered, (Except.ok.inj done).symm⟩
        · cases done
      · cases done
    · rintro ⟨char, low, rfl, lowered, rfl⟩
      simp only [lowered]

theorem parseKeyToken_eq_ok :
    parseKeyToken token = .ok key ↔ isModifierName (lowercase token) = false ∧
      (named keyNames (lowercase token) = some key ∨ named keyNames (lowercase token) = none ∧
          parseFallbackKey token (lowercase token) = .ok key) := by
  unfold parseKeyToken
  simp only
  cases isModifierName (lowercase token) with
  | true => simp
  | false =>
    cases named keyNames (lowercase token) with
    | none => simp
    | some sym => simp

theorem parseKeyToken_of_named {sym : KeySym}
    (found : named keyNames (lowercase token) = some sym) : parseKeyToken token = .ok sym :=
  parseKeyToken_eq_ok.mpr ⟨isModifierName_of_named found, .inl found⟩

omit [KeyLibraries] in
theorem functionDigits_eq_some {lower digits : List Char}
    (found : functionDigits lower = some digits) : lower = 'f' :: digits ∧ digits ≠ [] ∧
      ∀ digit ∈ digits, isDigit digit = true := by
  unfold functionDigits at found
  split at found
  · split at found
    · rename_i both
      obtain rfl := Option.some.inj found
      simpa using both
    · cases found
  · cases found

theorem single_or_ascii (accepted : parseKeyToken token = .ok key) :
    (∃ char, token = [char]) ∨ IsAscii (lowercase token) := by
  obtain ⟨-, found | ⟨-, fallback⟩⟩ := parseKeyToken_eq_ok.mp accepted
  · exact .inr (isAscii_of_named keyNames_ascii found)
  · rcases parseFallbackKey_eq_ok.mp fallback with ⟨digits, found, -⟩ | ⟨-, char, low, single, -⟩
    · right
      obtain ⟨whole, -, all⟩ := functionDigits_eq_some found
      rw [whole]
      intro char member
      rcases List.mem_cons.mp member with rfl | digit
      · decide
      · have ranged := all char digit
        rw [isDigit, Bool.and_eq_true] at ranged
        have most : char.toNat ≤ 57 := of_decide_eq_true ranged.2
        omega
    · exact .inl ⟨char, single⟩

theorem single_of_same (same : SameLetters [char] other) : ∃ further, other = [further] ∧
      KeyLibraries.lowercaseChar further = KeyLibraries.lowercaseChar char := by
  have lengths := congrArg List.length same
  simp only [List.length_map, List.length_singleton] at lengths
  obtain ⟨further, rfl⟩ := List.length_eq_one_iff.mp lengths.symm
  exact ⟨further, rfl, (lowercaseChar_of_same (List.cons.inj same).1).symm⟩

theorem lowercase_of_sameLetters
    (same : SameLetters token other) (accepted : parseKeyToken token = .ok key) :
    lowercase other = lowercase token := by
  rcases single_or_ascii accepted with ⟨char, rfl⟩ | ascii
  · obtain ⟨further, rfl, low⟩ := single_of_same same
    rw [lowercase_single, lowercase_single, low]
  · exact lowercase_of_same same ascii

theorem parseKeyToken_of_same
    (same : SameKey token other) (accepted : parseKeyToken token = .ok key) :
    parseKeyToken other = .ok key := by
  rcases same with letters | ⟨sym, here, there⟩
  · have lower := lowercase_of_sameLetters letters accepted
    obtain ⟨plain, found | ⟨unknown, fallback⟩⟩ := parseKeyToken_eq_ok.mp accepted
    · exact parseKeyToken_eq_ok.mpr (lower ▸ ⟨plain, .inl found⟩)
    · rw [parseKeyToken_eq_ok, lower]
      refine ⟨plain, .inr ⟨unknown, ?_⟩⟩
      rcases parseFallbackKey_eq_ok.mp fallback with numbered | ⟨absent, char, low, rfl, lowered, rfl⟩
      · exact parseFallbackKey_eq_ok.mpr (.inl numbered)
      · obtain ⟨further, rfl, like⟩ := single_of_same letters
        exact parseFallbackKey_eq_ok.mpr (.inr ⟨absent, further, low, rfl, like.trans lowered, rfl⟩)
  · have whole := accepted.symm.trans (parseKeyToken_of_named here)
    obtain rfl := Except.ok.inj whole
    have ascii := isAscii_of_map (isAscii_of_named keyNames_ascii there)
    apply parseKeyToken_of_named
    rw [lowercase_ascii ascii, there]

end JtermCore.Keybindings
