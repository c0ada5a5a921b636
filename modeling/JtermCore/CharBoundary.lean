import JtermCore.Utf8

/-!
# Character boundaries

In encoded text a byte that is no continuation byte begins a character.
-/

namespace JtermCore.Utf8

theorem encodeUtf8_nil : encodeUtf8 [] = [] :=
  rfl

theorem encodeUtf8_cons (char : Char) (text : List Char) :
    encodeUtf8 (char :: text) = String.utf8EncodeChar char ++ encodeUtf8 text :=
  rfl

theorem encodeUtf8_append (first second : List Char) :
    encodeUtf8 (first ++ second) = encodeUtf8 first ++ encodeUtf8 second := List.flatMap_append

theorem isContinuation_ofNat (value : Nat) :
    isContinuation (UInt8.ofNat (value % 64 + 128)) = true := by
  have small : (value % 64 + 128) % 256 = value % 64 + 128 := by omega
  simp only [isContinuation, Bool.and_eq_true, decide_eq_true_eq, UInt8.le_iff_toNat_le,
    UInt8.toNat_ofNat', Nat.reducePow, small]
  exact ⟨by simp, by simp; omega⟩

theorem isContinuation_tail (char : Char) :
    ∀ byte ∈ (String.utf8EncodeChar char).tail, isContinuation byte = true := by
  intro byte member
  unfold String.utf8EncodeChar at member
  dsimp only at member
  split at member
  · simp at member
  split at member
  · simp only [List.tail_cons, List.mem_singleton] at member
    rw [member]
    exact isContinuation_ofNat _
  split at member
  · simp only [List.tail_cons, List.mem_cons, List.not_mem_nil, or_false] at member
    rcases member with rfl | rfl <;> exact isContinuation_ofNat _
  · simp only [List.tail_cons, List.mem_cons, List.not_mem_nil, or_false] at member
    rcases member with rfl | rfl | rfl <;> exact isContinuation_ofNat _

theorem toNat_lead (value : Nat) {size base : Nat} (fits : size + base ≤ 256)
    (positive : 0 < size) : base ≤ (UInt8.ofNat (value % size + base)).toNat := by
  have small := Nat.mod_lt value positive
  rw [UInt8.toNat_ofNat', Nat.mod_eq_of_lt (by simp only [Nat.reducePow]; omega)]
  omega

variable {char : Char}

theorem isContinuation_head {first : UInt8} {rest : Bytes}
    (encoded : String.utf8EncodeChar char = first :: rest) : isContinuation first = false := by
  have outside : first.toNat < 128 ∨ 192 ≤ first.toNat → isContinuation first = false := by
    intro place
    simp only [isContinuation, Bool.and_eq_false_iff, decide_eq_false_iff_not,
      UInt8.le_iff_toNat_le, Nat.not_le, UInt8.reduceToNat]
    omega
  refine outside ?_
  unfold String.utf8EncodeChar at encoded
  dsimp only at encoded
  split at encoded
  · rw [← (List.cons.inj encoded).1, UInt8.toNat_ofNat',
      Nat.mod_eq_of_lt (by simp only [Nat.reducePow]; omega)]
    omega
  split at encoded
  · rw [← (List.cons.inj encoded).1]
    exact Or.inr (toNat_lead _ (by decide) (by decide))
  split at encoded
  · rw [← (List.cons.inj encoded).1]
    exact Or.inr (Nat.le_trans (by decide : 192 ≤ 224) (toNat_lead _ (by decide) (by decide)))
  · rw [← (List.cons.inj encoded).1]
    exact Or.inr (Nat.le_trans (by decide : 192 ≤ 240) (toNat_lead _ (by decide) (by decide)))

theorem encodeChar_ascii {byte : UInt8}
    (member : byte ∈ String.utf8EncodeChar char) (ascii : byte.toNat < 128) :
    char.toNat = byte.toNat ∧ String.utf8EncodeChar char = [byte] := by
  unfold String.utf8EncodeChar at member ⊢
  dsimp only at member ⊢
  split at member
  · rename_i small
    rw [List.mem_singleton.mp member, if_pos small]
    refine ⟨?_, rfl⟩
    rw [UInt8.toNat_ofNat', Nat.mod_eq_of_lt (by simp only [Nat.reducePow]; omega)]
    rfl
  exfalso
  have continued : ∀ value, byte ≠ UInt8.ofNat (value % 64 + 128) := by
    rintro value rfl
    have large : 128 ≤ (UInt8.ofNat (value % 64 + 128)).toNat :=
      toNat_lead value (by decide) (by decide)
    omega
  have leads : ∀ value size base, byte = UInt8.ofNat (value % size + base) → size + base ≤ 256 →
      0 < size → base < 128 := by
    rintro value size base rfl fits positive
    have large := toNat_lead value fits positive
    omega
  split at member
  · simp only [List.mem_cons, List.not_mem_nil, or_false, continued] at member
    exact absurd (leads _ _ _ member (by decide) (by decide)) (by decide)
  split at member
  · simp only [List.mem_cons, List.not_mem_nil, or_false, continued] at member
    exact absurd (leads _ _ _ member (by decide) (by decide)) (by decide)
  · simp only [List.mem_cons, List.not_mem_nil, or_false, continued] at member
    exact absurd (leads _ _ _ member (by decide) (by decide)) (by decide)

variable {more rest : Bytes}

theorem encodeChar_head_ascii {first : UInt8}
    (same : String.utf8EncodeChar char ++ more = first :: rest) (ascii : first.toNat < 128) :
    char.toNat = first.toNat := by
  have nonempty : String.utf8EncodeChar char ≠ [] := String.utf8EncodeChar_ne_nil
  obtain ⟨lead, tail, encoded⟩ := List.exists_cons_of_ne_nil nonempty
  rw [encoded, List.cons_append] at same
  have member : first ∈ String.utf8EncodeChar char := by
    rw [encoded, (List.cons.inj same).1]
    exact List.mem_cons_self
  exact (encodeChar_ascii member ascii).1

theorem encodeChar_c2 {second : UInt8}
    (same : String.utf8EncodeChar char ++ more = 0xc2 :: second :: rest) :
    char.toNat = second.toNat := by
  have leads : ∀ value size base, (0xc2 : UInt8) = UInt8.ofNat (value % size + base) →
      size + base ≤ 256 → 0 < size → base ≤ 0xc2 := by
    intro value size base lead fits positive
    have large := toNat_lead value fits positive
    rw [← lead] at large
    exact large
  unfold String.utf8EncodeChar at same
  dsimp only at same
  split at same
  · rename_i small
    have lead := congrArg UInt8.toNat (List.cons.inj same).1
    rw [UInt8.toNat_ofNat', Nat.mod_eq_of_lt (by simp only [Nat.reducePow]; omega)] at lead
    have value : char.val.toNat = 0xc2 := lead
    omega
  split at same
  · rename_i large small
    obtain ⟨lead, tail⟩ := List.cons.inj same
    have secondEq := congrArg UInt8.toNat (List.cons.inj tail).1
    have leadEq := congrArg UInt8.toNat lead
    rw [UInt8.toNat_ofNat', Nat.mod_eq_of_lt (by simp only [Nat.reducePow]; omega)]
      at secondEq leadEq
    have value : char.val.toNat / 64 % 32 + 192 = 0xc2 := leadEq
    have code : char.toNat = char.val.toNat := rfl
    omega
  split at same
  · exact absurd (leads _ _ _ (List.cons.inj same).1.symm (by decide) (by decide)) (by decide)
  · exact absurd (leads _ _ _ (List.cons.inj same).1.symm (by decide) (by decide)) (by decide)

theorem encodeUtf8_split {text : List Char} {front back : Bytes} {byte : UInt8}
    (same : encodeUtf8 text = front ++ byte :: back) (starts : isContinuation byte = false) :
    ∃ before after, text = before ++ after ∧ encodeUtf8 before = front ∧
      encodeUtf8 after = byte :: back := by
  induction text generalizing front with
  | nil => simp [encodeUtf8_nil] at same
  | cons char text ih =>
    rw [encodeUtf8_cons] at same
    rcases List.append_eq_append_iff.mp same with ⟨rest, frontEq, textEq⟩ | ⟨rest, charEq, backEq⟩
    · obtain ⟨before, after, rfl, beforeEq, afterEq⟩ := ih textEq
      refine ⟨char :: before, after, rfl, ?_, afterEq⟩
      rw [encodeUtf8_cons, beforeEq, frontEq]
    · cases front with
      | nil =>
        refine ⟨[], char :: text, rfl, rfl, ?_⟩
        rw [encodeUtf8_cons, charEq, List.nil_append, ← backEq]
      | cons first front =>
        cases rest with
        | nil =>
          -- The byte begins the next character.
          have textEq : encodeUtf8 text = [] ++ byte :: back := by simpa using backEq.symm
          obtain ⟨before, after, rfl, beforeEq, afterEq⟩ := ih textEq
          refine ⟨char :: before, after, rfl, ?_, afterEq⟩
          rw [encodeUtf8_cons, beforeEq, charEq, List.append_nil, List.append_nil]
        | cons inside rest =>
          have sameByte : byte = inside := (List.cons.inj backEq).1
          have continues := isContinuation_tail char inside (by simp [charEq])
          rw [← sameByte, starts] at continues
          cases continues

theorem toNat_ofNat {value : Nat} (small : value < 256) : (UInt8.ofNat value).toNat = value := by
  rw [UInt8.toNat_ofNat', Nat.mod_eq_of_lt small]

theorem payload_ofNat (value : Nat) : payload (UInt8.ofNat (value % 64 + 128)) = value % 64 := by
  rw [payload, toNat_ofNat (by omega)]
  omega

theorem lead_two : ∀ value < 30, ¬ UInt8.ofNat (value + 2 + 192) ≤ 0x7f ∧
    (0xc2 ≤ UInt8.ofNat (value + 2 + 192) && UInt8.ofNat (value + 2 + 192) ≤ 0xdf) = true := by
  decide +kernel

theorem lead_three : ∀ value < 16, ¬ UInt8.ofNat (value + 224) ≤ 0x7f ∧
    (0xc2 ≤ UInt8.ofNat (value + 224) && UInt8.ofNat (value + 224) ≤ 0xdf) = false ∧
    UInt8.ofNat (value + 224) ≤ 0xef := by decide +kernel

theorem lead_four : ∀ value < 5, ¬ UInt8.ofNat (value + 240) ≤ 0x7f ∧
    (0xc2 ≤ UInt8.ofNat (value + 240) && UInt8.ofNat (value + 240) ≤ 0xdf) = false ∧
    ¬ UInt8.ofNat (value + 240) ≤ 0xef := by decide +kernel

theorem second_three : ∀ lead < 16, ∀ value < 64, (lead = 0 → 32 ≤ value) →
    (lead = 13 → value < 32) →
    validFirstContinuation (UInt8.ofNat (lead + 224)) (UInt8.ofNat (value + 128)) = true := by
  decide +kernel

theorem second_four : ∀ lead < 5, ∀ value < 64, (lead = 0 → 16 ≤ value) → (lead = 4 → value < 16) →
    validFirstContinuation (UInt8.ofNat (lead + 240)) (UInt8.ofNat (value + 128)) = true := by
  decide +kernel

theorem decodeUtf8_char (char : Char) (rest : Bytes) :
    decodeUtf8 (String.utf8EncodeChar char ++ rest) = (decodeUtf8 rest).map (char :: ·) := by
  have valid : char.val.toNat < 0xd800 ∨ 0xdfff < char.val.toNat ∧ char.val.toNat < 0x110000 :=
    char.valid
  have same : Char.ofNat char.val.toNat = char := Char.ofNat_toNat char
  unfold String.utf8EncodeChar
  generalize char.val.toNat = value at valid same
  dsimp only
  split
  · rename_i one
    have ascii : UInt8.ofNat value ≤ 0x7f := by
      rw [UInt8.le_iff_toNat_le, toNat_ofNat (by omega)]
      exact one
    rw [List.singleton_append, decodeUtf8.eq_def]
    dsimp only
    rw [if_pos ascii, toNat_ofNat (by omega), same]
  split
  · rename_i two
    have lead := lead_two (value / 64 % 32 - 2) (by omega)
    rw [show value / 64 % 32 - 2 + 2 = value / 64 % 32 by omega] at lead
    have code : (value / 64 % 32 + 192) % 32 * 64 + value % 64 = value := by omega
    rw [List.cons_append, List.singleton_append, decodeUtf8.eq_def]
    dsimp only
    rw [if_neg lead.1, if_pos lead.2, if_pos (isContinuation_ofNat value), payload_ofNat,
      toNat_ofNat (by omega), code, same]
  split
  · rename_i three
    have lead := lead_three (value / 4096 % 16) (by omega)
    have second := second_three (value / 4096 % 16) (by omega) (value / 64 % 64) (by omega)
      (by omega) (by omega)
    have code : ((value / 4096 % 16 + 224) % 16 * 64 + value / 64 % 64) * 64 + value % 64 =
        value := by omega
    rw [List.cons_append, List.cons_append, List.singleton_append, decodeUtf8.eq_def]
    dsimp only
    rw [if_neg lead.1, if_neg (ne_true_of_eq_false lead.2.1), if_neg (by rw [second]; decide)]
    rw [if_neg (by rw [isContinuation_ofNat]; decide), if_pos lead.2.2, payload_ofNat,
      payload_ofNat, toNat_ofNat (by omega), code, same]
  · rename_i four
    have lead := lead_four (value / 262144 % 8) (by omega)
    have second := second_four (value / 262144 % 8) (by omega) (value / 4096 % 64) (by omega)
      (by omega) (by omega)
    have code : (((value / 262144 % 8 + 240) % 8 * 64 + value / 4096 % 64) * 64 +
        value / 64 % 64) * 64 + value % 64 = value := by omega
    rw [List.cons_append, List.cons_append, List.cons_append, List.singleton_append,
      decodeUtf8.eq_def]
    dsimp only
    rw [if_neg lead.1, if_neg (ne_true_of_eq_false lead.2.1), if_neg (by rw [second]; decide)]
    rw [if_neg (by rw [isContinuation_ofNat]; decide), if_neg lead.2.2,
      if_pos (isContinuation_ofNat _),
      payload_ofNat, payload_ofNat, payload_ofNat, toNat_ofNat (by omega), code, same]

theorem decodeUtf8_encodeUtf8 (text : List Char) : decodeUtf8 (encodeUtf8 text) = some text := by
  induction text with
  | nil => rfl
  | cons char text ih => rw [encodeUtf8_cons, decodeUtf8_char, ih, Option.map_some]

end JtermCore.Utf8
