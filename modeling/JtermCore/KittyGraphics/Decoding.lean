import JtermCore.Base64
import JtermCore.KittyGraphics.Ready

/-!
# The grammar of the base64 sections

`decode_base64` accepts the strings over the standard alphabet that are followed
by padding only, with whitespace anywhere, and decodes them as the standard
does.
-/

namespace JtermCore.KittyGraphics

open Bytes Result

theorem base64Index_character :
    ∀ value < 64, base64Index (Base64.character value) = some value := by decide +kernel

variable {value : Nat}

theorem character_base64Index {byte : UInt8} (found : base64Index byte = some value) :
    Base64.character value = byte ∧ value < 64 := by
  have all : ∀ n < 256, ∀ value, base64Index (UInt8.ofNat n) = some value →
      Base64.character value = UInt8.ofNat n ∧ value < 64 := by
    have table : ∀ n < 256, (base64Index (UInt8.ofNat n)).all fun value =>
        Base64.character value = UInt8.ofNat n && value < 64 := by decide +kernel
    intro n small value found
    have row := table n small
    rw [found] at row
    simpa using row
  have row := all byte.toNat byte.toNat_lt value
  rw [UInt8.ofNat_toNat] at row
  exact row found

theorem base64Index_pad : base64Index Base64.pad = none :=
  rfl

def compact (input : Bytes) : Bytes := input.filter fun byte => !isAsciiWhitespace byte

def Spells (input : Bytes) (values : List Nat) : Prop := (∀ value ∈ values, value < 64) ∧
    ∃ padding, compact input = values.map Base64.character ++ List.replicate padding Base64.pad

variable {input : Bytes} {significant : Nat}

theorem countSignificant_padded :
    (∃ counted, countSignificant significant true input = .ok counted) ↔
      ∃ padding, compact input = List.replicate padding Base64.pad := by
  induction input with
  | nil => exact ⟨fun _ => ⟨0, rfl⟩, fun _ => ⟨_, rfl⟩⟩
  | cons byte input ih =>
    unfold compact at ih ⊢
    simp only [countSignificant]
    by_cases space : isAsciiWhitespace byte = true
    · rw [if_pos space, List.filter_cons_of_neg (by simp [space])]
      exact ih
    · rw [if_neg space, List.filter_cons_of_pos (by simpa using space)]
      by_cases padding : byte = 0x3d
      · subst byte
        rw [if_pos rfl, ih]
        constructor
        · rintro ⟨count, same⟩
          exact ⟨count + 1, by rw [same]; rfl⟩
        · rintro ⟨count, same⟩
          cases count with
          | zero => cases same
          | succ count => exact ⟨count, (List.cons.inj same).2⟩
      · rw [if_neg padding, if_pos trivial]
        constructor
        · rintro ⟨_, failed⟩
          cases failed
        · rintro ⟨count, same⟩
          cases count with
          | zero => cases same
          | succ count => exact absurd (List.cons.inj same).1 padding

variable {values : List Nat}

theorem spells_cons_character {byte : UInt8}
    (found : base64Index byte = some value) (space : isAsciiWhitespace byte ≠ true) :
    Spells (byte :: input) values ↔ ∃ rest, values = value :: rest ∧ Spells input rest := by
  obtain ⟨spelled, small⟩ := character_base64Index found
  have front : compact (byte :: input) = byte :: compact input :=
    List.filter_cons_of_pos (by simpa using space)
  constructor
  · rintro ⟨inside, padding, same⟩
    rw [front] at same
    cases values with
    | nil =>
      cases padding with
      | zero => cases same
      | succ padding =>
        rw [List.map_nil, List.nil_append, List.replicate_succ, List.cons.injEq] at same
        rw [same.1, base64Index_pad] at found
        cases found
    | cons other rest =>
      rw [List.map_cons, List.cons_append, List.cons.injEq] at same
      have known := base64Index_character other (inside other (by simp))
      rw [← same.1, found, Option.some.injEq] at known
      exact ⟨rest, by rw [known], fun member held => inside member (by simp [held]), padding,
        same.2⟩
  · rintro ⟨rest, rfl, inside, padding, same⟩
    refine ⟨?_, padding, ?_⟩
    · intro other member
      rcases List.mem_cons.mp member with rfl | further
      · exact small
      · exact inside other further
    · rw [front, same, List.map_cons, spelled, List.cons_append]

theorem countSignificant_ok :
    (∃ counted, countSignificant significant false input = .ok counted) ↔
      ∃ values, Spells input values := by
  induction input generalizing significant with
  | nil => exact ⟨fun _ => ⟨[], nofun, 0, rfl⟩, fun _ => ⟨_, rfl⟩⟩
  | cons byte input ih =>
    simp only [countSignificant]
    by_cases space : isAsciiWhitespace byte = true
    · have skipped : compact (byte :: input) = compact input :=
        List.filter_cons_of_neg (by simp [space])
      rw [if_pos space, ih]
      unfold Spells
      rw [skipped]
    rw [if_neg space]
    by_cases padding : byte = 0x3d
    · subst byte
      rw [if_pos rfl, countSignificant_padded]
      have front : compact (0x3d :: input) = Base64.pad :: compact input := rfl
      constructor
      · rintro ⟨count, same⟩
        refine ⟨[], nofun, count + 1, ?_⟩
        rw [front, same]
        rfl
      · rintro ⟨values, inside, count, same⟩
        rw [front] at same
        cases values with
        | nil =>
          cases count with
          | zero => cases same
          | succ count => exact ⟨count, (List.cons.inj same).2⟩
        | cons value values =>
          have known := base64Index_character value (inside value (by simp))
          rw [← (List.cons.inj same).1] at known
          cases known
    rw [if_neg padding, if_neg (by decide)]
    cases found : base64Index byte with
    | some value =>
      rw [if_neg (by simp), ih]
      constructor
      · rintro ⟨values, spelled⟩
        exact ⟨value :: values, (spells_cons_character found space).mpr ⟨values, rfl, spelled⟩⟩
      · rintro ⟨values, spelled⟩
        obtain ⟨rest, -, further⟩ := (spells_cons_character found space).mp spelled
        exact ⟨rest, further⟩
    | none =>
      rw [if_pos Option.isNone_none]
      constructor
      · rintro ⟨_, failed⟩
        cases failed
      · rintro ⟨values, inside, count, same⟩
        exfalso
        rw [show compact (byte :: input) = byte :: compact input from
          List.filter_cons_of_pos (by simpa using space)] at same
        cases values with
        | nil =>
          cases count with
          | zero => cases same
          | succ count => exact padding (List.cons.inj same).1
        | cons value values =>
          have known := base64Index_character value (inside value (by simp))
          rw [← (List.cons.inj same).1, found] at known
          cases known

theorem Spells.filterMap (spelled : Spells input values) :
    input.filterMap base64Index = values := by
  obtain ⟨inside, padding, same⟩ := spelled
  have skipped : input.filterMap base64Index = (compact input).filterMap base64Index := by
    unfold compact
    rw [List.filterMap_filter]
    congr 1
    funext byte
    by_cases space : isAsciiWhitespace byte = true
    · rw [if_neg (by simp [space]), base64Index_isAsciiWhitespace space]
    · rw [if_pos (by simpa using space)]
  have none_ : (List.replicate padding Base64.pad).filterMap base64Index = [] := by
    rw [List.filterMap_eq_nil_iff]
    intro byte member
    rw [(List.mem_replicate.mp member).2, base64Index_pad]
  have back : (values.map Base64.character).filterMap base64Index = values := by
    rw [List.filterMap_map]
    clear same
    induction values with
    | nil => rfl
    | cons value values ih =>
      have known := base64Index_character value (inside value (by simp))
      rw [List.filterMap_cons_some (by exact known), ih fun other member =>
        inside other (by simp [member])]
  rw [skipped, same, List.filterMap_append, none_, List.append_nil, back]

theorem Spells.alphabetCount (spelled : Spells input values) :
    alphabetCount input = values.length := by
  rw [← spelled.filterMap, List.length_filterMap_eq_countP]
  rfl

/-- A character of the alphabet in the second pass. -/
def BitBuffer.pushValue (state : BitBuffer) (value : Nat) : BitBuffer :=
  let buffer := (state.buffer <<< 6) ||| value
  let bits := state.bits + 6
  if bits ≥ 8 then
    { buffer := buffer % 2 ^ (bits - 8)
      bits := bits - 8
      out := state.out ++ [UInt8.ofNat (buffer >>> (bits - 8))] }
  else
    { state with buffer, bits }

theorem foldl_push (input : Bytes) (state : BitBuffer) :
    input.foldl BitBuffer.push state =
      (input.filterMap base64Index).foldl BitBuffer.pushValue state := by
  induction input generalizing state with
  | nil => rfl
  | cons byte input ih =>
    rw [List.foldl_cons, ih]
    cases found : base64Index byte with
    | none =>
      rw [List.filterMap_cons_none found]
      simp [BitBuffer.push, found]
    | some value =>
      rw [List.filterMap_cons_some found, List.foldl_cons]
      simp [BitBuffer.push, BitBuffer.pushValue, found]

theorem shift_or {high low : Nat} (small : low < 64) : (high <<< 6) ||| low = high * 64 + low := by
  rw [← Nat.shiftLeft_add_eq_or_of_lt (i := 6) small, Nat.shiftLeft_eq]

theorem pushValue_first (value : Nat) (out : Bytes) :
    BitBuffer.pushValue ⟨0, 0, out⟩ value = ⟨value, 6, out⟩ := by simp [BitBuffer.pushValue]

variable {held : Nat}

theorem pushValue_second (small : value < 64) (out : Bytes) :
    BitBuffer.pushValue ⟨held, 6, out⟩ value =
      ⟨value % 16, 4, out ++ [UInt8.ofNat (held * 4 + value / 16)]⟩ := by
  have byte : (held * 64 + value) / 16 = held * 4 + value / 16 := by omega
  have rest : (held * 64 + value) % 16 = value % 16 := by omega
  simp [BitBuffer.pushValue, shift_or small, Nat.shiftRight_eq_div_pow, byte, rest]

theorem pushValue_third (small : value < 64) (out : Bytes) :
    BitBuffer.pushValue ⟨held, 4, out⟩ value =
      ⟨value % 4, 2, out ++ [UInt8.ofNat (held * 16 + value / 4)]⟩ := by
  have byte : (held * 64 + value) / 4 = held * 16 + value / 4 := by omega
  have rest : (held * 64 + value) % 4 = value % 4 := by omega
  simp [BitBuffer.pushValue, shift_or small, Nat.shiftRight_eq_div_pow, byte, rest]

theorem pushValue_fourth (small : value < 64) (out : Bytes) :
    BitBuffer.pushValue ⟨held, 2, out⟩ value =
      ⟨0, 0, out ++ [UInt8.ofNat (held * 64 + value)]⟩ := by
  simp [BitBuffer.pushValue, shift_or small, Nat.mod_one]

theorem foldl_pushValue : ∀ (values : List Nat) (out : Bytes), (∀ value ∈ values, value < 64) →
    (values.foldl BitBuffer.pushValue ⟨0, 0, out⟩).out = out ++ Base64.bytes values
  | [], out, _ => by simp [Base64.bytes]
  | [a], out, small => by simp [Base64.bytes, pushValue_first a]
  | [a, b], out, small => by
    simp [Base64.bytes, pushValue_first a, pushValue_second (small b (by simp))]
  | [a, b, c], out, small => by
    simp [Base64.bytes, pushValue_first a, pushValue_second (small b (by simp)),
      pushValue_third (small c (by simp))]
  | a :: b :: c :: d :: rest, out, small => by
    have ih := foldl_pushValue rest (out ++ [UInt8.ofNat (a * 4 + b / 16),
      UInt8.ofNat (b % 16 * 16 + c / 4), UInt8.ofNat (c % 4 * 64 + d)])
      fun value member => small value (by simp [member])
    rw [List.foldl_cons, List.foldl_cons, List.foldl_cons, List.foldl_cons,
      pushValue_first a, pushValue_second (small b (by simp)),
      pushValue_third (small c (by simp)), pushValue_fourth (small d (by simp))]
    simp only [List.append_assoc, List.cons_append, List.nil_append] at ih ⊢
    rw [ih]
    simp [Base64.bytes]

theorem output_eq (spelled : Spells input values) :
    (input.foldl BitBuffer.push ⟨0, 0, []⟩).out = Base64.bytes values := by
  rw [foldl_push, spelled.filterMap, foldl_pushValue values [] spelled.1, List.nil_append]

theorem decodeBase64_ok (reserve : Nat → Bool) {output : Bytes} {maxDecoded : Nat} :
    decodeBase64 reserve input maxDecoded = .ok output ↔
      ∃ values, Spells input values ∧ values.length % 4 ≠ 1 ∧
        3 * (values.length / 4) + (values.length % 4 - 1) ≤ maxDecoded ∧
        reserve (3 * (values.length / 4) + (values.length % 4 - 1)) = true ∧
        output = Base64.bytes values := by
  have length (count : Nat) : decodedLength count = 3 * (count / 4) + (count % 4 - 1) := by
    rw [decodedLength, Nat.mul_comm]
  simp only [decodeBase64, bind_eq_ok, reject_eq_ok, pure_eq_ok, not_lt]
  constructor
  · rintro ⟨significant, counted, -, possible, -, fits, -, granted, rfl⟩
    obtain ⟨values, spelled⟩ := countSignificant_ok.mp ⟨_, counted⟩
    have count := countSignificant_eq counted
    rw [Nat.zero_add, spelled.alphabetCount] at count
    subst significant
    rw [length] at fits granted
    exact ⟨values, spelled, possible, fits, by simpa using granted, output_eq spelled⟩
  · rintro ⟨values, spelled, possible, fits, granted, rfl⟩
    obtain ⟨significant, counted⟩ := countSignificant_ok.mpr ⟨values, spelled⟩
    have count := countSignificant_eq counted
    rw [Nat.zero_add, spelled.alphabetCount] at count
    subst significant
    refine ⟨_, counted, (), possible, (), ?_, (), ?_, output_eq spelled⟩
    · rw [length]
      exact fits
    · rw [length, granted]
      decide

/-- `decode_base64` accepts its grammar, within the limit and what the allocator
grants, and gives the bytes of the standard's decoding; so an encoding is read
back with whitespace anywhere and any padding. -/
theorem decodeBase64_grammar (reserve : Nat → Bool) (input : Bytes) (maxDecoded : Nat) :
    (∀ output, decodeBase64 reserve input maxDecoded = .ok output ↔
      ∃ values, Spells input values ∧ values.length % 4 ≠ 1 ∧
        3 * (values.length / 4) + (values.length % 4 - 1) ≤ maxDecoded ∧
        reserve (3 * (values.length / 4) + (values.length % 4 - 1)) = true ∧
        output = Base64.bytes values ∧
        output.length = 3 * (values.length / 4) + (values.length % 4 - 1)) ∧
    ∀ data padding, compact input = (Base64.encode data).filter (fun byte => byte ≠ Base64.pad) ++
        List.replicate padding Base64.pad →
      (decodeBase64 reserve input maxDecoded = .ok data ↔
        data.length ≤ maxDecoded ∧ reserve data.length = true) := by
  refine ⟨fun output => ?_, fun data padding same => ?_⟩
  · rw [decodeBase64_ok reserve]
    constructor
    · rintro ⟨values, spelled, possible, fits, granted, rfl⟩
      exact ⟨values, spelled, possible, fits, granted, rfl, Base64.length_bytes values⟩
    · rintro ⟨values, spelled, possible, fits, granted, rfl, -⟩
      exact ⟨values, spelled, possible, fits, granted, rfl⟩
  · rw [Base64.filter_encode] at same
    have spelled : Spells input (Base64.values data) :=
      ⟨Base64.values_lt data, padding, same⟩
    have size := Base64.length_bytes (Base64.values data)
    rw [Base64.bytes_values] at size
    rw [decodeBase64_ok reserve]
    constructor
    · rintro ⟨values, other, -, fits, granted, rfl⟩
      rw [← other.filterMap, spelled.filterMap, ← size] at fits granted
      exact ⟨fits, granted⟩
    · rintro ⟨fits, granted⟩
      have count := Base64.length_values data
      refine ⟨_, spelled, by omega, ?_, ?_, (Base64.bytes_values data).symm⟩
      · rw [← size]
        exact fits
      · rw [← size]
        exact granted

end JtermCore.KittyGraphics
