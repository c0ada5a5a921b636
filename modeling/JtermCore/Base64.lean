import JtermCore.Bytes

/-!
# Base64

The standard alphabet, the encoding of a byte string by groups of three bytes
and the decoding of a list of six-bit values by groups of four.
-/

namespace JtermCore.Base64

open Bytes

def character (value : Nat) : UInt8 :=
  if value < 26 then UInt8.ofNat (0x41 + value)
  else if value < 52 then UInt8.ofNat (0x61 + (value - 26))
  else if value < 62 then UInt8.ofNat (0x30 + (value - 52))
  else if value = 62 then 0x2b
  else 0x2f

/-- The padding character. -/
def pad : UInt8 := 0x3d

/-- The six-bit values of a byte string; the last one is filled up with zeros. -/
def values : Bytes → List Nat
  | [] => []
  | [a] => [a.toNat / 4, a.toNat % 4 * 16]
  | [a, b] => [a.toNat / 4, a.toNat % 4 * 16 + b.toNat / 16, b.toNat % 16 * 4]
  | a :: b :: c :: rest =>
    a.toNat / 4 :: (a.toNat % 4 * 16 + b.toNat / 16) :: (b.toNat % 16 * 4 + c.toNat / 64) ::
      c.toNat % 64 :: values rest

def digits (data : Bytes) : Bytes := (values data).map character

/-- The standard encoding: whole groups of four characters. -/
def encode (data : Bytes) : Bytes := digits data ++ List.replicate ((3 - data.length % 3) % 3) pad

/-- The bytes of a list of six-bit values; left-over bits are dropped. -/
def bytes : List Nat → Bytes
  | a :: b :: c :: d :: rest =>
    UInt8.ofNat (a * 4 + b / 16) :: UInt8.ofNat (b % 16 * 16 + c / 4) ::
      UInt8.ofNat (c % 4 * 64 + d) :: bytes rest
  | [a, b, c] => [UInt8.ofNat (a * 4 + b / 16), UInt8.ofNat (b % 16 * 16 + c / 4)]
  | [a, b] => [UInt8.ofNat (a * 4 + b / 16)]
  | _ => []

theorem length_bytes : ∀ given : List Nat,
    (bytes given).length = 3 * (given.length / 4) + (given.length % 4 - 1)
  | [] => rfl
  | [_] => by simp [bytes]
  | [_, _] => by simp [bytes]
  | [_, _, _] => by simp [bytes]
  | _ :: _ :: _ :: _ :: rest => by
    have ih := length_bytes rest
    simp only [bytes, List.length_cons, ih]
    omega

theorem values_lt : ∀ data : Bytes, ∀ value ∈ values data, value < 64
  | [] => nofun
  | [a] => by
    have bound := a.toNat_lt
    simp only [values, List.mem_cons, List.not_mem_nil, or_false]
    omega
  | [a, b] => by
    have bound := a.toNat_lt
    have bound' := b.toNat_lt
    simp only [values, List.mem_cons, List.not_mem_nil, or_false]
    omega
  | a :: b :: c :: rest => by
    have bound := a.toNat_lt
    have bound' := b.toNat_lt
    have bound'' := c.toNat_lt
    intro value member
    simp only [values, List.mem_cons] at member
    rcases member with same | same | same | same | further
    · omega
    · omega
    · omega
    · omega
    · exact values_lt rest value further

theorem length_values : ∀ data : Bytes,
    (values data).length = data.length / 3 * 4 + (data.length % 3 * 4 + 2) / 3
  | [] => rfl
  | [_] => by simp [values]
  | [_, _] => by simp [values]
  | _ :: _ :: _ :: rest => by
    have ih := length_values rest
    simp only [values, List.length_cons, ih]
    omega

theorem ofNat_eq {value : Nat} {byte : UInt8} (same : value = byte.toNat) :
    UInt8.ofNat value = byte := by rw [same, UInt8.ofNat_toNat]

theorem character_ne_pad : ∀ value < 64, character value ≠ pad := by decide +kernel

theorem filter_encode (data : Bytes) :
    (encode data).filter (fun byte => byte ≠ pad) = digits data := by
  have plain : ∀ byte ∈ digits data, decide (byte ≠ pad) = true := by
    intro byte member
    obtain ⟨value, listed, rfl⟩ := List.mem_map.mp member
    exact decide_eq_true (character_ne_pad value (values_lt data value listed))
  rw [encode, List.filter_append, List.filter_eq_self.mpr plain]
  simp

theorem bytes_values : ∀ data : Bytes, bytes (values data) = data
  | [] => rfl
  | [a] => by
    have bound := a.toNat_lt
    have first : a.toNat / 4 * 4 + a.toNat % 4 * 16 / 16 = a.toNat := by omega
    simp only [values, bytes, ofNat_eq first]
  | [a, b] => by
    have bound := a.toNat_lt
    have bound' := b.toNat_lt
    have first : a.toNat / 4 * 4 + (a.toNat % 4 * 16 + b.toNat / 16) / 16 = a.toNat := by omega
    have second : (a.toNat % 4 * 16 + b.toNat / 16) % 16 * 16 + b.toNat % 16 * 4 / 4 =
        b.toNat := by omega
    simp only [values, bytes, ofNat_eq first, ofNat_eq second]
  | a :: b :: c :: rest => by
    have bound := a.toNat_lt
    have bound' := b.toNat_lt
    have bound'' := c.toNat_lt
    have first : a.toNat / 4 * 4 + (a.toNat % 4 * 16 + b.toNat / 16) / 16 = a.toNat := by omega
    have second : (a.toNat % 4 * 16 + b.toNat / 16) % 16 * 16 +
        (b.toNat % 16 * 4 + c.toNat / 64) / 4 = b.toNat := by omega
    have third : (b.toNat % 16 * 4 + c.toNat / 64) % 4 * 64 + c.toNat % 64 = c.toNat := by omega
    simp only [values, bytes, ofNat_eq first, ofNat_eq second, ofNat_eq third]
    rw [bytes_values rest]

end JtermCore.Base64
