import Mathlib.Data.List.Basic

/-!
# Base64

The standard alphabet, with the padding that is needed and no bits left over.
-/

namespace Base64

/-- The six bits that a character stands for. -/
def sextet (c : Char) : Option Nat :=
  if 'A' ≤ c ∧ c ≤ 'Z' then some (c.toNat - 'A'.toNat)
  else if 'a' ≤ c ∧ c ≤ 'z' then some (c.toNat - 'a'.toNat + 26)
  else if '0' ≤ c ∧ c ≤ '9' then some (c.toNat - '0'.toNat + 52)
  else if c = '+' then some 62
  else if c = '/' then some 63
  else none

def decode : List Char → Option (List UInt8)
  | [] => some []
  | [a, b, '=', '='] => do
      let x ← sextet a
      let y ← sextet b
      if y % 16 = 0 then some [UInt8.ofNat (x * 4 + y / 16)] else none
  | [a, b, c, '='] => do
      let x ← sextet a
      let y ← sextet b
      let z ← sextet c
      if z % 4 = 0 then
        some [UInt8.ofNat (x * 4 + y / 16), UInt8.ofNat (y % 16 * 16 + z / 4)]
      else none
  | a :: b :: c :: d :: rest => do
      let x ← sextet a
      let y ← sextet b
      let z ← sextet c
      let w ← sextet d
      let more ← decode rest
      some (UInt8.ofNat (x * 4 + y / 16) :: UInt8.ofNat (y % 16 * 16 + z / 4)
        :: UInt8.ofNat (z % 4 * 64 + w) :: more)
  | _ => none

variable {bytes : List UInt8}

/-- Everything in a text that is decoded is a character of the alphabet or padding. -/
theorem mem_of_decode {s : List Char} (h : decode s = some bytes) :
    ∀ c ∈ s, c = '=' ∨ (sextet c).isSome = true := by
  induction s using decode.induct generalizing bytes with
  | case1 => exact nofun
  | case2 a b =>
    simp only [decode, Option.bind_eq_bind, Option.bind_eq_some_iff] at h
    obtain ⟨x, hx, y, hy, -⟩ := h
    simp [hx, hy]
  | case3 a b c =>
    rw [decode] at h
    · simp only [Option.bind_eq_bind, Option.bind_eq_some_iff] at h
      obtain ⟨x, hx, y, hy, z, hz, -⟩ := h
      simp [hx, hy, hz]
    all_goals assumption
  | case4 a b c d rest _ _ ih =>
    rw [decode] at h
    · simp only [Option.bind_eq_bind, Option.bind_eq_some_iff] at h
      obtain ⟨x, hx, y, hy, z, hz, w, hw, more, decoded, -⟩ := h
      simpa [hx, hy, hz, hw] using ih decoded
    all_goals assumption
  | case5 =>
    rw [decode] at h
    · cases h
    all_goals assumption

/-- Four characters stand for three bytes. -/
theorem length_of_decode {s : List Char} (h : decode s = some bytes) :
    s.length * 3 ≤ 4 * (bytes.length + 2) := by
  induction s using decode.induct generalizing bytes with
  | case1 => exact Nat.zero_le _
  | case2 a b =>
    simp only [decode, Option.bind_eq_bind, Option.bind_eq_some_iff] at h
    obtain ⟨x, -, y, -, h⟩ := h
    split at h
    · cases h
      exact Nat.le_refl 12
    · cases h
  | case3 a b c =>
    rw [decode] at h
    · simp only [Option.bind_eq_bind, Option.bind_eq_some_iff] at h
      obtain ⟨x, -, y, -, z, -, h⟩ := h
      split at h
      · cases h
        exact Nat.le_of_ble_eq_true rfl
      · cases h
    all_goals assumption
  | case4 a b c d rest _ _ ih =>
    rw [decode] at h
    · simp only [Option.bind_eq_bind, Option.bind_eq_some_iff] at h
      obtain ⟨x, -, y, -, z, -, w, -, more, decoded, h⟩ := h
      cases h
      have shorter := ih decoded
      simp only [List.length_cons]
      omega
    all_goals assumption
  | case5 =>
    rw [decode] at h
    · cases h
    all_goals assumption

/-- The alphabet is part of ASCII. -/
theorem utf8Size_of_sextet {c : Char} (h : c = '=' ∨ (sextet c).isSome = true) :
    c.utf8Size = 1 := by
  rw [Char.utf8Size_eq_one_iff]
  obtain rfl | h := h
  · decide
  unfold sextet at h
  split at h
  next range => exact UInt32.le_trans range.2 (by decide)
  split at h
  next range => exact UInt32.le_trans range.2 (by decide)
  split at h
  next range => exact UInt32.le_trans range.2 (by decide)
  split at h
  next same =>
    rw [same]
    decide
  split at h
  next same =>
    rw [same]
    decide
  · cases h

end Base64
