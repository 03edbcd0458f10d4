import Mathlib.Data.Nat.Bitwise
import Mathlib.Data.Nat.ModEq
import RadosRs.Crush.Hash

/-!
# The laws of the stable modulus

`stableMod x n` is the remainder of `x` by the power of two that covers `n`, or by
half of that power where the first remainder is past `n`.  So it is below `n`, and
it can be computed from `stableMod x m` for any larger count `m`: what has been
thrown away for `m` is not needed for `n`.  A larger count moves a value only to
the numbers it has added.
-/

namespace RadosRs.Crush

/-- The number of bits that are needed for every value below `count`. -/
def coverBits (count : Nat) : Nat := 32 - leadingZeros (count - 1)

section Cover

variable {count : Nat}

theorem coverBits_eq (two : 2 ≤ count) (word : count < 2 ^ 32) :
    coverBits count = (count - 1).log2 + 1 := by
  have nonzero : count - 1 ≠ 0 := by omega
  have small : (count - 1).log2 < 32 := (Nat.log2_lt nonzero).mpr (by omega)
  rw [coverBits, leadingZeros, if_neg nonzero]
  omega

theorem le_coverBits (positive : 1 ≤ count) (word : count < 2 ^ 32) :
    count ≤ 2 ^ coverBits count := by
  rcases Nat.eq_or_lt_of_le positive with rfl | two
  · exact Nat.one_le_two_pow
  rw [coverBits_eq two word]
  have := Nat.lt_log2_self (n := count - 1)
  omega

/-- Half of the power does not cover the count. -/
theorem half_lt (word : count < 2 ^ 32) {bits : Nat} (cover : coverBits count = bits + 1) :
    2 ^ bits < count := by
  have two : 2 ≤ count := by
    by_contra small
    have : coverBits count = 0 := by
      have one : count - 1 = 0 := by omega
      rw [coverBits, leadingZeros, if_pos one]
    omega
  rw [coverBits_eq two word] at cover
  obtain rfl : (count - 1).log2 = bits := by omega
  have := Nat.log2_self_le (n := count - 1) (by omega)
  omega

theorem coverBits_mono {more : Nat} (le : count ≤ more) (positive : 1 ≤ count)
    (word : more < 2 ^ 32) : coverBits count ≤ coverBits more := by
  by_contra wider
  obtain ⟨bits, cover⟩ : ∃ bits, coverBits count = bits + 1 :=
    ⟨coverBits count - 1, by omega⟩
  have covered := le_coverBits (by omega : 1 ≤ more) word
  have half := half_lt (by omega) cover
  have : 2 ^ coverBits more ≤ 2 ^ bits := Nat.pow_le_pow_right (by omega) (by omega)
  omega

theorem stableMask_eq :
    stableMask count = 2 ^ coverBits count - 1 := by
  have le : coverBits count ≤ 32 := Nat.sub_le _ _
  have positive := Nat.one_le_two_pow (n := coverBits count)
  show ((if coverBits count < 32 then 1 <<< coverBits count else 0) + (2 ^ 32 - 1)) % 2 ^ 32 = _
  split
  next less =>
    have := Nat.pow_lt_pow_right (by omega : 1 < 2) less
    rw [Nat.one_shiftLeft]
    omega
  next full =>
    rw [show coverBits count = 32 by omega, Nat.zero_add, Nat.mod_eq_of_lt (by omega)]

end Cover

section Laws

variable {count more value : Nat}

/-- The stable modulus in terms of remainders. -/
theorem stableMod_eq (positive : 1 ≤ count) (word : count < 2 ^ 32) :
    stableMod value count =
      if value % 2 ^ coverBits count < count then value % 2 ^ coverBits count
      else value % 2 ^ (coverBits count - 1) := by
  have half : (2 ^ coverBits count - 1) >>> 1 = 2 ^ (coverBits count - 1) - 1 := by
    cases coverBits count with
    | zero => rfl
    | succ bits =>
      rw [Nat.shiftRight_eq_div_pow, pow_succ]
      simp only [Nat.add_sub_cancel]
      have := Nat.one_le_two_pow (n := bits)
      omega
  rw [stableMod, if_neg (by omega), stableMask_eq]
  simp only [half, Nat.and_two_pow_sub_one_eq_mod]

theorem stableMod_lt (positive : 1 ≤ count) (word : count < 2 ^ 32) :
    stableMod value count < count := by
  rw [stableMod_eq positive word]
  split
  next below => exact below
  rename_i past
  cases cover : coverBits count with
  | zero => simp [cover, Nat.mod_one] at past; omega
  | succ bits =>
    have := Nat.mod_lt value (Nat.two_pow_pos bits)
    have := half_lt word cover
    simp only [Nat.add_sub_cancel]
    omega

theorem stableMod_of_lt (below : value < count) (word : count < 2 ^ 32) :
    stableMod value count = value := by
  have covered := le_coverBits (by omega : 1 ≤ count) word
  have same : value % 2 ^ coverBits count = value := Nat.mod_eq_of_lt (by omega)
  rw [stableMod_eq (by omega) word, same, if_pos below]

/-- What a larger count throws away is not needed for a smaller one. -/
theorem stableMod_stableMod (positive : 1 ≤ count) (le : count ≤ more) (word : more < 2 ^ 32) :
    stableMod (stableMod value more) count = stableMod value count := by
  have mono := coverBits_mono le positive word
  have remainder {bits : Nat} (le : coverBits count ≤ bits) :
      stableMod (value % 2 ^ bits) count = stableMod value count := by
    have through {part : Nat} (le : part ≤ bits) : value % 2 ^ bits % 2 ^ part = value % 2 ^ part :=
      Nat.mod_mod_of_dvd value (Nat.pow_dvd_pow 2 le)
    rw [stableMod_eq positive (by omega), stableMod_eq positive (by omega), through le,
      through (by omega : coverBits count - 1 ≤ bits)]
  rw [stableMod_eq (by omega : 1 ≤ more) word]
  split
  · exact remainder mono
  rename_i past
  rcases Nat.lt_or_ge (coverBits more - 1) (coverBits count) with same | wide
  · -- both counts have the same cover, and the value is past both of them
    have same : coverBits more = coverBits count := by omega
    rw [same] at past ⊢
    have below : stableMod value count < count := stableMod_lt positive (by omega)
    have halved : stableMod value count = value % 2 ^ (coverBits count - 1) := by
      rw [stableMod_eq positive (by omega), if_neg (by omega)]
    rw [← halved]
    exact stableMod_of_lt below (by omega)
  · exact remainder wide

/-- A value stays where it is or moves to a number that the larger count has added. -/
theorem stableMod_of_le (positive : 1 ≤ count) (le : count ≤ more) (word : more < 2 ^ 32) :
    stableMod value more = stableMod value count ∨ count ≤ stableMod value more := by
  rcases Nat.lt_or_ge (stableMod value more) count with below | moved
  · left
    rw [← stableMod_stableMod positive le word, stableMod_of_lt below (by omega)]
  · exact .inr moved

end Laws

end RadosRs.Crush
