import Mathlib.Data.Nat.Basic
import Mathlib.Tactic.Ring

/-!
# Little-endian bytes

Unsigned values are written as a fixed number of bytes, least significant first.
Signed values are written as the unsigned value they have in two's complement.
`ofLeBytes_leBytes` is the round trip: reading back what was written loses
exactly the bits that did not fit.
-/

namespace Bytes

/-- The low `w` bytes of `n`, least significant first. -/
def leBytes : Nat → Nat → List UInt8
  | 0, _ => []
  | w + 1, n => UInt8.ofNat n :: leBytes w (n / 256)

/-- The value of a list of bytes, least significant first. -/
def ofLeBytes : List UInt8 → Nat
  | [] => 0
  | b :: bs => b.toNat + 256 * ofLeBytes bs

@[simp] theorem length_leBytes (w n : Nat) : (leBytes w n).length = w := by
  induction w generalizing n with
  | zero => rfl
  | succ w ih => simp [leBytes, ih]

theorem ofLeBytes_leBytes (w n : Nat) : ofLeBytes (leBytes w n) = n % 256 ^ w := by
  induction w generalizing n with
  | zero => simp [leBytes, ofLeBytes, Nat.mod_one]
  | succ w ih =>
    have split : n % 256 ^ (w + 1) = n % 256 + 256 * (n / 256 % 256 ^ w) := by
      rw [Nat.pow_succ', Nat.mod_mul]
    simp only [leBytes, ofLeBytes, ih, split, UInt8.toNat_ofNat']

/-- Reading an unsigned value back, if it fits. -/
theorem ofLeBytes_leBytes_of_lt {w n : Nat} (h : n < 256 ^ w) : ofLeBytes (leBytes w n) = n := by
  rw [ofLeBytes_leBytes, Nat.mod_eq_of_lt h]

theorem ofLeBytes_lt (bs : List UInt8) : ofLeBytes bs < 256 ^ bs.length := by
  induction bs with
  | nil => simp [ofLeBytes]
  | cons b bs ih =>
    have digit : b.toNat < 256 := b.toNat_lt
    rw [ofLeBytes, List.length_cons, Nat.pow_succ']
    omega

/-- Bytes are those of their value. -/
theorem leBytes_ofLeBytes (bs : List UInt8) : leBytes bs.length (ofLeBytes bs) = bs := by
  induction bs with
  | nil => rfl
  | cons b bs ih =>
    have low : UInt8.ofNat (b.toNat + 256 * ofLeBytes bs) = b := by
      refine UInt8.toNat_inj.mp ?_
      rw [UInt8.toNat_ofNat', Nat.add_mul_mod_self_left, Nat.mod_eq_of_lt b.toNat_lt]
    have high : (b.toNat + 256 * ofLeBytes bs) / 256 = ofLeBytes bs := by
      have digit := b.toNat_lt
      omega
    rw [List.length_cons, ofLeBytes, leBytes, low, high, ih]

/-- Values that fit are told apart by their bytes. -/
theorem leBytes_inj {w n k : Nat} (hn : n < 256 ^ w) (hk : k < 256 ^ w)
    (h : leBytes w n = leBytes w k) : n = k := by
  have values := congrArg ofLeBytes h
  rwa [ofLeBytes_leBytes, ofLeBytes_leBytes, Nat.mod_eq_of_lt hn, Nat.mod_eq_of_lt hk] at values

/-- The two's complement of a signed value, `w` bytes wide. -/
def twos (w : Nat) (z : Int) : Nat := (z % (2 : Int) ^ (8 * w)).toNat

/-- The signed value with a given two's complement. -/
def ofTwos (w n : Nat) : Int :=
  if 2 * n < 2 ^ (8 * w) then (n : Int) else (n : Int) - (2 : Int) ^ (8 * w)

theorem ofTwos_bounds {w n : Nat} (pos : 0 < w) (h : n < 256 ^ w) :
    -2 ^ (8 * w - 1) ≤ ofTwos w n ∧ ofTwos w n < 2 ^ (8 * w - 1) := by
  obtain ⟨k, hk⟩ : ∃ k, 8 * w = k + 1 := ⟨8 * w - 1, by omega⟩
  have width : (256 : Nat) ^ w = 2 ^ (k + 1) := by rw [← hk, Nat.pow_mul]
  rw [width, Nat.pow_succ] at h
  have cast : ((2 ^ k : Nat) : Int) = 2 ^ k := by norm_cast
  unfold ofTwos
  rw [hk, Nat.pow_succ, Nat.add_sub_cancel, Int.pow_succ, ← cast]
  split
  · omega
  · omega

theorem twos_lt (w : Nat) (z : Int) : twos w z < 256 ^ w := by
  have pos : (0 : Int) < 2 ^ (8 * w) := Int.pow_pos (by decide)
  have width : ((256 ^ w : Nat) : Int) = 2 ^ (8 * w) := by
    rw [show 256 = 2 ^ 8 by rfl, ← Nat.pow_mul]
    norm_cast
  have lt := Int.emod_lt_of_pos z pos
  have nonneg := Int.emod_nonneg z pos.ne'
  unfold twos
  omega

/-- Reading a signed value back, if it fits. -/
theorem ofTwos_twos {w : Nat} {z : Int} (pos : 0 < w) (low : -2 ^ (8 * w - 1) ≤ z)
    (high : z < 2 ^ (8 * w - 1)) : ofTwos w (twos w z) = z := by
  obtain ⟨k, hk⟩ : ∃ k, 8 * w = k + 1 := ⟨8 * w - 1, by omega⟩
  rw [hk, Nat.add_sub_cancel] at low high
  have half : (2 : Int) ^ (k + 1) = 2 * 2 ^ k := by rw [pow_succ]; ring
  have cast : ((2 ^ (k + 1) : Nat) : Int) = 2 * 2 ^ k := by rw [← half]; norm_cast
  unfold ofTwos twos
  rw [hk, half]
  by_cases negative : z < 0
  · have value : z % (2 * 2 ^ k) = z + 2 * 2 ^ k := by
      rw [← Int.add_emod_right, Int.emod_eq_of_lt (by omega) (by omega)]
    rw [value, if_neg (by omega), Int.toNat_of_nonneg (by omega)]
    omega
  · rw [Int.emod_eq_of_lt (by omega) (by omega), if_pos (by omega),
      Int.toNat_of_nonneg (by omega)]

end Bytes
