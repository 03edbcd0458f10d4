import Mathlib.Data.Nat.Basic

/-!
# The checksum of the wire format

CRC-32C with the bits of a byte taken from the low end.  The source calls a
library for it and takes away the complement that the library puts on both ends,
so that a checksum can be continued from the one before.
-/

namespace RadosRs.Wire

/-- Eight steps of the shift register. -/
def crcShift (register : UInt32) : Nat → UInt32
  | 0 => register
  | count + 1 =>
    crcShift
      (if register &&& 1 = 1 then (register >>> 1) ^^^ 0x82f63b78 else register >>> 1) count

def crc32c (seed : UInt32) (payload : List UInt8) : UInt32 :=
  payload.foldl (fun register byte => crcShift (register ^^^ byte.toUInt32) 8) seed

set_option maxRecDepth 4000

/-- The vector for `foo bar baz`. -/
example : crc32c 0 [102, 111, 111, 32, 98, 97, 114, 32, 98, 97, 122] = 4119623852 := by
  decide

/-! ## Evaluation -/

/-- The shift register on numerals. -/
def crcShiftNumeral (register : Nat) : Nat → Nat
  | 0 => register
  | count + 1 =>
    crcShiftNumeral
      (if register % 2 = 1 then (register / 2) ^^^ 0x82f63b78 else register / 2) count

/-- Goes on with a value after it has been evaluated. -/
def evaluated (next : Nat → Nat) : Nat → Nat
  | 0 => next 0
  | n + 1 => next (n + 1)

theorem evaluated_eq (next : Nat → Nat) (n : Nat) : evaluated next n = next n := by
  cases n <;> rfl

/-- The checksum with the register a numeral after each byte, so that it can be evaluated on a
long payload. -/
def crcNumeral : List UInt8 → Nat → Nat
  | [], register => register
  | byte :: rest, register =>
    evaluated (crcNumeral rest) (crcShiftNumeral (register ^^^ byte.toNat) 8)

theorem toNat_crcShift (register : UInt32) (count : Nat) :
    (crcShift register count).toNat = crcShiftNumeral register.toNat count := by
  induction count generalizing register with
  | zero => rfl
  | succ count ih =>
    have low : register &&& 1 = 1 ↔ register.toNat % 2 = 1 := by
      rw [← UInt32.toNat_inj, UInt32.toNat_and]
      exact iff_of_eq (congrArg (· = 1) (Nat.and_one_is_mod _))
    have half : (register >>> 1).toNat = register.toNat / 2 := by
      rw [UInt32.toNat_shiftRight]
      exact Nat.shiftRight_eq_div_pow _ 1
    rw [crcShift, crcShiftNumeral, ih]
    simp only [low, apply_ite UInt32.toNat, UInt32.toNat_xor, half]
    rfl

theorem toNat_crc32c (seed : UInt32) (payload : List UInt8) :
    (crc32c seed payload).toNat = crcNumeral payload seed.toNat := by
  induction payload generalizing seed with
  | nil => rfl
  | cons byte rest ih =>
    have shifted : (crcShift (seed ^^^ byte.toUInt32) 8).toNat =
        crcShiftNumeral (seed.toNat ^^^ byte.toNat) 8 := by
      rw [toNat_crcShift, UInt32.toNat_xor, UInt8.toNat_toUInt32]
    rw [crcNumeral, evaluated_eq, ← shifted, ← ih]
    rfl

end RadosRs.Wire
