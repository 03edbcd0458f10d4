import Mathlib.Algebra.Group.Nat.Defs
import Mathlib.Data.Nat.Basic

/-!
# Fixed-width unsigned arithmetic on naturals

Counters of the program are `u64`, `u32` and `usize` values.  They are kept as
natural numbers here, and every place where the width matters goes through one
of the operations below: a checked addition, a checked subtraction, a checked
conversion and a saturating subtraction.  The last one is the truncated
subtraction of `Nat`, so it needs no definition.
-/

namespace Fixed

/-- The largest 32-bit value. -/
def u32Max : Nat := 2 ^ 32 - 1

/-- The largest 64-bit value. -/
def u64Max : Nat := 2 ^ 64 - 1

/-- The largest signed 64-bit value. -/
def i64Max : Nat := 2 ^ 63 - 1

/-- Addition that fails past `bound`. -/
def checkedAdd (bound a b : Nat) : Option Nat :=
  if a + b ≤ bound then some (a + b) else none

/-- Subtraction that fails below zero. -/
def checkedSub (a b : Nat) : Option Nat :=
  if b ≤ a then some (a - b) else none

/-- Conversion into a type whose largest value is `bound`. -/
def tryFrom (bound n : Nat) : Option Nat :=
  if n ≤ bound then some n else none

theorem checkedAdd_eq_some {bound a b n : Nat} (h : checkedAdd bound a b = some n) :
    n = a + b := by
  unfold checkedAdd at h
  split at h
  · exact (Option.some.inj h).symm
  · cases h

theorem checkedSub_eq_some {a b n : Nat} (h : checkedSub a b = some n) : b ≤ a ∧ n = a - b := by
  unfold checkedSub at h
  split at h
  next le => exact ⟨le, (Option.some.inj h).symm⟩
  · cases h

theorem tryFrom_eq_some {bound n k : Nat} (h : tryFrom bound n = some k) :
    k = n ∧ n ≤ bound := by
  unfold tryFrom at h
  split at h
  · exact ⟨(Option.some.inj h).symm, ‹_›⟩
  · cases h

end Fixed
