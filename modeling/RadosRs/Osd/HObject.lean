import Mathlib
import RadosRs.Wire.Codec
import RadosRs.Lib.Fallible

/-!
# The order of objects

An OSD keeps the objects of a pool in the order of their hashes with the bits
reversed.  `HObject` is a place in that order: an object, or a boundary between
objects, or the end of all of them if `max` is set.  Objects with the same hash
are ordered by their name space, then by the key that places them (the object's
own name if it has none), and then by name.

`compareHobject` is the comparison of the source.  It is the comparison of a
linear order: `position` takes an object to where it stands, with all the ends at
the top, and `compareHobject_eq` says that comparing objects is comparing their
positions.
-/

namespace RadosRs.Osd

open Bytes Fixed Fallible Wire

/-- The snapshot of an object that is not one. -/
def noSnap : UInt64 := .ofNat (u64Max - 1)

structure HObject where
  key : List UInt8
  object : List UInt8
  snapshot : UInt64
  hash : UInt32
  max : Bool
  nameSpace : List UInt8
  pool : Int64
  deriving DecidableEq, Repr

def reverseBits (value : UInt32) : UInt32 := ⟨value.toBitVec.reverse⟩

def effectiveKey (object : HObject) : List UInt8 :=
  if object.key.isEmpty then object.object else object.key

def compareHobject (left right : HObject) : Ordering :=
  if left.max && right.max then .eq
  else
    ((((((compare left.max right.max).then (compare left.pool right.pool)).then
      (compare (reverseBits left.hash) (reverseBits right.hash))).then
      (compare left.nameSpace right.nameSpace)).then
      (if left.key.isEmpty && right.key.isEmpty then .eq
        else compare (effectiveKey left) (effectiveKey right))).then
      (compare left.object right.object)).then
      (compare left.snapshot right.snapshot)

def encodeHobject (encoder : Encoder) (object : HObject) : Encoder :=
  encoder.versioned 4 3 fun payload =>
    ((((((payload.blob object.key).blob object.object).u64 object.snapshot.toNat).u32
      object.hash.toNat).bool object.max).blob object.nameSpace).i64 object.pool.toInt

/-- The fields of a record of the given version. -/
def decodeHobjectFields (version : Nat) (payload : Decoder) : HObject × Decoder :=
  let (key, payload) := payload.blob
  let (object, payload) := payload.blob
  let (snapshot, payload) := payload.u64
  let (hash, payload) := payload.u32
  let (max, payload) := payload.bool
  let ((nameSpace, pool), payload) :=
    if version ≥ 4 then
      let (nameSpace, payload) := payload.blob
      let (pool, payload) := payload.i64
      ((nameSpace, Int64.ofInt pool), payload)
    else (([], Int64.minValue), payload)
  ({ key, object, snapshot := .ofNat snapshot, hash := .ofNat hash, max, nameSpace, pool }, payload)

def decodeHobject (decoder : Decoder) : Except WireError (HObject × Decoder) := do
  let ((version, payload), decoder) := decoder.versioned 4
  decoder.finish
  if !(3 ≤ version && version ≤ 4) then throw (.unsupportedVersion 4 version)
  let (object, payload) := decodeHobjectFields version payload
  payload.finish
  if payload.remaining != 0 then throw .malformed
  return (object, decoder)

/-! ## Positions -/

/-- The numbers of a byte string, which are compared from the front. -/
def numbers (bytes : List UInt8) : List Nat := bytes.map UInt8.toNat

/-- Where objects stand: by pool, reversed hash, name space, key, name and snapshot. -/
abbrev Position := WithTop (ℤ ×ₗ ℕ ×ₗ List ℕ ×ₗ List ℕ ×ₗ List ℕ ×ₗ ℕ)

def position (object : HObject) : Position :=
  if object.max then ⊤
  else
    ↑(toLex (object.pool.toInt, toLex ((reverseBits object.hash).toNat,
      toLex (numbers object.nameSpace, toLex (numbers (effectiveKey object),
        toLex (numbers object.object, object.snapshot.toNat))))))

section Comparing

variable {α β γ : Type} [LinearOrder α] [LinearOrder β] [LinearOrder γ]

/-- The comparison of a linear order. -/
def order (p q : γ) : Ordering := cmp p q

theorem order_eq_lt {p q : γ} : order p q = .lt ↔ p < q := cmp_eq_lt_iff p q

theorem order_eq_eq {p q : γ} : order p q = .eq ↔ p = q := cmp_eq_eq_iff p q

theorem order_eq_gt {p q : γ} : order p q = .gt ↔ q < p := cmp_eq_gt_iff p q

/-- Comparing two values by their first components and then by their second ones. -/
theorem order_eq_then {p q : γ} {a c : α} {b d : β} (less : p < q ↔ a < c ∨ a = c ∧ b < d)
    (greater : q < p ↔ c < a ∨ c = a ∧ d < b) : order p q = (order a c).then (order b d) := by
  cases first : order a c with
  | lt => exact order_eq_lt.mpr (less.mpr (.inl (order_eq_lt.mp first)))
  | gt => exact order_eq_gt.mpr (greater.mpr (.inl (order_eq_gt.mp first)))
  | eq =>
    obtain rfl := order_eq_eq.mp first
    cases second : order b d with
    | lt => exact order_eq_lt.mpr (less.mpr (.inr ⟨rfl, order_eq_lt.mp second⟩))
    | gt => exact order_eq_gt.mpr (greater.mpr (.inr ⟨rfl, order_eq_gt.mp second⟩))
    | eq =>
      obtain rfl := order_eq_eq.mp second
      refine order_eq_eq.mpr (le_antisymm (not_lt.mp ?_) (not_lt.mp ?_))
      · rw [greater]
        simp
      · rw [less]
        simp

theorem order_toLex (a c : α) (b d : β) :
    order (toLex (a, b)) (toLex (c, d)) = (order a c).then (order b d) :=
  order_eq_then Prod.Lex.toLex_lt_toLex Prod.Lex.toLex_lt_toLex

theorem order_cons (x y : α) (a b : List α) :
    order (x :: a) (y :: b) = (order x y).then (order a b) :=
  order_eq_then List.cons_lt_cons_iff List.cons_lt_cons_iff

theorem order_coe (a b : α) : order (a : WithTop α) (b : WithTop α) = order a b := by
  unfold order cmp cmpUsing
  simp only [WithTop.coe_lt_coe]

/-- A comparison through a map that keeps the order and tells values apart. -/
theorem compareOfLessAndEq_eq_order {δ : Type} [LT δ] [DecidableEq δ] [DecidableLT δ] {f : δ → γ}
    (lt : ∀ a b, a < b ↔ f a < f b) (inj : Function.Injective f) (a b : δ) :
    compareOfLessAndEq a b = order (f a) (f b) := by
  unfold compareOfLessAndEq
  split
  next less => exact (order_eq_lt.mpr ((lt a b).mp less)).symm
  rename_i notLess
  split
  next same => exact (order_eq_eq.mpr (congrArg f same)).symm
  rename_i different
  have ne : f b ≠ f a := fun same => different (inj same).symm
  have le : f b ≤ f a := not_lt.mp fun less => notLess ((lt a b).mpr less)
  exact (order_eq_gt.mpr (lt_of_le_of_ne le ne)).symm

end Comparing

theorem compare_int64 (a b : Int64) : compare a b = order a.toInt b.toInt :=
  compareOfLessAndEq_eq_order (fun _ _ => Int64.lt_iff_toInt_lt) (fun _ _ => Int64.toInt_inj.mp)
    a b

theorem compare_uint32 (a b : UInt32) : compare a b = order a.toNat b.toNat :=
  compareOfLessAndEq_eq_order (fun _ _ => UInt32.lt_iff_toNat_lt) (fun _ _ => UInt32.toNat_inj.mp)
    a b

theorem compare_uint64 (a b : UInt64) : compare a b = order a.toNat b.toNat :=
  compareOfLessAndEq_eq_order (fun _ _ => UInt64.lt_iff_toNat_lt) (fun _ _ => UInt64.toNat_inj.mp)
    a b

theorem compare_uint8 (a b : UInt8) : compare a b = order a.toNat b.toNat :=
  compareOfLessAndEq_eq_order (fun _ _ => UInt8.lt_iff_toNat_lt) (fun _ _ => UInt8.toNat_inj.mp)
    a b

theorem compare_bytes (a b : List UInt8) : compare a b = order (numbers a) (numbers b) := by
  induction a generalizing b with
  | nil =>
    cases b with
    | nil => rfl
    | cons y b => exact (order_eq_lt.mpr (List.nil_lt_cons _ _)).symm
  | cons x a ih =>
    cases b with
    | nil => exact (order_eq_gt.mpr (List.nil_lt_cons _ _)).symm
    | cons y b =>
      rw [List.compare_cons_cons, compare_uint8, ih b]
      exact (order_cons ..).symm

/-- Comparing the keys does nothing new if there are none: names are compared next. -/
theorem compareKeys_then (left right : HObject) :
    (if left.key.isEmpty && right.key.isEmpty then .eq
        else compare (effectiveKey left) (effectiveKey right)).then
        (compare left.object right.object)
      = (order (numbers (effectiveKey left)) (numbers (effectiveKey right))).then
        (order (numbers left.object) (numbers right.object)) := by
  rw [compare_bytes, compare_bytes]
  split
  next empty =>
    rw [Bool.and_eq_true] at empty
    simp only [effectiveKey, empty, if_true]
    cases order (numbers left.object) (numbers right.object) <;> rfl
  · rfl

variable {object : HObject}

theorem position_max (max : object.max = true) : position object = ⊤ := by
  rw [position, if_pos max]

theorem position_lt_top (max : object.max = false) : position object < ⊤ := by
  rw [position, if_neg (by rw [max]; decide)]
  exact WithTop.coe_lt_top _

theorem compareHobject_eq (left right : HObject) :
    compareHobject left right = order (position left) (position right) := by
  unfold compareHobject
  cases first : left.max with
  | true =>
    cases second : right.max with
    | true =>
      rw [position_max first, position_max second]
      exact (order_eq_eq.mpr rfl).symm
    | false =>
      rw [position_max first]
      exact (order_eq_gt.mpr (position_lt_top second)).symm
  | false =>
    cases second : right.max with
    | true =>
      rw [position_max second]
      exact (order_eq_lt.mpr (position_lt_top first)).symm
    | false =>
      have keys := compareKeys_then left right
      have same : compare false false = .eq := rfl
      simp only [position, first, second, Bool.false_and, Bool.false_eq_true, if_false,
        order_coe, order_toLex, same, Ordering.eq_then]
      rw [← compare_uint64, ← compare_bytes left.nameSpace, ← compare_uint32, ← compare_int64,
        ← Ordering.then_assoc (order _ _) (order _ _), ← keys]
      simp only [Ordering.then_assoc]

variable {left right : HObject}

theorem compareHobject_lt : compareHobject left right = .lt ↔ position left < position right := by
  rw [compareHobject_eq, order_eq_lt]

theorem compareHobject_gt : compareHobject left right = .gt ↔ position right < position left := by
  rw [compareHobject_eq, order_eq_gt]

theorem compareHobject_ne_gt :
    compareHobject left right ≠ .gt ↔ position left ≤ position right := by
  rw [ne_eq, compareHobject_gt, not_lt]

theorem compareHobject_ne_lt :
    compareHobject left right ≠ .lt ↔ position right ≤ position left := by
  rw [ne_eq, compareHobject_lt, not_lt]

end RadosRs.Osd
