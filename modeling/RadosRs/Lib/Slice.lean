import Mathlib.Data.List.Basic
import Mathlib.Order.Defs.LinearOrder
import Mathlib.Order.MinMax

/-!
# Slices of a sorted list

The items of a list have positions in a linear order and stand in the order of
their positions, no two at the same one.  `slice items a b` are those from `a` up
to but not including `b`.  Adjacent slices fit together without a gap and without
an item twice (`slice_append`), and every way to shorten a slice at its end gives
a slice again: dropping what lies beyond a position (`slice_filter`), or keeping
a number of items (`slice_take`).
-/

namespace Slice

variable {P α : Type*} [LinearOrder P] (pos : α → P)

/-- Every item stands before those that come after it. -/
def Ordered (items : List α) : Prop := items.Pairwise fun x y => pos x < pos y

/-- The items from `a` up to but not including `b`. -/
def slice (items : List α) (a b : P) : List α :=
  items.filter fun x => decide (a ≤ pos x) && decide (pos x < b)

variable {pos} {items : List α} {a b c : P} {x : α}

theorem mem_slice : x ∈ slice pos items a b ↔ x ∈ items ∧ a ≤ pos x ∧ pos x < b := by
  simp [slice]

theorem slice_nil (a b : P) : slice pos [] a b = [] := rfl

theorem slice_cons (a b : P) :
    slice pos (x :: items) a b
      = if a ≤ pos x ∧ pos x < b then x :: slice pos items a b else slice pos items a b := by
  simp [slice, List.filter_cons]

/-- Nothing of a list that stands at `b` or later is before `b`. -/
theorem slice_eq_nil (h : ∀ x ∈ items, a ≤ pos x → b ≤ pos x) : slice pos items a b = [] := by
  rw [List.eq_nil_iff_forall_not_mem]
  intro x mem
  obtain ⟨mem, le, lt⟩ := mem_slice.mp mem
  exact absurd (h x mem le) (not_le.mpr lt)

theorem slice_self (items : List α) (a : P) : slice pos items a a = [] :=
  slice_eq_nil fun _ _ le => le

namespace Ordered

theorem of_slice (h : Ordered pos items) (a b : P) : Ordered pos (slice pos items a b) :=
  h.sublist List.filter_sublist

/-- Adjacent slices fit together. -/
theorem slice_append (h : Ordered pos items) (ab : a ≤ b) (bc : b ≤ c) :
    slice pos items a b ++ slice pos items b c = slice pos items a c := by
  induction items with
  | nil => rfl
  | cons x items ih =>
    obtain ⟨head, tail⟩ := List.pairwise_cons.mp h
    have rest := ih tail
    simp only [slice_cons]
    by_cases before : pos x < b
    · have notFrom : ¬ (b ≤ pos x ∧ pos x < c) := fun h => absurd h.1 (not_le.mpr before)
      have upTo : (a ≤ pos x ∧ pos x < b) ↔ (a ≤ pos x ∧ pos x < c) :=
        and_congr_right fun _ => ⟨fun _ => before.trans_le bc, fun _ => before⟩
      rw [if_neg notFrom]
      by_cases start : a ≤ pos x ∧ pos x < c
      · rw [if_pos (upTo.mpr start), if_pos start, List.cons_append, rest]
      · rw [if_neg (upTo.not.mpr start), if_neg start, rest]
    · -- the head is at `b` or later, and so is all that follows
      have later : b ≤ pos x := not_lt.mp before
      have empty : slice pos items a b = [] :=
        slice_eq_nil fun y mem _ => later.trans (head y mem).le
      rw [empty] at rest ⊢
      rw [if_neg fun h => before h.2, List.nil_append]
      rw [List.nil_append] at rest
      have upTo : (b ≤ pos x ∧ pos x < c) ↔ (a ≤ pos x ∧ pos x < c) :=
        and_congr_left fun _ => ⟨fun _ => ab.trans later, fun _ => later⟩
      by_cases start : a ≤ pos x ∧ pos x < c
      · rw [if_pos (upTo.mpr start), if_pos start, rest]
      · rw [if_neg (upTo.not.mpr start), if_neg start, rest]

/-- An item stands after those before it and before those after it. -/
theorem getElem? (h : Ordered pos items) {k : Nat} (here : items[k]? = some x) :
    (∀ y ∈ items.take k, pos y < pos x) ∧ ∀ y ∈ items.drop k, pos x ≤ pos y := by
  obtain ⟨lt, rfl⟩ := List.getElem?_eq_some_iff.mp here
  have parts : Ordered pos (items.take k ++ items[k] :: items.drop (k + 1)) := by
    rw [← List.drop_eq_getElem_cons lt, List.take_append_drop]
    exact h
  obtain ⟨-, later, before⟩ := List.pairwise_append.mp parts
  refine ⟨fun y mem => before y mem _ (.head _), fun y mem => ?_⟩
  rw [List.drop_eq_getElem_cons lt] at mem
  cases mem with
  | head => exact le_rfl
  | tail _ mem => exact ((List.pairwise_cons.mp later).1 y mem).le

end Ordered

/-- The first items of a list are those before `c`, if they are and the others are not. -/
theorem take_eq_filter {k : Nat} (front : ∀ x ∈ items.take k, pos x < c)
    (back : ∀ x ∈ items.drop k, c ≤ pos x) :
    items.take k = items.filter fun x => decide (pos x < c) := by
  have whole := congrArg (List.filter fun x => decide (pos x < c)) (List.take_append_drop k items)
  rw [List.filter_append, List.filter_eq_self.mpr (by simpa using front),
    List.filter_eq_nil_iff.mpr (by simpa using back), List.append_nil] at whole
  exact whole

/-- What a slice has before `c`. -/
theorem slice_filter (le : c ≤ b) :
    (slice pos items a b).filter (fun x => decide (pos x < c)) = slice pos items a c := by
  unfold slice
  rw [List.filter_filter]
  refine List.filter_congr fun x _ => ?_
  by_cases before : pos x < c
  · simp [before, before.trans_le le]
  · simp [before]

/-- The first items of a slice, up to a given one of them. -/
theorem Ordered.slice_take (h : Ordered pos items) {k : Nat}
    (here : (slice pos items a b)[k]? = some x) :
    (slice pos items a b).take k = slice pos items a (pos x) := by
  obtain ⟨front, back⟩ := (h.of_slice a b).getElem? here
  have inside := (mem_slice.mp (List.mem_of_getElem? here)).2.2
  rw [take_eq_filter front back, slice_filter inside.le]

end Slice
