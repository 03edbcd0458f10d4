import Mathlib.Data.List.Basic
import Mathlib.Data.List.Count
import Mathlib.Data.List.Nodup

/-!
# Lists of choices

A list can be filled in two ways.  Choices can be made one after the other, each
of them allowed in view of those made before: `Grows allowed xs ys` says that
`ys` comes from `xs` by such choices.  Or there is a slot for each choice, and a
slot that has none holds a marker, the hole: `NoRepeat hole xs` says that nothing
else stands in two slots.
-/

namespace Selection

variable {α : Type}

/-! ## One choice after the other -/

/-- The list has grown by choices that were allowed when they were made. -/
inductive Grows (allowed : List α → α → Prop) (start : List α) : List α → Prop
  | start : Grows allowed start start
  | snoc {xs : List α} {x : α} : Grows allowed start xs → allowed xs x →
      Grows allowed start (xs ++ [x])

namespace Grows

variable {allowed : List α → α → Prop} {start xs ys : List α}

theorem trans (h : Grows allowed start xs) (k : Grows allowed xs ys) :
    Grows allowed start ys := by
  induction k with
  | start => exact h
  | snoc _ ok ih => exact .snoc ih ok

/-- What every allowed choice keeps holds of the grown list. -/
theorem invariant (Inv : List α → Prop) (next : ∀ {xs x}, Inv xs → allowed xs x → Inv (xs ++ [x]))
    (h : Grows allowed start xs) (init : Inv start) : Inv xs := by
  induction h with
  | start => exact init
  | snoc _ ok ih => exact next ih ok

/-- A list that has grown at all has grown by a first choice. -/
theorem first (h : Grows allowed start xs) :
    xs = start ∨ ∃ x, allowed start x ∧ start ++ [x] <+: xs := by
  induction h with
  | start => exact .inl rfl
  | @snoc xs x _ ok ih =>
    rcases ih with rfl | ⟨y, first, more⟩
    · exact .inr ⟨x, ok, List.prefix_rfl⟩
    · exact .inr ⟨y, first, more.trans (List.prefix_append xs [x])⟩

end Grows

/-! ## A slot for each choice -/

variable [DecidableEq α]

/-- Nothing but the hole stands in two slots. -/
def NoRepeat (hole : α) (xs : List α) : Prop := ∀ a, a ≠ hole → xs.count a ≤ 1

variable {hole : α} {xs ys : List α}

theorem NoRepeat.of_nodup (h : xs.Nodup) : NoRepeat hole xs :=
  fun a _ => List.nodup_iff_count_le_one.mp h a

theorem noRepeat_replicate (hole : α) (n : Nat) : NoRepeat hole (List.replicate n hole) := by
  intro a other
  rw [List.count_eq_zero_of_not_mem]
  · exact Nat.zero_le 1
  · simp [other]

/-- A slot gets a choice that stands nowhere else, or becomes a hole. -/
theorem NoRepeat.set (h : NoRepeat hole xs) {a : α} (fresh : a ∉ xs ∨ a = hole) (i : Nat) :
    NoRepeat hole (xs.set i a) := by
  intro b other
  by_cases inside : i < xs.length
  · have old := h b other
    rw [List.count_set inside]
    by_cases same : a = b
    · subst same
      have none : xs.count a = 0 := List.count_eq_zero_of_not_mem (fresh.resolve_right other)
      simp [none]
    · simp [same]
      omega
  · rw [List.set_eq_of_length_le (Nat.le_of_not_lt inside)]
    exact h b other

theorem NoRepeat.perm (h : NoRepeat hole xs) (same : ys.Perm xs) : NoRepeat hole ys := by
  intro a other
  rw [same.count_eq a]
  exact h a other

/-- Choices are dropped or become holes. -/
theorem NoRepeat.filterMap (h : NoRepeat hole xs) {f : α → Option α}
    (kept : ∀ a b, f a = some b → b = a ∨ b = hole) : NoRepeat hole (xs.filterMap f) := by
  intro b other
  have fewer : (xs.filterMap f).count b ≤ xs.count b := by
    clear h
    induction xs with
    | nil => exact Nat.le_refl _
    | cons a xs ih =>
      cases image : f a with
      | none =>
        rw [List.filterMap_cons_none image]
        exact Nat.le_trans ih List.count_le_count_cons
      | some c =>
        rw [List.filterMap_cons_some image, List.count_cons, List.count_cons]
        rcases kept a c image with rfl | rfl
        · omega
        · simp [Ne.symm other]
          omega
  exact Nat.le_trans fewer (h b other)

end Selection
