import Mathlib.Order.Lattice

/-!
# The leader of a list

The leader of a list is its largest element, the first one if there are several.
A scan finds it with one comparison for each element (`Leads.snoc`).  When one
element becomes larger, the leader stays or that element becomes it.
-/

namespace Leader

variable {α : Type*} [LinearOrder α] {xs ys : List α} {i k l : Nat} {a b x top : α}

/-- The largest element of a list stands at place `k`, and none before it is as large. -/
structure Leads (xs : List α) (k : Nat) (top : α) : Prop where
  here : xs[k]? = some top
  le : ∀ (j : Nat) (x : α), xs[j]? = some x → x ≤ top
  lt : ∀ (j : Nat) (x : α), xs[j]? = some x → j < k → x < top

theorem Leads.singleton (x : α) : Leads [x] 0 x where
  here := rfl
  le j y at_j := by
    cases j with
    | zero =>
      cases at_j
      exact le_refl x
    | succ j => cases at_j
  lt _ _ _ before := absurd before (Nat.not_lt_zero _)

/-- The leader of a list with one more element. -/
theorem Leads.snoc (h : Leads xs k top) (x : α) :
    if x > top then Leads (xs ++ [x]) xs.length x else Leads (xs ++ [x]) k top := by
  have inside : k < xs.length := (List.getElem?_eq_some_iff.mp h.here).1
  -- an element of the longer list is one of the old ones or the new one
  have places : ∀ (j : Nat) (y : α), (xs ++ [x])[j]? = some y →
      xs[j]? = some y ∨ j = xs.length ∧ y = x := by
    intro j y at_j
    rcases Nat.lt_or_ge j xs.length with old | new
    · exact .inl (by rwa [List.getElem?_append_left old] at at_j)
    have last : j = xs.length := by
      have := (List.getElem?_eq_some_iff.mp at_j).1
      rw [List.length_append, List.length_singleton] at this
      omega
    subst last
    rw [List.getElem?_concat_length] at at_j
    exact .inr ⟨rfl, (Option.some.inj at_j).symm⟩
  split
  next larger =>
    refine ⟨List.getElem?_concat_length, fun j y at_j => ?_, fun j y at_j before => ?_⟩
    · rcases places j y at_j with old | ⟨_, rfl⟩
      · exact ((h.le j y old).trans_lt larger).le
      · exact le_refl y
    rcases places j y at_j with old | ⟨rfl, _⟩
    · exact (h.le j y old).trans_lt larger
    · exact absurd before (Nat.lt_irrefl _)
  next smaller =>
    refine ⟨by rw [List.getElem?_append_left inside, h.here], fun j y at_j => ?_,
      fun j y at_j before => ?_⟩
    · rcases places j y at_j with old | ⟨_, rfl⟩
      · exact h.le j y old
      · exact not_lt.mp smaller
    rcases places j y at_j with old | ⟨rfl, _⟩
    · exact h.lt j y old before
    · exact absurd inside (Nat.lt_asymm before)

/-- When one element becomes larger, the leader stays or that element becomes it. -/
theorem Leads.of_grown (old : Leads xs k a) (new : Leads ys l b)
    (length : xs.length = ys.length) (same : ∀ j, j ≠ i → xs[j]? = ys[j]?)
    (grown : ∀ x y, xs[i]? = some x → ys[i]? = some y → x ≤ y) : l = k ∨ l = i := by
  by_contra apart
  obtain ⟨other, elsewhere⟩ := not_or.mp apart
  -- the new leader was in the old list with the same value
  have before : xs[l]? = some b := by rw [same l elsewhere, new.here]
  have low := old.le l b before
  have after : ∃ y, ys[k]? = some y ∧ a ≤ y := by
    by_cases at_i : k = i
    · subst at_i
      have present : k < ys.length := length ▸ (List.getElem?_eq_some_iff.mp old.here).1
      have at_k := List.getElem?_eq_getElem present
      exact ⟨ys[k], at_k, grown a _ old.here at_k⟩
    · exact ⟨a, by rw [← same k at_i, old.here], le_refl a⟩
  obtain ⟨y, at_k, high⟩ := after
  rcases Nat.lt_or_gt_of_ne other with earlier | later
  · exact absurd (old.lt l b before earlier) (not_lt.mpr (high.trans (new.le k y at_k)))
  · exact absurd (new.lt k y at_k later) (not_lt.mpr (low.trans high))

end Leader
