import Mathlib.Data.List.Nodup

/-!
# Lists with distinct keys

A list of records in which no two have the same key is a finite map that
remembers the order of insertion.  Looking a key up with `find?` and removing it
with `eraseP` then mean what they should: the one record with that key, and
every other record.
-/

namespace Keyed

variable {α κ : Type} {key : α → κ} {l : List α} {a b : α} {k : κ}

/-- No two elements have the same key. -/
def Distinct (key : α → κ) (l : List α) : Prop := (l.map key).Nodup

instance [DecidableEq κ] {l : List α} : Decidable (Distinct key l) :=
  inferInstanceAs (Decidable (l.map key).Nodup)

theorem distinct_nil : Distinct key [] := List.nodup_nil

theorem distinct_cons :
    Distinct key (a :: l) ↔ (∀ b ∈ l, key b ≠ key a) ∧ Distinct key l := by
  simp only [Distinct, List.map_cons, List.nodup_cons, List.mem_map, not_exists, not_and]

theorem Distinct.eq_of_key (h : Distinct key l) (ha : a ∈ l) (hb : b ∈ l)
    (same : key a = key b) : a = b :=
  List.inj_on_of_nodup_map h ha hb same

theorem Distinct.perm {l' : List α} (h : Distinct key l) (same : l.Perm l') : Distinct key l' :=
  (same.map key).nodup_iff.mp h

theorem Distinct.snoc (h : Distinct key l) (fresh : ∀ b ∈ l, key b ≠ key a) :
    Distinct key (l ++ [a]) := by
  simp only [Distinct, List.map_append, List.map_cons, List.map_nil]
  refine List.Nodup.append h (List.nodup_singleton _) ?_
  intro k hk hk'
  obtain ⟨b, hb, rfl⟩ := List.mem_map.mp hk
  exact fresh b hb (List.mem_singleton.mp hk')

/-- Replacing an element by one with the same key changes no key. -/
theorem Distinct.replace {xs ys : List α} (h : Distinct key (xs ++ a :: ys))
    (same : key b = key a) : Distinct key (xs ++ b :: ys) := by
  simpa only [Distinct, List.map_append, List.map_cons, same] using h

theorem Distinct.map {f : α → α} (h : Distinct key l) (same : ∀ a, key (f a) = key a) :
    Distinct key (l.map f) := by
  have keys : (l.map f).map key = l.map key := by simp [List.map_map, Function.comp_def, same]
  rw [Distinct, keys]
  exact h

/-! ## Looking up and removing -/

variable [DecidableEq κ]

theorem find?_mem (h : l.find? (key · == k) = some a) : a ∈ l ∧ key a = k :=
  ⟨List.mem_of_find?_eq_some h, by simpa using List.find?_some h⟩

theorem find?_eq_none : l.find? (key · == k) = none ↔ ∀ b ∈ l, key b ≠ k := by
  simp [List.find?_eq_none]

theorem Distinct.find?_eq (h : Distinct key l) (ha : a ∈ l) :
    l.find? (key · == key a) = some a := by
  cases found : l.find? (key · == key a) with
  | none => exact absurd rfl (find?_eq_none.mp found a ha)
  | some b =>
    obtain ⟨hb, same⟩ := find?_mem found
    rw [h.eq_of_key hb ha same]

/-- The element that is found and those that are left when it is removed. -/
theorem perm_of_find? {p : α → Bool} (h : l.find? p = some a) : l.Perm (a :: l.eraseP p) := by
  induction l with
  | nil => cases h
  | cons b l ih =>
    by_cases here : p b = true
    · rw [List.find?_cons_of_pos here] at h
      rw [List.eraseP_cons_of_pos here, Option.some.inj h]
    rw [List.find?_cons_of_neg here] at h
    rw [List.eraseP_cons_of_neg here]
    exact ((ih h).cons b).trans (.swap a b _)

theorem Distinct.eraseP (h : Distinct key l) : Distinct key (l.eraseP (key · == k)) :=
  h.sublist (List.eraseP_sublist.map key)

/-- Removing a key leaves exactly the other elements. -/
theorem Distinct.mem_eraseP (h : Distinct key l) :
    b ∈ l.eraseP (key · == k) ↔ b ∈ l ∧ key b ≠ k := by
  induction l with
  | nil => simp
  | cons a l ih =>
    obtain ⟨fresh, rest⟩ := distinct_cons.mp h
    by_cases here : key a = k
    · subst here
      rw [List.eraseP_cons_of_pos (by simp)]
      constructor
      · intro hb
        exact ⟨.tail _ hb, fresh b hb⟩
      rintro ⟨hb, other⟩
      rcases List.mem_cons.mp hb with rfl | hb
      · exact absurd rfl other
      · exact hb
    · rw [List.eraseP_cons_of_neg (by simpa using here), List.mem_cons, ih rest, List.mem_cons]
      constructor
      · rintro (rfl | ⟨hb, other⟩)
        · exact ⟨.inl rfl, here⟩
        · exact ⟨.inr hb, other⟩
      rintro ⟨rfl | hb, other⟩
      · exact .inl rfl
      · exact .inr ⟨hb, other⟩

end Keyed
