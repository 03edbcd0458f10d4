import Mathlib.Data.List.Chain
import Mathlib.Data.Nat.Find
import Mathlib.Logic.Relation

/-!
# Longest chains of a relation

A chain is a list whose neighbours are related.  `Longest r a n` says that among
the chains that start at `a` the longest has `n` members.  Such a length becomes
smaller along the relation, so where everything that is related has one, nothing
leads back to itself.
-/

namespace Chains

variable {α : Type*} {r : α → α → Prop} {a b : α} {n k : Nat} {path rest : List α}

/-- The longest chain that starts at `a` has `n` members. -/
structure Longest (r : α → α → Prop) (a : α) (n : Nat) : Prop where
  attained : ∃ rest, (a :: rest).IsChain r ∧ rest.length + 1 = n
  bound : ∀ rest, (a :: rest).IsChain r → rest.length + 1 ≤ n

theorem Longest.lt_of_rel (ha : Longest r a n) (hb : Longest r b k) (related : r a b) : k < n := by
  obtain ⟨rest, chain, length⟩ := hb.attained
  have longer := ha.bound (b :: rest) (.cons_cons related chain)
  rw [List.length_cons] at longer
  omega

theorem Longest.unique (h : Longest r a n) (h' : Longest r a k) : n = k := by
  obtain ⟨rest, chain, rfl⟩ := h.attained
  obtain ⟨rest', chain', rfl⟩ := h'.attained
  exact Nat.le_antisymm (h'.bound rest chain) (h.bound rest' chain')

/-- The longest chain from `a` goes on with a longest chain of what `a` is related to. -/
theorem Longest.of_successors (below : ∀ b, r a b → ∃ k, Longest r b k ∧ k < n)
    (attained : n = 1 ∨ ∃ b, r a b ∧ ∃ k, Longest r b k ∧ n = k + 1) : Longest r a n where
  attained := by
    rcases attained with rfl | ⟨b, related, k, longest, rfl⟩
    · exact ⟨[], .singleton a, rfl⟩
    · obtain ⟨rest, chain, length⟩ := longest.attained
      exact ⟨b :: rest, .cons_cons related chain, by rw [List.length_cons, length]⟩
  bound := by
    have positive : 1 ≤ n := by
      rcases attained with rfl | ⟨_, _, k, _, rfl⟩
      · exact Nat.le_refl 1
      · exact Nat.le_add_left 1 k
    intro rest chain
    cases rest with
    | nil => exact positive
    | cons b rest =>
      obtain ⟨related, chain⟩ := List.isChain_cons_cons.mp chain
      obtain ⟨k, longest, smaller⟩ := below b related
      have := longest.bound rest chain
      rw [List.length_cons]
      omega

/-- Along several steps the length becomes smaller, too. -/
theorem Longest.lt_of_transGen (all : ∀ a b, r a b → ∃ n, Longest r b n) (ha : Longest r a n)
    (leads : Relation.TransGen r a b) : ∃ k, Longest r b k ∧ k < n := by
  induction leads with
  | single related =>
    obtain ⟨k, longest⟩ := all _ _ related
    exact ⟨k, longest, ha.lt_of_rel longest related⟩
  | tail _ related ih =>
    obtain ⟨k, before, smaller⟩ := ih
    obtain ⟨k', longest⟩ := all _ _ related
    exact ⟨k', longest, Nat.lt_trans (before.lt_of_rel longest related) smaller⟩

/-- Where the lengths of chains are bounded, nothing leads back to itself. -/
theorem acyclic_of_longest (all : ∀ a b, r a b → ∃ n, Longest r b n) (a : α) :
    ¬ Relation.TransGen r a a := by
  intro leads
  obtain ⟨_, _, last⟩ := Relation.TransGen.tail'_iff.mp leads
  obtain ⟨n, longest⟩ := all _ _ last
  obtain ⟨k, again, smaller⟩ := longest.lt_of_transGen all leads
  have same := longest.unique again
  omega

/-- There is a chain of `k` members that starts at `a`. -/
def Starts (r : α → α → Prop) (a : α) (k : Nat) : Prop :=
  ∃ rest, (a :: rest).IsChain r ∧ rest.length + 1 = k

open Classical in
/-- Where chains have at most `n` members, the length of the longest one from `a`. -/
noncomputable def height (r : α → α → Prop) (n : Nat) (a : α) : Nat :=
  Nat.findGreatest (Starts r a) n

theorem longest_height (bounded : ∀ chain : List α, chain.IsChain r → chain.length ≤ n) (a : α) :
    Longest r a (height r n a) where
  attained := by
    classical
    have one : Starts r a 1 := ⟨[], .singleton a, rfl⟩
    exact Nat.findGreatest_spec (bounded [a] (.singleton a)) one
  bound rest chain := by
    classical
    exact Nat.le_findGreatest (bounded _ chain) ⟨rest, chain, rfl⟩

/-- Every member of a chain leads to its end. -/
theorem transGen_of_chain (chain : (path ++ [b]).IsChain r) (inside : a ∈ path) :
    Relation.TransGen r a b := by
  induction path generalizing a with
  | nil => cases inside
  | cons c path ih =>
    rw [List.cons_append] at chain
    cases path with
    | nil =>
      rw [List.mem_singleton] at inside
      subst inside
      exact .single (List.isChain_cons_cons.mp chain).1
    | cons d path =>
      obtain ⟨first, others⟩ := List.isChain_cons_cons.mp chain
      rcases List.mem_cons.mp inside with rfl | inside
      · exact .head first (ih others (.head _))
      · exact ih others inside

end Chains
