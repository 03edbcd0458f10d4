import RadosRs.Lib.Fallible
import RadosRs.Lib.Keyed

/-!
# Walks over a table in any order

A loop over a hash table visits the entries in an order that nothing is known about.
If turns for different keys can be exchanged, the order does not matter: `foldl_perm`
for loops that always come to their end, and `foldlM_perm` for loops that may stop.
For the latter, two turns are exchanged where they both succeed, and then a loop that
comes to its end in one order comes to the same end in every other one.

A loop that comes to its end has taken every turn (`foldlM_visits`).
-/

namespace Walk

open Fallible Keyed

variable {σ α κ ε : Type} {key : α → κ} {l l' : List α}

/-- Two turns that lead to a state lead there in the other order too. -/
def Swap (step : σ → α → Except ε σ) (a b : α) : Prop :=
  ∀ s between t, step s a = .ok between → step between b = .ok t →
    ∃ other, step s b = .ok other ∧ step other a = .ok t

variable {step : σ → α → Except ε σ}

theorem foldlM_perm (swap : ∀ a b, key a ≠ key b → Swap step a b) (distinct : Distinct key l)
    (perm : l.Perm l') {s t : σ} (h : l.foldlM step s = .ok t) : l'.foldlM step s = .ok t := by
  induction perm generalizing s with
  | nil => exact h
  | cons a _ ih =>
    rw [List.foldlM_cons] at h ⊢
    obtain ⟨between, first, rest⟩ := bind_eq_ok.mp h
    exact bind_eq_ok.mpr ⟨between, first, ih (distinct_cons.mp distinct).2 rest⟩
  | swap a b l =>
    rw [List.foldlM_cons] at h
    obtain ⟨between, first, rest⟩ := bind_eq_ok.mp h
    rw [List.foldlM_cons] at rest
    obtain ⟨after, second, rest⟩ := bind_eq_ok.mp rest
    have differ : key b ≠ key a := ((distinct_cons.mp distinct).1 a (.head _)).symm
    obtain ⟨other, first, second⟩ := swap b a differ s between after first second
    rw [List.foldlM_cons]
    refine bind_eq_ok.mpr ⟨other, first, ?_⟩
    rw [List.foldlM_cons]
    exact bind_eq_ok.mpr ⟨after, second, rest⟩
  | trans first _ ih ih' => exact ih' (distinct.perm first) (ih distinct h)

theorem foldl_perm {step : σ → α → σ}
    (comm : ∀ s a b, key a ≠ key b → step (step s a) b = step (step s b) a)
    (distinct : Distinct key l) (perm : l.Perm l') (s : σ) : l.foldl step s = l'.foldl step s := by
  refine perm.foldl_eq' (fun a ha b hb s => ?_) s
  by_cases same : key a = key b
  · rw [distinct.eq_of_key ha hb same]
  · exact comm s a b same

/-- A loop that comes to its end has taken a turn for each element. -/
theorem foldlM_visits (Inv : σ → Prop) (next : ∀ s a s', Inv s → step s a = .ok s' → Inv s')
    {s t : σ} (init : Inv s) (h : l.foldlM step s = .ok t) {a : α} (mem : a ∈ l) :
    ∃ s s', Inv s ∧ step s a = .ok s' := by
  induction l generalizing s with
  | nil => cases mem
  | cons b l ih =>
    rw [List.foldlM_cons] at h
    obtain ⟨between, first, rest⟩ := bind_eq_ok.mp h
    cases mem with
    | head => exact ⟨s, between, init, first⟩
    | tail _ mem => exact ih (next s b between init first) rest mem

end Walk
