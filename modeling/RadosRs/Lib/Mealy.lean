import Mathlib.Data.List.Induction

/-!
# Runs of a machine with outputs

A machine is a function that takes a state and an input to a next state and a
list of outputs.  `Mealy.run` feeds it a list of inputs and concatenates what it
puts out.  The one rule that every safety result about such a machine needs is
`Mealy.run_invariant`: an invariant may speak of the inputs consumed so far, of
the outputs produced so far and of the current state, and it is enough that one
step keeps it.
-/

namespace Mealy

variable {S I O : Type} (step : S → I → S × List O)

/-- The state after a list of inputs, and everything put out on the way. -/
def run (s : S) : List I → S × List O
  | [] => (s, [])
  | i :: is =>
    let first := step s i
    let rest := run first.1 is
    (rest.1, first.2 ++ rest.2)

/-- The state a list of inputs leads to. -/
def after (s : S) (is : List I) : S := (run step s is).1

/-- The outputs of a list of inputs. -/
def log (s : S) (is : List I) : List O := (run step s is).2

variable (s : S)

@[simp] theorem after_nil : after step s [] = s := rfl

@[simp] theorem log_nil : log step s [] = [] := rfl

theorem after_cons (i : I) (is : List I) :
    after step s (i :: is) = after step (step s i).1 is := rfl

theorem log_cons (i : I) (is : List I) :
    log step s (i :: is) = (step s i).2 ++ log step (step s i).1 is := rfl

theorem after_append (is js : List I) :
    after step s (is ++ js) = after step (after step s is) js := by
  induction is generalizing s with
  | nil => rfl
  | cons i is ih => simp only [List.cons_append, after_cons, ih]

theorem log_append (is js : List I) :
    log step s (is ++ js) = log step s is ++ log step (after step s is) js := by
  induction is generalizing s with
  | nil => rfl
  | cons i is ih => simp only [List.cons_append, log_cons, after_cons, ih, List.append_assoc]

theorem after_snoc (is : List I) (i : I) :
    after step s (is ++ [i]) = (step (after step s is) i).1 := by
  rw [after_append]
  rfl

theorem log_snoc (is : List I) (i : I) :
    log step s (is ++ [i]) = log step s is ++ (step (after step s is) i).2 := by
  rw [log_append, log_cons, log_nil, List.append_nil]

/-- What one step keeps, every run keeps.  The invariant sees the inputs consumed and
the outputs produced since the start. -/
theorem run_invariant (Inv : List I → List O → S → Prop) {s : S}
    (init : Inv [] [] s)
    (next : ∀ is os t i, Inv is os t → Inv (is ++ [i]) (os ++ (step t i).2) (step t i).1)
    (is : List I) : Inv is (log step s is) (after step s is) := by
  induction is using List.reverseRecOn with
  | nil => exact init
  | append_singleton is i ih =>
    rw [log_snoc, after_snoc]
    exact next is _ _ i ih

/-! ## Runs whose steps meet a condition -/

/-- Every step of the run meets a condition on the state it starts from and its input. -/
def Every (condition : S → I → Prop) (s : S) : List I → Prop
  | [] => True
  | i :: is => condition s i ∧ Every condition (step s i).1 is

instance decidableEvery (condition : S → I → Prop) [∀ s i, Decidable (condition s i)] :
    ∀ s is, Decidable (Every step condition s is)
  | _, [] => inferInstanceAs (Decidable True)
  | s, i :: is =>
    have := decidableEvery condition (step s i).1 is
    inferInstanceAs (Decidable (condition s i ∧ Every step condition (step s i).1 is))

variable {condition : S → I → Prop}

theorem every_append {s : S} {is js : List I} :
    Every step condition s (is ++ js) ↔
      Every step condition s is ∧ Every step condition (after step s is) js := by
  induction is generalizing s with
  | nil => simp [Every]
  | cons i is ih => rw [List.cons_append, Every, ih, Every, after_cons, and_assoc]

theorem every_snoc {s : S} {is : List I} {i : I} :
    Every step condition s (is ++ [i]) ↔
      Every step condition s is ∧ condition (after step s is) i := by
  rw [every_append, Every, Every, and_true]

/-- What every step that meets the condition keeps, a run of such steps keeps. -/
theorem every_invariant (Inv : List I → List O → S → Prop) {s : S} (init : Inv [] [] s)
    (next : ∀ is os t i, condition t i → Inv is os t →
      Inv (is ++ [i]) (os ++ (step t i).2) (step t i).1) (is : List I)
    (every : Every step condition s is) : Inv is (log step s is) (after step s is) := by
  induction is using List.reverseRecOn with
  | nil => exact init
  | append_singleton is i ih =>
    obtain ⟨before, now⟩ := (every_snoc step).mp every
    rw [log_snoc, after_snoc]
    exact next is _ _ i now (ih before)

end Mealy
