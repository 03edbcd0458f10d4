import Mathlib.Data.List.Basic

/-!
# Loops that try again

A round reads one input.  It puts out a list of outputs and either goes on with a
new state or ends the loop with a result.  `run` feeds a list of inputs to such
rounds; when the inputs run out the loop gives up.  `run_rule` is the rule for
it: what a round that goes on keeps, and what follows from it when a round ends
the loop or the loop gives up, holds of every run.

The rule sees only the rounds a run gets to, and `Every` puts a condition on
exactly these.
-/

namespace Retry

/-- How a round ends. -/
inductive Next (S R : Type*) where
  | again (state : S)
  | done (result : R)

variable {S I O R : Type*} (round : S → I → List O × Next S R) (giveUp : S → R)

/-- Tries again with the next input until a round ends the loop. -/
def run : S → List I → List O × R
  | s, [] => ([], giveUp s)
  | s, i :: is =>
    match round s i with
    | (os, .done r) => (os, r)
    | (os, .again s) => (os ++ (run s is).1, (run s is).2)

/-- Every round the run gets to meets a condition on its state and its input. -/
def Every (condition : S → I → Prop) : S → List I → Prop
  | _, [] => True
  | s, i :: is =>
    condition s i ∧
      match (round s i).2 with
      | .done _ => True
      | .again s => Every condition s is

instance decidableEvery (condition : S → I → Prop) [∀ s i, Decidable (condition s i)] :
    ∀ s is, Decidable (Every round condition s is)
  | _, [] => inferInstanceAs (Decidable True)
  | s, i :: is =>
    have : Decidable (match (round s i).2 with
        | .done _ => True
        | .again s => Every round condition s is) :=
      match (round s i).2 with
      | .done _ => inferInstanceAs (Decidable True)
      | .again s => decidableEvery condition s is
    inferInstanceAs (Decidable (condition s i ∧ _))

variable {round giveUp}

variable {condition : S → I → Prop}

/-- A condition that every input meets in every state is met by every round. -/
theorem every_of_forall {is : List I} (h : ∀ i ∈ is, ∀ s, condition s i) (s : S) :
    Every round condition s is := by
  induction is generalizing s with
  | nil => trivial
  | cons i is ih =>
    obtain ⟨first, rest⟩ := List.forall_mem_cons.mp h
    refine ⟨first s, ?_⟩
    split
    · trivial
    next t _ => exact ih rest t

/-- A rule that goes through a run from its end: what a round that goes on puts before the
rest of the run. -/
theorem run_rule_rest (Post : S → List O → R → Prop)
    (again : ∀ s i s' os r, condition s i → (round s i).2 = .again s' → Post s' os r →
      Post s ((round s i).1 ++ os) r)
    (done : ∀ s i r, condition s i → (round s i).2 = .done r → Post s (round s i).1 r)
    (stop : ∀ s, Post s [] (giveUp s)) (s : S) (is : List I) (every : Every round condition s is) :
    Post s (run round giveUp s is).1 (run round giveUp s is).2 := by
  induction is generalizing s with
  | nil => exact stop s
  | cons i is ih =>
    obtain ⟨now, later⟩ := every
    have goesOn := again s i
    have ends := done s i
    rcases here : round s i with ⟨out, next⟩
    rw [here] at goesOn ends later
    cases next with
    | done r =>
      rw [run, here]
      exact ends r now rfl
    | again t =>
      rw [run, here]
      exact goesOn t _ _ now rfl (ih t later)

/-- What every round that goes on keeps leads to what every end promises, for a loop that has put
out `os` before. -/
theorem run_rule (Inv : List O → S → Prop) (Post : List O → R → Prop)
    (again : ∀ os s i s', condition s i → Inv os s → (round s i).2 = .again s' →
      Inv (os ++ (round s i).1) s')
    (done : ∀ os s i r, condition s i → Inv os s → (round s i).2 = .done r →
      Post (os ++ (round s i).1) r) (stop : ∀ os s, Inv os s → Post os (giveUp s)) (os : List O)
    {s : S} (init : Inv os s) (is : List I) (every : Every round condition s is) :
    Post (os ++ (run round giveUp s is).1) (run round giveUp s is).2 := by
  refine run_rule_rest (fun s later r => ∀ os, Inv os s → Post (os ++ later) r)
    (fun s i s' later r now next rest os known => ?_)
    (fun s i r now next os known => done os s i r now known next)
    (fun s os known => ?_) s is every os init
  · rw [← List.append_assoc]
    exact rest _ (again os s i s' now known next)
  · rw [List.append_nil]
    exact stop os s known

/-- Where the state counts the rounds, a round reads the input with that number. -/
theorem every_numbered (number : S → Nat)
    (counts : ∀ s i s', (round s i).2 = .again s' → number s' = number s + 1)
    (before is : List I) {s : S} (start : number s = before.length) :
    Every round (fun s i => (before ++ is)[number s]? = some i) s is := by
  induction is generalizing before s with
  | nil => trivial
  | cons i is ih =>
    refine ⟨by simp [start], ?_⟩
    split
    · trivial
    rename_i t next
    have counted : number t = (before ++ [i]).length := by
      rw [counts s i t next, start, List.length_append, List.length_singleton]
    simpa using ih (before ++ [i]) counted

end Retry
