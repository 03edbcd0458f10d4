import Mathlib.Logic.Basic

/-!
# Labelled traces

A relation `R s os t` says that one move takes `s` to `t` and puts out `os`.
`Trace R` is its closure: any number of moves, one after the other, with their
outputs in order.  Two rules carry a property of one move over to a trace, one
for properties of the state and one for properties of the state together with
everything put out so far.
-/

/-- Any number of moves. -/
inductive Trace {S O : Type} (R : S → List O → S → Prop) : S → List O → S → Prop
  | nil {s : S} : Trace R s [] s
  | cons {s t u : S} {os ps : List O} : R s os t → Trace R t ps u → Trace R s (os ++ ps) u

namespace Trace

variable {S O : Type} {R : S → List O → S → Prop} {s t u : S} {os ps : List O}

theorem single (h : R s os t) : Trace R s os t := by
  have trace := Trace.cons h .nil
  rwa [List.append_nil] at trace

theorem trans (h : Trace R s os t) (k : Trace R t ps u) : Trace R s (os ++ ps) u := by
  induction h with
  | nil => exact k
  | cons move _ ih =>
    rw [List.append_assoc]
    exact .cons move (ih k)

/-- What one move keeps, a trace keeps. -/
theorem invariant (Inv : S → Prop) (next : ∀ {s os t}, R s os t → Inv s → Inv t)
    (h : Trace R s os t) (init : Inv s) : Inv t := by
  induction h with
  | nil => exact init
  | cons move _ ih => exact ih (next move init)

/-- The same for a property that also sees the outputs so far. -/
theorem log_invariant (Inv : List O → S → Prop)
    (next : ∀ {log s os t}, R s os t → Inv log s → Inv (log ++ os) t)
    {log : List O} (h : Trace R s os t) (init : Inv log s) : Inv (log ++ os) t := by
  induction h generalizing log with
  | nil => simpa using init
  | cons move _ ih =>
    rw [← List.append_assoc]
    exact ih (next move init)

end Trace
