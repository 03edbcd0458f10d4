import RadosRs.Lib.Fallible

/-!
# Computations that succeed

The rules of `Fallible` say what a computation has kept when it is done.  Those
of this module say that it gets done: `Succeeds x P` states that `x` gives a value
and that the value has the property `P`.  There is a rule for each way to put
computations together, for a loop over a list whose turns all succeed, and for a
loop of turns whose measure goes down, given fuel for it.

`trail` lists the states a loop of turns goes through.  Where the turns fall into
groups by a number that only grows, and a measure goes down inside each group,
no group has more turns than the measure allows (`trail_group`).
-/

namespace Fallible

open Retry (Next)

variable {ε α β σ R : Type}

/-- A computation gives a value with a property. -/
def Succeeds (x : Except ε α) (P : α → Prop) : Prop := ∃ a, x = .ok a ∧ P a

namespace Succeeds

variable {P : α → Prop} {Q : β → Prop} {x y : Except ε α} {f : α → Except ε β} {a : α}

theorem pure (h : P a) : Succeeds (Pure.pure a : Except ε α) P := ⟨a, rfl, h⟩

theorem ok (h : P a) : Succeeds (Except.ok a : Except ε α) P := ⟨a, rfl, h⟩

theorem of_eq (same : x = .ok a) (h : P a) : Succeeds x P := ⟨a, same, h⟩

theorem bind (first : Succeeds x P) (next : ∀ a, P a → Succeeds (f a) Q) :
    Succeeds (x >>= f) Q := by
  obtain ⟨a, here, holds⟩ := first
  obtain ⟨b, after, final⟩ := next a holds
  exact ⟨b, bind_eq_ok.mpr ⟨a, here, after⟩, final⟩

variable {condition : Prop}

theorem ite [Decidable condition] (yes : condition → Succeeds x P)
    (no : ¬ condition → Succeeds y P) : Succeeds (if condition then x else y) P := by
  split
  next holds => exact yes holds
  next fails => exact no fails

theorem bind_of_eq (here : x = .ok a) (next : Succeeds (f a) Q) : Succeeds (x >>= f) Q := by
  rw [here]
  exact next

theorem bind_expect {f : α → Run ε β} {o : Option α} (here : o = some a)
    (next : Succeeds (f a) Q) : Succeeds (expect o >>= f) Q :=
  bind_of_eq (expect_eq_ok.mpr here) next

theorem bind_guarded {f : α → Run ε β} [Decidable condition] (holds : condition)
    (next : Succeeds (f a) Q) : Succeeds (guarded condition a >>= f) Q :=
  bind_of_eq (guarded_eq_ok.mpr ⟨holds, rfl⟩) next

end Succeeds

variable (Inv : σ → Prop) {s : σ}

/-- A loop over a list succeeds when every turn does from what the turns before it keep. -/
theorem foldlM_total {step : σ → α → Except ε σ} {l : List α}
    (each : ∀ s a, a ∈ l → Inv s → Succeeds (step s a) Inv) (init : Inv s) :
    Succeeds (l.foldlM step s) Inv := by
  induction l generalizing s with
  | nil => exact ⟨s, rfl, init⟩
  | cons a l ih =>
    rw [List.foldlM_cons]
    exact (each s a (.head _) init).bind fun s' kept =>
      ih (fun s a mem => each s a (.tail _ mem)) kept

/-- A turn goes on with a state that has one property and a smaller measure, or ends with a
result that has another. -/
def Advances (Inv : σ → Prop) (Post : R → Prop) (measure : σ → Nat) (s : σ) : Next σ R → Prop
  | .again s' => Inv s' ∧ measure s' < measure s
  | .done r => Post r

variable {turn : σ → Run ε (Next σ R)} {fuel : Nat}

/-- A loop ends when its turns make a measure smaller and there is fuel for the measure. -/
theorem loop_total (Post : R → Prop) (measure : σ → Nat)
    (turns : ∀ s, Inv s → Succeeds (turn s) (Advances Inv Post measure s)) (init : Inv s)
    (enough : measure s < fuel) : Succeeds (loop turn fuel s) Post := by
  induction fuel generalizing s with
  | zero => cases enough
  | succ fuel ih =>
    rw [loop]
    refine (turns s init).bind fun next advances => ?_
    cases next with
    | again s' => exact ih advances.1 (Nat.lt_of_lt_of_le advances.2 (Nat.le_of_lt_succ enough))
    | done r => exact .ok advances

/-- The states a loop goes through. -/
def trail (turn : σ → Run ε (Next σ R)) : Nat → σ → List σ
  | 0, _ => []
  | fuel + 1, s =>
    s :: match turn s with
      | .ok (.again s') => trail turn fuel s'
      | _ => []

/-- What every turn that goes on keeps holds along the trail. -/
theorem trail_rule (turns : ∀ s s', Inv s → turn s = .ok (.again s') → Inv s') (init : Inv s) :
    ∀ t ∈ trail turn fuel s, Inv t := by
  induction fuel generalizing s with
  | zero => exact fun _ inside => nomatch inside
  | succ fuel ih =>
    rw [trail]
    refine List.forall_mem_cons.mpr ⟨init, ?_⟩
    split
    next s' here => exact ih (turns s s' init here)
    · exact fun _ inside => nomatch inside

/-- The states of one group are as many as the measure allows. -/
theorem trail_group (group measure : σ → Nat) {most : Nat} (positive : ∀ s, Inv s → 0 < measure s)
    (bounded : ∀ s, Inv s → measure s ≤ most) (turns : ∀ s s', Inv s → turn s = .ok (.again s') →
      Inv s' ∧ (group s' = group s ∧ measure s' < measure s ∨ group s < group s')) (init : Inv s)
    (g : Nat) :
    ((trail turn fuel s).filter fun t => group t = g).length ≤
      if g < group s then 0 else if g = group s then measure s else most := by
  induction fuel generalizing s with
  | zero => exact Nat.zero_le _
  | succ fuel ih =>
    have more := positive s init
    have room := bounded s init
    rw [trail]
    split
    next s' here =>
      obtain ⟨kept, goes⟩ := turns s s' init here
      have later := ih kept
      have room' := bounded s' kept
      by_cases same : group s = g
      · rw [List.filter_cons_of_pos (by simpa using same), List.length_cons]
        grind
      · rw [List.filter_cons_of_neg (by simpa using same)]
        grind
    · by_cases same : group s = g
      · rw [List.filter_cons_of_pos (by simpa using same), List.filter_nil, List.length_singleton]
        grind
      · rw [List.filter_cons_of_neg (by simpa using same), List.filter_nil, List.length_nil]
        exact Nat.zero_le _

/-- A trail is as long as the measure allows. -/
theorem trail_length (measure : σ → Nat) (positive : ∀ s, Inv s → 0 < measure s)
    (turns : ∀ s s', Inv s → turn s = .ok (.again s') → Inv s' ∧ measure s' < measure s)
    (init : Inv s) : (trail turn fuel s).length ≤ measure s := by
  induction fuel generalizing s with
  | zero => exact Nat.zero_le _
  | succ fuel ih =>
    have more := positive s init
    rw [trail, List.length_cons]
    split
    next s' here =>
      obtain ⟨kept, smaller⟩ := turns s s' init here
      have := ih kept
      omega
    · rw [List.length_nil]
      exact more

end Fallible
