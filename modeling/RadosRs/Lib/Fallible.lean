import Mathlib.Algebra.GroupWithZero.Nat
import Mathlib.Data.List.Forall2
import RadosRs.Lib.Retry

/-!
# Computations that may not give a value

A function of the source can return an error, it can panic, and it can run on
without end.  `Fault` has a case for each of them, and a computation that gives
a value of `α` or comes to one of these ends is a `Run ε α`.

The operations that panic in the source are written out: indexing, writing to
an index, taking the front of a slice and unwrapping.  A loop without a counter
gets a number of turns, its fuel, and comes to the fault `unfinished` when it
has used them up.

What a computation promises is stated about the value it gives.  `bind_eq_ok`
takes a sequence apart, `foldlM_rule` is the rule for a loop over a list and
`loop_rule` the one for a loop with fuel.
-/

namespace Fallible

/-- The ways to end without a value. -/
inductive Fault (ε : Type) where
  | error (error : ε)
  | panic
  | unfinished
  deriving DecidableEq, Repr

abbrev Run (ε α : Type) := Except (Fault ε) α

/-- The same end, with another error. -/
def Fault.map {ε δ : Type} (f : ε → δ) : Fault ε → Fault δ
  | .error e => .error (f e)
  | .panic => .panic
  | .unfinished => .unfinished

variable {ε α β σ : Type}

def fail (error : ε) : Run ε α := .error (.error error)

def panics : Run ε α := .error .panic

/-- The result of a function that always ends and does not panic. -/
def Run.ofResult : Except ε α → Run ε α := Except.mapError .error

/-! ## Operations that panic -/

/-- The value of an option that has to have one. -/
def expect : Option α → Run ε α
  | some a => .ok a
  | none => panics

/-- A value that is there only under a condition. -/
def guarded (condition : Prop) [Decidable condition] (a : α) : Run ε α :=
  if condition then .ok a else panics

/-- The element at an index. -/
def index (xs : List α) (i : Nat) : Run ε α := expect xs[i]?

/-- The list with the element at an index replaced. -/
def update (xs : List α) (i : Nat) (a : α) : Run ε (List α) := guarded (i < xs.length) (xs.set i a)

/-- The first `n` elements. -/
def front (xs : List α) (n : Nat) : Run ε (List α) := guarded (n ≤ xs.length) (xs.take n)

/-- The difference of two unsigned values. -/
def minus (a b : Nat) : Run ε Nat := guarded (b ≤ a) (a - b)

/-- A value that has to fit a type whose largest value is `bound`. -/
def within (bound n : Nat) : Run ε Nat := guarded (n ≤ bound) n

variable {a : α}

theorem expect_eq_ok {o : Option α} : (expect o : Run ε α) = .ok a ↔ o = some a := by
  cases o <;> simp [expect, panics]

variable {condition : Prop}

theorem guarded_eq_ok [Decidable condition] {b : α} :
    (guarded condition a : Run ε α) = .ok b ↔ condition ∧ a = b := by
  unfold guarded
  split
  next holds => simp [holds]
  next fails => simp [fails, panics]

theorem mem_of_index {xs : List α} {i : Nat} (h : (index xs i : Run ε α) = .ok a) : a ∈ xs :=
  List.mem_of_getElem? (expect_eq_ok.mp h)

/-! ## Sequences and loops -/

variable {f : α → Except ε β} {x : Except ε α} {b : β}

theorem bind_eq_ok : x >>= f = .ok b ↔ ∃ a, x = .ok a ∧ f a = .ok b := by
  cases x with
  | error error => simp [bind, Except.bind]
  | ok a => simp [bind, Except.bind]

theorem ok_bind (a : α) (f : α → Except ε β) : (Except.ok a >>= f) = f a := rfl

theorem exists_of_isOk (h : x.isOk = true) : ∃ a, x = .ok a := by
  cases x with
  | error error => cases h
  | ok a => exact ⟨a, rfl⟩

theorem mapError_eq_ok {δ : Type} {g : ε → δ} : x.mapError g = .ok a ↔ x = .ok a := by
  cases x <;> simp [Except.mapError]

theorem Run.ofResult_eq_ok : (Run.ofResult x : Run ε α) = .ok a ↔ x = .ok a :=
  mapError_eq_ok

/-- A check that throws if it fails, in front of the rest of a sequence. -/
theorem check_eq_ok [Decidable condition] {error : ε} {y : Except ε β} :
    (if condition then throw error >>= f else y) = .ok b ↔ ¬ condition ∧ y = .ok b := by
  split
  next holds => simp [holds, throw, throwThe, MonadExceptOf.throw, bind, Except.bind]
  next fails => simp [fails]

variable {l : List α}

theorem mapM_eq_map {g : α → β} (each : ∀ a ∈ l, f a = .ok (g a)) : l.mapM f = .ok (l.map g) := by
  induction l with
  | nil => rfl
  | cons a l ih =>
    rw [List.mapM_cons, each a (.head _), ih fun a mem => each a (.tail _ mem)]
    rfl

/-- A loop of checks that all pass. -/
theorem forM_eq_ok {check : α → Except ε Unit} (each : ∀ a ∈ l, check a = .ok ()) :
    l.forM check = .ok () := by
  induction l with
  | nil => rfl
  | cons a l ih =>
    rw [List.forM, each a (.head _)]
    exact ih fun a mem => each a (.tail _ mem)

variable {bs : List β}

/-- The results stand in the order of what they were computed from. -/
theorem forall₂_of_mapM (h : l.mapM f = .ok bs) : List.Forall₂ (fun a b => f a = .ok b) l bs := by
  induction l generalizing bs with
  | nil =>
    cases h
    exact .nil
  | cons a l ih =>
    rw [List.mapM_cons] at h
    obtain ⟨b, first, h⟩ := bind_eq_ok.mp h
    obtain ⟨rest, later, h⟩ := bind_eq_ok.mp h
    cases h
    exact .cons first (ih later)

/-- What every result has, all results have. -/
theorem mapM_rule {Post : β → Prop} (each : ∀ a b, f a = .ok b → Post b) (h : l.mapM f = .ok bs) :
    ∀ b ∈ bs, Post b := by
  have results := forall₂_of_mapM h
  clear h
  induction results with
  | nil => exact nofun
  | cons here _ ih => exact List.forall_mem_cons.mpr ⟨each _ _ here, ih⟩

/-- The results of a loop whose turns all compute the same function. -/
theorem map_of_mapM {g : α → β} {Pre : α → Prop} (each : ∀ a b, f a = .ok b → b = g a ∧ Pre a)
    (h : l.mapM f = .ok bs) : bs = l.map g ∧ ∀ a ∈ l, Pre a := by
  have results := forall₂_of_mapM h
  clear h
  induction results with
  | nil => exact ⟨rfl, nofun⟩
  | cons here _ ih =>
    obtain ⟨rfl, pre⟩ := each _ _ here
    obtain ⟨rfl, pres⟩ := ih
    exact ⟨rfl, List.forall_mem_cons.mpr ⟨pre, pres⟩⟩

variable {s : σ} {step : σ → α → Except ε σ}

/-- What every turn keeps, a loop over a list keeps. -/
theorem foldlM_rule (Inv : σ → Prop) (next : ∀ s a s', a ∈ l → Inv s → step s a = .ok s' → Inv s')
    {t : σ} (init : Inv s) (h : l.foldlM step s = .ok t) : Inv t := by
  induction l generalizing s with
  | nil =>
    cases h
    exact init
  | cons a l ih =>
    rw [List.foldlM_cons] at h
    obtain ⟨s', first, rest⟩ := bind_eq_ok.mp h
    exact ih (fun s a s' mem => next s a s' (.tail _ mem))
      (next s a s' (.head _) init first) rest

/-- An error of a loop is the error of one of its turns. -/
theorem foldlM_error (Bad : ε → Prop) (each : ∀ s a error, step s a = .error error → Bad error)
    {error : ε} (h : l.foldlM step s = .error error) : Bad error := by
  induction l generalizing s with
  | nil => cases h
  | cons a l ih =>
    rw [List.foldlM_cons] at h
    cases here : step s a with
    | error e =>
      rw [here] at h
      cases h
      exact each s a _ here
    | ok s' =>
      rw [here] at h
      exact ih h

/-- A loop that adds something in each turn has added all of it at the end. -/
theorem foldlM_collects (Inv : List β → σ → Prop) (out : α → List β)
    (next : ∀ done s a s', a ∈ l → Inv done s → step s a = .ok s' → Inv (done ++ out a) s')
    {done : List β} {t : σ} (init : Inv done s) (h : l.foldlM step s = .ok t) :
    Inv (done ++ l.flatMap out) t := by
  induction l generalizing done s with
  | nil =>
    cases h
    rwa [List.flatMap_nil, List.append_nil]
  | cons a l ih =>
    rw [List.foldlM_cons] at h
    obtain ⟨s', here, rest⟩ := bind_eq_ok.mp h
    rw [List.flatMap_cons, ← List.append_assoc]
    exact ih (fun done s a s' mem => next done s a s' (.tail _ mem))
      (next done s a s' (.head _) init here) rest

/-- A loop that adds up sizes within a bound, and checks something of every element. -/
theorem foldlM_sum_eq_ok {step : Nat → α → Except ε Nat} {Ok : α → Prop} {size : α → Nat}
    {bound : Nat} (turn : ∀ total a total', step total a = .ok total' ↔
      Ok a ∧ total' = total + size a ∧ total' ≤ bound) {total total' : Nat}
    (start : total ≤ bound) :
    l.foldlM step total = .ok total' ↔
      (∀ a ∈ l, Ok a) ∧ total' = total + (l.map size).sum ∧ total' ≤ bound := by
  induction l generalizing total with
  | nil =>
    show Except.ok total = Except.ok total' ↔ _
    rw [Except.ok.injEq]
    constructor
    · rintro rfl
      exact ⟨nofun, rfl, start⟩
    · rintro ⟨_, rfl, _⟩
      rfl
  | cons a l ih =>
    rw [List.foldlM_cons, bind_eq_ok, List.map_cons, List.sum_cons, List.forall_mem_cons]
    constructor
    · rintro ⟨next, here, rest⟩
      obtain ⟨ok, rfl, fits⟩ := (turn _ _ _).mp here
      obtain ⟨all, rfl, final⟩ := (ih fits).mp rest
      exact ⟨⟨ok, all⟩, by omega, final⟩
    rintro ⟨⟨ok, all⟩, rfl, final⟩
    have fits : total + size a ≤ bound := by omega
    exact ⟨_, (turn _ _ _).mpr ⟨ok, rfl, fits⟩, (ih fits).mpr ⟨all, by omega, final⟩⟩

open Retry (Next)

/-- Takes turns until one of them ends the loop or the fuel is used up. -/
def loop {R : Type} (turn : σ → Run ε (Next σ R)) : Nat → σ → Run ε R
  | 0, _ => .error .unfinished
  | fuel + 1, s => do
      match ← turn s with
      | .again s => loop turn fuel s
      | .done r => .ok r

/-- A turn goes on with a state that has one property or ends with a result that has another. -/
def Meets {R : Type} (Inv : σ → Prop) (Post : R → Prop) : Next σ R → Prop
  | .again s => Inv s
  | .done r => Post r

/-- What every turn that goes on keeps leads to what every end promises. -/
theorem loop_rule {R : Type} {turn : σ → Run ε (Next σ R)} (Inv : σ → Prop) (Post : R → Prop)
    (turns : ∀ s next, Inv s → turn s = .ok next → Meets Inv Post next) {fuel : Nat} {r : R}
    (init : Inv s) (h : loop turn fuel s = .ok r) : Post r := by
  induction fuel generalizing s with
  | zero => cases h
  | succ fuel ih =>
    rw [loop] at h
    obtain ⟨next, here, rest⟩ := bind_eq_ok.mp h
    have met := turns s next init here
    cases next with
    | again s' => exact ih met rest
    | done r' =>
      cases rest
      exact met

end Fallible
