import Mathlib.Data.List.Forall2
import Mathlib.Data.List.TakeDrop

/-!
# Computations with a state that outlives an error

An `Action σ ε α` changes a state of `σ` and gives a value of `α` or an error of
`ε`.  The state is there in both cases, as it is for a function that borrows it.
`Gives x s a t` says that `x` run on `s` gives `a` and leaves `t`, and there is one
rule for each way to build an action.  `Keeps Inv x` says that `x` keeps a property
of the state, also when it fails.

The last part is about actions on a stream of tokens.  `Reads x ts a` says that
`x` takes exactly `ts` off the front of the stream and gives `a`.  `Local x` says
that what follows the part it takes does not matter.  Together they say that
nothing shorter than `ts` is accepted.  `Takes` is the same as `Reads` for an
action that has a state of its own beside the stream.
-/

namespace Stateful

abbrev Action (σ ε α : Type) := ExceptT ε (StateM σ) α

variable {σ ε α β : Type}

/-- Runs an action on a state. -/
def Action.on (x : Action σ ε α) (s : σ) : Except ε α × σ := ExceptT.run x s

def Gives (x : Action σ ε α) (s : σ) (a : α) (t : σ) : Prop := x.on s = (.ok a, t)

variable {x : Action σ ε α} {f : α → Action σ ε β} {s t u : σ} {a : α} {b : β}

theorem gives_pure {b : α} : Gives (pure a : Action σ ε α) s b t ↔ a = b ∧ s = t := by
  show ((.ok a, s) : Except ε α × σ) = (.ok b, t) ↔ _
  simp

/-- The second part runs on what the first one leaves, if that one gives a value. -/
theorem on_bind (x : Action σ ε α) (f : α → Action σ ε β) (s : σ) :
    (x >>= f).on s = match x.on s with
      | (.ok a, t) => (f a).on t
      | (.error error, t) => (.error error, t) := by
  simp only [Action.on, bind, ExceptT.run, ExceptT.bind, ExceptT.mk, StateT.bind]
  cases (x s : Except ε α × σ) with
  | mk result t => cases result <;> rfl

theorem gives_bind :
    Gives (x >>= f) s b u ↔ ∃ a t, Gives x s a t ∧ Gives (f a) t b u := by
  unfold Gives
  rw [on_bind]
  cases x.on s with
  | mk result t => cases result <;> simp

theorem Gives.bind (first : Gives x s a t) (rest : Gives (f a) t b u) : Gives (x >>= f) s b u :=
  gives_bind.mpr ⟨a, t, first, rest⟩

variable {error : ε}

theorem not_gives_throw : ¬ Gives (throw error : Action σ ε α) s a t := by
  show ¬ ((.error error, s) : Except ε α × σ) = (.ok a, t)
  simp

variable {y : Except ε α}

theorem gives_ofExcept : Gives (ofExcept y : Action σ ε α) s a t ↔ y = .ok a ∧ s = t := by
  cases y with
  | ok b => exact gives_pure.trans (by simp)
  | error error => exact iff_of_false not_gives_throw nofun

theorem on_ofExcept (y : Except ε α) (s : σ) : (ofExcept y : Action σ ε α).on s = (y, s) := by
  cases y <;> rfl

/-- An action that gives nothing leaves with an error. -/
theorem exists_error (h : ∀ a t, ¬ Gives x s a t) : ∃ error, (x.on s).1 = .error error := by
  cases run : x.on s with
  | mk result t =>
    cases result with
    | ok a => exact absurd run (h a t)
    | error error => exact ⟨error, rfl⟩

theorem gives_get : Gives (get : Action σ ε σ) s s s := rfl

variable {condition : Prop}

/-- A check that throws if it fails, in front of the rest of a sequence. -/
theorem gives_check [Decidable condition] {g : β → Action σ ε α} {y : Action σ ε α} :
    Gives (if condition then throw error >>= g else y) s a t ↔ ¬ condition ∧ Gives y s a t := by
  split
  next holds =>
    refine iff_of_false (fun h => ?_) fun h => h.1 holds
    obtain ⟨_, _, h, _⟩ := gives_bind.mp h
    exact not_gives_throw h
  next fails => simp [fails]

/-! ## One part of a state -/

/-- An action on the first of two states. -/
def onFst {ρ : Type} (x : Action σ ε α) : Action (σ × ρ) ε α := fun (s, r) =>
  let (result, t) := x.on s
  (result, t, r)

/-- An action on the second of two states. -/
def onSnd {ρ : Type} (x : Action σ ε α) : Action (ρ × σ) ε α := fun (r, s) =>
  let (result, t) := x.on s
  (result, r, t)

theorem Gives.onFst {ρ : Type} (h : Gives x s a t) (r : ρ) : Gives (onFst x) (s, r) a (t, r) := by
  show (let (result, t) := x.on s; (result, t, r)) = _
  rw [h]

theorem Gives.onSnd {ρ : Type} (h : Gives x s a t) (r : ρ) : Gives (onSnd x) (r, s) a (r, t) := by
  show (let (result, t) := x.on s; (result, r, t)) = _
  rw [h]

/-! ## What an action keeps -/

/-- The action keeps a property of the state, whether it gives a value or not. -/
def Keeps (Inv : σ → Prop) (x : Action σ ε α) : Prop := ∀ s, Inv s → Inv (x.on s).2

namespace Keeps

variable {Inv : σ → Prop}

theorem pure (a : α) : Keeps Inv (pure a : Action σ ε α) := fun _ h => h

theorem throw (error : ε) : Keeps Inv (throw error : Action σ ε α) := fun _ h => h

theorem get : Keeps Inv (get : Action σ ε σ) := fun _ h => h

theorem ofExcept (y : Except ε α) : Keeps Inv (ofExcept y : Action σ ε α) := by
  cases y with
  | ok a => exact pure a
  | error error => exact throw error

theorem bind (first : Keeps Inv x) (rest : ∀ a, Keeps Inv (f a)) : Keeps Inv (x >>= f) := by
  intro s h
  have kept := first s h
  rw [on_bind]
  cases run : x.on s with
  | mk result t =>
    rw [run] at kept
    cases result with
    | ok a => exact rest a t kept
    | error error => exact kept

theorem ite [Decidable condition] {y : Action σ ε α} (yes : Keeps Inv x) (no : Keeps Inv y) :
    Keeps Inv (if condition then x else y) := by
  split
  · exact yes
  · exact no

theorem mapM {γ : Type} {g : γ → Action σ ε α} (each : ∀ c, Keeps Inv (g c)) (l : List γ) :
    Keeps Inv (l.mapM g) := by
  induction l with
  | nil => exact pure []
  | cons c l ih =>
    rw [List.mapM_cons]
    exact (each c).bind fun _ => ih.bind fun _ => pure _

end Keeps

/-- Runs an action several times. -/
def times (x : Action σ ε α) : Nat → Action σ ε (List α)
  | 0 => pure []
  | count + 1 => do
      let a ← x
      let more ← times x count
      pure (a :: more)

/-! ## Streams -/

section Streams

variable {τ : Type} {x : Action (List τ) ε α} {f : α → Action (List τ) ε β} {ts us : List τ}

/-- The next tokens, exactly `count` of them.  Where there are fewer, all of them are used up. -/
def exact (error : ε) (count : Nat) : Action (List τ) ε (List τ) := fun stream =>
  if count ≤ stream.length then (.ok (stream.take count), stream.drop count)
  else (.error error, [])

def Reads (x : Action (List τ) ε α) (ts : List τ) (a : α) : Prop :=
  ∀ rest, Gives x (ts ++ rest) a rest

def Local (x : Action (List τ) ε α) : Prop :=
  ∀ ⦃s a t⦄, Gives x s a t → ∀ more, Gives x (s ++ more) a (t ++ more)

theorem gives_exact {count : Nat} {s t : List τ} :
    Gives (exact error count) s ts t ↔ s = ts ++ t ∧ ts.length = count := by
  unfold Gives Action.on exact ExceptT.run
  dsimp only
  split
  next enough =>
    constructor
    · intro h
      obtain ⟨taken, left⟩ := Prod.mk.inj h
      obtain rfl := Except.ok.inj taken
      obtain rfl := left
      exact ⟨(List.take_append_drop count s).symm, List.length_take_of_le enough⟩
    · rintro ⟨rfl, rfl⟩
      simp
  next few =>
    constructor
    · intro h
      cases (Prod.mk.inj h).1
    · rintro ⟨rfl, rfl⟩
      simp at few

namespace Reads

theorem pure (a : α) : Reads (pure a : Action (List τ) ε α) [] a := fun _ =>
  gives_pure.mpr ⟨rfl, rfl⟩

theorem bind (first : Reads x ts a) (rest : Reads (f a) us b) :
    Reads (x >>= f) (ts ++ us) b := by
  intro more
  rw [List.append_assoc]
  exact (first (us ++ more)).bind (rest more)

theorem exact (error : ε) (ts : List τ) : Reads (exact error ts.length) ts ts := fun _ =>
  gives_exact.mpr ⟨rfl, rfl⟩

theorem ofExcept (h : y = .ok a) :
    Reads (ofExcept y : Action (List τ) ε α) [] a := fun _ => gives_ofExcept.mpr ⟨h, rfl⟩

/-- A step that takes nothing off the stream. -/
theorem bind_nil (first : Reads x [] a) (rest : Reads (f a) us b) : Reads (x >>= f) us b :=
  first.bind rest

/-- The last step takes nothing off the stream. -/
theorem bind_end (first : Reads x ts a) (rest : Reads (f a) [] b) : Reads (x >>= f) ts b := by
  have both := first.bind rest
  rwa [List.append_nil] at both

theorem mapM {γ : Type} {g : γ → Action (List τ) ε α} {tokens : γ → List τ} {value : γ → α}
    {l : List γ} (each : ∀ c ∈ l, Reads (g c) (tokens c) (value c)) :
    Reads (l.mapM g) (l.flatMap tokens) (l.map value) := by
  induction l with
  | nil => exact .pure []
  | cons c l ih =>
    rw [List.mapM_cons, List.flatMap_cons]
    have rest := ih fun c mem => each c (.tail _ mem)
    exact (each c (.head _)).bind (rest.bind_end (.pure _))

theorem times {tss : List (List τ)} {as : List α} (each : List.Forall₂ (Reads x) tss as) :
    Reads (times x as.length) tss.flatten as := by
  induction each with
  | nil => exact .pure []
  | cons first _ ih => exact first.bind (ih.bind_end (.pure _))

end Reads

namespace Local

theorem pure (a : α) : Local (pure a : Action (List τ) ε α) := by
  intro s b t h more
  obtain ⟨rfl, rfl⟩ := gives_pure.mp h
  exact gives_pure.mpr ⟨rfl, rfl⟩

theorem throw (error : ε) : Local (throw error : Action (List τ) ε α) := fun _ _ _ h =>
  absurd h not_gives_throw

theorem ofExcept (y : Except ε α) : Local (ofExcept y : Action (List τ) ε α) := by
  intro s b t h more
  obtain ⟨value, rfl⟩ := gives_ofExcept.mp h
  exact gives_ofExcept.mpr ⟨value, rfl⟩

theorem exact (error : ε) (count : Nat) : Local (exact error count : Action (List τ) ε _) := by
  intro s taken t h more
  obtain ⟨rfl, size⟩ := gives_exact.mp h
  exact gives_exact.mpr ⟨List.append_assoc _ _ _, size⟩

theorem bind (first : Local x) (rest : ∀ a, Local (f a)) : Local (x >>= f) := by
  intro s b u h more
  obtain ⟨a, t, here, later⟩ := gives_bind.mp h
  exact (first here more).bind (rest a later more)

theorem mapM {γ : Type} {g : γ → Action (List τ) ε α} (each : ∀ c, Local (g c)) (l : List γ) :
    Local (l.mapM g) := by
  induction l with
  | nil => exact .pure []
  | cons c l ih =>
    rw [List.mapM_cons]
    exact (each c).bind fun _ => ih.bind fun _ => .pure _

theorem ite [Decidable condition] {y : Action (List τ) ε α} (yes : Local x) (no : Local y) :
    Local (if condition then x else y) := by
  split
  · exact yes
  · exact no

end Local

/-- Less than what an action takes off the stream is not enough for it. -/
theorem Reads.not_gives (reads : Reads x ts a) (here : Local x) {part : List τ}
    (within : part <+: ts) (less : part ≠ ts) {b : α} {t : List τ} : ¬ Gives x part b t := by
  intro gives
  obtain ⟨rest, rfl⟩ := within
  have whole := here gives rest
  have empty := reads []
  rw [List.append_nil] at empty
  have same := (Prod.mk.inj (whole.symm.trans empty)).2
  rw [(List.append_eq_nil_iff.mp same).2, List.append_nil] at less
  exact less rfl

end Streams

/-! ## A stream with a state beside it -/

section Companion

variable {τ ρ : Type} {x : Action (ρ × List τ) ε α} {f : α → Action (ρ × List τ) ε β}
  {r r' r'' : ρ} {ts us : List τ}

/-- The action takes exactly `ts` off the front of the stream, and changes the state. -/
def Takes (x : Action (ρ × List τ) ε α) (r : ρ) (ts : List τ) (a : α) (r' : ρ) : Prop :=
  ∀ rest, Gives x (r, ts ++ rest) a (r', rest)

namespace Takes

theorem pure (a : α) : Takes (pure a : Action (ρ × List τ) ε α) r [] a r := fun _ =>
  gives_pure.mpr ⟨rfl, rfl⟩

theorem bind (first : Takes x r ts a r') (rest : Takes (f a) r' us b r'') :
    Takes (x >>= f) r (ts ++ us) b r'' := by
  intro more
  rw [List.append_assoc]
  exact (first (us ++ more)).bind (rest more)

/-- A step that takes nothing off the stream. -/
theorem bind_nil (first : Takes x r [] a r') (rest : Takes (f a) r' us b r'') :
    Takes (x >>= f) r us b r'' :=
  first.bind rest

/-- The last step takes nothing off the stream. -/
theorem bind_end (first : Takes x r ts a r') (rest : Takes (f a) r' [] b r'') :
    Takes (x >>= f) r ts b r'' := by
  have both := first.bind rest
  rwa [List.append_nil] at both

theorem ofExcept (h : y = .ok a) : Takes (ofExcept y : Action (ρ × List τ) ε α) r [] a r := fun _ =>
  gives_ofExcept.mpr ⟨h, rfl⟩

/-- A look at the state, whatever the stream is. -/
theorem get {g : ρ × List τ → Action (ρ × List τ) ε β}
    (rest : ∀ stream, Takes (g (r, stream)) r ts b r') : Takes (get >>= g) r ts b r' := fun more =>
  gives_get.bind (rest (ts ++ more) more)

theorem check [Decidable condition] {g : β → Action (ρ × List τ) ε α} (fails : ¬ condition)
    (rest : Takes x r ts a r') : Takes (if condition then throw error >>= g else x) r ts a r' := by
  rwa [if_neg fails]

theorem onFst {y : Action ρ ε α} (h : Gives y r a r') :
    Takes (onFst y : Action (ρ × List τ) ε α) r [] a r' := fun more => h.onFst more

theorem exact (error : ε) {count : Nat} (size : ts.length = count) :
    Takes (onSnd (exact error count)) r ts ts r := fun _ =>
  (gives_exact.mpr ⟨rfl, size⟩).onSnd r

/-- A reader that follows a writer, step by step, reads what the writer has put out. -/
theorem times {γ ε' : Type} {write : γ → Action ρ ε' (List τ)} {value : γ → α} {l : List γ}
    (each : ∀ c ∈ l, ∀ r ts r', Gives (write c) r ts r' → Takes x r ts (value c) r')
    {tss : List (List τ)} (written : Gives (l.mapM write) r tss r') :
    Takes (times x l.length) r tss.flatten (l.map value) r' := by
  induction l generalizing r tss with
  | nil =>
    obtain ⟨rfl, rfl⟩ := gives_pure.mp written
    exact .pure []
  | cons c l ih =>
    rw [List.mapM_cons] at written
    obtain ⟨ts, _, first, written⟩ := gives_bind.mp written
    obtain ⟨more, _, later, written⟩ := gives_bind.mp written
    obtain ⟨rfl, rfl⟩ := gives_pure.mp written
    have rest := ih (fun c mem => each c (.tail _ mem)) later
    exact (each c (.head _) _ _ _ first).bind (rest.bind_end (.pure _))

end Takes

end Companion

end Stateful
