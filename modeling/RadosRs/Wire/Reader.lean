import RadosRs.Lib.Fallible
import RadosRs.Wire.Codec

/-!
# Decoding step by step

The functions that decode a map take the decoder by reference, read from it and
leave with `?` at the first error.  A `Reader` is such a function: the decoder is
its state, and it may come to an end without a value.

`Gives` states what a reader promises about the value it gives, from whatever
decoder it starts.  There is one rule for each way to build a reader, so that the
bound on a value read from the wire follows from the width of the read alone.
-/

namespace RadosRs.Wire

open Bytes Fallible

abbrev Reader (ε α : Type) := StateT Decoder (Except (Fault ε)) α

/-- Errors that a wire error turns into, the `From<WireError>` of the source. -/
class OfWire (ε : Type) where
  ofWire : WireError → ε

namespace Reader

variable {ε α β : Type}

/-- A read that itself cannot fail. -/
def read (next : Decoder → α × Decoder) : Reader ε α := fun decoder => .ok (next decoder)

def u8 : Reader ε Nat := read Decoder.u8
def u16 : Reader ε Nat := read Decoder.u16
def u32 : Reader ε Nat := read Decoder.u32
def u64 : Reader ε Nat := read Decoder.u64
def i32 : Reader ε Int := read Decoder.i32
def i64 : Reader ε Int := read Decoder.i64
def bool : Reader ε Bool := read Decoder.bool
def blob : Reader ε (List UInt8) := read Decoder.blob
def raw (length : Nat) : Reader ε (List UInt8) := read (Decoder.raw · length)

/-- The version of the record at hand and a decoder over its body. -/
def versioned (localVersion : Nat) : Reader ε (Nat × Decoder) :=
  read (Decoder.versioned · localVersion)

def remaining : Reader ε Nat := read fun decoder => (decoder.remaining, decoder)

def fail (error : ε) : Reader ε α := fun _ => Fallible.fail error

/-- Leaves with the decoder's error, if it has one. -/
def finish [OfWire ε] : Reader ε Unit := fun decoder =>
  match decoder.finish with
  | .error error => Fallible.fail (OfWire.ofWire error)
  | .ok () => .ok ((), decoder)

/-- Leaves with an error under a condition. -/
def rejectIf (condition : Prop) [Decidable condition] (error : ε) : Reader ε Unit :=
  if condition then fail error else return ()

/-- Reads with another decoder and leaves the one at hand where it is. -/
def inside (payload : Decoder) (body : Reader ε α) : Reader ε α := do
  let (value, _) ← (body payload : Run ε (α × Decoder))
  return value

/-- Reads `count` values. -/
def times : Nat → Reader ε α → Reader ε (List α)
  | 0, _ => return []
  | count + 1, one => do
      let first ← one
      let rest ← times count one
      return first :: rest

/-- Reads a value in each turn and works on a state with it. -/
def turns {σ : Type} (one : Reader ε α) (step : σ → α → Run ε σ) : Nat → σ → Reader ε σ
  | 0, s => return s
  | count + 1, s => do
      let a ← one
      let s ← (step s a : Run ε σ)
      turns one step count s

/-- Works on a state `count` times, reading as it goes. -/
def iterate {σ : Type} (step : σ → Reader ε σ) : Nat → σ → Reader ε σ
  | 0, s => return s
  | count + 1, s => do
      let s ← step s
      iterate step count s

/-- The value of an option, or an error. -/
def okOr (value : Option α) (error : ε) : Reader ε α :=
  match value with
  | some a => return a
  | none => fail error

/-- A count of entries that is at most `maximum` and for which there are bytes left. -/
def boundedCount [OfWire ε] (maximum minimumBytes : Nat) : Reader ε Nat := do
  let count ← u32
  finish
  rejectIf (count > maximum) (OfWire.ofWire .limitExceeded)
  let left ← remaining
  rejectIf (minimumBytes ≠ 0 ∧ count > left / minimumBytes) (OfWire.ofWire .malformed)
  return count

section Steps

variable {x : Reader ε α} {f : α → Reader ε β} {decoder after : Decoder} {a : α}

/-- A step that gives a value goes on with it. -/
theorem bind_of_ok (h : x decoder = .ok (a, after)) : (x >>= f) decoder = f a after := by
  show (x decoder >>= fun p => f p.1 p.2) = f a after
  rw [h]
  rfl

theorem step_eq_ok {b : β} :
    (x >>= f) decoder = .ok (b, after) ↔
      ∃ a between, x decoder = .ok (a, between) ∧ f a between = .ok (b, after) := by
  show (x decoder >>= fun p => f p.1 p.2) = .ok (b, after) ↔ _
  rw [bind_eq_ok, Prod.exists]

theorem finish_of_ok [OfWire ε] (h : decoder.finish = .ok ()) :
    (finish : Reader ε Unit) decoder = .ok ((), decoder) := by
  rw [finish, h]

theorem rejectIf_of_not {condition : Prop} [Decidable condition] {error : ε}
    (h : ¬ condition) : rejectIf condition error decoder = .ok ((), decoder) := by
  rw [rejectIf, if_neg h]
  rfl

/-- Reading with another decoder is reading with that decoder. -/
theorem inside_eq_ok {payload : Decoder} :
    inside payload x decoder = .ok (a, after) ↔
      after = decoder ∧ ∃ rest, x payload = .ok (a, rest) := by
  show ((x payload >>= fun p => (.ok (p, decoder) : Run ε ((α × Decoder) × Decoder))) >>=
    fun p => .ok (p.1.1, p.2)) = .ok (a, after) ↔ _
  cases x payload with
  | error _ => simp [bind, Except.bind]
  | ok p => simp [bind, Except.bind, Prod.ext_iff, and_comm, eq_comm]

end Steps

variable {count : Nat}

/-- A loop that reads a value in each turn reads all of them and works with them. -/
theorem turns_eq_ok {σ : Type} {one : Reader ε α} {step : σ → α → Run ε σ} {s t : σ}
    {decoder after : Decoder} (h : turns one step count s decoder = .ok (t, after)) :
    ∃ values, times count one decoder = .ok (values, after) ∧ values.foldlM step s = .ok t := by
  induction count generalizing s decoder with
  | zero =>
    cases h
    exact ⟨[], rfl, rfl⟩
  | succ count ih =>
    obtain ⟨⟨a, between⟩, read, h⟩ := bind_eq_ok.mp h
    obtain ⟨⟨s', between'⟩, work, later⟩ := bind_eq_ok.mp h
    obtain ⟨_, worked, lifted⟩ := bind_eq_ok.mp work
    cases lifted
    obtain ⟨values, rest, folded⟩ := ih later
    refine ⟨a :: values, ?_, ?_⟩
    · rw [times, bind_of_ok read, bind_of_ok rest]
      rfl
    · rw [List.foldlM_cons]
      exact bind_eq_ok.mpr ⟨s', worked, folded⟩

/-! ## What a reader promises -/

/-- Every value the reader gives has the property. -/
def Gives (reader : Reader ε α) (property : α → Prop) : Prop :=
  ∀ decoder value rest, reader decoder = .ok (value, rest) → property value

namespace Gives

variable {x : Reader ε α} {f : α → Reader ε β} {P : α → Prop} {Q : β → Prop}

theorem pure {a : α} (h : P a) : Gives (Pure.pure a : Reader ε α) P := by
  intro decoder value rest given
  cases given
  exact h

variable {error : ε}

theorem fail : Gives (Reader.fail error) P := by
  intro decoder value rest given
  cases given

theorem bind (first : Gives x P) (next : ∀ a, P a → Gives (f a) Q) : Gives (x >>= f) Q := by
  intro decoder value rest given
  obtain ⟨⟨a, between⟩, here, later⟩ := bind_eq_ok.mp given
  exact next a (first decoder a between here) between value rest later

theorem any : Gives x fun _ => True := fun _ _ _ _ => trivial

/-- A step whose value does not matter. -/
theorem skip (next : ∀ a, Gives (f a) Q) : Gives (x >>= f) Q := any.bind fun a _ => next a

theorem mono {Q : α → Prop} (h : Gives x P) (weaker : ∀ a, P a → Q a) : Gives x Q :=
  fun decoder value rest given => weaker value (h decoder value rest given)

variable {condition : Prop}

theorem ite [Decidable condition] {y : Reader ε α} (yes : condition → Gives x P)
    (no : ¬ condition → Gives y P) : Gives (if condition then x else y) P := by
  split
  next holds => exact yes holds
  next fails => exact no fails

theorem rejectIf [Decidable condition] :
    Gives (Reader.rejectIf condition error) fun _ => ¬ condition :=
  ite (fun _ => fail) fun fails => pure fails

theorem inside {payload : Decoder} (h : Gives x P) : Gives (Reader.inside payload x) P := by
  intro decoder value rest given
  obtain ⟨-, after, read⟩ := inside_eq_ok.mp given
  exact h payload value after read

theorem times (h : Gives x P) :
    Gives (Reader.times count x) fun values => values.length = count ∧ ∀ a ∈ values, P a := by
  induction count with
  | zero => exact pure ⟨rfl, by simp⟩
  | succ count ih =>
    refine bind h fun first ok => bind ih fun rest known => pure ?_
    exact ⟨by simp [known.1], by simpa using ⟨ok, known.2⟩⟩

theorem okOr {value : Option α} (h : ∀ a, value = some a → P a) :
    Gives (Reader.okOr value error) P := by
  cases value with
  | none => exact fail
  | some a => exact pure (h a rfl)

/-- The value of a computation that does not read. -/
theorem run {y : Run ε α} (h : ∀ a, y = .ok a → P a) : Gives (liftM y : Reader ε α) P := by
  intro decoder value rest given
  obtain ⟨a, ran, given⟩ := bind_eq_ok.mp given
  cases given
  exact h value ran

/-- What a turn keeps, all turns keep. -/
theorem iterate {I : Nat → β → Prop} {step : β → Reader ε β}
    (turn : ∀ k b, I k b → Gives (step b) (I (k + 1))) {k : Nat} {b : β} (init : I k b) :
    Gives (Reader.iterate step count b) (I (k + count)) := by
  induction count generalizing k b with
  | zero => exact pure init
  | succ count ih =>
    refine bind (turn k b init) fun b' known => ?_
    rw [← Nat.add_assoc, Nat.add_right_comm]
    exact ih known

theorem foldlM {step : β → α → Reader ε β} {l : List α}
    (next : ∀ b, Q b → ∀ a ∈ l, Gives (step b a) Q) {b : β} (init : Q b) :
    Gives (l.foldlM step b) Q := by
  induction l generalizing b with
  | nil => exact pure init
  | cons a l ih =>
    rw [List.foldlM_cons]
    exact bind (next b init a (.head _)) fun b' known =>
      ih (fun b known a mem => next b known a (.tail _ mem)) known

end Gives

/-! ## Values from the wire -/

theorem gives_i32 : Gives (i32 : Reader ε Int) fun z => -2 ^ 31 ≤ z ∧ z < 2 ^ 31 := by
  intro decoder value rest given
  cases given
  exact decoder.sint_bounds (by decide : 0 < 4)

end Reader

end RadosRs.Wire
