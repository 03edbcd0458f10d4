import RadosRs.Wire.Takes
import RadosRs.Wire.Writing

/-!
# What is written is read back

`Adds e e' bytes` says that writing took the encoder `e` to `e'` by adding
`bytes`, unless `e'` has failed.  `Sent` forgets the bytes and keeps the reader
that takes them back.  Both are relations between encoders, so a writer that can
fail on its own is followed from one encoder to the next.
-/

namespace RadosRs.Wire

open Bytes Fallible Fixed

namespace Encoder

/-- The bytes were added to the first encoder, unless the second has failed. -/
structure Adds (e e' : Encoder) (bytes : List UInt8) : Prop where
  written : e'.error = none → e.error = none ∧ e'.bytes = e.bytes ++ bytes
  within : ∀ limit, Within limit e → Within limit e'

namespace Adds

variable {e e' e'' : Encoder} {bytes more : List UInt8}

theorem refl (e : Encoder) : Adds e e [] := ⟨Appends.nothing e, fun _ h => h⟩

theorem trans (first : Adds e e' bytes) (next : Adds e' e'' more) :
    Adds e e'' (bytes ++ more) := by
  refine ⟨fun ok => ?_, fun limit h => next.within limit (first.within limit h)⟩
  obtain ⟨unfailed, written⟩ := next.written ok
  obtain ⟨fresh, before⟩ := first.written unfailed
  exact ⟨fresh, by rw [written, before, List.append_assoc]⟩

theorem raw (e : Encoder) (value : List UInt8) : Adds e (e.raw value) value :=
  ⟨Appends.nothing.raw value e, fun _ h => h.raw value⟩

theorem uint (e : Encoder) (w n : Nat) : Adds e (e.uint w n) (leBytes w n) := raw e _

theorem versioned {body : Encoder → Encoder} (e : Encoder) (version compatible : Nat)
    (inner : Appends body bytes) :
    Adds e (e.versioned version compatible body)
      (leBytes 1 version ++ leBytes 1 compatible ++ leBytes 4 bytes.length ++ bytes) :=
  ⟨Appends.nothing.versioned version compatible inner e, fun _ h => h.versioned version compatible _⟩

/-- A loop that adds the bytes of one value after the other. -/
theorem foldlM {ε α : Type} {write : Encoder → α → Except ε Encoder} {out : α → List UInt8}
    {values : List α} (each : ∀ e a e', a ∈ values → write e a = .ok e' → Adds e e' (out a))
    {e e' : Encoder} (h : values.foldlM write e = .ok e') : Adds e e' (values.flatMap out) :=
  foldlM_collects (fun done e' => Adds e e' done) out
    (fun _ e' a e'' mem before here => before.trans (each e' a e'' mem here)) (.refl e) h

end Adds

end Encoder

open Reader Encoder

variable {ε α β : Type}

/-- What was written between the two encoders is taken back by the reader, unless the second
encoder has failed or there is too much of it. -/
structure Sent (maxBytes : Nat) (e e' : Encoder) (reader : Reader ε α) (value : α) : Prop where
  taken : e'.error = none → ∃ bytes, e.error = none ∧ e'.bytes = e.bytes ++ bytes ∧
    (bytes.length ≤ maxBytes → Takes maxBytes reader bytes value)
  within : ∀ limit, Within limit e → Within limit e'

namespace Sent

variable {maxBytes : Nat} {e e' e'' : Encoder} {x : Reader ε α} {f : α → Reader ε β} {a : α} {b : β}

variable {bytes : List UInt8}

theorem of (adds : Adds e e' bytes)
    (takes : e'.error = none → bytes.length ≤ maxBytes → Takes maxBytes x bytes a) :
    Sent maxBytes e e' x a :=
  ⟨fun ok => ⟨bytes, (adds.written ok).1, (adds.written ok).2, takes ok⟩, adds.within⟩

/-- All that was written to a new encoder is read back. -/
theorem run {limit : Nat} (sent : Sent limit (new limit) e x a) (finished : e.finish = .ok bytes) :
    bytes.length ≤ limit ∧ x (.new bytes limit) = .ok (a, .between bytes [] limit) := by
  obtain ⟨unfailed, rfl⟩ := Encoder.finish_eq_ok finished
  obtain ⟨bytes, -, written, takes⟩ := sent.taken unfailed
  have short := (sent.within limit (.new limit)).length
  rw [show (new limit).bytes = [] from rfl, List.nil_append] at written
  rw [written] at short ⊢
  exact ⟨short, (takes short).all.run⟩

end Sent

end RadosRs.Wire
