import RadosRs.Wire.Takes

/-!
# Formats

A format relates bytes to the value they stand for.  `Reads maxBytes reader F`
says that a reader reads exactly the format `F`.  It takes the bytes of a value off
what is ahead and gives the value, and there is nothing else it does without
failing.  The first half is `Takes`.  In the second half a read may go wrong and
the reader still go on, since the decoder remembers its error; so it is about
readers that leave the decoder without one.
-/

namespace RadosRs.Wire

open Bytes Fallible Fixed

/-- A decoder only fails and moves on. -/
@[simp] theorem Decoder.maxBytes_take (d : Decoder) (w : Nat) :
    (d.take w).2.maxBytes = d.maxBytes := by
  unfold Decoder.take
  split <;> rfl

theorem Decoder.maxBytes_blob (d : Decoder) : d.blob.2.maxBytes = d.maxBytes := by
  have prefixed : d.u32.2.maxBytes = d.maxBytes := d.maxBytes_take 4
  unfold Decoder.blob
  dsimp only
  split_ifs
  · exact prefixed
  · exact prefixed
  · exact (Decoder.maxBytes_take ..).trans prefixed

/-- A blob that was read is no longer than the limit. -/
theorem Decoder.length_blob {d : Decoder} (ok : d.blob.2.error = none) :
    d.blob.1.length ≤ d.maxBytes ∧ d.blob.1.length ≤ u32Max := by
  have width : d.u32.1 ≤ u32Max := Nat.le_sub_one_of_lt (d.uint_lt 4)
  unfold Decoder.blob at ok ⊢
  dsimp only at ok ⊢
  split_ifs at ok ⊢ with bad long
  · exact ⟨Nat.zero_le _, Nat.zero_le _⟩
  have size : (d.u32.2.raw d.u32.1).1.length = d.u32.1 := Decoder.length_take ok
  rw [size]
  exact ⟨(Nat.not_lt.mp long).trans_eq (d.maxBytes_take 4), width⟩

instance : OfWire WireError := ⟨id⟩

namespace Reader

variable {ε α β σ : Type}

theorem finish_eq_ok [OfWire ε] {d d' : Decoder} :
    (finish : Reader ε Unit) d = .ok ((), d') ↔ d' = d ∧ d.error = none := by
  unfold finish Decoder.finish
  cases d.error <;> simp [Fallible.fail, eq_comm]

variable {condition : Prop} {error : ε}

theorem rejectIf_eq_ok [Decidable condition] {d d' : Decoder} :
    rejectIf condition error d = .ok ((), d') ↔ d' = d ∧ ¬ condition := by
  unfold rejectIf
  split
  next holds => exact ⟨nofun, fun h => absurd holds h.2⟩
  next fails => exact ⟨fun h => by cases h; exact ⟨rfl, fails⟩, fun h => by rw [h.1]; rfl⟩

/-- The reader reads exactly this format. -/
structure Reads (maxBytes : Nat) (reader : Reader ε α) (Format : List UInt8 → α → Prop) : Prop where
  takes : ∀ {bytes a}, Format bytes a → Takes maxBytes reader bytes a
  took : ∀ {d a d'}, d.maxBytes = maxBytes → reader d = .ok (a, d') →
    d'.maxBytes = maxBytes ∧ (d'.error = none → ∃ bytes, Format bytes a ∧ Decoder.Took d d' bytes)

/-- Reads to the end.  It is an error if bytes are left. -/
def toEnd [OfWire ε] (reader : Reader ε α) (left : ε) : Reader ε α := do
  let a ← reader
  finish
  let rest ← remaining
  rejectIf (rest ≠ 0) left
  return a

def whole [OfWire ε] (reader : Reader ε α) (left : ε) (data : List UInt8) (maxBytes : Nat) :
    Run ε α := do
  let (a, _) ← toEnd reader left (.new data maxBytes)
  return a

/-- The format of some turns, one after the other. -/
def Turns (F : σ → List UInt8 → σ → Prop) : Nat → σ → List UInt8 → σ → Prop
  | 0, s, bytes, t => bytes = [] ∧ t = s
  | count + 1, s, bytes, t =>
    ∃ s' front back, bytes = front ++ back ∧ F s front s' ∧ Turns F count s' back t

namespace Reads

variable {maxBytes : Nat} {x : Reader ε α} {f : α → Reader ε β} {F : List UInt8 → α → Prop}
  {G : α → List UInt8 → β → Prop}

theorem congr {F' : List UInt8 → α → Prop} (h : Reads maxBytes x F)
    (same : ∀ bytes a, F bytes a ↔ F' bytes a) : Reads maxBytes x F' where
  takes format := h.takes ((same _ _).mpr format)
  took limit read := by
    obtain ⟨kept, took⟩ := h.took limit read
    refine ⟨kept, fun ok => ?_⟩
    obtain ⟨bytes, format, took⟩ := took ok
    exact ⟨bytes, (same _ _).mp format, took⟩

theorem pure (a : α) : Reads maxBytes (Pure.pure a : Reader ε α) fun bytes b => bytes = [] ∧ b = a where
  takes := by
    rintro _ _ ⟨rfl, rfl⟩
    exact .pure _
  took limit read := by
    cases read
    exact ⟨limit, fun _ => ⟨[], ⟨rfl, rfl⟩, .refl _⟩⟩

theorem bind (first : Reads maxBytes x F) (next : ∀ a, Reads maxBytes (f a) (G a)) :
    Reads maxBytes (x >>= f) fun bytes b =>
      ∃ a front back, bytes = front ++ back ∧ F front a ∧ G a back b where
  takes := by
    rintro _ _ ⟨a, front, back, rfl, here, later⟩
    exact (first.takes here).bind ((next a).takes later)
  took limit read := by
    obtain ⟨a, between, here, later⟩ := step_eq_ok.mp read
    obtain ⟨middle, took⟩ := first.took limit here
    obtain ⟨kept, more⟩ := (next a).took middle later
    refine ⟨kept, fun ok => ?_⟩
    obtain ⟨back, second, tookBack⟩ := more ok
    obtain ⟨front, one, tookFront⟩ := took (tookBack.unfailed ok)
    exact ⟨_, ⟨a, front, back, rfl, one, second⟩, tookFront.trans tookBack⟩

variable {next : Reader ε β}

/-- A step that takes nothing and may leave. -/
theorem check {reader : Reader ε Unit} {G : List UInt8 → β → Prop}
    (takes : condition → Takes maxBytes reader [] ())
    (took : ∀ {d d'}, reader d = .ok ((), d') → d' = d ∧ (d.error = none → condition))
    (h : Reads maxBytes next G) :
    Reads maxBytes (reader >>= fun _ => next) fun bytes b => condition ∧ G bytes b where
  takes := by
    rintro bytes b ⟨holds, format⟩
    exact (takes holds).skip (h.takes format)
  took limit read := by
    obtain ⟨_, _, here, later⟩ := step_eq_ok.mp read
    obtain ⟨rfl, holds⟩ := took here
    obtain ⟨kept, took⟩ := h.took limit later
    refine ⟨kept, fun ok => ?_⟩
    obtain ⟨bytes, format, took⟩ := took ok
    exact ⟨bytes, ⟨holds (took.unfailed ok), format⟩, took⟩

theorem finish [OfWire ε] {G : List UInt8 → β → Prop} (h : Reads maxBytes next G) :
    Reads maxBytes (Reader.finish >>= fun _ => next) fun bytes b => G bytes b :=
  (check (fun _ : True => .finish)
    (fun read => (finish_eq_ok.mp read).imp_right fun _ _ => trivial) h).congr (by simp)

theorem rejectIf [Decidable condition] {G : List UInt8 → β → Prop} (h : Reads maxBytes next G) :
    Reads maxBytes (Reader.rejectIf condition error >>= fun _ => next) fun bytes b =>
      ¬ condition ∧ G bytes b :=
  check .rejectIf (fun read => (rejectIf_eq_ok.mp read).imp_right fun fails _ => fails) h

/-- What is left only has to be enough. -/
theorem remaining {f : Nat → Reader ε β} {G : Nat → List UInt8 → β → Prop}
    {H : List UInt8 → β → Prop} (h : ∀ left, Reads maxBytes (f left) (G left))
    (same : ∀ left bytes b, bytes.length ≤ left → (G left bytes b ↔ H bytes b)) :
    Reads maxBytes (Reader.remaining >>= f) H where
  takes {bytes b} format :=
    .remaining fun left enough => (h left).takes ((same left bytes b enough).mpr format)
  took {d b d'} limit read := by
    obtain ⟨left, d₁, here, later⟩ := step_eq_ok.mp read
    cases here
    obtain ⟨kept, took⟩ := (h d.remaining).took limit later
    refine ⟨kept, fun ok => ?_⟩
    obtain ⟨bytes, format, took⟩ := took ok
    have enough : bytes.length ≤ d.remaining := by
      rw [← d.length_ahead, took.taken ok, List.length_append]
      omega
    exact ⟨bytes, (same _ _ _ enough).mp format, took⟩

theorem uint (w : Nat) : Reads maxBytes (read (Decoder.uint · w) : Reader ε Nat) fun bytes n =>
    bytes = leBytes w n ∧ n < 256 ^ w where
  takes := by
    rintro _ n ⟨rfl, fits⟩
    exact .uint fits
  took {d n d'} limit read := by
    cases read
    exact ⟨(d.maxBytes_take w).trans limit, fun _ => ⟨_, ⟨rfl, d.uint_lt w⟩, .uint d w⟩⟩

theorem blob : Reads maxBytes (Reader.blob : Reader ε (List UInt8)) fun bytes value =>
    bytes = blobBytes value ∧ value.length ≤ maxBytes ∧ value.length ≤ u32Max where
  takes := by
    rintro _ value ⟨rfl, short, fits⟩ used rest
    have taken := Decoder.blob_between used rest maxBytes value fits short
    rw [blobBytes, List.append_assoc, ← List.append_assoc used]
    exact congrArg Except.ok taken
  took {d value d'} limit read := by
    obtain rfl : d.blob.1 = value := congrArg Prod.fst (Except.ok.inj read)
    obtain rfl : d.blob.2 = d' := congrArg Prod.snd (Except.ok.inj read)
    refine ⟨d.maxBytes_blob.trans limit, fun ok => ⟨_, ⟨rfl, ?_⟩, .blob d⟩⟩
    rw [← limit]
    exact Decoder.length_blob ok

theorem iterate {step : σ → Reader ε σ} {F : σ → List UInt8 → σ → Prop}
    (turn : ∀ s, Reads maxBytes (step s) (F s)) (count : Nat) (s : σ) :
    Reads maxBytes (Reader.iterate step count s) (Turns F count s) := by
  induction count generalizing s with
  | zero => exact pure s
  | succ count ih => exact (turn s).bind ih

theorem whole_eq_ok [OfWire ε] (h : Reads maxBytes x F) {left : ε} {data : List UInt8} {a : α} :
    whole x left data maxBytes = .ok a ↔ F data a := by
  constructor
  · intro ends
    obtain ⟨_, read, given⟩ := bind_eq_ok.mp ends
    cases given
    obtain ⟨a, d, here, later⟩ := step_eq_ok.mp read
    obtain ⟨_, d', fine, later'⟩ := step_eq_ok.mp later
    obtain ⟨rest, d'', left, checked⟩ := step_eq_ok.mp later'
    obtain ⟨_, _, done, given⟩ := step_eq_ok.mp checked
    obtain ⟨rfl, ok⟩ := finish_eq_ok.mp fine
    cases left
    cases given
    obtain ⟨bytes, format, took⟩ := (h.took rfl here).2 ok
    rwa [took.whole ok (not_not.mp (rejectIf_eq_ok.mp done).2)]
  · intro format
    have ends : TakesAll maxBytes (Reader.finish >>= fun _ => Reader.remaining >>= fun rest =>
        Reader.rejectIf (rest ≠ 0) left >>= fun _ => Pure.pure a) [] a :=
      Takes.finish.skipAll (.remaining ((Takes.rejectIf (by simp)).skipAll (Takes.pure a).all))
    have all : TakesAll maxBytes (toEnd x left) (data ++ []) a := (h.takes format).bindAll ends
    rw [List.append_nil] at all
    exact bind_eq_ok.mpr ⟨_, all.run, rfl⟩

end Reads

end Reader

end RadosRs.Wire
