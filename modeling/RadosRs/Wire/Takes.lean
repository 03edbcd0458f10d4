import RadosRs.Wire.Reader
import RadosRs.Wire.Reading

/-!
# Readers that take back what was written

`Takes maxBytes reader bytes value` says that `reader` takes exactly `bytes` off
what is ahead of the decoder and gives `value`, whatever was read before and
whatever follows.  There is a rule for each field and one for each way to put
readers together, so the bytes of a record and the reader of the record are
taken apart side by side.  `TakesAll` is the same for a reader that looks at
what is left and has to find nothing.
-/

namespace RadosRs.Wire.Reader

open Bytes Fixed Fallible

variable {ε α β : Type}

/-- The reader takes the bytes off what is ahead and gives the value. -/
def Takes (maxBytes : Nat) (reader : Reader ε α) (bytes : List UInt8) (value : α) : Prop :=
  ∀ used rest, reader (.between used (bytes ++ rest) maxBytes) =
    .ok (value, .between (used ++ bytes) rest maxBytes)

namespace Takes

variable {maxBytes : Nat} {x : Reader ε α} {f : α → Reader ε β} {bytes more : List UInt8} {a : α}
  {b : β}

theorem pure (a : α) : Takes maxBytes (Pure.pure a : Reader ε α) [] a := by
  intro used rest
  rw [List.append_nil]
  rfl

theorem bind (first : Takes maxBytes x bytes a) (next : Takes maxBytes (f a) more b) :
    Takes maxBytes (x >>= f) (bytes ++ more) b := by
  intro used rest
  rw [List.append_assoc, bind_of_ok (first used (more ++ rest)), next, List.append_assoc]

/-- A step that takes nothing. -/
theorem skip (first : Takes maxBytes x [] a) (next : Takes maxBytes (f a) bytes b) :
    Takes maxBytes (x >>= f) bytes b :=
  first.bind next

/-- A last step that takes nothing. -/
theorem andThen (first : Takes maxBytes x bytes a) (last : Takes maxBytes (f a) [] b) :
    Takes maxBytes (x >>= f) bytes b := by
  rw [← List.append_nil bytes]
  exact first.bind last

theorem finish [OfWire ε] : Takes maxBytes (Reader.finish : Reader ε Unit) [] () := by
  intro used rest
  rw [List.append_nil]
  rfl

theorem rejectIf {condition : Prop} [Decidable condition] {error : ε} (fails : ¬ condition) :
    Takes maxBytes (Reader.rejectIf condition error) [] () := by
  intro used rest
  rw [List.append_nil]
  exact rejectIf_of_not fails

/-- What is left is at least what is still to be taken. -/
theorem remaining {f : Nat → Reader ε β}
    (next : ∀ left, bytes.length ≤ left → Takes maxBytes (f left) bytes b) :
    Takes maxBytes (Reader.remaining >>= f) bytes b := by
  intro used rest
  have left : (Decoder.between used (bytes ++ rest) maxBytes).remaining = (bytes ++ rest).length :=
    Decoder.remaining_between ..
  have here : (Reader.remaining : Reader ε Nat) (.between used (bytes ++ rest) maxBytes) =
      .ok ((bytes ++ rest).length, .between used (bytes ++ rest) maxBytes) := by
    rw [← left]
    rfl
  rw [bind_of_ok here]
  exact next _ (by rw [List.length_append]; omega) used rest

/-! ### Fields -/

variable {n : Nat}

theorem uint {w : Nat} (fits : n < 256 ^ w) :
    Takes maxBytes (read (Decoder.uint · w) : Reader ε Nat) (leBytes w n) n := by
  intro used rest
  have taken := Decoder.uint_between used rest maxBytes w n
  rw [Nat.mod_eq_of_lt fits] at taken
  exact congrArg Except.ok taken

theorem u8 (fits : n < 2 ^ 8) :
    Takes maxBytes (Reader.u8 : Reader ε Nat) (leBytes 1 n) n := uint fits

theorem u16 (fits : n < 2 ^ 16) :
    Takes maxBytes (Reader.u16 : Reader ε Nat) (leBytes 2 n) n := uint fits

theorem u32 (fits : n < 2 ^ 32) :
    Takes maxBytes (Reader.u32 : Reader ε Nat) (leBytes 4 n) n := uint fits

theorem u64 (fits : n < 2 ^ 64) :
    Takes maxBytes (Reader.u64 : Reader ε Nat) (leBytes 8 n) n := uint fits

theorem raw {length : Nat} (value : List UInt8) (same : value.length = length) :
    Takes maxBytes (Reader.raw length : Reader ε (List UInt8)) value value := fun used rest =>
  congrArg Except.ok (Decoder.raw_between used rest maxBytes value same)

/-! ### Records and lists -/

/-- The header of a record, with its body behind it. -/
theorem versioned {version compatible localVersion : Nat} (body : List UInt8)
    (byte : version < 256) (readable : compatible ≤ localVersion) (known : localVersion < 256)
    (fits : body.length ≤ u32Max) (short : body.length ≤ maxBytes) :
    Takes maxBytes (Reader.versioned localVersion : Reader ε (Nat × Decoder))
      (leBytes 1 version ++ leBytes 1 compatible ++ leBytes 4 body.length ++ body)
      (version, .new body maxBytes) := by
  intro used rest
  have taken := Decoder.versioned_between used rest maxBytes body byte readable known fits short
  simp only [← List.append_assoc] at taken ⊢
  exact congrArg Except.ok taken

/-- Reading a body takes nothing off the decoder at hand. -/
theorem inside (body : Takes maxBytes x bytes a) :
    Takes maxBytes (Reader.inside (.new bytes maxBytes) x) [] a := by
  intro used rest
  have taken := body [] []
  rw [List.append_nil] at taken
  rw [List.append_nil]
  exact inside_eq_ok.mpr ⟨rfl, _, taken⟩

theorem times {parts : List (List UInt8)} {values : List α}
    (each : List.Forall₂ (Takes maxBytes x) parts values) :
    Takes maxBytes (Reader.times values.length x) parts.flatten values := by
  induction each with
  | nil => exact .pure []
  | cons here _ ih =>
    rw [List.flatten_cons]
    exact here.bind (ih.andThen (.pure _))

end Takes

/-- The reader takes all that is ahead and gives the value. -/
def TakesAll (maxBytes : Nat) (reader : Reader ε α) (bytes : List UInt8) (value : α) : Prop :=
  ∀ used, reader (.between used bytes maxBytes) =
    .ok (value, .between (used ++ bytes) [] maxBytes)

section TakesAll

variable {maxBytes : Nat} {x : Reader ε α} {f : α → Reader ε β} {bytes more : List UInt8} {a : α}
  {b : β}

theorem Takes.all (taken : Takes maxBytes x bytes a) : TakesAll maxBytes x bytes a := by
  intro used
  have whole := taken used []
  rwa [List.append_nil] at whole

theorem Takes.bindAll (first : Takes maxBytes x bytes a) (next : TakesAll maxBytes (f a) more b) :
    TakesAll maxBytes (x >>= f) (bytes ++ more) b := by
  intro used
  rw [bind_of_ok (first used more), next, List.append_assoc]

theorem Takes.skipAll (first : Takes maxBytes x [] a) (next : TakesAll maxBytes (f a) bytes b) :
    TakesAll maxBytes (x >>= f) bytes b :=
  first.bindAll next

/-- Nothing is left at the end. -/
theorem TakesAll.remaining {f : Nat → Reader ε β} (next : TakesAll maxBytes (f 0) [] b) :
    TakesAll maxBytes (Reader.remaining >>= f) [] b := by
  intro used
  have here : (Reader.remaining : Reader ε Nat) (.between used [] maxBytes) =
      .ok (0, .between used [] maxBytes) := by
    have left := Decoder.remaining_between used [] maxBytes
    rw [List.length_nil] at left
    rw [← left]
    rfl
  rw [bind_of_ok here]
  exact next used

/-- On all bytes there are. -/
theorem TakesAll.run (taken : TakesAll maxBytes x bytes a) :
    x (.new bytes maxBytes) = .ok (a, .between bytes [] maxBytes) :=
  taken []

end TakesAll

/-! ## Values that fit -/

theorem gives_read_uint (w : Nat) : Gives (read (Decoder.uint · w) : Reader ε Nat) (· < 256 ^ w) := by
  intro decoder value rest given
  cases given
  exact decoder.uint_lt w

end RadosRs.Wire.Reader
