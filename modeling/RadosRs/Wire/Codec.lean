import RadosRs.Lib.Bytes
import RadosRs.Lib.Fixed

/-!
# The wire codec

`Encoder` collects bytes up to a limit.  Its first failed write is remembered
and no later write adds a byte, except that a value whose length does not fit
its prefix overwrites the error.  `Decoder` reads from a slice.  Its first
failure is remembered as well: from then on `take` returns nothing and the
offset stays.

Both follow `src/wire/codec.rs`.  A versioned record is written by encoding its
body with a fresh encoder and reading it is done by handing out a decoder over
exactly its body.
-/

namespace RadosRs.Wire

open Bytes Fixed

/-- What can go wrong on the wire. -/
inductive WireError where
  | limitExceeded
  | malformed
  | unsupportedVersion (localVersion required : Nat)
  deriving DecidableEq, Repr

/-- A length and that many bytes. -/
def blobBytes (value : List UInt8) : List UInt8 := leBytes 4 value.length ++ value

/-! ## Writing -/

/-- Bytes written so far, the limit on them, and the first failure. -/
structure Encoder where
  bytes : List UInt8
  limit : Nat
  error : Option WireError
  deriving DecidableEq, Repr

namespace Encoder

def new (limit : Nat) : Encoder := ⟨[], limit, none⟩

/-- Room for `length` more bytes; otherwise the encoder fails. -/
def reserve (e : Encoder) (length : Nat) : Bool × Encoder :=
  if e.error.isSome then (false, e)
  else if length > e.limit - e.bytes.length then
    (false, { e with error := some .limitExceeded })
  else (true, e)

def raw (e : Encoder) (value : List UInt8) : Encoder :=
  match e.reserve value.length with
  | (true, e) => { e with bytes := e.bytes ++ value }
  | (false, e) => e

/-- An unsigned value of `w` bytes.  The source's `u8`, `u16`, `u32` and `u64`. -/
def uint (e : Encoder) (w value : Nat) : Encoder := e.raw (leBytes w value)

/-- A signed value of `w` bytes.  The source's `i8`, `i16`, `i32` and `i64`. -/
def sint (e : Encoder) (w : Nat) (value : Int) : Encoder := e.raw (leBytes w (twos w value))

def u8 (e : Encoder) (value : Nat) : Encoder := e.uint 1 value
def u16 (e : Encoder) (value : Nat) : Encoder := e.uint 2 value
def u32 (e : Encoder) (value : Nat) : Encoder := e.uint 4 value
def u64 (e : Encoder) (value : Nat) : Encoder := e.uint 8 value
def i8 (e : Encoder) (value : Int) : Encoder := e.sint 1 value
def i16 (e : Encoder) (value : Int) : Encoder := e.sint 2 value
def i32 (e : Encoder) (value : Int) : Encoder := e.sint 4 value
def i64 (e : Encoder) (value : Int) : Encoder := e.sint 8 value

def bool (e : Encoder) (value : Bool) : Encoder := e.u8 value.toNat

/-- A length prefix and that many bytes. -/
def blob (e : Encoder) (value : List UInt8) : Encoder :=
  match tryFrom u32Max value.length with
  | none => { e with error := some .limitExceeded }
  | some length => (e.u32 length).raw value

theorem raw_eq (e : Encoder) (value : List UInt8) :
    e.raw value =
      if e.error.isSome then e
      else if value.length > e.limit - e.bytes.length then { e with error := some .limitExceeded }
      else { e with bytes := e.bytes ++ value } := by
  unfold raw reserve
  split_ifs <;> rfl

/-- Writing within the limit appends and does not fail. -/
theorem raw_fits (bytes value : List UInt8) (limit : Nat)
    (h : bytes.length + value.length ≤ limit) :
    (⟨bytes, limit, none⟩ : Encoder).raw value = ⟨bytes ++ value, limit, none⟩ := by
  have room : ¬ value.length > limit - bytes.length := by omega
  simp [raw_eq, room]

def finish (e : Encoder) : Except WireError (List UInt8) :=
  match e.error with
  | some error => .error error
  | none => .ok e.bytes

/-- A record with its version, the oldest version that can read it, and its length. -/
def versioned (e : Encoder) (version compatible : Nat) (encode : Encoder → Encoder) : Encoder :=
  match (encode (new (min e.limit u32Max))).finish with
  | .error _ => { e with error := some .limitExceeded }
  | .ok payload =>
    match tryFrom u32Max payload.length with
    | none => { e with error := some .limitExceeded }
    | some length => (((e.u8 version).u8 compatible).u32 length).raw payload

/-! ### What a write leaves behind -/

theorem finish_eq_ok {e : Encoder} {value : List UInt8} (h : e.finish = .ok value) :
    e.error = none ∧ e.bytes = value := by
  unfold finish at h
  split at h
  · cases h
  next ok => exact ⟨ok, Except.ok.inj h⟩

/-- A write that appends exactly `value`, unless the encoder fails. -/
def Appends (write : Encoder → Encoder) (value : List UInt8) : Prop :=
  ∀ e : Encoder, (write e).error = none → e.error = none ∧ (write e).bytes = e.bytes ++ value

namespace Appends

variable {write body : Encoder → Encoder} {value more : List UInt8}

theorem nothing : Appends (fun e => e) [] := fun _ ok => ⟨ok, (List.append_nil _).symm⟩

theorem raw (h : Appends write value) (more : List UInt8) :
    Appends (fun e => (write e).raw more) (value ++ more) := by
  intro e ok
  dsimp only at ok ⊢
  rw [raw_eq] at ok ⊢
  split_ifs at ok ⊢ with failed full
  · simp [ok] at failed
  · obtain ⟨unfailed, bytes⟩ := h e ok
    exact ⟨unfailed, by rw [bytes, List.append_assoc]⟩

theorem uint (h : Appends write value) (w n : Nat) :
    Appends (fun e => (write e).uint w n) (value ++ leBytes w n) := h.raw _

theorem sint (h : Appends write value) (w : Nat) (z : Int) :
    Appends (fun e => (write e).sint w z) (value ++ leBytes w (twos w z)) := h.raw _

theorem blob (h : Appends write value) (more : List UInt8) :
    Appends (fun e => (write e).blob more) (value ++ leBytes 4 more.length ++ more) := by
  intro e ok
  dsimp only [Encoder.blob] at ok ⊢
  split at ok
  · cases ok
  rename_i length fits
  obtain ⟨rfl, -⟩ := tryFrom_eq_some fits
  exact (h.uint 4 more.length).raw more e ok

/-- A record is its header and its body. -/
theorem versioned (h : Appends write value) (version compatible : Nat)
    (inner : Appends body more) :
    Appends (fun e => (write e).versioned version compatible body)
      (value ++ leBytes 1 version ++ leBytes 1 compatible ++ leBytes 4 more.length ++ more) := by
  intro e ok
  dsimp only [Encoder.versioned] at ok ⊢
  split at ok
  · cases ok
  rename_i payload finished
  obtain ⟨unfailed, rfl⟩ := finish_eq_ok finished
  have bytes : (body (new (min (write e).limit u32Max))).bytes = more := (inner _ unfailed).2
  rw [bytes] at ok ⊢
  split at ok
  · cases ok
  rename_i length fits
  obtain ⟨rfl, -⟩ := tryFrom_eq_some fits
  exact (((h.uint 1 version).uint 1 compatible).uint 4 more.length).raw more e ok

end Appends

/-! ### Writes of the same shape -/

/-- Two encoders that differ at most in the values of the bytes they hold. -/
structure Alike (e f : Encoder) : Prop where
  length : e.bytes.length = f.bytes.length
  limit : e.limit = f.limit
  error : e.error = f.error

namespace Alike

variable {e f : Encoder}

theorem refl (e : Encoder) : e.Alike e := ⟨rfl, rfl, rfl⟩

theorem raw (h : e.Alike f) {v w : List UInt8} (same : v.length = w.length) :
    (e.raw v).Alike (f.raw w) := by
  obtain ⟨length, limit, error⟩ := h
  rw [raw_eq, raw_eq, error, limit, length, same]
  split_ifs
  · exact ⟨length, limit, error⟩
  · exact ⟨length, rfl, rfl⟩
  · exact ⟨by simp [length, same], rfl, rfl⟩

theorem uint (h : e.Alike f) (w m n : Nat) : (e.uint w m).Alike (f.uint w n) :=
  h.raw (by simp)

theorem sint (h : e.Alike f) (w : Nat) (m n : Int) : (e.sint w m).Alike (f.sint w n) :=
  h.raw (by simp)

theorem blob (h : e.Alike f) (v : List UInt8) : (e.blob v).Alike (f.blob v) := by
  unfold Encoder.blob
  split
  · exact ⟨h.length, h.limit, rfl⟩
  · exact (h.uint 4 _ _).raw rfl

theorem finish (h : e.Alike f) :
    (∃ error, e.finish = .error error ∧ f.finish = .error error) ∨
      ∃ v w, e.finish = .ok v ∧ f.finish = .ok w ∧ v.length = w.length := by
  unfold Encoder.finish
  rw [h.error]
  split
  next error _ => exact .inl ⟨error, rfl, rfl⟩
  · exact .inr ⟨_, _, rfl, rfl, h.length⟩

theorem versioned (h : e.Alike f) (version compatible : Nat) {encode encode' : Encoder → Encoder}
    (body : ∀ {e f : Encoder}, e.Alike f → (encode e).Alike (encode' f)) :
    (e.versioned version compatible encode).Alike (f.versioned version compatible encode') := by
  unfold Encoder.versioned
  rw [← h.limit]
  rcases (body (.refl (new (min e.limit u32Max)))).finish with
    ⟨error, left, right⟩ | ⟨v, w, left, right, same⟩
  · rw [left, right]
    exact ⟨h.length, rfl, rfl⟩
  rw [left, right]
  dsimp only
  rw [same]
  split
  · exact ⟨h.length, rfl, rfl⟩
  · exact (((h.uint 1 _ _).uint 1 _ _).uint 4 _ _).raw same

end Alike

/-! ### Writes of fixed pieces -/

/-- A write of the same pieces to every encoder, whatever it holds. -/
def Pieces (write : Encoder → Encoder) : Prop :=
  ∃ pieces : List (List UInt8), ∀ e, write e = pieces.foldl raw e

namespace Pieces

variable {write after : Encoder → Encoder}

theorem nothing : Pieces fun e => e := ⟨[], fun _ => rfl⟩

theorem raw (h : Pieces write) (more : List UInt8) : Pieces fun e => (write e).raw more := by
  obtain ⟨pieces, h⟩ := h
  exact ⟨pieces ++ [more], fun e => by simp [h]⟩

theorem comp (h : Pieces write) (k : Pieces after) : Pieces fun e => after (write e) := by
  obtain ⟨pieces, h⟩ := h
  obtain ⟨more, k⟩ := k
  exact ⟨pieces ++ more, fun e => by simp [h, k]⟩

theorem foldl {α : Type*} (value : α → List UInt8) (items : List α) :
    Pieces fun e => items.foldl (fun e item => e.raw (value item)) e :=
  ⟨items.map value, fun e => by rw [List.foldl_map]⟩

theorem appends (h : Pieces write) : ∃ value, Appends write value := by
  obtain ⟨pieces, h⟩ := h
  have written : ∀ {write' value}, Appends write' value →
      Appends (fun e => pieces.foldl Encoder.raw (write' e)) (value ++ pieces.flatten) := by
    clear h
    induction pieces with
    | nil =>
      intro write' value start
      simpa using start
    | cons more pieces ih =>
      intro write' value start
      simpa using ih (start.raw more)
  exact ⟨_, (funext h : write = _) ▸ written .nothing⟩

theorem alike (h : Pieces write) {e f : Encoder} (same : e.Alike f) :
    (write e).Alike (write f) := by
  obtain ⟨pieces, h⟩ := h
  rw [h, h]
  clear h
  induction pieces generalizing e f with
  | nil => exact same
  | cons more pieces ih => exact ih (same.raw rfl)

end Pieces

end Encoder

/-! ## Reading -/

/-- A slice, how far it has been read, the longest blob to accept, and the first failure. -/
structure Decoder where
  bytes : List UInt8
  offset : Nat
  maxBytes : Nat
  error : Option WireError
  deriving DecidableEq, Repr

namespace Decoder

def new (bytes : List UInt8) (maxBytes : Nat) : Decoder := ⟨bytes, 0, maxBytes, none⟩

def remaining (d : Decoder) : Nat := d.bytes.length - d.offset

/-- The next `length` bytes.  A failed read moves nothing and keeps the first error. -/
def take (d : Decoder) (length : Nat) : List UInt8 × Decoder :=
  if d.error.isSome || length > d.bytes.length - d.offset then
    ([], { d with error := some (d.error.getD .malformed) })
  else ((d.bytes.drop d.offset).take length, { d with offset := d.offset + length })

def raw (d : Decoder) (length : Nat) : List UInt8 × Decoder := d.take length

/-- An unsigned value of `w` bytes, zero when the read fails. -/
def uint (d : Decoder) (w : Nat) : Nat × Decoder :=
  let (data, d) := d.take w
  (ofLeBytes data, d)

/-- A signed value of `w` bytes, zero when the read fails. -/
def sint (d : Decoder) (w : Nat) : Int × Decoder :=
  let (value, d) := d.uint w
  (ofTwos w value, d)

def u8 (d : Decoder) : Nat × Decoder := d.uint 1
def u16 (d : Decoder) : Nat × Decoder := d.uint 2
def u32 (d : Decoder) : Nat × Decoder := d.uint 4
def u64 (d : Decoder) : Nat × Decoder := d.uint 8
def i8 (d : Decoder) : Int × Decoder := d.sint 1
def i16 (d : Decoder) : Int × Decoder := d.sint 2
def i32 (d : Decoder) : Int × Decoder := d.sint 4
def i64 (d : Decoder) : Int × Decoder := d.sint 8

def bool (d : Decoder) : Bool × Decoder :=
  let (value, d) := d.u8
  (value != 0, d)

/-- A length-prefixed byte string. -/
def blob (d : Decoder) : List UInt8 × Decoder :=
  let (length, d) := d.u32
  if d.error.isSome then ([], d)
  else if length > d.maxBytes then ([], { d with error := some .limitExceeded })
  else d.raw length

/-- The version of the record at hand and a decoder over its body. -/
def versioned (d : Decoder) (localVersion : Nat) : (Nat × Decoder) × Decoder :=
  let (version, d) := d.u8
  let (compatible, d) := d.u8
  let (length, d) := d.u32
  if d.error.isSome then ((0, new [] d.maxBytes), d)
  else if localVersion < compatible then
    ((0, new [] d.maxBytes), { d with error := some (.unsupportedVersion localVersion compatible) })
  else if length > d.maxBytes then
    ((0, new [] d.maxBytes), { d with error := some .limitExceeded })
  else
    let (payload, d) := d.take length
    ((version, new payload d.maxBytes), d)

def finish (d : Decoder) : Except WireError Unit :=
  match d.error with
  | some error => .error error
  | none => .ok ()

theorem uint_lt (d : Decoder) (w : Nat) : (d.uint w).1 < 256 ^ w := by
  have short : (d.take w).1.length ≤ w := by
    unfold take
    split
    · exact Nat.zero_le w
    · exact (List.length_take_le w _)
  exact Nat.lt_of_lt_of_le (ofLeBytes_lt _) (Nat.pow_le_pow_right (by omega) short)

theorem sint_bounds (d : Decoder) {w : Nat} (pos : 0 < w) :
    -2 ^ (8 * w - 1) ≤ (d.sint w).1 ∧ (d.sint w).1 < 2 ^ (8 * w - 1) :=
  ofTwos_bounds pos (d.uint_lt w)

end Decoder

end RadosRs.Wire
