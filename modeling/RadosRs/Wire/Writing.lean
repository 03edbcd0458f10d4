import RadosRs.Wire.Codec

/-!
# Writing up to the limit

Whether an encoder fails depends only on how much is written to it.  A write of
`value` is one that appends it if there is room, fails if there is none, and
leaves an encoder failed that has failed before.  The kinds of fields are writes,
and writes can be made one after the other, so `finish_eq_ok` needs to be used
only once for a whole record: it can be encoded if and only if it fits.

Lengths are written with 32 bits.  A write therefore comes with a condition `short`
on the lengths in it, which matters only for a limit above that (`Writes.below`).
-/

namespace RadosRs.Wire.Encoder

open Bytes Fixed

/-- The encoder has the limit and holds no more than that. -/
structure Within (limit : Nat) (e : Encoder) : Prop where
  same : e.limit = limit
  length : e.bytes.length ≤ limit

namespace Within

variable {limit : Nat} {e : Encoder}

theorem new (limit : Nat) : Within limit (Encoder.new limit) := ⟨rfl, Nat.zero_le _⟩

theorem raw (h : Within limit e) (value : List UInt8) : Within limit (e.raw value) := by
  obtain ⟨rfl, length⟩ := h
  rw [raw_eq]
  split_ifs with failed full
  · exact ⟨rfl, length⟩
  · exact ⟨rfl, length⟩
  refine ⟨rfl, ?_⟩
  rw [List.length_append]
  omega

theorem uint (h : Within limit e) (w n : Nat) : Within limit (e.uint w n) := h.raw _

theorem versioned (h : Within limit e) (version compatible : Nat) (encode : Encoder → Encoder) :
    Within limit (e.versioned version compatible encode) := by
  unfold Encoder.versioned
  split
  · exact ⟨h.same, h.length⟩
  split
  · exact ⟨h.same, h.length⟩
  · exact (((h.uint 1 _).uint 1 _).uint 4 _).raw _

end Within

/-- `write` appends `value` to an encoder with this limit, or fails for want of room or because a
length in it is too large. -/
structure Writes (limit : Nat) (write : Encoder → Encoder) (short : Prop) (value : List UInt8) :
    Prop where
  keeps : ∀ e : Encoder, e.error.isSome → (write e).error.isSome
  fits : ∀ bytes : List UInt8, short → bytes.length + value.length ≤ limit →
    write ⟨bytes, limit, none⟩ = ⟨bytes ++ value, limit, none⟩
  fails : ∀ bytes : List UInt8, bytes.length ≤ limit →
    ¬ (short ∧ bytes.length + value.length ≤ limit) → (write ⟨bytes, limit, none⟩).error.isSome

namespace Writes

variable {limit : Nat} {write after : Encoder → Encoder} {short short' : Prop}
  {value more : List UInt8}

theorem nothing (limit : Nat) : Writes limit (fun e => e) True [] where
  keeps _ failed := failed
  fits bytes _ _ := by rw [List.append_nil]
  fails bytes within full := absurd ⟨trivial, within⟩ full

theorem comp (h : Writes limit write short value) (k : Writes limit after short' more) :
    Writes limit (fun e => after (write e)) (short ∧ short') (value ++ more) where
  keeps e failed := k.keeps _ (h.keeps e failed)
  fits bytes fine room := by
    rw [List.length_append] at room
    rw [h.fits bytes fine.1 (by omega), k.fits _ fine.2 (by rw [List.length_append]; omega),
      List.append_assoc]
  fails bytes within full := by
    rw [List.length_append] at full
    by_cases room : short ∧ bytes.length + value.length ≤ limit
    · rw [h.fits bytes room.1 room.2]
      refine k.fails _ (by rw [List.length_append]; exact room.2) fun fine => full ?_
      rw [List.length_append] at fine
      exact ⟨⟨room.1, fine.1⟩, by omega⟩
    · exact k.keeps _ (h.fails bytes within room)

theorem congr (h : Writes limit write short value) (same : short ↔ short') :
    Writes limit write short' value :=
  propext same ▸ h

/-- Below the limit of the lengths there is no other condition. -/
theorem below (h : Writes limit write short value) (sure : value.length ≤ limit → short) :
    Writes limit write True value where
  keeps := h.keeps
  fits bytes _ room := h.fits bytes (sure (by omega)) room
  fails bytes within full := h.fails bytes within fun fine => full ⟨trivial, fine.2⟩

/-- A loop that writes one value after the other. -/
theorem foldl {α : Type*} {write : Encoder → α → Encoder} {short : α → Prop}
    {out : α → List UInt8} (each : ∀ a, Writes limit (write · a) (short a) (out a)) (values : List α) :
    Writes limit (fun e => values.foldl write e) (∀ a ∈ values, short a) (values.flatMap out) := by
  induction values with
  | nil => exact (nothing limit).congr (by simp)
  | cons a values ih => exact ((each a).comp ih).congr List.forall_mem_cons.symm

theorem ofRaw (limit : Nat) (value : List UInt8) :
    Writes limit (fun e => e.raw value) True value where
  keeps e failed := by
    rw [raw_eq, if_pos failed]
    exact failed
  fits bytes _ room := raw_fits bytes value limit room
  fails bytes within full := by
    have noRoom : value.length > limit - bytes.length := by
      by_contra room
      exact full ⟨trivial, by omega⟩
    simp [raw_eq, noRoom]

theorem ofUint (limit w n : Nat) : Writes limit (fun e => e.uint w n) True (leBytes w n) :=
  ofRaw limit _

theorem ofSint (limit w : Nat) (z : Int) :
    Writes limit (fun e => e.sint w z) True (leBytes w (twos w z)) :=
  ofRaw limit _

theorem ofBlob (limit : Nat) (value : List UInt8) :
    Writes limit (fun e => e.blob value) (value.length ≤ u32Max) (blobBytes value) := by
  have both := (ofUint limit 4 value.length).comp (ofRaw limit value)
  by_cases small : value.length ≤ u32Max
  · have same : (fun e : Encoder => e.blob value) = fun e => (e.uint 4 value.length).raw value := by
      funext e
      rw [blob, tryFrom, if_pos small]
      rfl
    rw [same]
    exact both.congr (by simp [small])
  · have long : ∀ e : Encoder, (e.blob value).error.isSome := by
      intro e
      rw [blob, tryFrom, if_neg small]
      rfl
    exact ⟨fun e _ => long e, fun bytes fine => absurd fine small, fun _ _ _ => long _⟩

theorem finish_eq_ok (h : Writes limit write short value) {bytes : List UInt8} :
    (write (new limit)).finish = .ok bytes ↔ bytes = value ∧ short ∧ value.length ≤ limit := by
  by_cases room : short ∧ value.length ≤ limit
  · have written := h.fits [] room.1 (by simpa using room.2)
    rw [show new limit = ⟨[], limit, none⟩ from rfl, written]
    simp [finish, room, eq_comm]
  have failed := h.fails [] (Nat.zero_le _) (by simpa using room)
  rw [show new limit = ⟨[], limit, none⟩ from rfl]
  constructor
  · intro ok
    rw [(Encoder.finish_eq_ok ok).1] at failed
    cases failed
  · exact fun fits => absurd fits.2 room

theorem keeps_versioned (version compatible : Nat) (body : Encoder → Encoder) (e : Encoder)
    (failed : e.error.isSome) : (e.versioned version compatible body).error.isSome := by
  unfold versioned
  split
  · rfl
  rename_i payload _
  split
  · rfl
  rename_i length _
  have parts := (((ofUint 0 1 version).comp (ofUint 0 1 compatible)).comp
    (ofUint 0 4 length)).comp (ofRaw 0 payload)
  exact parts.keeps e failed

/-- A record is written as its header and its body, which has a limit of its own. -/
theorem ofVersioned (version compatible : Nat) (h : Writes (min limit u32Max) write short value) :
    Writes limit (fun e => e.versioned version compatible write) (short ∧ value.length ≤ u32Max)
      (leBytes 1 version ++ leBytes 1 compatible ++ leBytes 4 value.length ++ value) := by
  have parts := (((ofUint limit 1 version).comp (ofUint limit 1 compatible)).comp
    (ofUint limit 4 value.length)).comp (ofRaw limit value)
  by_cases room : short ∧ value.length ≤ min limit u32Max
  · -- the body can be encoded, and the record is written in four parts
    have body := h.finish_eq_ok.mpr ⟨rfl, room⟩
    have small := room.2.trans (Nat.min_le_right ..)
    have same : ∀ bytes, (⟨bytes, limit, none⟩ : Encoder).versioned version compatible write
        = (((Encoder.uint ⟨bytes, limit, none⟩ 1 version).uint 1 compatible).uint 4
            value.length).raw value := by
      intro bytes
      simp only [versioned, body, tryFrom, if_pos small, u8, u32]
    refine ⟨keeps_versioned version compatible write, fun bytes _ fits => ?_,
      fun bytes within full => ?_⟩
    · rw [same]
      exact parts.fits bytes (by simp) fits
    · rw [same]
      exact parts.fails bytes within fun fine => full ⟨⟨room.1, small⟩, fine.2⟩
  · have failed : ∀ bytes,
        ((⟨bytes, limit, none⟩ : Encoder).versioned version compatible write).error.isSome := by
      intro bytes
      unfold versioned
      dsimp only
      split
      · rfl
      next payload finished => exact absurd (h.finish_eq_ok.mp finished).2 room
    refine ⟨keeps_versioned version compatible write, fun bytes fine fits => ?_,
      fun bytes _ _ => failed bytes⟩
    rw [List.length_append] at fits
    exact absurd ⟨fine.1, Nat.le_min.mpr ⟨by omega, fine.2⟩⟩ room

end Writes

end RadosRs.Wire.Encoder
