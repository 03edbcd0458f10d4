import RadosRs.Wire.Codec

/-!
# Reading what was written

A decoder over bytes that an encoder wrote gives the values back in the order
they were written.  `between used rest` is the decoder that has read `used` and
has `rest` ahead of it, and there is one equation for each kind of field: if the
field is the first thing ahead, reading gives its value and moves it behind.

`Took` goes the other way and says which bytes a decoder has taken, in terms of
the values it gave.
-/

namespace RadosRs.Wire

open Bytes Fixed

namespace Decoder

/-- The decoder that has read `used` and has `rest` ahead of it. -/
def between (used rest : List UInt8) (maxBytes : Nat) : Decoder :=
  ⟨used ++ rest, used.length, maxBytes, none⟩

variable (used rest : List UInt8) (maxBytes : Nat)

theorem new_eq_between : new rest maxBytes = between [] rest maxBytes := rfl

@[simp] theorem remaining_between : (between used rest maxBytes).remaining = rest.length := by
  simp [remaining, between]

@[simp] theorem finish_between : (between used rest maxBytes).finish = .ok () := rfl

@[simp] theorem error_between : (between used rest maxBytes).error = none := rfl

@[simp] theorem maxBytes_between : (between used rest maxBytes).maxBytes = maxBytes := rfl

variable (value : List UInt8)

theorem take_between {length : Nat} (h : value.length = length) :
    (between used (value ++ rest) maxBytes).take length
      = (value, between (used ++ value) rest maxBytes) := by
  subst h
  simp [take, between]

theorem raw_between {length : Nat} (h : value.length = length) :
    (between used (value ++ rest) maxBytes).raw length
      = (value, between (used ++ value) rest maxBytes) :=
  take_between used rest maxBytes value h

theorem uint_between (w n : Nat) :
    (between used (leBytes w n ++ rest) maxBytes).uint w
      = (n % 256 ^ w, between (used ++ leBytes w n) rest maxBytes) := by
  simp only [uint, take_between used rest maxBytes _ (length_leBytes w n), ofLeBytes_leBytes]

theorem sint_between (w n : Nat) :
    (between used (leBytes w n ++ rest) maxBytes).sint w
      = (ofTwos w (n % 256 ^ w), between (used ++ leBytes w n) rest maxBytes) := by
  simp only [sint, uint_between]

theorem blob_between (fits : value.length ≤ u32Max) (short : value.length ≤ maxBytes) :
    (between used (leBytes 4 value.length ++ (value ++ rest)) maxBytes).blob
      = (value, between (used ++ leBytes 4 value.length ++ value) rest maxBytes) := by
  have width : value.length % 256 ^ 4 = value.length :=
    Nat.mod_eq_of_lt (by unfold u32Max at fits; omega)
  simp only [blob, u32, uint_between, width, error_between, maxBytes_between, Option.isSome_none,
    Bool.false_eq_true, if_false, if_neg (Nat.not_lt.mpr short)]
  exact raw_between _ rest maxBytes value rfl

theorem bool_between (value : Bool) :
    (between used (leBytes 1 value.toNat ++ rest) maxBytes).bool
      = (value, between (used ++ leBytes 1 value.toNat) rest maxBytes) := by
  simp only [bool, u8, uint_between]
  cases value <;> rfl

theorem versioned_between {version compatible localVersion : Nat} (byte : version < 256)
    (readable : compatible ≤ localVersion) (known : localVersion < 256)
    (fits : value.length ≤ u32Max) (short : value.length ≤ maxBytes) :
    (between used
        (leBytes 1 version ++ (leBytes 1 compatible ++ (leBytes 4 value.length ++ (value ++ rest))))
        maxBytes).versioned localVersion
      = ((version, new value maxBytes),
          between (used ++ leBytes 1 version ++ leBytes 1 compatible ++ leBytes 4 value.length
            ++ value) rest maxBytes) := by
  have width : value.length % 256 ^ 4 = value.length :=
    Nat.mod_eq_of_lt (by unfold u32Max at fits; omega)
  have byte' : version % 256 ^ 1 = version := Nat.mod_eq_of_lt (by omega)
  have readable' : compatible % 256 ^ 1 = compatible := Nat.mod_eq_of_lt (by omega)
  simp only [versioned, u8, u32, uint_between, width, byte', readable', error_between,
    maxBytes_between, Option.isSome_none, Bool.false_eq_true, if_false,
    if_neg (Nat.not_lt.mpr readable), if_neg (Nat.not_lt.mpr short),
    take_between _ rest maxBytes value rfl]

/-! ## What was taken -/

/-- What is ahead of a decoder. -/
def ahead (d : Decoder) : List UInt8 := d.bytes.drop d.offset

theorem length_ahead (d : Decoder) : d.ahead.length = d.remaining := List.length_drop

/-- `d'` comes from `d` by taking the bytes, unless it has failed. -/
structure Took (d d' : Decoder) (bytes : List UInt8) : Prop where
  unfailed : d'.error = none → d.error = none
  taken : d'.error = none → d.ahead = bytes ++ d'.ahead

/-- A read that gives as many bytes as were asked for, unless it fails. -/
theorem length_take {d : Decoder} {w : Nat} (ok : (d.take w).2.error = none) :
    (d.take w).1.length = w := by
  unfold Decoder.take at ok ⊢
  split at ok
  · cases ok
  rename_i room
  simp only [Bool.or_eq_true, decide_eq_true_eq, not_or, Nat.not_lt] at room
  rw [if_neg (by simpa using room), List.length_take, List.length_drop]
  exact Nat.min_eq_left room.2

namespace Took

variable {d d' d'' : Decoder} {bytes more : List UInt8} {w : Nat}

theorem refl (d : Decoder) : Took d d [] := ⟨fun h => h, fun _ => rfl⟩

theorem trans (h : Took d d' bytes) (k : Took d' d'' more) : Took d d'' (bytes ++ more) where
  unfailed ok := h.unfailed (k.unfailed ok)
  taken ok := by rw [h.taken (k.unfailed ok), k.taken ok, List.append_assoc]

/-- A decoder that has failed has taken whatever one likes. -/
theorem failed {error : WireError} (h : d'.error = some error) : Took d d' bytes := by
  refine ⟨fun ok => ?_, fun ok => ?_⟩ <;>
  · rw [h] at ok
    cases ok

theorem take (d : Decoder) (w : Nat) : Took d (d.take w).2 (d.take w).1 := by
  unfold Decoder.take
  split
  · exact failed rfl
  rename_i room
  simp only [Bool.or_eq_true, not_or, Bool.not_eq_true, Option.isSome_eq_false_iff,
    Option.isNone_iff_eq_none] at room
  refine ⟨fun _ => room.1, fun _ => ?_⟩
  unfold ahead
  dsimp only
  rw [← List.drop_drop, List.take_append_drop]

theorem raw (d : Decoder) (w : Nat) : Took d (d.raw w).2 (d.raw w).1 := take d w

theorem uint (d : Decoder) (w : Nat) : Took d (d.uint w).2 (leBytes w (d.uint w).1) := by
  refine ⟨(take d w).unfailed, fun ok => ?_⟩
  have value : leBytes w (d.uint w).1 = (d.take w).1 := by
    have same := leBytes_ofLeBytes (d.take w).1
    rwa [length_take ok] at same
  rw [value]
  exact (take d w).taken ok

theorem sint (d : Decoder) (w : Nat) : Took d (d.sint w).2 (leBytes w (d.uint w).1) := uint d w

theorem blob (d : Decoder) : Took d d.blob.2 (leBytes 4 d.blob.1.length ++ d.blob.1) := by
  have length : Took d d.u32.2 (leBytes 4 d.u32.1) := uint d 4
  unfold Decoder.blob
  dsimp only
  split_ifs with bad long
  · obtain ⟨error, known⟩ := Option.isSome_iff_exists.mp bad
    exact failed known
  · exact failed rfl
  refine ⟨fun ok => length.unfailed ((raw _ _).unfailed ok), fun ok => ?_⟩
  have size : (d.u32.2.raw d.u32.1).1.length = d.u32.1 := length_take ok
  rw [size]
  exact (length.trans (raw _ _)).taken ok

/-- A record is its header and its body, which another decoder gets. -/
theorem versioned (d : Decoder) (localVersion : Nat)
    (ok : (d.versioned localVersion).2.error = none) :
    ∃ compatible payload limit, compatible ≤ localVersion ∧ payload.length < 256 ^ 4 ∧
      (d.versioned localVersion).1 = (d.u8.1, new payload limit) ∧
      Took d (d.versioned localVersion).2
        (leBytes 1 d.u8.1 ++ leBytes 1 compatible ++ leBytes 4 payload.length ++ payload) := by
  have header : Took d d.u8.2.u8.2.u32.2
      (leBytes 1 d.u8.1 ++ leBytes 1 d.u8.2.u8.1 ++ leBytes 4 d.u8.2.u8.2.u32.1) :=
    ((uint d 1).trans (uint _ 1)).trans (uint _ 4)
  have width : d.u8.2.u8.2.u32.1 < 256 ^ 4 := Decoder.uint_lt _ 4
  unfold Decoder.versioned at ok ⊢
  dsimp only at ok ⊢
  split_ifs at ok ⊢ with bad newer long
  · obtain ⟨error, known⟩ := Option.isSome_iff_exists.mp bad
    rw [known] at ok
    cases ok
  have size : (d.u8.2.u8.2.u32.2.take d.u8.2.u8.2.u32.1).1.length = d.u8.2.u8.2.u32.1 :=
    length_take ok
  refine ⟨d.u8.2.u8.1, _, _, Nat.not_lt.mp newer, size.trans_lt width, rfl, ?_⟩
  rw [size]
  exact header.trans (take _ _)

/-- A decoder that has come to the end has taken everything. -/
theorem whole {rest : List UInt8} {maxBytes : Nat} (h : Took (new rest maxBytes) d bytes)
    (ok : d.error = none) (done : d.remaining = 0) : rest = bytes := by
  have taken := h.taken ok
  rw [List.length_eq_zero_iff.mp (d.length_ahead.trans done), List.append_nil] at taken
  exact taken

end Took

end Decoder

end RadosRs.Wire
