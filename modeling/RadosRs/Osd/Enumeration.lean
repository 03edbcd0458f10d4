import RadosRs.Osd.HObject
import RadosRs.Wire.Reading
import RadosRs.Wire.Writing

/-!
# Cursors on the wire

A place in the order of objects is handed to the caller as bytes, in at most
`cursorMaxBytes` of them.  `marshalCursor_eq_ok` says when that works: what the
fields of fixed size leave is shared by the key, the name and the name space.
What was marshalled can be read back (`unmarshalCursor_marshalCursor`).
-/

namespace RadosRs.Osd

open Bytes Fixed Fallible Wire

def cursorMaxBytes : Nat := 1024

structure ListEntry where
  nameSpace : List UInt8
  object : List UInt8
  locator : List UInt8
  deriving DecidableEq, Repr

structure ListPage where
  next : HObject
  entries : List ListEntry
  deriving DecidableEq, Repr

def marshalCursor (cursor : HObject) : Except WireError (List UInt8) :=
  (encodeHobject (Encoder.new cursorMaxBytes) cursor).finish

def unmarshalCursor (data : List UInt8) : Except WireError HObject := do
  let (cursor, decoder) ← decodeHobject (Decoder.new data cursorMaxBytes)
  if decoder.remaining != 0 then throw .malformed
  return cursor

namespace HObject

/-- The body of the record of an object. -/
def payload (object : HObject) : List UInt8 :=
  (leBytes 4 object.key.length ++ object.key) ++ (leBytes 4 object.object.length ++ object.object)
    ++ leBytes 8 object.snapshot.toNat ++ leBytes 4 object.hash.toNat
    ++ leBytes 1 object.max.toNat ++ (leBytes 4 object.nameSpace.length ++ object.nameSpace)
    ++ leBytes 8 (twos 8 object.pool.toInt)

/-- The record of an object. -/
def bytes (object : HObject) : List UInt8 :=
  leBytes 1 4 ++ leBytes 1 3 ++ leBytes 4 object.payload.length ++ object.payload

/-- How many bytes the fields of variable size have. -/
def size (object : HObject) : Nat :=
  object.key.length + object.object.length + object.nameSpace.length

theorem length_payload (object : HObject) : object.payload.length = 33 + object.size := by
  simp [payload, size]
  omega

theorem length_bytes (object : HObject) : object.bytes.length = 39 + object.size := by
  simp [bytes, length_payload]
  omega

end HObject

theorem writes_encodeHobject {limit : Nat} (small : limit ≤ u32Max) (object : HObject) :
    Encoder.Writes limit (encodeHobject · object) True object.bytes := by
  have body := ((((((Encoder.Writes.ofBlob (min limit u32Max) object.key).comp
    (.ofBlob _ object.object)).comp (.ofUint _ 8 object.snapshot.toNat)).comp
    (.ofUint _ 4 object.hash.toNat)).comp (.ofUint _ 1 object.max.toNat)).comp
    (.ofBlob _ object.nameSpace)).comp (.ofSint _ 8 object.pool.toInt)
  refine (Encoder.Writes.ofVersioned 4 3 body).below fun fits => ?_
  have sizes : 39 + object.size ≤ limit := object.length_bytes ▸ fits
  have length : object.payload.length ≤ u32Max := by
    rw [object.length_payload]
    omega
  unfold HObject.size at sizes
  exact ⟨⟨⟨⟨⟨⟨⟨by omega, by omega⟩, trivial⟩, trivial⟩, trivial⟩, by omega⟩, trivial⟩, length⟩

variable {cursor : HObject}

/-- A cursor can be marshalled if and only if it fits. -/
theorem marshalCursor_eq_ok {data : List UInt8} :
    marshalCursor cursor = .ok data ↔ data = cursor.bytes ∧ cursor.size ≤ 985 := by
  have small : cursorMaxBytes ≤ u32Max := by decide
  rw [marshalCursor, (writes_encodeHobject small cursor).finish_eq_ok, cursor.length_bytes,
    cursorMaxBytes]
  exact and_congr_right fun _ => by rw [true_and]; omega

theorem int64_ofTwos (value : Int64) :
    Int64.ofInt (ofTwos 8 (twos 8 value.toInt % 256 ^ 8)) = value := by
  rw [Nat.mod_eq_of_lt (twos_lt 8 _),
    ofTwos_twos (by decide) value.le_toInt value.toInt_lt, Int64.ofInt_toInt]

theorem decodeHobjectFields_payload {maxBytes : Nat} (object : HObject)
    (fits : object.payload.length ≤ u32Max) (short : object.payload.length ≤ maxBytes) :
    decodeHobjectFields 4 (.new object.payload maxBytes)
      = (object, .between object.payload [] maxBytes) := by
  have sizes := object.length_payload
  unfold HObject.size at sizes
  have key := fun used rest => Decoder.blob_between used rest maxBytes object.key
    (by omega) (by omega)
  have name := fun used rest => Decoder.blob_between used rest maxBytes object.object
    (by omega) (by omega)
  have space := fun used rest => Decoder.blob_between used rest maxBytes object.nameSpace
    (by omega) (by omega)
  have snapshot : object.snapshot.toNat % 256 ^ 8 = object.snapshot.toNat :=
    Nat.mod_eq_of_lt object.snapshot.toNat_lt
  have hash : object.hash.toNat % 256 ^ 4 = object.hash.toNat :=
    Nat.mod_eq_of_lt object.hash.toNat_lt
  have pool := fun used => Decoder.sint_between used [] maxBytes 8 (twos 8 object.pool.toInt)
  simp only [List.append_nil] at pool
  simp only [decodeHobjectFields, HObject.payload, Decoder.new_eq_between, List.append_assoc, key,
    name, space, Decoder.u64, Decoder.u32, Decoder.i64, Decoder.uint_between, pool,
    Decoder.bool_between, ge_iff_le, Nat.le_refl, if_true, snapshot, hash, int64_ofTwos,
    UInt64.ofNat_toNat, UInt32.ofNat_toNat, List.nil_append]

theorem decodeHobject_between {maxBytes : Nat} (object : HObject)
    (fits : object.payload.length ≤ u32Max) (short : object.payload.length ≤ maxBytes)
    (used rest : List UInt8) :
    decodeHobject (.between used (object.bytes ++ rest) maxBytes)
      = .ok (object, .between (used ++ object.bytes) rest maxBytes) := by
  have record := Decoder.versioned_between used rest maxBytes object.payload
    (by decide : 4 < 256) (by decide : 3 ≤ 4) (by decide) fits short
  simp only [decodeHobject, HObject.bytes, List.append_assoc, record, Decoder.finish_between,
    decodeHobjectFields_payload object fits short, Decoder.remaining_between]
  rfl

theorem unmarshalCursor_bytes (fits : cursor.size ≤ 985) :
    unmarshalCursor cursor.bytes = .ok cursor := by
  have length := cursor.length_payload
  have small : cursorMaxBytes ≤ u32Max := by decide
  have short : cursor.payload.length ≤ cursorMaxBytes := by
    unfold cursorMaxBytes
    omega
  have decoded := decodeHobject_between cursor (short.trans small) short [] []
  rw [List.append_nil] at decoded
  rw [unmarshalCursor, Decoder.new_eq_between, decoded]
  simp [bind, Except.bind, pure, Except.pure]

end RadosRs.Osd
