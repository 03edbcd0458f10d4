import RadosRs.Wire.Codec

/-!
# OSD operations

An operation of an OSD request has a code, flags and the bytes it sends along.
On the wire it is a descriptor of 38 bytes; the bytes of all operations of a
request follow in its data part.  `withFlags` wraps an operation to give it
flags of its own.

The descriptor is written by three functions that each know some of the
operations.  The last one panics on an operation that an earlier one should have
written, and on a wrapper inside a wrapper, because only one is taken off.  A
panic is `none` here.
-/

namespace RadosRs.Osd

open Bytes Fixed Wire

inductive Operation where
  | read (offset length : Nat)
  | sparseRead (offset length : Nat)
  | checksum (offset length chunk kind : Nat) (seed : List UInt8)
  | stat
  | assertVersion (version : Nat)
  | compareExtent (offset : Nat) (data : List UInt8)
  | getXattr (name : List UInt8)
  | getXattrs
  | setXattr (name value : List UInt8)
  | removeXattr (name : List UInt8)
  | omapGetValues (data : List UInt8)
  | omapGetHeader
  | omapGetValuesByKeys (data : List UInt8)
  | omapCompare (data : List UInt8)
  | omapSetValues (data : List UInt8)
  | omapSetHeader (data : List UInt8)
  | omapClear
  | omapRemoveKeys (data : List UInt8)
  | omapRemoveRange (data : List UInt8)
  | call (classLength methodLength inputLength : Nat) (data : List UInt8) (mutation : Bool)
  | watch (cookie version operation generation timeout : Nat)
  | notify (cookie : Nat) (data : List UInt8)
  | notifyAck (cookie : Nat) (data : List UInt8)
  | listWatchers
  | pgnList (cursor : List UInt8) (cursorHash count startEpoch : Nat)
  | scrubList (data : List UInt8)
  | create (exclusive : Bool)
  | write (offset : Nat) (data : List UInt8)
  | writeFull (data : List UInt8)
  | append (data : List UInt8)
  | rollback (snapshot : Nat)
  | writeSame (offset length : Nat) (pattern : List UInt8)
  | allocationHint (expectedObjectSize expectedWriteSize : Nat)
  | copyFrom (sourceSnapshot sourceVersion : Nat) (source : List UInt8)
  | copyFrom2 (sourceSnapshot sourceVersion : Nat) (source : List UInt8)
  | truncate (size : Nat)
  | zero (offset length : Nat)
  | remove
  | withFlags (operation : Operation) (flags : Nat)
  deriving DecidableEq, Repr

def opFlagExclusive : Nat := 0x0001
def opFlagFailOk : Nat := 0x0002

namespace Operation

def code : Operation → Nat
  | .read .. => 0x1201
  | .sparseRead .. => 0x1205
  | .checksum .. => 0x121f
  | .stat => 0x1202
  | .notify .. => 0x1206
  | .notifyAck .. => 0x1207
  | .assertVersion _ => 0x1208
  | .listWatchers => 0x1209
  | .compareExtent .. => 0x1220
  | .getXattr _ => 0x1301
  | .getXattrs => 0x1302
  | .setXattr .. => 0x2301
  | .removeXattr _ => 0x2304
  | .omapGetValues _ => 0x1212
  | .omapGetHeader => 0x1213
  | .omapGetValuesByKeys _ => 0x1214
  | .omapCompare _ => 0x1219
  | .omapSetValues _ => 0x2215
  | .omapSetHeader _ => 0x2216
  | .omapClear => 0x2217
  | .omapRemoveKeys _ => 0x2218
  | .omapRemoveRange _ => 0x222c
  | .call .. => 0x1401
  | .watch .. => 0x220f
  | .pgnList .. => 0x1505
  | .scrubList _ => 0x1507
  | .create _ => 0x220d
  | .write .. => 0x2201
  | .writeFull _ => 0x2202
  | .append _ => 0x2206
  | .rollback _ => 0x220e
  | .writeSame .. => 0x2226
  | .allocationHint .. => 0x2223
  | .copyFrom .. => 0x221a
  | .copyFrom2 .. => 0x222d
  | .truncate _ => 0x2203
  | .zero .. => 0x2204
  | .remove => 0x2205
  | .withFlags operation _ => operation.code

/-- Whether it writes.  A class call says so itself; otherwise the code does. -/
def isMutation : Operation → Bool
  | .withFlags operation _ => operation.isMutation
  | .call _ _ _ _ mutation => mutation
  | operation => operation.code &&& 0x2000 != 0

def routeHash : Operation → Option Nat
  | .pgnList _ cursorHash _ _ => some cursorHash
  | .withFlags operation _ => operation.routeHash
  | _ => none

/-- The bytes it sends along.  The source's `append_data` appends them. -/
def data : Operation → List UInt8
  | .write _ data | .writeFull data | .append data | .checksum _ _ _ _ data
  | .writeSame _ _ data | .copyFrom _ _ data | .copyFrom2 _ _ data | .compareExtent _ data
  | .getXattr data | .removeXattr data | .omapGetValues data | .omapGetValuesByKeys data
  | .omapCompare data | .omapSetValues data | .omapSetHeader data | .omapRemoveKeys data
  | .omapRemoveRange data | .call _ _ _ data _ | .notify _ data | .notifyAck _ data
  | .pgnList data _ _ _ | .scrubList data => data
  | .setXattr name value => name ++ value
  | .withFlags operation _ => operation.data
  | _ => []

/-- How many bytes it sends along, with a match of its own.  The sum saturates. -/
def dataLen : Operation → Nat
  | .setXattr name value => min (name.length + value.length) u64Max
  | .withFlags operation _ => operation.dataLen
  | .write _ data | .writeFull data | .append data | .checksum _ _ _ _ data
  | .writeSame _ _ data | .copyFrom _ _ data | .copyFrom2 _ _ data | .compareExtent _ data
  | .getXattr data | .removeXattr data | .omapGetValues data | .omapGetValuesByKeys data
  | .omapCompare data | .omapSetValues data | .omapSetHeader data | .omapRemoveKeys data
  | .omapRemoveRange data | .call _ _ _ data _ | .notify _ data | .notifyAck _ data
  | .pgnList data _ _ _ | .scrubList data => data.length
  | _ => 0

def flags : Operation → Nat
  | .create true => opFlagExclusive
  | .allocationHint .. => opFlagFailOk
  | .withFlags operation flags => operation.flags ||| flags
  | _ => 0

end Operation

/-! ## Descriptors -/

/-- A length as 32 bits, or the largest value if it does not fit. -/
def lengthU32 (length : Nat) : Nat := min length u32Max

def zeros (count : Nat) : List UInt8 := List.replicate count 0

def unwrappedOperation : Operation → Operation
  | .withFlags operation _ => operation
  | operation => operation

def encodeSpecialOperation (encoder : Encoder) : Operation → Option Encoder
  | .sparseRead offset length =>
    some ((((encoder.u64 offset).u64 length).u64 0).u32 0)
  | .checksum offset length chunk kind _ =>
    some (((((encoder.u64 offset).u64 length).u32 chunk).u8 kind).raw (zeros 7))
  | .rollback snapshot => some ((encoder.u64 snapshot).raw (zeros 20))
  | .writeSame offset length pattern =>
    some ((((encoder.u64 offset).u64 length).u64 pattern.length).u32 0)
  | .allocationHint expectedObjectSize expectedWriteSize =>
    some ((((encoder.u64 expectedObjectSize).u64 expectedWriteSize).u32 0).raw (zeros 8))
  | .copyFrom sourceSnapshot sourceVersion _ | .copyFrom2 sourceSnapshot sourceVersion _ =>
    some (((((encoder.u64 sourceSnapshot).u64 sourceVersion).u8 0).u32 0).raw (zeros 7))
  | _ => none

def encodeAuxiliaryOperation (encoder : Encoder) : Operation → Option Encoder
  | .getXattr name | .removeXattr name =>
    some (((encoder.u32 (lengthU32 name.length)).u32 0).raw (zeros 20))
  | .getXattrs => some (encoder.raw (zeros 28))
  | .setXattr name value =>
    some (((encoder.u32 (lengthU32 name.length)).u32 (lengthU32 value.length)).raw (zeros 20))
  | .call classLength methodLength inputLength _ _ =>
    some (((((encoder.u8 classLength).u8 methodLength).u8 0).u32 inputLength).raw (zeros 21))
  | _ => none

/-- The remaining operations.  The source panics on any other. -/
def encodeRemainingOperation (encoder : Encoder) : Operation → Option Encoder
  | .assertVersion version => some (((encoder.u64 0).u64 version).raw (zeros 12))
  | .read offset length | .zero offset length =>
    some (((encoder.u64 offset).u64 length).raw (zeros 12))
  | .write offset data | .compareExtent offset data =>
    some (((encoder.u64 offset).u64 data.length).raw (zeros 12))
  | .writeFull data | .append data | .omapGetValues data | .omapGetValuesByKeys data
  | .omapCompare data | .omapSetValues data | .omapSetHeader data | .omapRemoveKeys data
  | .omapRemoveRange data => some (((encoder.u64 0).u64 data.length).raw (zeros 12))
  | .truncate size => some (((encoder.u64 size).u64 0).raw (zeros 12))
  | .watch cookie version operation generation timeout =>
    some ((((((encoder.u64 cookie).u64 version).u8 operation).u32 generation).u32 timeout).raw
      (zeros 3))
  | .notify cookie _ | .notifyAck cookie _ => some ((encoder.u64 cookie).raw (zeros 20))
  | .pgnList _ _ count startEpoch =>
    some (((encoder.u64 count).u32 startEpoch).raw (zeros 16))
  | .scrubList _ | .stat | .listWatchers | .omapGetHeader | .omapClear | .create _ | .remove =>
    some (((encoder.u64 0).u64 0).raw (zeros 12))
  | _ => none

/-- The descriptor of an operation, or nothing where the source panics. -/
def encodeOperation (encoder : Encoder) (operation : Operation) : Option Encoder :=
  let encoder := (encoder.u16 operation.code).u32 operation.flags
  let operation := unwrappedOperation operation
  ((encodeSpecialOperation encoder operation).orElse fun _ =>
    (encodeAuxiliaryOperation encoder operation).orElse fun _ =>
      encodeRemainingOperation encoder operation).map
    fun encoder => encoder.u32 (lengthU32 operation.dataLen)

/-! ## What a descriptor leaves behind -/

/-- A function that writes one part of a descriptor either always writes the same pieces
or never writes anything. -/
def Uniform (write : Encoder → Option Encoder) : Prop :=
  (∃ f, Encoder.Pieces f ∧ ∀ e, write e = some (f e)) ∨ ∀ e, write e = none

variable (operation : Operation)

theorem uniform_encodeSpecialOperation : Uniform (encodeSpecialOperation · operation) := by
  cases operation
  case sparseRead | checksum | rollback | writeSame | allocationHint | copyFrom | copyFrom2 =>
    refine .inl ⟨_, ?_, fun _ => rfl⟩
    repeat' first | exact .nothing | apply Encoder.Pieces.raw
  all_goals exact .inr fun _ => rfl

theorem uniform_encodeAuxiliaryOperation : Uniform (encodeAuxiliaryOperation · operation) := by
  cases operation
  case getXattr | getXattrs | setXattr | removeXattr | call =>
    refine .inl ⟨_, ?_, fun _ => rfl⟩
    repeat' first | exact .nothing | apply Encoder.Pieces.raw
  all_goals exact .inr fun _ => rfl

theorem uniform_encodeRemainingOperation : Uniform (encodeRemainingOperation · operation) := by
  cases operation
  case sparseRead | checksum | rollback | writeSame | allocationHint | copyFrom | copyFrom2
      | getXattr | getXattrs | setXattr | removeXattr | call | withFlags =>
    exact .inr fun _ => rfl
  all_goals
    refine .inl ⟨_, ?_, fun _ => rfl⟩
    repeat' first | exact .nothing | apply Encoder.Pieces.raw

theorem Uniform.orElse {write other : Encoder → Option Encoder} (h : Uniform write)
    (k : Uniform other) : Uniform fun e => (write e).orElse fun _ => other e := by
  rcases h with ⟨f, pieces, writes⟩ | never
  · exact .inl ⟨f, pieces, fun e => by simp [writes]⟩
  · simpa [never] using k

theorem uniform_encodeOperation : Uniform (encodeOperation · operation) := by
  have header : Encoder.Pieces fun e => (e.u16 operation.code).u32 operation.flags :=
    (Encoder.Pieces.nothing.raw _).raw _
  have body := (uniform_encodeSpecialOperation (unwrappedOperation operation)).orElse
    ((uniform_encodeAuxiliaryOperation (unwrappedOperation operation)).orElse
      (uniform_encodeRemainingOperation (unwrappedOperation operation)))
  rcases body with ⟨f, pieces, writes⟩ | never
  · have whole := (header.comp pieces).raw
      (leBytes 4 (lengthU32 (unwrappedOperation operation).dataLen))
    refine .inl ⟨_, whole, fun e => ?_⟩
    simp only [encodeOperation, writes, Option.map_some]
    rfl
  · exact .inr fun e => by simp only [encodeOperation, never, Option.map_none]

end RadosRs.Osd
