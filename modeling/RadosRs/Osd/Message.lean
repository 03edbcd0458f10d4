import RadosRs.Maps.Types
import RadosRs.Msgr.Message
import RadosRs.Osd.Operation

/-!
# OSD requests and replies

`encodeRequest` writes an OSD request.  Its request id stands at a fixed place of
the front: the client's global id, the transaction id and the client's
incarnation.  An OSD that sees the same request id again does not execute the
request again.  `decodeReply` reads what an OSD answers.

Encoding panics where `encodeOperation` does, and is `none` then.
-/

namespace RadosRs.Osd

open Bytes Fixed Wire Msgr
open Maps (Pg)

def messageOsdOp : Nat := 42
def messageOsdOpReply : Nat := 43

def flagOnDisk : Nat := 0x0004
def flagRetry : Nat := 0x0008
def flagRead : Nat := 0x0010
def flagWrite : Nat := 0x0020
def flagPgOp : Nat := 0x0400
def flagIgnoreCache : Nat := 0x8000
def flagIgnoreOverlay : Nat := 0x20000
def flagRedirected : Nat := 0x200000
def flagReturnVector : Nat := 0x04000000

def operationDescriptorSize : Nat := 38

/-- Bounds on one message. -/
structure MessageLimits where
  maxBytes : Nat
  maxOperations : Nat
  deriving DecidableEq, Repr

inductive MessageError where
  | wire (error : WireError)
  | malformed
  | unsupportedVersion
  deriving DecidableEq, Repr

structure Request where
  mapEpoch : Nat
  pg : Pg
  shard : Int
  sharded : Bool
  objectHash : Nat
  poolId : Int
  object : List UInt8
  locator : List UInt8
  nameSpace : List UInt8
  snapshot : Nat
  snapshotSequence : Nat
  writeSnapshots : List Nat
  transactionId : Nat
  clientGlobalId : UInt64
  clientIncarnation : Int
  retry : Int
  flags : Nat
  features : Nat
  operations : List Operation
  deriving DecidableEq, Repr

structure OperationResult where
  operation : Nat
  code : Int
  data : List UInt8
  deriving DecidableEq, Repr

structure Redirect where
  pool : Int
  locator : List UInt8
  nameSpace : List UInt8
  object : List UInt8
  deriving DecidableEq, Repr

structure Reply where
  object : List UInt8
  pg : Pg
  flags : Int
  result : Int
  mapEpoch : Nat
  retry : Int
  version : Nat
  redirect : Option Redirect
  operations : List OperationResult
  deriving DecidableEq, Repr

/-! ## Requests -/

def encodePg (encoder : Encoder) (pg : Pg) : Encoder :=
  (((encoder.u8 1).u64 pg.pool).u32 pg.seed).i32 pg.preferred

def encodeLocator (encoder : Encoder) (pool : Int) (locator nameSpace : List UInt8) : Encoder :=
  encoder.versioned 6 3 fun payload =>
    ((((payload.i64 pool).i32 (-1)).blob locator).blob nameSpace).i64 (-1)

/-- Snapshots are newest first, and none is newer than the sequence. -/
def validSnapshotContext (sequence : Nat) (snapshots : List Nat) : Bool :=
  snapshots.zipIdx.all fun (snapshot, index) =>
    snapshot ≤ sequence
      && (index == 0 || (snapshots[index - 1]?).any fun previous => snapshot < previous)

/-- The front up to the request id: placement, hash, epoch and flags. -/
def encodePreamble (request : Request) (encoder : Encoder) : Encoder :=
  let mutation := request.operations.any Operation.isMutation
  let encoder := encoder.versioned 1 1 fun spg =>
    (encodePg spg request.pg).i8 (if request.sharded then request.shard else -1)
  let encoder := encoder.u32 request.objectHash
  let encoder := encoder.u32 request.mapEpoch
  let operationFlags := if mutation then flagWrite ||| flagOnDisk else flagRead
  encoder.u32 (operationFlags ||| request.flags)

def encodeRequestId (request : Request) (encoder : Encoder) : Encoder :=
  encoder.versioned 2 2 fun requestId =>
    (((requestId.u8 8).u64 request.clientGlobalId.toNat).u64 request.transactionId).i32
      request.clientIncarnation

/-- Between the request id and the operations. -/
def encodeObject (request : Request) (encoder : Encoder) : Encoder :=
  let encoder := encoder.raw (zeros 24)
  let encoder := encoder.i32 request.clientIncarnation
  let encoder := encoder.raw (zeros 8)
  let encoder := encodeLocator encoder request.poolId request.locator request.nameSpace
  let encoder := encoder.blob request.object
  encoder.u16 request.operations.length

/-- After the operations. -/
def encodeTrailer (request : Request) (encoder : Encoder) : Encoder :=
  let encoder := encoder.u64 request.snapshot
  let encoder := encoder.u64 request.snapshotSequence
  let encoder := encoder.u32 request.writeSnapshots.length
  let encoder := request.writeSnapshots.foldl Encoder.u64 encoder
  let encoder := encoder.i32 request.retry
  encoder.u64 request.features

/-- The front of a request, or nothing where the source panics. -/
def encodeFront (request : Request) (limits : MessageLimits) : Option Encoder :=
  let encoder := encodeRequestId request (encodePreamble request (.new limits.maxBytes))
  (request.operations.foldlM encodeOperation (encodeObject request encoder)).map
    (encodeTrailer request)

/-- The message around an encoded front. -/
def requestMessage (request : Request) (front : List UInt8) : Message :=
  let data := request.operations.flatMap Operation.data
  { header :=
      { transactionId := request.transactionId, messageType := messageOsdOp, version := 8
        compatVersion := 3 }
    lengths := { front := front.length, data := data.length }
    front
    data }

/-- The front and the data have to fit the limit, and their lengths 32 bits. -/
def finishRequest (request : Request) (limits : MessageLimits) (dataLength : Nat)
    (front : Encoder) : Except MessageError Message :=
  match front.finish with
  | .error error => .error (.wire error)
  | .ok front =>
    let message := requestMessage request front
    if front.length + dataLength > limits.maxBytes || message.lengths.front > u32Max
        || message.lengths.data > u32Max then .error (.wire .limitExceeded)
    else .ok message

def encodeRequest (request : Request) (limits : MessageLimits) :
    Option (Except MessageError Message) :=
  if limits.maxBytes == 0 || limits.maxOperations == 0 || request.poolId < 0
      || request.operations.isEmpty || request.operations.length > limits.maxOperations
      || request.operations.length > 2 ^ 16 - 1 || request.writeSnapshots.length > u32Max then
    some (.error (.wire .limitExceeded))
  else if !validSnapshotContext request.snapshotSequence request.writeSnapshots then
    some (.error (.wire .malformed))
  else
    match request.operations.foldlM
        (fun total operation => checkedAdd u64Max total operation.dataLen) 0 with
    | none => some (.error (.wire .limitExceeded))
    | some dataLength => (encodeFront request limits).map (finishRequest request limits dataLength)

/-! ### The request id -/

/-- The client's global id, the transaction id and the client's incarnation, as they stand in
the front of a request. -/
def requestId (message : Message) : List UInt8 := (message.front.drop 43).take 20

variable (request : Request)

theorem appends_encodePreamble :
    ∃ value, value.length = 36 ∧ Encoder.Appends (encodePreamble request) value := by
  have spg := (((Encoder.Appends.nothing.uint 1 1).uint 8 request.pg.pool).uint 4
    request.pg.seed).sint 4 request.pg.preferred
  have written := (((Encoder.Appends.nothing.versioned 1 1
    (spg.sint 1 (if request.sharded then request.shard else -1))).uint 4
      request.objectHash).uint 4 request.mapEpoch).uint 4
      ((if request.operations.any Operation.isMutation then flagWrite ||| flagOnDisk
        else flagRead) ||| request.flags)
  exact ⟨_, by simp, written⟩

theorem appends_encodeRequestId :
    ∃ value, value.length = 7 ∧ Encoder.Appends (encodeRequestId request)
      (value ++ (leBytes 8 request.clientGlobalId.toNat ++ leBytes 8 request.transactionId
        ++ leBytes 4 (twos 4 request.clientIncarnation))) := by
  have body := (((Encoder.Appends.nothing.uint 1 8).uint 8 request.clientGlobalId.toNat).uint 8
    request.transactionId).sint 4 request.clientIncarnation
  have written := Encoder.Appends.nothing.versioned 2 2 body
  refine ⟨leBytes 1 2 ++ leBytes 1 2 ++ leBytes 4 21 ++ leBytes 1 8, by simp, ?_⟩
  simp only [List.nil_append, List.length_append, length_leBytes, List.append_assoc] at written ⊢
  exact written

/-- Later writes of a request leave what is written. -/
theorem prefix_encodeObject (e : Encoder) (ok : (encodeObject request e).error = none) :
    e.error = none ∧ e.bytes <+: (encodeObject request e).bytes := by
  have locator := ((((Encoder.Appends.nothing.sint 8 request.poolId).sint 4 (-1)).blob
    request.locator).blob request.nameSpace).sint 8 (-1)
  have written := (((((Encoder.Appends.nothing.raw (zeros 24)).sint 4
    request.clientIncarnation).raw (zeros 8)).versioned 6 3 locator).blob request.object).uint 2
      request.operations.length
  obtain ⟨unfailed, bytes⟩ := written e ok
  exact ⟨unfailed, _, bytes.symm⟩

variable {e f : Encoder}

theorem prefix_encodeOperation (operation : Operation) (h : encodeOperation e operation = some f)
    (ok : f.error = none) : e.error = none ∧ e.bytes <+: f.bytes := by
  rcases uniform_encodeOperation operation with ⟨write, pieces, writes⟩ | never
  · obtain ⟨value, written⟩ := pieces.appends
    have same : write e = f := Option.some.inj ((writes e).symm.trans h)
    obtain ⟨unfailed, bytes⟩ := written e (same ▸ ok)
    exact ⟨unfailed, value, same ▸ bytes.symm⟩
  · cases h.symm.trans (never e)

theorem prefix_encodeOperations (operations : List Operation)
    (h : operations.foldlM encodeOperation e = some f) (ok : f.error = none) :
    e.error = none ∧ e.bytes <+: f.bytes := by
  induction operations generalizing e with
  | nil =>
    cases h
    exact ⟨ok, List.prefix_rfl⟩
  | cons operation operations ih =>
    obtain ⟨middle, first, rest⟩ := Option.bind_eq_some_iff.mp h
    obtain ⟨unfailed, later⟩ := ih rest
    obtain ⟨unfailed, earlier⟩ := prefix_encodeOperation operation first unfailed
    exact ⟨unfailed, earlier.trans later⟩

theorem pieces_encodeTrailer : Encoder.Pieces (encodeTrailer request) :=
  (((((Encoder.Pieces.nothing.raw _).raw _).raw _).comp
    (.foldl (leBytes 8) request.writeSnapshots)).raw _).raw _

variable {message : Message} {limits : MessageLimits}

theorem encodeRequest_eq_ok {request : Request}
    (h : encodeRequest request limits = some (.ok message)) :
    ∃ dataLength front, encodeFront request limits = some front ∧
      finishRequest request limits dataLength front = .ok message := by
  unfold encodeRequest at h
  split at h
  · cases h
  split at h
  · cases h
  · split at h
    · cases h
    next dataLength _ =>
      obtain ⟨front, encoded, finished⟩ := Option.map_eq_some_iff.mp h
      exact ⟨dataLength, front, encoded, finished⟩

variable {front : Encoder} {dataLength : Nat}

theorem finishRequest_eq_ok {request : Request}
    (h : finishRequest request limits dataLength front = .ok message) :
    front.error = none ∧ front.bytes = message.front := by
  unfold finishRequest at h
  split at h
  · cases h
  rename_i bytes finished
  dsimp only at h
  split at h
  · cases h
  · cases h
    exact Encoder.finish_eq_ok finished

/-- Every encoded request carries its request id at the same place. -/
theorem requestId_encodeRequest {request : Request}
    (h : encodeRequest request limits = some (.ok message)) :
    requestId message =
      leBytes 8 request.clientGlobalId.toNat ++ leBytes 8 request.transactionId
        ++ leBytes 4 (twos 4 request.clientIncarnation) := by
  obtain ⟨dataLength, front, encoded, finished⟩ := encodeRequest_eq_ok h
  obtain ⟨unfailed, bytes⟩ := finishRequest_eq_ok finished
  obtain ⟨operations, body, rfl⟩ := Option.map_eq_some_iff.mp encoded
  obtain ⟨trailer, trailerAppends⟩ := (pieces_encodeTrailer request).appends
  obtain ⟨unfailed, trailerBytes⟩ := trailerAppends operations unfailed
  obtain ⟨unfailed, operationsBytes⟩ := prefix_encodeOperations _ body unfailed
  obtain ⟨unfailed, objectBytes⟩ := prefix_encodeObject request _ unfailed
  obtain ⟨head, headLength, headAppends⟩ := appends_encodeRequestId request
  obtain ⟨unfailed, headBytes⟩ := headAppends _ unfailed
  obtain ⟨preamble, preambleLength, preambleAppends⟩ := appends_encodePreamble request
  obtain ⟨-, preambleBytes⟩ := preambleAppends _ unfailed
  obtain ⟨rest, frontBytes⟩ := (objectBytes.trans operationsBytes).trans
    (⟨trailer, trailerBytes.symm⟩ : operations.bytes <+: _)
  have before : (preamble ++ head).length = 43 := by simp [preambleLength, headLength]
  rw [requestId, ← bytes, ← frontBytes, headBytes, preambleBytes, Encoder.new, List.nil_append,
    ← List.append_assoc preamble, List.append_assoc (preamble ++ head), List.drop_left' before,
    List.take_left' (by simp)]

/-! ### Requests of the same shape -/

/-- Two requests that differ only in fields of a fixed width. -/
structure Request.Alike (r r' : Request) : Prop where
  poolId : r.poolId = r'.poolId
  object : r.object = r'.object
  locator : r.locator = r'.locator
  nameSpace : r.nameSpace = r'.nameSpace
  snapshotSequence : r.snapshotSequence = r'.snapshotSequence
  writeSnapshots : r.writeSnapshots = r'.writeSnapshots
  operations : r.operations = r'.operations

theorem alike_encodeOperations (operations : List Operation) {e' : Encoder}
    (h : operations.foldlM encodeOperation e = some f) (same : e.Alike e') :
    ∃ f', operations.foldlM encodeOperation e' = some f' ∧ f.Alike f' := by
  induction operations generalizing e e' with
  | nil =>
    cases h
    exact ⟨e', rfl, same⟩
  | cons operation operations ih =>
    obtain ⟨middle, first, rest⟩ := Option.bind_eq_some_iff.mp h
    rcases uniform_encodeOperation operation with ⟨write, pieces, writes⟩ | never
    · cases (writes e).symm.trans first
      obtain ⟨f', rest', alike⟩ := ih rest (pieces.alike same)
      exact ⟨f', Option.bind_eq_some_iff.mpr ⟨_, writes e', rest'⟩, alike⟩
    · cases first.symm.trans (never e)

namespace Request.Alike

variable {r r' : Request} {limits : MessageLimits}

theorem encodePreamble (e : Encoder) :
    (encodePreamble r e).Alike (encodePreamble r' e) :=
  (((Encoder.Alike.refl e).versioned 1 1 fun same =>
    ((((same.uint 1 _ _).uint 8 _ _).uint 4 _ _).sint 4 _ _).sint 1 _ _).uint 4 _ _).uint 4 _ _
    |>.uint 4 _ _

theorem encodeRequestId (same : e.Alike f) : (encodeRequestId r e).Alike (encodeRequestId r' f) :=
  same.versioned 2 2 fun same => (((same.uint 1 _ _).uint 8 _ _).uint 8 _ _).sint 4 _ _

theorem encodeObject (h : r.Alike r') (same : e.Alike f) :
    (encodeObject r e).Alike (encodeObject r' f) := by
  unfold Osd.encodeObject encodeLocator
  rw [h.object, h.locator, h.nameSpace]
  exact ((((same.raw rfl).sint 4 _ _).raw rfl).versioned 6 3 fun same =>
    ((((same.sint 8 _ _).sint 4 _ _).blob _).blob _).sint 8 _ _).blob _ |>.uint 2 _ _

theorem encodeTrailer (h : r.Alike r') (same : e.Alike f) :
    (encodeTrailer r e).Alike (encodeTrailer r' f) := by
  unfold Osd.encodeTrailer
  rw [h.writeSnapshots]
  have snapshots := (Encoder.Pieces.foldl (leBytes 8) r'.writeSnapshots).alike
    (((same.uint 8 r.snapshot r'.snapshot).uint 8 r.snapshotSequence r'.snapshotSequence).uint 4
      r'.writeSnapshots.length r'.writeSnapshots.length)
  exact (snapshots.sint 4 _ _).uint 8 _ _

theorem encodeFront (h : r.Alike r') (encoded : encodeFront r limits = some front) :
    ∃ front', Osd.encodeFront r' limits = some front' ∧ front.Alike front' := by
  obtain ⟨operations, body, rfl⟩ := Option.map_eq_some_iff.mp encoded
  rw [h.operations] at body
  obtain ⟨operations', body', same⟩ := alike_encodeOperations _ body
    (h.encodeObject (encodeRequestId (encodePreamble (.new limits.maxBytes))))
  exact ⟨_, Option.map_eq_some_iff.mpr ⟨operations', body', rfl⟩, h.encodeTrailer same⟩

theorem finishRequest (h : r.Alike r') {front' : Encoder} (same : front.Alike front')
    (finished : finishRequest r limits dataLength front = .ok message) :
    ∃ message', Osd.finishRequest r' limits dataLength front' = .ok message' := by
  unfold Osd.finishRequest at finished ⊢
  rcases same.finish with ⟨error, left, right⟩ | ⟨v, w, left, right, length⟩
  · rw [left] at finished
    cases finished
  rw [left] at finished
  rw [right]
  dsimp only [requestMessage] at finished ⊢
  rw [length, h.operations] at finished
  split at finished
  · cases finished
  next fits => exact ⟨_, if_neg fits⟩

/-- Whether a request can be encoded depends only on its shape. -/
theorem encodeRequest (h : r.Alike r') (encoded : encodeRequest r limits = some (.ok message)) :
    ∃ message', Osd.encodeRequest r' limits = some (.ok message') := by
  unfold Osd.encodeRequest at encoded ⊢
  rw [h.poolId, h.operations, h.writeSnapshots, h.snapshotSequence] at encoded
  split at encoded
  · cases encoded
  rename_i within
  rw [if_neg within]
  split at encoded
  · cases encoded
  rename_i context
  rw [if_neg context]
  split at encoded
  · cases encoded
  rename_i dataLength sum
  obtain ⟨front, written, finished⟩ := Option.map_eq_some_iff.mp encoded
  obtain ⟨front', written', same⟩ := h.encodeFront written
  obtain ⟨message', finished'⟩ := h.finishRequest same finished
  exact ⟨message', Option.map_eq_some_iff.mpr ⟨front', written', finished'⟩⟩

end Request.Alike

/-! ## Replies -/

/-- Fails with the decoder's error. -/
def finish (decoder : Decoder) : Except MessageError Unit := decoder.finish.mapError .wire

def decodePg (decoder : Decoder) : Except MessageError (Pg × Decoder) := do
  let (version, decoder) := decoder.u8
  if version != 1 then throw .unsupportedVersion
  let (pool, decoder) := decoder.u64
  let (seed, decoder) := decoder.u32
  let (preferred, decoder) := decoder.i32
  finish decoder
  return (⟨pool, seed, preferred⟩, decoder)

/-- The operation codes and data lengths of `count` descriptors. -/
def decodeDescriptors : Nat → Decoder → List (Nat × Nat) × Decoder
  | 0, decoder => ([], decoder)
  | count + 1, decoder =>
    let (operation, decoder) := decoder.u16
    let (_, decoder) := decoder.raw 32
    let (length, decoder) := decoder.u32
    let (rest, decoder) := decodeDescriptors count decoder
    ((operation, length) :: rest, decoder)

/-- The result codes of `count` operations. -/
def decodeCodes : Nat → Decoder → List Int × Decoder
  | 0, decoder => ([], decoder)
  | count + 1, decoder =>
    let (code, decoder) := decoder.i32
    let (rest, decoder) := decodeCodes count decoder
    (code :: rest, decoder)

def decodeRedirect (decoder : Decoder) : Except MessageError (Redirect × Decoder) := do
  let ((version, payload), decoder) := decoder.versioned 1
  finish decoder
  if version != 1 then throw .unsupportedVersion
  let ((locatorVersion, locator), payload) := payload.versioned 6
  finish payload
  if locatorVersion < 3 then throw .unsupportedVersion
  let (pool, locator) := locator.i64
  let (_, locator) := locator.i32
  let (key, locator) := locator.blob
  let (nameSpace, locator) := locator.blob
  let locator := if locatorVersion ≥ 6 then locator.i64.2 else locator
  finish locator
  if locator.remaining != 0 then throw .malformed
  let (object, payload) := payload.blob
  let (legacyLength, payload) := payload.u32
  if legacyLength > payload.remaining then throw .malformed
  let (_, payload) := payload.raw legacyLength
  finish payload
  if payload.remaining != 0 then throw .malformed
  return (⟨pool, key, nameSpace, object⟩, decoder)

/-- Deals out the data part to operations of the given lengths, from `offset` on. -/
def splitData (data : List UInt8) : Nat → List Nat → Except MessageError (List (List UInt8))
  | offset, [] => if offset != data.length then throw .malformed else return []
  | offset, length :: lengths => do
      if offset + length > data.length then throw .malformed
      let rest ← splitData data (offset + length) lengths
      return (data.drop offset).take length :: rest

def decodeReply (message : Message) (limits : MessageLimits) : Except MessageError Reply := do
  let total := message.front.length + message.middle.length + message.data.length
  if limits.maxBytes == 0 || limits.maxOperations == 0
      || message.header.messageType != messageOsdOpReply || message.header.version < 4
      || message.header.compatVersion > 8 || total > limits.maxBytes then
    throw .malformed
  let (object, decoder) := (Decoder.new message.front limits.maxBytes).blob
  let (pg, decoder) ← decodePg decoder
  let (flags, decoder) := decoder.i64
  let (result, decoder) := decoder.i32
  let (_, decoder) := decoder.raw 12
  let (mapEpoch, decoder) := decoder.u32
  let (count, decoder) := decoder.u32
  finish decoder
  if count > limits.maxOperations || count * operationDescriptorSize > decoder.remaining then
    throw (.wire .limitExceeded)
  let (descriptors, decoder) := decodeDescriptors count decoder
  let (retry, decoder) := decoder.i32
  let (codes, decoder) := decodeCodes count decoder
  let (_, decoder) := decoder.raw 12
  let (version, decoder) := decoder.u64
  if message.header.version == 6 then throw .unsupportedVersion
  let (redirected, decoder) := if message.header.version ≥ 7 then decoder.bool else (false, decoder)
  let (redirect, decoder) ←
    if redirected then do
      let (redirect, decoder) ← decodeRedirect decoder
      pure (some redirect, decoder)
    else pure (none, decoder)
  let decoder := if message.header.version ≥ 8 then (decoder.raw 24).2 else decoder
  finish decoder
  if decoder.remaining != 0 then throw .malformed
  let pieces ← splitData message.data 0 (descriptors.map (·.2))
  let operations := ((descriptors.zip codes).zip pieces).map fun ((descriptor, code), data) =>
    ⟨descriptor.1, code, data⟩
  return { object, pg, flags, result, mapEpoch, retry, version, redirect, operations }

end RadosRs.Osd
