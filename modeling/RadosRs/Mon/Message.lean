import RadosRs.Maps.Types
import RadosRs.Msgr.Message

/-!
# Monitor requests and replies

Four kinds of requests go to a monitor: commands, file system statistics, pool
statistics and pool operations.  A request names the cluster by its identifier,
and all replies but those to commands do so as well.

The status of a command and the names of pools are texts, read with the `text` of
the limits.
-/

namespace RadosRs.Mon

open Bytes Fixed Wire
open Msgr hiding Limits
open Maps (Fsid Limits MapError)

def messageStatFs : Nat := 13
def messageStatFsReply : Nat := 14
def messagePoolOperationReply : Nat := 48
def messagePoolOperation : Nat := 49
def messageMonCommand : Nat := 50
def messageMonCommandReply : Nat := 51
def messageGetPoolStats : Nat := 58
def messageGetPoolStatsReply : Nat := 59

inductive MessageError where
  | wire (error : WireError)
  | map (error : MapError)
  | malformed (reason : String)
  | unsupportedVersion
  deriving DecidableEq, Repr

inductive PoolOperation where
  | createPool
  | deletePool
  | createSnapshot
  | deleteSnapshot
  | createSelfManaged
  | deleteSelfManaged
  deriving DecidableEq, Repr

def PoolOperation.code : PoolOperation → Nat
  | .createPool => 0x01
  | .deletePool => 0x02
  | .createSnapshot => 0x11
  | .deleteSnapshot => 0x12
  | .createSelfManaged => 0x21
  | .deleteSelfManaged => 0x22

structure StatFsReply where
  fsid : Fsid
  version : Nat
  kib : Nat
  kibUsed : Nat
  kibAvailable : Nat
  objects : Nat
  deriving DecidableEq, Repr

structure PoolStats where
  bytesUsed : Nat
  objects : Nat
  readBytes : Nat
  writeBytes : Nat
  deriving DecidableEq, Repr

/-- The pools are in the order of their names. -/
structure PoolStatsReply where
  fsid : Fsid
  version : Nat
  pools : List (List UInt8 × PoolStats)
  deriving DecidableEq, Repr

structure PoolOperationReply where
  fsid : Fsid
  result : Int
  epoch : Nat
  responseData : List UInt8
  deriving DecidableEq, Repr

structure CommandReply where
  version : Nat
  result : Int
  status : List UInt8
  command : List (List UInt8)
  data : List UInt8
  deriving DecidableEq, Repr

/-! ## Requests -/

def frontMessage (messageType version compatVersion : Nat) (front : Encoder) :
    Except MessageError Message :=
  match front.finish with
  | .error error => .error (.wire error)
  | .ok front =>
    if front.length > u32Max then .error (.wire .limitExceeded)
    else .ok {
      header := { messageType, version, compatVersion }
      lengths := { front := front.length }
      front }

/-- The version the sender has, its monitor and its session, as every request begins. -/
def encodePaxosHeader (encoder : Encoder) (haveVersion : Nat) : Encoder :=
  ((encoder.u64 haveVersion).i16 (-1)).u64 0

/-- What a pool operation may be asked for. -/
def PoolOperation.valid (operation : PoolOperation) (pool snapshot : Nat) (name : List UInt8) :
    Bool :=
  match operation with
  | .createPool => pool == 0 && snapshot == 0 && !name.isEmpty
  | .deletePool => pool != 0 && snapshot == 0 && name == [100, 101, 108, 101, 116, 101]
  | .createSnapshot | .deleteSnapshot => snapshot == 0 && !name.isEmpty
  | .createSelfManaged => snapshot == 0 && name.isEmpty
  | .deleteSelfManaged => snapshot != 0 && name.isEmpty

def encodePoolOperation (fsid : Fsid) (haveVersion pool : Nat) (operation : PoolOperation)
    (snapshot : Nat) (name : List UInt8) (maxBytes : Nat) : Except MessageError Message :=
  if !operation.valid pool snapshot name || maxBytes == 0 then .error (.wire .malformed)
  else
    let encoder := (encodePaxosHeader (.new maxBytes) haveVersion).raw fsid
    let encoder := ((encoder.u32 pool).u32 operation.code).u64 0
    frontMessage messagePoolOperation 4 2
      ((((encoder.u64 snapshot).blob name).u8 0).i16 0)

def encodeStatFs (fsid : Fsid) (haveVersion maxBytes : Nat) : Except MessageError Message :=
  if maxBytes == 0 then .error (.wire .limitExceeded)
  else
    frontMessage messageStatFs 2 1
      (((encodePaxosHeader (.new maxBytes) haveVersion).raw fsid).u8 0)

def encodeGetPoolStats (fsid : Fsid) (haveVersion : Nat) (pools : List (List UInt8))
    (maxBytes : Nat) : Except MessageError Message :=
  if maxBytes == 0 || pools.isEmpty || pools.length > u32Max then .error (.wire .limitExceeded)
  else if pools.any List.isEmpty then .error (.wire .malformed)
  else
    let encoder := (encodePaxosHeader (.new maxBytes) haveVersion).raw fsid
    frontMessage messageGetPoolStats 1 0 (pools.foldl Encoder.blob (encoder.u32 pools.length))

def encodeCommand (fsid : Fsid) (command : List (List UInt8)) (input : List UInt8)
    (maxBytes : Nat) : Except MessageError Message :=
  if maxBytes == 0 || input.length > maxBytes || command.length > u32Max then
    .error (.wire .limitExceeded)
  else
    let encoder := (encodePaxosHeader (.new maxBytes) 0).raw fsid
    match frontMessage messageMonCommand 1 0
        (command.foldl Encoder.blob (encoder.u32 command.length)) with
    | .error error => .error error
    | .ok message =>
      if input.length > u32Max then .error (.wire .limitExceeded)
      else .ok { message with lengths.data := input.length, data := input }

/-! ## Replies -/

/-- Fails with the decoder's error. -/
def finish (decoder : Decoder) : Except MessageError Unit := decoder.finish.mapError .wire

/-- Nothing is left to read. -/
def finishExact (decoder : Decoder) (name : String) : Except MessageError Unit := do
  finish decoder
  if decoder.remaining != 0 then throw (.malformed name)

def decodeFsid (decoder : Decoder) : Except MessageError (Fsid × Decoder) := do
  let (fsid, decoder) := decoder.raw 16
  if fsid.length != 16 then throw (.wire .malformed)
  return (fsid, decoder)

def decodePaxosHeader (decoder : Decoder) : Nat × Decoder :=
  let (version, decoder) := decoder.u64
  let (_, decoder) := decoder.i16
  let (_, decoder) := decoder.u64
  (version, decoder)

def validateFrontMessage (message : Message) (messageType maxBytes : Nat) :
    Except MessageError Unit := do
  if maxBytes == 0 || message.front.length > maxBytes then throw (.wire .limitExceeded)
  if message.header.messageType != messageType then throw (.malformed "message type")
  if message.front.length > u32Max then throw (.wire .limitExceeded)
  if !message.middle.isEmpty || !message.data.isEmpty
      || message.lengths != { front := message.front.length } then
    throw (.malformed "segment lengths")

def validateMessagePayload (message : Message) (messageType maxBytes : Nat) :
    Except MessageError Unit := do
  if maxBytes == 0 || message.front.length > maxBytes || message.data.length > maxBytes then
    throw (.wire .limitExceeded)
  if message.header.messageType != messageType then throw (.malformed "message type")
  if message.front.length > u32Max || message.data.length > u32Max then
    throw (.wire .limitExceeded)
  if !message.middle.isEmpty
      || message.lengths != { front := message.front.length, data := message.data.length } then
    throw (.malformed "segment lengths")

def decodeStatFsReply (message : Message) (maxBytes : Nat) : Except MessageError StatFsReply := do
  validateFrontMessage message messageStatFsReply maxBytes
  if message.header.version < 1 || message.header.compatVersion > 1 then
    throw .unsupportedVersion
  let (fsid, decoder) ← decodeFsid (.new message.front maxBytes)
  let (version, decoder) := decoder.u64
  let (kib, decoder) := decoder.u64
  let (kibUsed, decoder) := decoder.u64
  let (kibAvailable, decoder) := decoder.u64
  let (objects, decoder) := decoder.u64
  finishExact decoder "statfs reply"
  return ⟨fsid, version, kib, kibUsed, kibAvailable, objects⟩

def decodePoolOperationReply (message : Message) (maxBytes : Nat) :
    Except MessageError PoolOperationReply := do
  validateFrontMessage message messagePoolOperationReply maxBytes
  if message.header.compatVersion > 1 then throw .unsupportedVersion
  let (_, decoder) := decodePaxosHeader (.new message.front maxBytes)
  let (fsid, decoder) ← decodeFsid decoder
  let (result, decoder) := decoder.i32
  let (epoch, decoder) := decoder.u32
  let (hasResponseData, decoder) := decoder.u8
  if hasResponseData > 1 then throw (.malformed "pool operation response-data flag")
  let (responseData, decoder) := if hasResponseData == 1 then decoder.blob else ([], decoder)
  finishExact decoder "pool operation reply"
  return ⟨fsid, result, epoch, responseData⟩

/-- Reads `count` texts. -/
def decodeTexts (text : List UInt8 → List UInt8) : Nat → Decoder → List (List UInt8) × Decoder
  | 0, decoder => ([], decoder)
  | count + 1, decoder =>
    let (bytes, decoder) := decoder.blob
    let (rest, decoder) := decodeTexts text count decoder
    (text bytes :: rest, decoder)

def decodeCommandReply (message : Message) (limits : Limits) :
    Except MessageError CommandReply := do
  if limits.maxCollectionEntries == 0 then throw (.wire .limitExceeded)
  validateMessagePayload message messageMonCommandReply limits.maxBytes
  let (version, decoder) := decodePaxosHeader (.new message.front limits.maxBytes)
  let (result, decoder) := decoder.i32
  let (status, decoder) := decoder.blob
  let (count, decoder) := decoder.u32
  finish decoder
  if count > limits.maxCollectionEntries || count > decoder.remaining / 4 then
    throw (.wire .limitExceeded)
  let (command, decoder) := decodeTexts limits.text count decoder
  finishExact decoder "monitor command acknowledgement"
  return ⟨version, result, limits.text status, command, message.data⟩

/-! ### Pool statistics -/

/-- The fields of a pool's statistics that are used. -/
structure RawPoolStats where
  numBytes : Int
  objects : Int
  readKib : Int
  writeKib : Int
  hitSetBytes : Int
  omapBytes : Int
  allocated : Int
  omapAllocated : Int

/-- The values of a sum of object statistics, from the given place on; four of them are
narrower. -/
def decodeSum : List Nat → Decoder → List Int × Decoder
  | [], decoder => ([], decoder)
  | index :: indices, decoder =>
    let (value, decoder) :=
      if 28 ≤ index && index ≤ 31 then decoder.i32 else decoder.i64
    let (rest, decoder) := decodeSum indices decoder
    (value :: rest, decoder)

/-- A record of a version that has to be the given one. -/
def decodeVersion (decoder : Decoder) (version : Nat) :
    Except MessageError (Decoder × Decoder) := do
  let ((actual, payload), decoder) := decoder.versioned version
  finish decoder
  if actual != version then throw .unsupportedVersion
  return (payload, decoder)

/-- Nothing is left to read and nothing has failed. -/
def exhausted (decoder : Decoder) (name : String) : Except MessageError Unit :=
  if decoder.error.isSome || decoder.remaining != 0 then .error (.malformed name) else .ok ()

def decodeObjectStatSum (decoder : Decoder) (name : String) :
    Except MessageError (List Int × Decoder) := do
  let (sum, decoder) ← decodeVersion decoder 20
  let (values, sum) := decodeSum (List.range 40) sum
  exhausted sum name
  return (values, decoder)

def skipCategories : Nat → Decoder → Except MessageError Decoder
  | 0, decoder => .ok decoder
  | count + 1, decoder => do
      let (_, decoder) ← decodeObjectStatSum decoder.blob.2 "object stat sum"
      skipCategories count decoder

def decodePoolStats (decoder : Decoder) (maxEntries : Nat) :
    Except MessageError (RawPoolStats × Decoder) := do
  let (payload, decoder) ← decodeVersion decoder 7
  let (collection, payload) ← decodeVersion payload 2
  let (values, collection) ← decodeObjectStatSum collection "pool stats sum"
  let (categories, collection) := collection.u32
  if categories > maxEntries then throw (.wire .limitExceeded)
  let collection ← skipCategories categories collection
  exhausted collection "pool stats categories"
  let (_, payload) := payload.i64
  let (_, payload) := payload.i64
  let (_, payload) := payload.i32
  let (_, payload) := payload.i32
  let (store, payload) ← decodeVersion payload 1
  let (_, store) := store.u64
  let (_, store) := store.u64
  let (_, store) := store.u64
  let (allocated, store) := store.i64
  let (_, store) := store.i64
  let (_, store) := store.i64
  let (_, store) := store.i64
  let (_, store) := store.i64
  let (omapAllocated, store) := store.i64
  let (_, store) := store.i64
  exhausted store "pool stats store"
  let (_, payload) := payload.i32
  exhausted payload "pool stats payload"
  let value (index : Nat) : Int := values.getD index 0
  return (⟨value 0, value 1, value 8, value 10, value 22, value 37, allocated, omapAllocated⟩,
    decoder)

/-- Reads `count` entries; a name must not come twice. -/
def decodePoolEntries (limits : Limits) : Nat → List (List UInt8 × RawPoolStats) → Decoder →
    Except MessageError (List (List UInt8 × RawPoolStats) × Decoder)
  | 0, entries, decoder => .ok (entries, decoder)
  | count + 1, entries, decoder => do
      let (bytes, decoder) := decoder.blob
      let name := limits.text bytes
      if entries.any (·.1 == name) then throw (.malformed "duplicate pool stats entry")
      let (stats, decoder) ← decodePoolStats decoder limits.maxCollectionEntries
      decodePoolEntries limits count (entries ++ [(name, stats)]) decoder

def addU64Checked (values : List Int) : Except MessageError Nat :=
  okOr (.wire .limitExceeded)
    (values.foldlM (fun total value => checkedAdd u64Max total value.toNat) 0)

/-- The statistics of one pool as they are reported. -/
def RawPoolStats.report (stats : RawPoolStats) (perPool : Bool) : Except MessageError PoolStats := do
  let values := [stats.numBytes, stats.objects, stats.readKib, stats.writeKib, stats.hitSetBytes,
    stats.omapBytes, stats.allocated, stats.omapAllocated]
  if values.any (· < 0) then throw (.malformed "negative pool stats field")
  let bytesUsed ←
    if perPool then addU64Checked [stats.allocated, stats.omapAllocated]
    else addU64Checked [stats.numBytes, stats.hitSetBytes, stats.omapBytes]
  if stats.readKib.toNat > u64Max / 1024 || stats.writeKib.toNat > u64Max / 1024 then
    throw (.wire .limitExceeded)
  return ⟨bytesUsed, stats.objects.toNat, stats.readKib.toNat * 1024, stats.writeKib.toNat * 1024⟩

def decodeGetPoolStatsReply (message : Message) (limits : Limits) :
    Except MessageError PoolStatsReply := do
  if limits.maxPools == 0 || limits.maxCollectionEntries == 0 then throw (.wire .limitExceeded)
  validateFrontMessage message messageGetPoolStatsReply limits.maxBytes
  if message.header.version == 0 || message.header.version > 2
      || message.header.compatVersion > 1 then
    throw .unsupportedVersion
  let (version, decoder) := decodePaxosHeader (.new message.front limits.maxBytes)
  let (fsid, decoder) ← decodeFsid decoder
  let (count, decoder) := decoder.u32
  if count > limits.maxPools then throw (.wire .limitExceeded)
  let (raw, decoder) ← decodePoolEntries limits count [] decoder
  let (perPool, decoder) :=
    if message.header.version ≥ 2 then decoder.bool else (false, decoder)
  finishExact decoder "get pool stats reply"
  let pools ← (raw.mergeSort fun left right => left.1 ≤ right.1).mapM fun (name, stats) => do
    return (name, ← stats.report perPool)
  return ⟨fsid, version, pools⟩

end RadosRs.Mon
