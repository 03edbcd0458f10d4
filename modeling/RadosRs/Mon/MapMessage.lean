import RadosRs.Maps.Incremental
import RadosRs.Maps.MgrMap
import RadosRs.Mon.Message

/-!
# Messages with maps

A monitor sends the map of the monitors and the map of the managers as they are.  Maps
of the storage daemons come in batches: any number of whole maps and of incrementals,
each under its epoch, the epoch below which the monitor has none any more, and the
newest epoch it has.  Each map of a batch has to be of the cluster that the batch
names and of the epoch it stands under.

The epochs of a batch are the keys of a sorted map, and the maps are taken in the order
of their epochs.
-/

namespace RadosRs.Mon

open Wire Wire.Reader Fallible
open Msgr hiding Limits
open Maps
open Std (ExtTreeMap)

def messageMonMap : Nat := 4
def messageMonSubscribeAck : Nat := 16
def messageOsdMap : Nat := 41
def messageMgrMap : Nat := 0x704

instance : OfWire MessageError := ⟨.wire⟩

structure MessageLimits where
  maxBytes : Nat
  maxMaps : Nat
  deriving DecidableEq, Repr

structure SubscribeAck where
  intervalSeconds : Nat
  fsid : Fsid
  deriving DecidableEq, Repr

structure OsdMapBatch where
  fsid : Fsid
  incrementals : ExtTreeMap Nat (List UInt8)
  fullMaps : ExtTreeMap Nat (List UInt8)
  trimLowerBound : Nat
  newestMap : Nat
  deriving DecidableEq

structure DecodedOsdMapBatch where
  fsid : Fsid
  incrementals : List (Nat × OsdMapIncremental)
  fullMaps : List (Nat × OsdMap)
  trimLowerBound : Nat
  newestMap : Nat
  deriving DecidableEq

/-! ## Parts of a message -/

/-- The checks of a message, as a step of a function that may also panic. -/
def checked {ε α : Type} (x : Except ε α) : Run ε α := x.mapError .error

/-- A map that cannot be read makes the message one that cannot be read. -/
def ofMap {α : Type} (x : Run MapError α) : Run MessageError α := x.mapError (Fault.map .map)

def readFsid : Reader MessageError Fsid := do
  let fsid ← raw 16
  rejectIf (fsid.length ≠ 16) (.wire .malformed)
  return fsid

def readExact (name : String) : Reader MessageError Unit := do
  Reader.finish
  let left ← remaining
  rejectIf (left ≠ 0) (.malformed name)

def decodeMapBlobs (maximum : Nat) : Reader MessageError (ExtTreeMap Nat (List UInt8)) := do
  let count ← boundedCount maximum 8
  (List.range count).foldlM (fun values _ => do
    let epoch ← u32
    let value ← blob
    Reader.finish
    rejectIf (epoch ∈ values) (.malformed "duplicate osdmap epoch")
    return values.insert epoch value) ∅

/-- The newer version of a batch has one more field, which has to be zero. -/
def readBatch (version maxMaps : Nat) : Reader MessageError OsdMapBatch := do
  let fsid ← readFsid
  let incrementals ← decodeMapBlobs maxMaps
  let fullMaps ← decodeMapBlobs maxMaps
  let trimLowerBound ← u32
  let newestMap ← u32
  if version ≥ 4 then
    let extra ← u32
    rejectIf (extra ≠ 0) .unsupportedVersion
  readExact "osdmap"
  return { fsid, incrementals, fullMaps, trimLowerBound, newestMap }

/-! ## Messages -/

def decodeSubscribeAck (message : Message) (maxBytes : Nat) : Run MessageError SubscribeAck := do
  checked (validateFrontMessage message messageMonSubscribeAck maxBytes)
  let reader : Reader MessageError SubscribeAck := do
    let intervalSeconds ← u32
    let fsid ← readFsid
    readExact "subscribe acknowledgement"
    return { intervalSeconds, fsid }
  let (ack, _) ← reader (.new message.front maxBytes)
  return ack

def decodeMonmapMessage (message : Message) (limits : Limits) : Run MessageError MonMap := do
  checked (validateFrontMessage message messageMonMap limits.maxBytes)
  let reader : Reader MessageError (List UInt8) := do
    let encoded ← blob
    readExact "monmap"
    return encoded
  let (encoded, _) ← reader (.new message.front limits.maxBytes)
  ofMap (decodeMonmap encoded limits)

def decodeMgrmapMessage (message : Message) (limits : Limits) : Run MessageError MgrMap := do
  checked (validateFrontMessage message messageMgrMap limits.maxBytes)
  if message.header.version ≠ 1 ∨ message.header.compatVersion ≠ 1 then
    Fallible.fail .unsupportedVersion
  else ofMap (decodeMgrmap message.front limits)

def decodeOsdmapBatch (message : Message) (limits : MessageLimits) :
    Run MessageError OsdMapBatch := do
  if limits.maxBytes = 0 ∨ limits.maxMaps = 0 then Fallible.fail (.wire .limitExceeded)
  checked (validateFrontMessage message messageOsdMap limits.maxBytes)
  if message.header.version < 3 ∨ message.header.compatVersion > 4 then
    Fallible.fail .unsupportedVersion
  let (batch, _) ← readBatch message.header.version limits.maxMaps
    (.new message.front limits.maxBytes)
  return batch

def validateMapIdentity (expectedFsid : Fsid) (expectedEpoch : Nat) (fsid : Fsid) (epoch : Nat) :
    Run MessageError Unit :=
  if fsid ≠ expectedFsid then Fallible.fail (.map .fsidMismatch)
  else if epoch ≠ expectedEpoch then Fallible.fail (.map .invalidSequence)
  else .ok ()

def OsdMapBatch.decodeIncremental (batch : OsdMapBatch) (limits : Limits)
    (entry : Nat × List UInt8) : Run MessageError (Nat × OsdMapIncremental) := do
  let map ← ofMap (decodeOsdmapIncremental entry.2 limits)
  validateMapIdentity batch.fsid entry.1 map.fsid map.epoch
  return (entry.1, map)

def OsdMapBatch.decodeFull (batch : OsdMapBatch) (limits : Limits) (entry : Nat × List UInt8) :
    Run MessageError (Nat × OsdMap) := do
  let map ← ofMap (decodeOsdmap entry.2 limits)
  validateMapIdentity batch.fsid entry.1 map.fsid map.epoch
  return (entry.1, map)

def decodeOsdmapBatchMaps (batch : OsdMapBatch) (limits : Limits) :
    Run MessageError DecodedOsdMapBatch := do
  let incrementals ← batch.incrementals.toList.mapM (batch.decodeIncremental limits)
  let fullMaps ← batch.fullMaps.toList.mapM (batch.decodeFull limits)
  return {
    fsid := batch.fsid, incrementals, fullMaps, trimLowerBound := batch.trimLowerBound
    newestMap := batch.newestMap }

/-! ## What decoding ensures -/

/-- Every map of a batch belongs to the cluster and has the epoch it stands under. -/
structure DecodedOsdMapBatch.Genuine (maps : DecodedOsdMapBatch) : Prop where
  incrementals : ∀ entry ∈ maps.incrementals, entry.2.fsid = maps.fsid ∧ entry.2.epoch = entry.1
  fullMaps : ∀ entry ∈ maps.fullMaps, entry.2.fsid = maps.fsid ∧ entry.2.epoch = entry.1

theorem validateMapIdentity_eq_ok {expectedFsid fsid : Fsid} {expectedEpoch epoch : Nat} {u : Unit}
    (h : validateMapIdentity expectedFsid expectedEpoch fsid epoch = .ok u) :
    fsid = expectedFsid ∧ epoch = expectedEpoch := by
  unfold validateMapIdentity at h
  split at h
  · cases h
  rename_i cluster
  split at h
  · cases h
  next sequence => exact ⟨not_not.mp cluster, not_not.mp sequence⟩

theorem decodeOsdmapBatchMaps_genuine {batch : OsdMapBatch} {limits : Limits}
    {maps : DecodedOsdMapBatch} (h : decodeOsdmapBatchMaps batch limits = .ok maps) :
    maps.Genuine ∧ maps.fsid = batch.fsid := by
  obtain ⟨incrementals, first, h⟩ := bind_eq_ok.mp h
  obtain ⟨fullMaps, second, h⟩ := bind_eq_ok.mp h
  cases h
  refine ⟨⟨mapM_rule ?_ first, mapM_rule ?_ second⟩, rfl⟩
  · intro entry decoded one
    obtain ⟨map, -, one⟩ := bind_eq_ok.mp one
    obtain ⟨_, identity, one⟩ := bind_eq_ok.mp one
    cases one
    exact validateMapIdentity_eq_ok identity
  intro entry decoded one
  obtain ⟨map, -, one⟩ := bind_eq_ok.mp one
  obtain ⟨_, identity, one⟩ := bind_eq_ok.mp one
  cases one
  exact validateMapIdentity_eq_ok identity

end RadosRs.Mon
