import RadosRs.Maps.Pool
import RadosRs.Protocol.Address
import RadosRs.Wire.Crc

/-!
# The map of the storage daemons

An OSD map has the pools with their names, the state, weight and addresses of each
OSD, the bytes of the CRUSH map, and the tables that override what CRUSH computes
for a placement group.  It comes as a record in a wrapper with a checksum over all
that stands before it.

The pools and their names are two lists.  The second one enters the names into the
pools read before and into the table from names to ids.
-/

namespace RadosRs.Maps

open Wire Wire.Reader Fallible
open Msgr (EntityAddr)
open Protocol (decodeEntityAddrVec)
open Std (ExtTreeMap)

structure OsdRemap where
  source : Int
  target : Int
  deriving DecidableEq, Repr

structure OsdMap where
  fsid : Fsid
  epoch : Nat
  created : UTime
  modified : UTime
  pools : ExtTreeMap Int Pool
  nameToId : ExtTreeMap Text Int
  poolMax : Int
  flags : Nat
  maxOsd : Int
  osdState : List Nat
  osdWeight : List Nat
  clientAddresses : List (List EntityAddr)
  pgTemp : ExtTreeMap Pg (List Int)
  primaryTemp : ExtTreeMap Pg Int
  primaryAffinity : List Nat
  crushData : List UInt8
  erasureCodeProfiles : ExtTreeMap Text StringMap
  pgUpmap : ExtTreeMap Pg (List Int)
  pgUpmapItems : ExtTreeMap Pg (List OsdRemap)
  crushVersion : Nat
  newRemovedSnapshots : ExtTreeMap Int (List Interval)
  newPurgedSnapshots : ExtTreeMap Int (List Interval)
  lastUpChange : UTime
  lastInChange : UTime
  pgUpmapPrimaries : ExtTreeMap Pg Int
  crc : Nat := 0
  crcVerified : Bool := false
  appliedIncremental : Bool := false
  deriving DecidableEq

/-! ## Tables of the record -/

def decodePg : Reader MapError Pg := do
  let version ← u8
  rejectIf (version ≠ 1) (unsupported 1 1)
  let pool ← u64
  let seed ← u32
  let preferred ← i32
  finish
  return { pool, seed, preferred }

/-- A table with a number of values of some kind for each placement group. -/
def decodePgTable {ν : Type} (limits : Limits) (reason : String) (value : Reader MapError ν) :
    Reader MapError (List (Pg × ν)) := do
  let count ← boundedCount limits.maxPgMappings 21
  let entries ← decodeEntries reason count do
    let pg ← decodePg
    let value ← value
    return (pg, value)
  finish
  return entries

def decodePgVectorMap (limits : Limits) : Reader MapError (List (Pg × List Int)) :=
  decodePgTable limits "duplicate PG mapping" do
    let inner ← boundedCount limits.maxOsds 4
    times inner i32

def decodePgIntMap (limits : Limits) : Reader MapError (List (Pg × Int)) :=
  decodePgTable limits "duplicate PG mapping" i32

def decodeRemap : Reader MapError OsdRemap := do
  let source ← i32
  let target ← i32
  return { source, target }

def decodePgRemapItems (limits : Limits) : Reader MapError (List (Pg × List OsdRemap)) :=
  decodePgTable limits "duplicate PG remap" do
    let inner ← boundedCount limits.maxOsds 8
    times inner decodeRemap

def decodePoolIntervalMap (limits : Limits) : Reader MapError (List (Int × List Interval)) := do
  let count ← boundedCount limits.maxPools 12
  let entries ← decodeEntries "duplicate pool interval set" count do
    let id ← i64
    let values ← decodeIntervals limits.maxCollectionEntries
    return (id, values)
  finish
  return entries

def decodeAddressVector (limits : Limits) : Reader MapError (List (List EntityAddr)) := do
  let count ← boundedCount limits.maxOsds 5
  let values ← times count (decodeEntityAddrVec limits.maxAddresses)
  finish
  return values

/-! ## Pools and their names -/

/-- A pool under its id. -/
def decodePoolEntry (limits : Limits) : Reader MapError (Int × Pool) := do
  let id ← i64
  let pool ← decodePool limits
  return (id, { pool with id })

def decodePools (limits : Limits) (reason : String) : Reader MapError (List (Int × Pool)) := do
  let count ← boundedCount limits.maxPools 14
  decodeEntries reason count (decodePoolEntry limits)

/-- A name for a pool. -/
def decodePoolName (limits : Limits) : Reader MapError (Int × Text) := do
  let id ← i64
  let name ← decodeText limits
  return (id, name)

/-- The pools by id and the ids by name. -/
@[ext] structure PoolTables where
  pools : ExtTreeMap Int Pool
  nameToId : ExtTreeMap Text Int
  deriving DecidableEq

/-- Gives a pool a name that no pool has been given before. -/
def PoolTables.enter (tables : PoolTables) (entry : Int × Text) : Run MapError PoolTables :=
  match tables.pools[entry.1]? with
  | none => fail (.malformed "name for unknown pool")
  | some pool =>
    if entry.2 ∈ tables.nameToId then fail (.malformed "duplicate pool name")
    else .ok {
      pools := tables.pools.insert entry.1 { pool with name := entry.2 }
      nameToId := tables.nameToId.insert entry.2 entry.1 }

def decodePoolNames (limits : Limits) (pools : ExtTreeMap Int Pool) :
    Reader MapError PoolTables := do
  let count ← boundedCount limits.maxPools 12
  let tables ← turns (decodePoolName limits) PoolTables.enter count ⟨pools, ∅⟩
  rejectIf (tables.nameToId.size ≠ tables.pools.size) (.malformed "missing pool names")
  return tables

/-! ## The record -/

/-- What stands in front of the pools. -/
structure Header where
  fsid : Fsid
  epoch : Nat
  created : UTime
  modified : UTime
  deriving DecidableEq, Repr

def decodeHeader : Reader MapError Header := do
  let fsid ← decodeFsid
  let epoch ← u32
  let created ← decodeUtime
  let modified ← decodeUtime
  return { fsid, epoch, created, modified }

/-- Everything from the largest pool id on. -/
def decodeAfterNames (limits : Limits) (header : Header) (tables : PoolTables) :
    Reader MapError OsdMap := do
  let poolMax ← i32
  let flags ← u32
  let maxOsd ← i32
  let osdState ← decodeU32s limits.maxOsds
  let osdWeight ← decodeU32s limits.maxOsds
  let clientAddresses ← decodeAddressVector limits
  let pgTemp ← decodePgVectorMap limits
  let primaryTemp ← decodePgIntMap limits
  let primaryAffinity ← decodeU32s limits.maxOsds
  rejectIf (maxOsd < 0) (.malformed "inconsistent OSD vectors")
  rejectIf (maxOsd.toNat > limits.maxOsds ∨ osdState.length ≠ maxOsd.toNat
    ∨ osdWeight.length ≠ maxOsd.toNat ∨ clientAddresses.length ≠ maxOsd.toNat
    ∨ (primaryAffinity ≠ [] ∧ primaryAffinity.length ≠ maxOsd.toNat))
    (.malformed "inconsistent OSD vectors")
  let crushData ← blob
  finish
  let erasureCodeProfiles ← decodeNestedStringMap limits limits.maxCollectionEntries
  let pgUpmap ← decodePgVectorMap limits
  let pgUpmapItems ← decodePgRemapItems limits
  let crushVersion ← u32
  let newRemovedSnapshots ← decodePoolIntervalMap limits
  let newPurgedSnapshots ← decodePoolIntervalMap limits
  let lastUpChange ← decodeUtime
  let lastInChange ← decodeUtime
  let pgUpmapPrimaries ← decodePgIntMap limits
  finish
  return {
    fsid := header.fsid, epoch := header.epoch, created := header.created
    modified := header.modified, pools := tables.pools, nameToId := tables.nameToId
    poolMax, flags, maxOsd, osdState, osdWeight, clientAddresses
    pgTemp := .ofList pgTemp, primaryTemp := .ofList primaryTemp, primaryAffinity, crushData
    erasureCodeProfiles := .ofList erasureCodeProfiles, pgUpmap := .ofList pgUpmap
    pgUpmapItems := .ofList pgUpmapItems, crushVersion
    newRemovedSnapshots := .ofList newRemovedSnapshots
    newPurgedSnapshots := .ofList newPurgedSnapshots, lastUpChange, lastInChange
    pgUpmapPrimaries := .ofList pgUpmapPrimaries }

def decodeClient (limits : Limits) : Reader MapError OsdMap := do
  let header ← decodeHeader
  let pools ← decodePools limits "duplicate pool id"
  let tables ← decodePoolNames limits (.ofList pools)
  let result ← decodeAfterNames limits header tables
  finish
  return result

/-! ## The wrapper -/

def validateLimits (limits : Limits) : Run MapError Unit :=
  if limits.maxBytes = 0 ∨ limits.maxPools = 0 ∨ limits.maxOsds = 0 ∨ limits.maxAddresses = 0
      ∨ limits.maxPgMappings = 0 ∨ limits.maxCollectionEntries = 0 then
    fail (.wire .limitExceeded)
  else .ok ()

/-- A record of exactly one version, read with another decoder. -/
def decodeVersion {α : Type} (version : Nat) (body : Reader MapError α) : Reader MapError α := do
  let (actual, payload) ← versioned version
  finish
  rejectIf (actual < version) (unsupported version version)
  inside payload body

/-- The client's part, a part it does not look at, and the checksum. -/
def decodeWrapper (limits : Limits) : Reader MapError OsdMap := do
  let result ← decodeVersion 10 (decodeClient limits)
  skipVersioned 12
  let crc ← u32
  finish
  return { result with crc }

/-- The checksum that a map starts from. -/
def crcSeed : UInt32 := 0xffffffff

def decodeWhole (data : List UInt8) (limits : Limits) : Reader MapError OsdMap := do
  let result ← decodeVersion 8 (decodeWrapper limits)
  finish
  let left ← remaining
  rejectIf (left ≠ 0) (.malformed "trailing osdmap bytes")
  rejectIf (data.length < 10) (.wire .malformed)
  rejectIf ((crc32c crcSeed (data.take (data.length - 4))).toNat ≠ result.crc)
    (.malformed "osdmap CRC mismatch")
  return { result with crcVerified := true }

def decodeOsdmap (data : List UInt8) (limits : Limits) : Run MapError OsdMap := do
  validateLimits limits
  let (result, _) ← decodeWhole data limits (.new data limits.maxBytes)
  return result

/-! ## What decoding ensures -/

/-- There is one entry for each OSD in each vector; the affinities may be left out. -/
structure OsdMap.Sized (map : OsdMap) : Prop where
  state : (map.osdState.length : Int) = map.maxOsd
  weight : (map.osdWeight.length : Int) = map.maxOsd
  addresses : (map.clientAddresses.length : Int) = map.maxOsd
  affinity : map.primaryAffinity = [] ∨ (map.primaryAffinity.length : Int) = map.maxOsd

theorem gives_decodeAfterNames (limits : Limits) (header : Header) (tables : PoolTables) :
    Gives (decodeAfterNames limits header tables) fun map => map.Sized ∧ map.maxOsd < 2 ^ 31 := by
  refine .skip fun _ => .skip fun _ => .bind gives_i32 fun maxOsd range => ?_
  iterate 6 refine .skip fun _ => ?_
  refine .bind .rejectIf fun _ nonneg => .bind .rejectIf fun _ lengths => ?_
  iterate 6 refine .skip fun _ => ?_
  iterate 6 refine .skip fun _ => ?_
  refine .pure ⟨?_, range.2⟩
  simp only [not_or, not_and_or, not_not] at lengths
  obtain ⟨-, state, weight, addresses, affinity⟩ := lengths
  have number {length : Nat} (h : length = maxOsd.toNat) : (length : Int) = maxOsd := by omega
  exact ⟨number state, number weight, number addresses, affinity.imp_right number⟩

theorem gives_decodeVersion {α : Type} {version : Nat} {body : Reader MapError α} {P : α → Prop}
    (h : Gives body P) : Gives (decodeVersion version body) P :=
  .skip fun _ => .skip fun _ => .skip fun _ => .inside h

variable {data : List UInt8} {limits : Limits} {map : OsdMap}

/-- What the client's part promises holds of the map, if it is not about the checksum. -/
theorem decodeOsdmap_of_gives {P : OsdMap → Prop} (client : Gives (decodeClient limits) P)
    (frame : ∀ map crc verified, P map → P { map with crc, crcVerified := verified })
    (h : decodeOsdmap data limits = .ok map) : P map := by
  have wrapper : Gives (decodeWrapper limits) P :=
    .bind (gives_decodeVersion client) fun map ok => .skip fun _ => .skip fun _ => .skip fun _ =>
      .pure (frame map _ map.crcVerified ok)
  have whole : Gives (decodeWhole data limits) P :=
    .bind (gives_decodeVersion wrapper) fun map ok => .skip fun _ => .skip fun _ => .skip fun _ =>
      .skip fun _ => .skip fun _ => .pure (frame map map.crc _ ok)
  obtain ⟨_, -, h⟩ := bind_eq_ok.mp h
  obtain ⟨⟨result, rest⟩, read, h⟩ := bind_eq_ok.mp h
  cases h
  exact whole _ _ _ read

/-- A record that can be read to its end and has the right checksum is a map. -/
theorem decodeOsdmap_of_checksum (valid : validateLimits limits = .ok ())
    (read : decodeVersion 8 (decodeWrapper limits) (.new data limits.maxBytes) =
      .ok (map, ⟨data, data.length, limits.maxBytes, none⟩)) (long : 10 ≤ data.length)
    (checksum : crcNumeral (data.take (data.length - 4)) crcSeed.toNat = map.crc) :
    decodeOsdmap data limits = .ok { map with crcVerified := true } := by
  rw [← toNat_crc32c] at checksum
  generalize ends : Decoder.mk data data.length limits.maxBytes none = rest at read
  have finished : rest.finish = .ok () := by rw [← ends]; rfl
  have whole : rest.remaining = 0 := by rw [← ends]; exact Nat.sub_self _
  have parsed : decodeWhole data limits (.new data limits.maxBytes) =
      .ok ({ map with crcVerified := true }, rest) := by
    rw [decodeWhole, bind_of_ok read, bind_of_ok (finish_of_ok finished),
      bind_of_ok (show remaining rest = .ok (rest.remaining, rest) from rfl),
      bind_of_ok (rejectIf_of_not (by omega)), bind_of_ok (rejectIf_of_not (by omega)),
      bind_of_ok (rejectIf_of_not (not_not.mpr checksum))]
    rfl
  rw [decodeOsdmap, valid]
  show (decodeWhole data limits (.new data limits.maxBytes) >>= _) = _
  rw [parsed]
  rfl

theorem decodeOsdmap_sized (h : decodeOsdmap data limits = .ok map) :
    map.Sized ∧ map.maxOsd < 2 ^ 31 := by
  refine decodeOsdmap_of_gives (P := fun map => map.Sized ∧ map.maxOsd < 2 ^ 31) ?_ ?_ h
  · exact .skip fun header => .skip fun pools => .skip fun tables =>
      .bind (gives_decodeAfterNames limits header tables) fun map ok => .skip fun _ => .pure ok
  · exact fun map crc verified ⟨sized, range⟩ =>
      ⟨⟨sized.state, sized.weight, sized.addresses, sized.affinity⟩, range⟩

/-! ## An encoding -/

open Bytes (leBytes twos)

def encodeSampleRecord (version : Nat) (body : List UInt8) : List UInt8 :=
  leBytes 1 version ++ leBytes 1 1 ++ leBytes 4 body.length ++ body

/-- A table as its length and its entries. -/
def encodeSampleList {α : Type} (values : List α) (one : α → List UInt8) : List UInt8 :=
  leBytes 4 values.length ++ values.flatMap one

/-- A pool in the oldest version that is read. -/
def encodeSamplePool (pool : Pool) : List UInt8 :=
  leBytes 8 (twos 8 pool.id) ++ encodeSampleRecord 5 (
    leBytes 1 pool.poolType ++ leBytes 1 pool.size ++ leBytes 1 pool.crushRule
      ++ leBytes 1 pool.objectHash ++ leBytes 4 pool.pgCount ++ leBytes 4 pool.placementPgCount
      ++ List.replicate 12 0 ++ leBytes 8 pool.snapshotSequence ++ List.replicate 20 0
      ++ leBytes 8 pool.flags ++ List.replicate 4 0)

def encodeSamplePg (pg : Pg) : List UInt8 :=
  leBytes 1 1 ++ leBytes 8 pg.pool ++ leBytes 4 pg.seed ++ leBytes 4 (twos 4 pg.preferred)

/-- The client's part of a map whose OSDs are all up and in, with the two tables of temporary
sets and primaries. -/
def encodeSampleClient (pools : List Pool) (names : List (Int × Text)) (osds : Nat)
    (pgTemp : List (Pg × List Int)) (primaryTemp : List (Pg × Int)) (crush : List UInt8) :
    List UInt8 :=
  List.replicate 16 7 ++ leBytes 4 1 ++ List.replicate 16 0
    ++ encodeSampleList pools encodeSamplePool
    ++ encodeSampleList names (fun name =>
        leBytes 8 (twos 8 name.1) ++ leBytes 4 name.2.length ++ name.2)
    ++ leBytes 4 pools.length ++ leBytes 4 0 ++ leBytes 4 osds
    ++ encodeSampleList (List.replicate osds 3) (leBytes 4)
    ++ encodeSampleList (List.replicate osds 0x10000) (leBytes 4)
    ++ encodeSampleList (List.replicate osds [2, 0, 0, 0, 0]) id
    ++ encodeSampleList pgTemp (fun entry =>
        encodeSamplePg entry.1 ++ encodeSampleList entry.2 fun osd => leBytes 4 (twos 4 osd))
    ++ encodeSampleList primaryTemp (fun entry =>
        encodeSamplePg entry.1 ++ leBytes 4 (twos 4 entry.2))
    ++ leBytes 4 0 ++ leBytes 4 crush.length ++ crush ++ List.replicate 44 0

/-- The record in its wrapper, with a checksum. -/
def encodeSample (client : List UInt8) (crc : Nat) : List UInt8 :=
  encodeSampleRecord 8
    (encodeSampleRecord 10 client ++ encodeSampleRecord 12 [] ++ leBytes 4 crc)

def sampleLimits : Limits :=
  { maxBytes := 4096, maxMonitors := 8, maxAddresses := 8, maxLocations := 8, maxPools := 8
    maxOsds := 8, maxPgMappings := 8, maxCollectionEntries := 8, text := id }

end RadosRs.Maps
