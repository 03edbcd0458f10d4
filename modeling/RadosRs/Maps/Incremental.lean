import RadosRs.Lib.Keyed
import RadosRs.Maps.Placement

/-!
# Changes to the map of the storage daemons

An incremental takes a map from its epoch to the next one.  It either has a whole
map in it, which then takes the place of the old one, or it has tables of changes
to the pools, the OSDs and the placement groups.

The tables of changes are walked in the order of a hash map.  They are lists of
entries here, and an incremental with its tables in another order is the same one to
the program.  The changes act on three parts of the map that do not meet: the pools
and their names, the vectors with an entry for each OSD, and the tables of the
placement groups.  Everything follows `src/maps/incremental.rs`.
-/

namespace RadosRs.Maps

open Wire Wire.Reader Fallible
open Msgr (EntityAddr)
open Protocol (decodeEntityAddrVec)
open Std (ExtTreeMap)

/-- The tables of an incremental that are hash maps in the source. -/
structure IncrementalTables where
  newPools : List (Int × Pool)
  newPoolNames : List (Int × Text)
  newUpClient : List (Int × List EntityAddr)
  newState : List (Int × Nat)
  newWeight : List (Int × Nat)
  newPgTemp : List (Pg × List Int)
  newPrimaryTemp : List (Pg × Int)
  newPrimaryAffinity : List (Int × Nat)
  newErasureProfiles : List (Text × StringMap)
  newPgUpmap : List (Pg × List Int)
  newPgUpmapItems : List (Pg × List OsdRemap)
  newRemovedSnapshots : List (Int × List Interval)
  newPurgedSnapshots : List (Int × List Interval)
  newPgUpmapPrimaries : List (Pg × Int)
  deriving DecidableEq

structure OsdMapIncremental extends IncrementalTables where
  fsid : Fsid
  epoch : Nat
  modified : UTime
  newPoolMax : Int
  newFlags : Int
  fullMap : List UInt8
  crushData : List UInt8
  newMaxOsd : Int
  oldPools : List Int
  oldErasureProfiles : List Text
  oldPgUpmap : List Pg
  oldPgUpmapItems : List Pg
  newLastUpChange : UTime
  newLastInChange : UTime
  oldPgUpmapPrimaries : List Pg
  incrementalCrc : Nat := 0
  fullCrc : Nat := 0
  deriving DecidableEq

/-! ## Reading -/

/-- A table with a value of some kind for each OSD. -/
def decodeOsdTable {ν : Type} (reason : String) (maximum minimumBytes : Nat)
    (value : Reader MapError ν) : Reader MapError (List (Int × ν)) := do
  let count ← boundedCount maximum minimumBytes
  let entries ← decodeEntries reason count do
    let osd ← i32
    let value ← value
    return (osd, value)
  finish
  return entries

def decodeIntAddressMap (limits : Limits) : Reader MapError (List (Int × List EntityAddr)) :=
  decodeOsdTable "duplicate OSD address" limits.maxOsds 9 (decodeEntityAddrVec limits.maxAddresses)

def decodeIntU32Map (maximum : Nat) : Reader MapError (List (Int × Nat)) :=
  decodeOsdTable "duplicate OSD value" maximum 8 u32

/-- A value that has not been read before. -/
def appendOnce {α : Type} [DecidableEq α] (reason : String) (values : List α) (value : α) :
    Reader MapError (List α) := do
  rejectIf (value ∈ values) (.malformed reason)
  return values ++ [value]

/-- A number of different values. -/
def decodeOnce {α : Type} [DecidableEq α] (reason : String) (count : Nat)
    (one : Reader MapError α) : Reader MapError (List α) :=
  (List.range count).foldlM (fun values _ => do appendOnce reason values (← one)) []

def decodePgSet (limits : Limits) : Reader MapError (List Pg) := do
  let count ← boundedCount limits.maxPgMappings 17
  let values ← decodeOnce "duplicate PG set entry" count decodePg
  finish
  return values

def decodeRenames (limits : Limits) : Reader MapError (List (Int × Text)) := do
  let count ← boundedCount limits.maxPools 12
  decodeEntries "duplicate renamed pool" count (decodePoolName limits)

def decodeOldPools (limits : Limits) : Reader MapError (List Int) := do
  let count ← boundedCount limits.maxPools 8
  decodeOnce "duplicate removed pool" count i64

def decodeIncrementalClient (limits : Limits) : Reader MapError OsdMapIncremental := do
  let fsid ← decodeFsid
  let epoch ← u32
  let modified ← decodeUtime
  let newPoolMax ← i64
  let newFlags ← i32
  let fullMap ← blob
  let crushData ← blob
  let newMaxOsd ← i32
  rejectIf (newMaxOsd ≥ 0 ∧ newMaxOsd.toNat > limits.maxOsds) (.wire .limitExceeded)
  let newPools ← decodePools limits "duplicate new pool"
  let newPoolNames ← decodeRenames limits
  let oldPools ← decodeOldPools limits
  let newUpClient ← decodeIntAddressMap limits
  let newState ← decodeIntU32Map limits.maxOsds
  let newWeight ← decodeIntU32Map limits.maxOsds
  let newPgTemp ← decodePgVectorMap limits
  let newPrimaryTemp ← decodePgIntMap limits
  let newPrimaryAffinity ← decodeIntU32Map limits.maxOsds
  let newErasureProfiles ← decodeNestedStringMap limits limits.maxCollectionEntries
  let oldErasureProfiles ← decodeStrings limits limits.maxCollectionEntries
  let newPgUpmap ← decodePgVectorMap limits
  let oldPgUpmap ← decodePgSet limits
  let newPgUpmapItems ← decodePgRemapItems limits
  let oldPgUpmapItems ← decodePgSet limits
  let newRemovedSnapshots ← decodePoolIntervalMap limits
  let newPurgedSnapshots ← decodePoolIntervalMap limits
  let newLastUpChange ← decodeUtime
  let newLastInChange ← decodeUtime
  let newPgUpmapPrimaries ← decodePgIntMap limits
  let oldPgUpmapPrimaries ← decodePgSet limits
  finish
  return {
    fsid, epoch, modified, newPoolMax, newFlags, fullMap, crushData, newMaxOsd, newPools
    newPoolNames, oldPools, newUpClient, newState, newWeight, newPgTemp, newPrimaryTemp
    newPrimaryAffinity, newErasureProfiles, oldErasureProfiles, newPgUpmap, oldPgUpmap
    newPgUpmapItems, oldPgUpmapItems, newRemovedSnapshots, newPurgedSnapshots, newLastUpChange
    newLastInChange, newPgUpmapPrimaries, oldPgUpmapPrimaries }

def decodeIncrementalWrapper (limits : Limits) : Reader MapError OsdMapIncremental := do
  let result ← decodeVersion 9 (decodeIncrementalClient limits)
  skipVersioned 12
  let incrementalCrc ← u32
  let fullCrc ← u32
  finish
  return { result with incrementalCrc, fullCrc }

/-- The checksum leaves out the four bytes it stands in. -/
def incrementalChecksum (data : List UInt8) : UInt32 :=
  let offset := data.length - 8
  crc32c (crc32c crcSeed (data.take offset)) (data.drop (offset + 4))

def decodeIncrementalWhole (data : List UInt8) (limits : Limits) :
    Reader MapError OsdMapIncremental := do
  let result ← decodeVersion 8 (decodeIncrementalWrapper limits)
  finish
  let left ← remaining
  rejectIf (left ≠ 0 ∨ data.length < 14) (.malformed "trailing or short incremental")
  rejectIf ((incrementalChecksum data).toNat ≠ result.incrementalCrc)
    (.malformed "incremental CRC mismatch")
  return result

def decodeOsdmapIncremental (data : List UInt8) (limits : Limits) :
    Run MapError OsdMapIncremental := do
  validateLimits limits
  let (result, _) ← decodeIncrementalWhole data limits (.new data limits.maxBytes)
  return result

/-! ## Pools -/

namespace PoolTables

/-- A new pool; one that is there already keeps its name. -/
def insertPool (tables : PoolTables) (entry : Int × Pool) : PoolTables :=
  let pool :=
    match tables.pools[entry.1]? with
    | some old => { entry.2 with name := old.name }
    | none => entry.2
  { tables with pools := tables.pools.insert entry.1 pool }

/-- Another name for a pool.  No other pool may have it at that moment. -/
def rename (tables : PoolTables) (entry : Int × Text) : Run MapError PoolTables :=
  match tables.pools[entry.1]? with
  | none => fail (.malformed "rename for unknown pool")
  | some pool =>
    if (tables.nameToId[entry.2]?).any (· ≠ entry.1) then fail (.malformed "duplicate pool name")
    else .ok {
      pools := tables.pools.insert entry.1 { pool with name := entry.2 }
      nameToId := (tables.nameToId.erase pool.name).insert entry.2 entry.1 }

def removePool (tables : PoolTables) (id : Int) : PoolTables :=
  match tables.pools[id]? with
  | none => tables
  | some pool =>
    { pools := tables.pools.erase id, nameToId := tables.nameToId.erase pool.name }

/-- Some pool has the empty name. -/
def hasUnnamed (tables : PoolTables) : Bool := tables.pools.toList.any fun entry => entry.2.name = []

end PoolTables

/-! ## OSDs -/

/-- The vectors with an entry for each OSD. -/
structure OsdVectors where
  state : List Nat
  weight : List Nat
  affinity : List Nat
  addresses : List (List EntityAddr)
  deriving DecidableEq

/-- A list cut off or filled up to a length. -/
def resize {α : Type} (values : List α) (size : Nat) (value : α) : List α :=
  values.take size ++ List.replicate (size - values.length) value

namespace OsdVectors

def resizeOsds (vectors : OsdVectors) (size : Nat) : OsdVectors where
  state := resize vectors.state size 0
  weight := resize vectors.weight size 0
  affinity :=
    if vectors.affinity = [] then [] else resize vectors.affinity size defaultPrimaryAffinity
  addresses := resize vectors.addresses size []

def ensurePrimaryAffinity (vectors : OsdVectors) : OsdVectors :=
  if vectors.affinity = [] then
    { vectors with affinity := resize vectors.affinity vectors.state.length defaultPrimaryAffinity }
  else vectors

def validOsd (vectors : OsdVectors) (osd : Int) : Run MapError Nat :=
  if 0 ≤ osd ∧ osd.toNat < vectors.state.length then .ok osd.toNat
  else fail (.malformed "OSD outside map size")

/-- All bits of a state but those of a mask. -/
def clearBits (state mask : Nat) : Nat := state &&& ((2 ^ 32 - 1) ^^^ mask)

/-- A weight.  An OSD that has one is no longer new or automatically out. -/
def setWeight (vectors : OsdVectors) (entry : Int × Nat) : Run MapError OsdVectors := do
  let id ← vectors.validOsd entry.1
  let weight ← update vectors.weight id entry.2
  let state :=
    if entry.2 ≠ 0 then vectors.state.modify id (clearBits · ((1 <<< 2) ||| (1 <<< 3)))
    else vectors.state
  return { vectors with weight, state }

def setAffinity (vectors : OsdVectors) (entry : Int × Nat) : Run MapError OsdVectors := do
  let id ← vectors.validOsd entry.1
  let vectors := vectors.ensurePrimaryAffinity
  let affinity ← update vectors.affinity id entry.2
  return { vectors with affinity }

/-- An OSD that exists and is destroyed. -/
def destroy (vectors : OsdVectors) (id : Nat) : Run MapError OsdVectors := do
  let vectors := { vectors with state := vectors.state.set id 0 }.ensurePrimaryAffinity
  let affinity ← update vectors.affinity id defaultPrimaryAffinity
  let addresses ← update vectors.addresses id []
  return { vectors with affinity, addresses }

/-- The bits of a state that change; none stands for the one that says that the OSD is up. -/
def changeState (vectors : OsdVectors) (entry : Int × Nat) : Run MapError OsdVectors := do
  let id ← vectors.validOsd entry.1
  let change := if entry.2 = 0 then 1 <<< 1 else entry.2
  let old ← index vectors.state id
  if old &&& 1 ≠ 0 ∧ change &&& 1 ≠ 0 then vectors.destroy id
  else return { vectors with state := vectors.state.set id (old ^^^ change) }

/-- An OSD that has come up with its addresses. -/
def setUp (vectors : OsdVectors) (entry : Int × List EntityAddr) : Run MapError OsdVectors := do
  let id ← vectors.validOsd entry.1
  let state := vectors.state.modify id fun state => clearBits (state ||| 3) (1 <<< 12)
  let addresses ← update vectors.addresses id entry.2
  return { vectors with state, addresses }

end OsdVectors

/-! ## Tables of placement groups -/

section Tables

variable {κ ν : Type} [Ord κ] [Std.TransOrd κ]

/-- An entry of changes, which may stand for a deletion. -/
def applyEntry (deletes : ν → Bool) (table : ExtTreeMap κ ν) (entry : κ × ν) : ExtTreeMap κ ν :=
  if deletes entry.2 then table.erase entry.1 else table.insert entry.1 entry.2

def applyEntries (deletes : ν → Bool) (table : ExtTreeMap κ ν) (entries : List (κ × ν)) :
    ExtTreeMap κ ν :=
  entries.foldl (applyEntry deletes) table

def removeAll (table : ExtTreeMap κ ν) (keys : List κ) : ExtTreeMap κ ν :=
  keys.foldl ExtTreeMap.erase table

end Tables

def applyPgVectors (table : ExtTreeMap Pg (List Int)) (changes : List (Pg × List Int))
    (emptyDeletes : Bool) : ExtTreeMap Pg (List Int) :=
  applyEntries (fun values => emptyDeletes && values = []) table changes

def applyPgInts (table : ExtTreeMap Pg Int) (changes : List (Pg × Int)) (deleted : Int) :
    ExtTreeMap Pg Int :=
  applyEntries (· = deleted) table changes

/-! ## The whole change -/

namespace OsdMap

def tables (map : OsdMap) : PoolTables := ⟨map.pools, map.nameToId⟩

def vectors (map : OsdMap) : OsdVectors :=
  ⟨map.osdState, map.osdWeight, map.primaryAffinity, map.clientAddresses⟩

/-- The vectors in their new size. -/
def resized (map : OsdMap) (incremental : OsdMapIncremental) : OsdVectors :=
  if incremental.newMaxOsd ≥ 0 then map.vectors.resizeOsds incremental.newMaxOsd.toNat
  else map.vectors

/-- The CRUSH map and its version. -/
def changeCrush (map : OsdMap) (incremental : OsdMapIncremental) :
    Run MapError (List UInt8 × Nat) :=
  if incremental.crushData = [] then .ok (map.crushData, map.crushVersion)
  else if map.crushVersion + 1 > 2 ^ 32 - 1 then fail .invalidSequence
  else .ok (incremental.crushData, map.crushVersion + 1)

/-- The pools after the new ones, the renames and the removals. -/
def changePools (map : OsdMap) (incremental : OsdMapIncremental) : Run MapError PoolTables := do
  let tables := incremental.newPools.foldl PoolTables.insertPool map.tables
  let tables ← incremental.newPoolNames.foldlM PoolTables.rename tables
  return incremental.oldPools.foldl PoolTables.removePool tables

def changeOsds (map : OsdMap) (incremental : OsdMapIncremental) : Run MapError OsdVectors := do
  let vectors ← incremental.newWeight.foldlM OsdVectors.setWeight (map.resized incremental)
  let vectors ← incremental.newPrimaryAffinity.foldlM OsdVectors.setAffinity vectors
  let vectors ← incremental.newState.foldlM OsdVectors.changeState vectors
  incremental.newUpClient.foldlM OsdVectors.setUp vectors

/-- The map with everything changed that cannot fail. -/
def assemble (map : OsdMap) (incremental : OsdMapIncremental) (crush : List UInt8 × Nat)
    (tables : PoolTables) (vectors : OsdVectors) : OsdMap where
  fsid := map.fsid
  epoch := incremental.epoch
  created := map.created
  modified := incremental.modified
  pools := tables.pools
  nameToId := tables.nameToId
  poolMax := if incremental.newPoolMax ≠ -1 then incremental.newPoolMax else map.poolMax
  flags := if incremental.newFlags ≥ 0 then incremental.newFlags.toNat else map.flags
  maxOsd := if incremental.newMaxOsd ≥ 0 then incremental.newMaxOsd else map.maxOsd
  osdState := vectors.state
  osdWeight := vectors.weight
  clientAddresses := vectors.addresses
  pgTemp := applyPgVectors map.pgTemp incremental.newPgTemp true
  primaryTemp := applyPgInts map.primaryTemp incremental.newPrimaryTemp (-1)
  primaryAffinity := vectors.affinity
  crushData := crush.1
  erasureCodeProfiles :=
    applyEntries (fun _ => false) (removeAll map.erasureCodeProfiles incremental.oldErasureProfiles)
      incremental.newErasureProfiles
  pgUpmap :=
    removeAll (applyPgVectors map.pgUpmap incremental.newPgUpmap false) incremental.oldPgUpmap
  pgUpmapItems :=
    removeAll (applyEntries (fun _ => false) map.pgUpmapItems incremental.newPgUpmapItems)
      incremental.oldPgUpmapItems
  crushVersion := crush.2
  newRemovedSnapshots := .ofList incremental.newRemovedSnapshots
  newPurgedSnapshots := .ofList incremental.newPurgedSnapshots
  lastUpChange :=
    if incremental.newLastUpChange ≠ {} then incremental.newLastUpChange else map.lastUpChange
  lastInChange :=
    if incremental.newLastInChange ≠ {} then incremental.newLastInChange else map.lastInChange
  pgUpmapPrimaries :=
    removeAll (applyEntries (fun _ => false) map.pgUpmapPrimaries incremental.newPgUpmapPrimaries)
      incremental.oldPgUpmapPrimaries
  crc := incremental.fullCrc
  crcVerified := false
  appliedIncremental := true

/-- The changes of an incremental without a whole map. -/
def applyChanges (map : OsdMap) (incremental : OsdMapIncremental) : Run MapError OsdMap := do
  let crush ← map.changeCrush incremental
  let tables ← map.changePools incremental
  let vectors ← map.changeOsds incremental
  if tables.hasUnnamed then fail (.malformed "pool has no name")
  else return map.assemble incremental crush tables vectors

/-- The whole map of an incremental. -/
def replaceWhole (map : OsdMap) (incremental : OsdMapIncremental) (limits : Limits) :
    Run MapError OsdMap := do
  let replacement ← decodeOsdmap incremental.fullMap limits
  if replacement.fsid ≠ map.fsid ∨ replacement.epoch ≠ incremental.epoch
      ∨ replacement.crc ≠ incremental.fullCrc then
    fail (.malformed "replacement full map identity or CRC mismatch")
  else return replacement

def applyOsdmapIncremental (map : OsdMap) (incremental : OsdMapIncremental) (limits : Limits) :
    Run MapError OsdMap :=
  if incremental.fsid ≠ map.fsid then fail .fsidMismatch
  else if map.epoch + 1 > 2 ^ 32 - 1 ∨ incremental.epoch ≠ map.epoch + 1 then fail .invalidSequence
  else if incremental.fullMap ≠ [] then map.replaceWhole incremental limits
  else map.applyChanges incremental

end OsdMap

/-! ## Orders of the tables -/

/-- The same tables, walked in other orders. -/
structure IncrementalTables.Perm (a b : IncrementalTables) : Prop where
  newPools : a.newPools.Perm b.newPools
  newPoolNames : a.newPoolNames.Perm b.newPoolNames
  newUpClient : a.newUpClient.Perm b.newUpClient
  newState : a.newState.Perm b.newState
  newWeight : a.newWeight.Perm b.newWeight
  newPgTemp : a.newPgTemp.Perm b.newPgTemp
  newPrimaryTemp : a.newPrimaryTemp.Perm b.newPrimaryTemp
  newPrimaryAffinity : a.newPrimaryAffinity.Perm b.newPrimaryAffinity
  newErasureProfiles : a.newErasureProfiles.Perm b.newErasureProfiles
  newPgUpmap : a.newPgUpmap.Perm b.newPgUpmap
  newPgUpmapItems : a.newPgUpmapItems.Perm b.newPgUpmapItems
  newRemovedSnapshots : a.newRemovedSnapshots.Perm b.newRemovedSnapshots
  newPurgedSnapshots : a.newPurgedSnapshots.Perm b.newPurgedSnapshots
  newPgUpmapPrimaries : a.newPgUpmapPrimaries.Perm b.newPgUpmapPrimaries

/-- An incremental whose tables are walked in other orders. -/
structure OsdMapIncremental.Reordered (a b : OsdMapIncremental) : Prop where
  tables : a.toIncrementalTables.Perm b.toIncrementalTables
  rest : b = { a with toIncrementalTables := b.toIncrementalTables }

/-- Some bytes decode to the incremental, in the order in which its tables are walked. -/
def OsdMapIncremental.Decoded (incremental : OsdMapIncremental) : Prop :=
  ∃ data limits read, decodeOsdmapIncremental data limits = .ok read ∧ read.Reordered incremental

/-- No key twice. -/
abbrev Distinct {κ ν : Type} (entries : List (κ × ν)) : Prop := Keyed.Distinct Prod.fst entries

/-- What decoding ensures of the tables: no key twice, and new pools without a name. -/
structure IncrementalTables.Proper (tables : IncrementalTables) : Prop where
  newPools : Distinct tables.newPools
  unnamed : ∀ entry ∈ tables.newPools, entry.2.name = [] ∧ entry.2.id = entry.1
  newPoolNames : Distinct tables.newPoolNames
  newUpClient : Distinct tables.newUpClient
  newState : Distinct tables.newState
  newWeight : Distinct tables.newWeight
  newPgTemp : Distinct tables.newPgTemp
  newPrimaryTemp : Distinct tables.newPrimaryTemp
  newPrimaryAffinity : Distinct tables.newPrimaryAffinity
  newErasureProfiles : Distinct tables.newErasureProfiles
  newPgUpmap : Distinct tables.newPgUpmap
  newPgUpmapItems : Distinct tables.newPgUpmapItems
  newRemovedSnapshots : Distinct tables.newRemovedSnapshots
  newPurgedSnapshots : Distinct tables.newPurgedSnapshots
  newPgUpmapPrimaries : Distinct tables.newPgUpmapPrimaries

theorem IncrementalTables.Proper.perm {a b : IncrementalTables} (h : a.Proper) (same : a.Perm b) :
    b.Proper where
  newPools := h.newPools.perm same.newPools
  unnamed entry mem := h.unnamed entry (same.newPools.mem_iff.mpr mem)
  newPoolNames := h.newPoolNames.perm same.newPoolNames
  newUpClient := h.newUpClient.perm same.newUpClient
  newState := h.newState.perm same.newState
  newWeight := h.newWeight.perm same.newWeight
  newPgTemp := h.newPgTemp.perm same.newPgTemp
  newPrimaryTemp := h.newPrimaryTemp.perm same.newPrimaryTemp
  newPrimaryAffinity := h.newPrimaryAffinity.perm same.newPrimaryAffinity
  newErasureProfiles := h.newErasureProfiles.perm same.newErasureProfiles
  newPgUpmap := h.newPgUpmap.perm same.newPgUpmap
  newPgUpmapItems := h.newPgUpmapItems.perm same.newPgUpmapItems
  newRemovedSnapshots := h.newRemovedSnapshots.perm same.newRemovedSnapshots
  newPurgedSnapshots := h.newPurgedSnapshots.perm same.newPurgedSnapshots
  newPgUpmapPrimaries := h.newPgUpmapPrimaries.perm same.newPgUpmapPrimaries

/-! ### What decoding ensures -/

variable {reason : String}

/-- The entries of a table, whatever they are, have different keys. -/
theorem gives_distinct {κ ν : Type} [DecidableEq κ] {count : Nat}
    {entry : Reader MapError (κ × ν)} : Gives (decodeEntries reason count entry) Distinct :=
  (gives_decodeEntries (P := fun _ => True) fun _ _ _ _ => trivial).mono fun _ known => known.1

variable {limits : Limits}

theorem gives_decodePgTable {ν : Type} {value : Reader MapError ν} :
    Gives (decodePgTable limits reason value) Distinct :=
  .skip fun _ => .bind gives_distinct fun _ known => .skip fun _ => .pure known

theorem gives_decodeOsdTable {ν : Type} {maximum minimumBytes : Nat} {value : Reader MapError ν} :
    Gives (decodeOsdTable reason maximum minimumBytes value) Distinct :=
  .skip fun _ => .bind gives_distinct fun _ known => .skip fun _ => .pure known

theorem gives_decodePoolIntervalMap : Gives (decodePoolIntervalMap limits) Distinct :=
  .skip fun _ => .bind gives_distinct fun _ known => .skip fun _ => .pure known

theorem gives_decodeNestedStringMap {maximum : Nat} :
    Gives (decodeNestedStringMap limits maximum) Distinct :=
  .skip fun _ => .bind gives_distinct fun _ known => .skip fun _ => .pure known

theorem gives_decodeRenames : Gives (decodeRenames limits) Distinct :=
  .skip fun _ => gives_distinct

/-- A pool is read without a name. -/
theorem gives_decodePool : Gives (decodePool limits) (·.name = []) := by
  iterate 3 refine .skip fun _ => ?_
  refine .inside ?_
  iterate 24 refine .skip fun _ => ?_
  exact .pure rfl

theorem gives_decodePools :
    Gives (decodePools limits reason) fun pools =>
      Distinct pools ∧ ∀ entry ∈ pools, entry.2.name = [] ∧ entry.2.id = entry.1 :=
  .skip fun _ => gives_decodeEntries
    (.skip fun _ => .bind gives_decodePool fun _ unnamed => .pure ⟨unnamed, rfl⟩)

theorem gives_decodeIncrementalClient :
    Gives (decodeIncrementalClient limits) fun incremental =>
      incremental.Proper ∧ incremental.newMaxOsd < 2 ^ 31 := by
  iterate 7 refine .skip fun _ => ?_
  refine .bind gives_i32 fun _ size => .skip fun _ => .bind gives_decodePools fun _ pools => ?_
  refine .bind gives_decodeRenames fun _ renames => .skip fun _ => ?_
  refine .bind gives_decodeOsdTable fun _ addresses => .bind gives_decodeOsdTable fun _ states => ?_
  refine .bind gives_decodeOsdTable fun _ weights => .bind gives_decodePgTable fun _ temp => ?_
  refine .bind gives_decodePgTable fun _ primaries => .bind gives_decodeOsdTable fun _ affinity => ?_
  refine .bind gives_decodeNestedStringMap fun _ profiles => .skip fun _ => ?_
  refine .bind gives_decodePgTable fun _ upmap => .skip fun _ => ?_
  refine .bind gives_decodePgTable fun _ items => .skip fun _ => ?_
  refine .bind gives_decodePoolIntervalMap fun _ removed => ?_
  refine .bind gives_decodePoolIntervalMap fun _ purged => .skip fun _ => .skip fun _ => ?_
  refine .bind gives_decodePgTable fun _ upmapPrimaries => .skip fun _ => .skip fun _ => .pure ?_
  exact ⟨⟨pools.1, pools.2, renames, addresses, states, weights, temp, primaries, affinity,
    profiles, upmap, items, removed, purged, upmapPrimaries⟩, size.2⟩

variable {incremental : OsdMapIncremental} {data : List UInt8}

theorem decodeOsdmapIncremental_proper (h : decodeOsdmapIncremental data limits = .ok incremental) :
    incremental.Proper ∧ incremental.newMaxOsd < 2 ^ 31 := by
  have wrapper : Gives (decodeIncrementalWrapper limits) fun incremental =>
      incremental.Proper ∧ incremental.newMaxOsd < 2 ^ 31 :=
    .bind (gives_decodeVersion gives_decodeIncrementalClient) fun _ known =>
      .skip fun _ => .skip fun _ => .skip fun _ => .skip fun _ => .pure known
  have whole : Gives (decodeIncrementalWhole data limits) fun incremental =>
      incremental.Proper ∧ incremental.newMaxOsd < 2 ^ 31 :=
    .bind (gives_decodeVersion wrapper) fun _ known =>
      .skip fun _ => .skip fun _ => .skip fun _ => .skip fun _ => .pure known
  obtain ⟨_, -, h⟩ := bind_eq_ok.mp h
  obtain ⟨⟨result, rest⟩, read, h⟩ := bind_eq_ok.mp h
  cases h
  exact whole _ _ _ read

theorem OsdMapIncremental.Decoded.proper (h : incremental.Decoded) :
    incremental.Proper ∧ incremental.newMaxOsd < 2 ^ 31 := by
  obtain ⟨data, limits, read, decoded, reordered⟩ := h
  obtain ⟨proper, size⟩ := decodeOsdmapIncremental_proper decoded
  refine ⟨proper.perm reordered.tables, ?_⟩
  rw [reordered.rest]
  exact size

/-- A record that can be read to its end and has the right checksum is an incremental. -/
theorem decodeOsdmapIncremental_of_checksum (valid : validateLimits limits = .ok ())
    (read : decodeVersion 8 (decodeIncrementalWrapper limits) (.new data limits.maxBytes) =
      .ok (incremental, ⟨data, data.length, limits.maxBytes, none⟩)) (long : 14 ≤ data.length)
    (checksum : crcNumeral (data.drop (data.length - 8 + 4))
      (crcNumeral (data.take (data.length - 8)) crcSeed.toNat) = incremental.incrementalCrc) :
    decodeOsdmapIncremental data limits = .ok incremental := by
  have checksum : (incrementalChecksum data).toNat = incremental.incrementalCrc := by
    rwa [← toNat_crc32c, ← toNat_crc32c] at checksum
  generalize ends : Decoder.mk data data.length limits.maxBytes none = rest at read
  have finished : rest.finish = .ok () := by rw [← ends]; rfl
  have whole : rest.remaining = 0 := by rw [← ends]; exact Nat.sub_self _
  have parsed : decodeIncrementalWhole data limits (.new data limits.maxBytes) =
      .ok (incremental, rest) := by
    rw [decodeIncrementalWhole, bind_of_ok read, bind_of_ok (finish_of_ok finished),
      bind_of_ok (show remaining rest = .ok (rest.remaining, rest) from rfl),
      bind_of_ok (rejectIf_of_not (by omega)),
      bind_of_ok (rejectIf_of_not (not_not.mpr checksum))]
    rfl
  rw [decodeOsdmapIncremental, valid]
  show (decodeIncrementalWhole data limits (.new data limits.maxBytes) >>= _) = _
  rw [parsed]
  rfl

theorem IncrementalTables.Perm.refl (tables : IncrementalTables) : tables.Perm tables := by
  constructor <;> rfl

theorem OsdMapIncremental.Reordered.refl (incremental : OsdMapIncremental) :
    incremental.Reordered incremental :=
  ⟨.refl _, rfl⟩

/-! ## An encoding -/

open Bytes (leBytes twos)

/-- The client's part of an incremental that changes pools, their names and states of OSDs. -/
def encodeSampleChange (epoch : Nat) (newMaxOsd : Int) (pools : List Pool)
    (names : List (Int × Text)) (old : List Int) (states : List (Int × Nat)) : List UInt8 :=
  List.replicate 16 7 ++ leBytes 4 epoch ++ List.replicate 8 0 ++ leBytes 8 (twos 8 (-1))
    ++ leBytes 4 (twos 4 (-1)) ++ List.replicate 8 0 ++ leBytes 4 (twos 4 newMaxOsd)
    ++ encodeSampleList pools encodeSamplePool
    ++ encodeSampleList names (fun name =>
        leBytes 8 (twos 8 name.1) ++ leBytes 4 name.2.length ++ name.2)
    ++ encodeSampleList old (fun id => leBytes 8 (twos 8 id))
    ++ leBytes 4 0
    ++ encodeSampleList states (fun entry => leBytes 4 (twos 4 entry.1) ++ leBytes 4 entry.2)
    ++ List.replicate 72 0

/-- The record in its wrapper, with a checksum. -/
def encodeSampleIncremental (client : List UInt8) (crc : Nat) : List UInt8 :=
  encodeSampleRecord 8
    (encodeSampleRecord 9 client ++ encodeSampleRecord 12 [] ++ leBytes 4 crc ++ leBytes 4 0)

/-- The incremental in such a record. -/
def sampleIncremental (epoch : Nat) (newMaxOsd : Int) (pools : List Pool)
    (names : List (Int × Text)) (old : List Int) (states : List (Int × Nat)) (crc : Nat) :
    OsdMapIncremental :=
  { newPools := pools.map fun pool => (pool.id, pool), newPoolNames := names, newUpClient := []
    newState := states, newWeight := [], newPgTemp := [], newPrimaryTemp := []
    newPrimaryAffinity := [], newErasureProfiles := [], newPgUpmap := [], newPgUpmapItems := []
    newRemovedSnapshots := [], newPurgedSnapshots := [], newPgUpmapPrimaries := []
    fsid := List.replicate 16 7, epoch, modified := {}, newPoolMax := -1, newFlags := -1
    fullMap := [], crushData := [], newMaxOsd, oldPools := old, oldErasureProfiles := []
    oldPgUpmap := [], oldPgUpmapItems := [], newLastUpChange := {}, newLastInChange := {}
    oldPgUpmapPrimaries := [], incrementalCrc := crc }

end RadosRs.Maps
