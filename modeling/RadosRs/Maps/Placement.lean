import RadosRs.Crush.Place
import RadosRs.Maps.OsdMap

/-!
# Where an object is placed

The hash of an object gives its placement group, and the placement group gives a
seed for CRUSH.  What CRUSH answers is the raw set.  The map's overrides turn it
into the up set: a whole replacement, single remaps, a swapped primary, and the
affinity of OSDs for being primary.  OSDs that are not up leave the set of a
replicated pool, and leave a hole in the set of an erasure pool, where a position
stands for a shard.  The acting set is the up set unless the map has a temporary one
or a temporary primary for the group.

Everything follows `src/maps/placement.rs`.  The decoded CRUSH map is kept in a cell
there, which computes nothing new, and is left out.  The fuel is that of CRUSH.
-/

namespace RadosRs.Maps

open Fallible Crush

def objectHashRjenkins : Nat := 2
def poolFlagHashpspool : Nat := 1 <<< 0
def poolFlagEcOptimizations : Nat := 1 <<< 19
def defaultPrimaryAffinity : Nat := 0x10000

structure ObjectPlacement where
  rawHash : UInt32
  rawPg : Pg
  pg : Pg
  placementSeed : UInt32
  raw : List Int := []
  up : List Int := []
  upPrimary : Int := -1
  acting : List Int := []
  actingPrimary : Int := -1
  primaryShard : Int := 0
  sharded : Bool := false
  deriving DecidableEq, Repr

def unsupportedPlacement {α : Type} (reason : String) : Run MapError α :=
  fail (.unsupportedPlacement reason)

/-- The element of a vector under the number of an OSD. -/
def osdEntry {α : Type} (values : List α) (osd : Int) : Option α :=
  if osd < 0 then none else values[osd.toNat]?

def firstOsd (osds : List Int) : Int := (osds.find? (· ≠ itemNone)).getD (-1)

namespace OsdMap

/-! ## From a hash to a placement group -/

def mapRawHash (map : OsdMap) (poolId : Int) (hash : UInt32) : Run MapError ObjectPlacement :=
  if poolId < 0 then unsupportedPlacement "negative pool id"
  else
    match map.pools[poolId]? with
    | none => unsupportedPlacement "pool does not exist"
    | some pool =>
      if pool.objectHash ≠ objectHashRjenkins then
        unsupportedPlacement "unsupported object hash"
      else if pool.flags &&& poolFlagHashpspool = 0 then
        unsupportedPlacement "pool does not use HASHPSPOOL"
      else if pool.pgCount = 0 ∨ pool.placementPgCount = 0
          ∨ pool.placementPgCount > pool.pgCount then
        unsupportedPlacement "invalid PG geometry"
      else
        let rawPg : Pg := { pool := poolId.toNat, seed := hash.toNat, preferred := -1 }
        let placementPg := stableMod hash.toNat pool.placementPgCount
        .ok {
          rawHash := hash
          rawPg
          pg := { rawPg with seed := stableMod hash.toNat pool.pgCount }
          placementSeed := hash32Pair (.ofNat placementPg) (castUnsigned poolId) }

def mapObject (map : OsdMap) (poolId : Int) (object locator space : List UInt8) :
    Run MapError ObjectPlacement :=
  map.mapRawHash poolId (objectHash object locator space)

/-! ## The CRUSH map -/

def toMapError : Fault DecodeError → Fault MapError
  | .error (.wire _) => .error (.unsupportedPlacement "invalid CRUSH map")
  | .error .unsupported => .error (.unsupportedPlacement "unsupported CRUSH map")
  | .panic => .panic
  | .unfinished => .unfinished

/-- Any placement error is an invalid placement. -/
def invalidPlacement : Fault PlacementError → Fault MapError
  | .error _ => .error (.unsupportedPlacement "invalid CRUSH placement")
  | .panic => .panic
  | .unfinished => .unfinished

/-- Limits that no map of this size can exceed. -/
def crushLimits (payload : List UInt8) : DecodeLimits :=
  let structural := max (payload.length / 4) 1
  { maxBytes := payload.length, maxBuckets := structural, maxRules := structural
    maxItems := structural, maxNames := structural }

def decodeCrushMap (map : OsdMap) : Run MapError ValidatedMap := do
  if map.crushData.length > 2 ^ 32 - 1 then
    unsupportedPlacement "CRUSH map exceeds supported size"
  else
    let crush ← (Crush.Map.decode map.crushData (crushLimits map.crushData)).mapError toMapError
    (ValidatedMap.new crush).mapError invalidPlacement

/-! ## The states of OSDs -/

def osdExists (map : OsdMap) (osd : Int) : Bool :=
  (osdEntry map.osdState osd).any fun state => state &&& 1 ≠ 0

def isUp (map : OsdMap) (osd : Int) : Bool :=
  (osdEntry map.osdState osd).any fun state => state &&& 1 ≠ 0 ∧ state &&& 2 ≠ 0

/-- The OSDs that are up; the others leave a hole if the slots matter. -/
def onlyUp (map : OsdMap) (source : List Int) (preserveSlots : Bool) : List Int :=
  source.filterMap fun osd =>
    if map.isUp osd then some osd else if preserveSlots then some itemNone else none

/-! ## Overrides of the up set -/

def nonexistentReason (name : String) : String :=
  if name = "pg_upmap" then "pg_upmap references nonexistent OSD"
  else if name = "pg_temp" then "pg_temp references nonexistent OSD"
  else "placement set references nonexistent OSD"

def duplicateReason (name : String) : String :=
  if name = "pg_upmap" then "pg_upmap contains duplicate OSD"
  else if name = "pg_temp" then "pg_temp contains duplicate OSD"
  else "placement set contains duplicate OSD"

/-- Every OSD of a set exists and, unless duplicates are allowed, has not been seen before. -/
def validateFrom (map : OsdMap) (name : String) (allowDuplicates : Bool) :
    List Int → List Int → Run MapError Unit
  | _, [] => .ok ()
  | seen, osd :: osds =>
    if osd = itemNone then map.validateFrom name allowDuplicates seen osds
    else if map.osdExists osd = false then unsupportedPlacement (nonexistentReason name)
    else if allowDuplicates = false ∧ osd ∈ seen then unsupportedPlacement (duplicateReason name)
    else map.validateFrom name allowDuplicates (osd :: seen) osds

def validatePlacementSet (map : OsdMap) (name : String) (osds : List Int)
    (allowDuplicates : Bool) : Run MapError Unit :=
  map.validateFrom name allowDuplicates [] osds

/-- The replacement for a group names OSDs that exist, each of them once. -/
def validateReplacement (map : OsdMap) (pg : Pg) : Run MapError Unit :=
  match map.pgUpmap[pg]? with
  | none => .ok ()
  | some replacement => map.validatePlacementSet "pg_upmap" replacement false

def validateUpmap (map : OsdMap) (pg : Pg) : Run MapError Unit := do
  map.validateReplacement pg
  if ((map.pgUpmapItems[pg]?).getD []).all fun remap =>
      remap.target = itemNone ∨ map.osdExists remap.target then
    .ok ()
  else unsupportedPlacement "pg_upmap_items references nonexistent OSD"

/-- The OSD has no weight left. -/
def isOut (map : OsdMap) (osd : Int) : Bool :=
  osd ≠ itemNone ∧ osdEntry map.osdWeight osd = some 0

/-- Looks through a set for the target of a remap and, up to there, for its source.  A target
that is out is not moved to. -/
def scanRemap (map : OsdMap) (remap : OsdRemap) :
    List Int → Nat → Option Nat → Bool × Option Nat
  | [], _, position => (false, position)
  | osd :: osds, index, position =>
    if osd = remap.target then (true, position)
    else if osd = remap.source ∧ position = none ∧ map.isOut remap.target = false then
      map.scanRemap remap osds (index + 1) (some index)
    else map.scanRemap remap osds (index + 1) position

def applyRemap (map : OsdMap) (result : List Int) (remap : OsdRemap) : List Int :=
  match map.scanRemap remap result 0 none with
  | (false, some index) => result.set index remap.target
  | _ => result

/-- Exchanges the first OSD with a later one. -/
def swapPrimary (primary : Int) : List Int → List Int
  | [] => []
  | first :: rest =>
    match rest.idxOf? primary with
    | none => first :: rest
    | some index => primary :: rest.set index first

/-- The primary from the map's table, if it has a weight. -/
def upmapPrimary (map : OsdMap) (pg : Pg) (result : List Int) : List Int :=
  match map.pgUpmapPrimaries[pg]? with
  | none => result
  | some primary =>
    if primary ≠ itemNone ∧ (osdEntry map.osdWeight primary).any (· ≠ 0) then
      swapPrimary primary result
    else result

/-- Single remaps and the primary, after the whole replacement. -/
def applyUpmapItems (map : OsdMap) (pg : Pg) (result : List Int) : List Int :=
  map.upmapPrimary pg (((map.pgUpmapItems[pg]?).getD []).foldl map.applyRemap result)

/-- A replacement with an OSD that is out switches every override off. -/
def applyUpmap (map : OsdMap) (pg : Pg) (source : List Int) : List Int :=
  match map.pgUpmap[pg]? with
  | none => map.applyUpmapItems pg source
  | some replacement =>
    if replacement.all fun osd => ¬ map.isOut osd then map.applyUpmapItems pg replacement
    else source

/-! ## The primary -/

/-- The position of the first OSD that takes the part of primary, or the first that could. -/
def affinityPosition (map : OsdMap) (seed : UInt32) :
    List Int → Nat → Option Nat → Option Nat
  | [], _, position => position
  | osd :: osds, index, position =>
    if osd = itemNone then map.affinityPosition seed osds (index + 1) position
    else
      match osdEntry map.primaryAffinity osd with
      | none => map.affinityPosition seed osds (index + 1) position
      | some affinity =>
        if affinity < defaultPrimaryAffinity
            ∧ (hash32Pair seed (castUnsigned osd) >>> 16).toNat ≥ affinity then
          map.affinityPosition seed osds (index + 1) (position.or (some index))
        else some index

/-- The OSDs and the primary after the choice of a primary.  In a replicated pool it moves to
the front. -/
def applyPrimaryAffinity (map : OsdMap) (seed : UInt32) (osds : List Int) (primary : Int)
    (shiftPrimary : Bool) : Run MapError (List Int × Int) :=
  if map.primaryAffinity = [] then .ok (osds, primary)
  else
    match map.affinityPosition seed osds 0 none with
    | none => .ok (osds, primary)
    | some position => do
        let chosen ← index osds position
        if shiftPrimary ∧ position > 0 then .ok (chosen :: osds.eraseIdx position, chosen)
        else .ok (osds, chosen)

/-- The temporary set and the temporary primary of a group. -/
def tempMapping (map : OsdMap) (pg : Pg) (preserveSlots : Bool) :
    Run MapError (List Int × Int) :=
  let primary := (map.primaryTemp[pg]?).getD (-1)
  match map.pgTemp[pg]? with
  | none => .ok ([], primary)
  | some source => do
      map.validatePlacementSet "pg_temp" source preserveSlots
      let result := map.onlyUp source preserveSlots
      .ok (result, if primary = -1 then firstOsd result else primary)

/-! ## Placing -/

/-- The sets of a placement group. -/
structure PlacedSets where
  raw : List Int
  up : List Int
  upPrimary : Int
  acting : List Int
  actingPrimary : Int
  deriving DecidableEq, Repr

def rawSet (fuel : Nat) (map : OsdMap) (pool : Pool) (seed : UInt32) :
    Run MapError (List Int) := do
  let crush ← map.decodeCrushMap
  (crush.place fuel pool.crushRule seed pool.size map.osdWeight).mapError invalidPlacement

def upSet (map : OsdMap) (pg : Pg) (seed : UInt32) (sharded : Bool) (raw : List Int) :
    Run MapError (List Int × Int) :=
  let up := map.onlyUp (map.applyUpmap pg raw) sharded
  map.applyPrimaryAffinity seed up (firstOsd up) (!sharded)

/-- A primary, if there is one, has to stand in its set. -/
def checkPrimary (acting : List Int) (actingPrimary : Int) : Run MapError (List Int × Int) :=
  if actingPrimary ≠ -1 ∧ actingPrimary ∉ acting then
    unsupportedPlacement "temporary primary is not in the acting set"
  else .ok (acting, actingPrimary)

/-- The acting set: the temporary one, or the up set if that is empty. -/
def actingSet (map : OsdMap) (pg : Pg) (sharded : Bool) (up : List Int) (upPrimary : Int) :
    Run MapError (List Int × Int) := do
  let (temp, tempPrimary) ← map.tempMapping pg sharded
  checkPrimary (if temp = [] then up else temp)
    (if temp = [] ∧ tempPrimary = -1 then upPrimary else tempPrimary)

def placedSets (fuel : Nat) (map : OsdMap) (pool : Pool) (pg : Pg) (seed : UInt32) :
    Run MapError PlacedSets := do
  let raw ← map.rawSet fuel pool seed
  map.validateUpmap pg
  let sharded : Bool := pool.poolType = poolTypeErasure
  let (up, upPrimary) ← map.upSet pg seed sharded raw
  let (acting, actingPrimary) ← map.actingSet pg sharded up upPrimary
  return { raw, up, upPrimary, acting, actingPrimary }

/-- The position of the primary of an erasure pool, which the wire carries in seven bits. -/
def shardOf (pool : Pool) (acting : List Int) (actingPrimary : Int) :
    Run MapError (Option Nat) :=
  if pool.poolType = poolTypeErasure then
    match acting.idxOf? actingPrimary with
    | none => .ok none
    | some index =>
      if index > 127 then unsupportedPlacement "erasure primary shard exceeds wire range"
      else .ok (some index)
  else .ok none

/-- What a pool must be like for its objects to be placed. -/
def checkPool (pool : Pool) : Run MapError Unit :=
  if pool.poolType ≠ poolTypeReplicated ∧ pool.poolType ≠ poolTypeErasure then
    unsupportedPlacement "unsupported pool type"
  else if pool.poolType = poolTypeErasure ∧ pool.flags &&& poolFlagEcOptimizations ≠ 0 then
    unsupportedPlacement "optimized erasure placement is not supported"
  else if pool.size = 0 then unsupportedPlacement "pool has zero replicas"
  else .ok ()

/-- Fills the sets of its placement group into a placement. -/
def fillIn (placement : ObjectPlacement) (sets : PlacedSets) (shard : Option Nat) :
    ObjectPlacement :=
  { placement with
    raw := sets.raw, up := sets.up, upPrimary := sets.upPrimary, acting := sets.acting
    actingPrimary := sets.actingPrimary
    primaryShard := (shard.map Int.ofNat).getD placement.primaryShard
    sharded := shard.isSome || placement.sharded }

def placeMapped (fuel : Nat) (map : OsdMap) (poolId : Int) (placement : ObjectPlacement) :
    Run MapError ObjectPlacement :=
  match map.pools[poolId]? with
  | none => unsupportedPlacement "pool does not exist"
  | some pool => do
      checkPool pool
      let sets ← map.placedSets fuel pool placement.pg placement.placementSeed
      let shard ← shardOf pool sets.acting sets.actingPrimary
      return fillIn placement sets shard

def placeObject (fuel : Nat) (map : OsdMap) (poolId : Int) (object locator space : List UInt8) :
    Run MapError ObjectPlacement := do
  let placement ← map.mapObject poolId object locator space
  map.placeMapped fuel poolId placement

def placeRawHash (fuel : Nat) (map : OsdMap) (poolId : Int) (hash : UInt32) :
    Run MapError ObjectPlacement := do
  let placement ← map.mapRawHash poolId hash
  map.placeMapped fuel poolId placement

end OsdMap

end RadosRs.Maps
