import RadosRs.Maps.Types

/-!
# Pools

What a map of the cluster knows about a pool, and how it is read.  The encoding has
grown over many versions: a field that came with a version is read if the record is
of that version or a later one.  The fields the client has no use for are read and
dropped, since what follows them has to be found.

The pool's id and its name are not in the record.  Whoever reads it fills them in.
-/

namespace RadosRs.Maps

open Wire Wire.Reader Fallible
open Std (ExtTreeMap ExtTreeSet)

def poolTypeReplicated : Nat := 1
def poolTypeErasure : Nat := 3

/-- A setting of a pool; a double is kept as its bits. -/
inductive PoolOption where
  | string (value : Text)
  | integer (value : Int)
  | double (bits : Nat)
  deriving DecidableEq, Repr

structure PoolSnapshot where
  id : Nat
  name : Text
  timestamp : UTime
  deriving DecidableEq, Repr

structure Interval where
  start : Nat
  length : Nat
  deriving DecidableEq, Repr

abbrev StringMap := ExtTreeMap Text Text

instance : LawfulBEq StringMap := inferInstance

structure Pool where
  id : Int := 0
  name : Text := []
  poolType : Nat
  size : Nat
  minimumSize : Nat
  crushRule : Nat
  objectHash : Nat
  pgCount : Nat
  placementPgCount : Nat
  stripeWidth : Nat
  flags : Nat
  snapshotSequence : Nat
  snapshots : ExtTreeMap Nat PoolSnapshot
  erasureCodeProfile : Text
  applicationMetadata : ExtTreeMap Text StringMap
  options : ExtTreeMap Int PoolOption
  deriving DecidableEq

/-! ## Parts of the record -/

/-- A part of a record that came with a version. -/
def since {α : Type} (version bound : Nat) (absent : α) (part : Reader MapError α) :
    Reader MapError α :=
  if version ≥ bound then part else return absent

/-- Reads a part and drops it. -/
def consume {α : Type} (part : Reader MapError α) : Reader MapError Unit := do
  let _ ← part
  return ()

def unsupported (localVersion required : Nat) : MapError :=
  .wire (.unsupportedVersion localVersion required)

def decodeIntervals (maximum : Nat) : Reader MapError (List Interval) := do
  let count ← boundedCount maximum 16
  let values ← times count do
    let start ← u64
    let length ← u64
    return { start, length }
  finish
  return values

def consumeU64Set (maximum : Nat) : Reader MapError Unit := do
  let count ← boundedCount maximum 8
  let _ ← times count u64
  finish

def decodeStringMap (limits : Limits) (maximum : Nat) : Reader MapError StringMap := do
  let count ← boundedCount maximum 8
  let values ← decodeEntries "duplicate string key" count do
    let key ← decodeText limits
    let value ← decodeText limits
    return (key, value)
  finish
  return .ofList values

/-- The entries of a table of tables. -/
def decodeNestedStringMap (limits : Limits) (maximum : Nat) :
    Reader MapError (List (Text × StringMap)) := do
  let count ← boundedCount maximum 8
  let values ← decodeEntries "duplicate nested string key" count do
    let key ← decodeText limits
    let value ← decodeStringMap limits maximum
    return (key, value)
  finish
  return values

def skipVersioned (localVersion : Nat) : Reader MapError Unit := do
  let (_, payload) ← versioned localVersion
  finish
  inside payload finish

/-- A number in groups of seven bits, with a number of bytes left for it. -/
def consumeVarint : Nat → Reader MapError Unit
  | 0 => fail (.wire .malformed)
  | left + 1 => do
      let value ← u8
      finish
      if value &&& 0x80 = 0 then rejectIf (left = 0 ∧ value > 1) (.wire .malformed)
      else consumeVarint left

def consumeUnsignedVarint : Reader MapError Unit := consumeVarint 10

def decodeOption (limits : Limits) (version : Nat) : Reader MapError PoolOption := do
  let kind ← i32
  if kind = 0 then return .string (← decodeText limits)
  else if kind = 1 then
    if version ≥ 2 then return .integer (← i64) else return .integer (← i32)
  else if kind = 2 then return .double (← u64)
  else fail (.malformed "unsupported pool option type")

def decodeOptionTable (limits : Limits) (version : Nat) :
    Reader MapError (ExtTreeMap Int PoolOption) := do
  let count ← boundedCount limits.maxCollectionEntries 8
  let values ← decodeEntries "duplicate pool option" count do
    let key ← i32
    let option ← decodeOption limits version
    return (key, option)
  finish
  return .ofList values

def decodePoolOptions (limits : Limits) : Reader MapError (ExtTreeMap Int PoolOption) := do
  let (version, payload) ← versioned 2
  finish
  rejectIf (version < 1) (unsupported 2 1)
  inside payload (decodeOptionTable limits version)

def decodeSnapshot (limits : Limits) : Reader MapError PoolSnapshot := do
  let id ← u64
  let timestamp ← decodeUtime
  let name ← decodeText limits
  finish
  return { id, name, timestamp }

/-- A snapshot under its own id, with an id and a name that no other one has. -/
def insertSnapshot (limits : Limits) (table : ExtTreeMap Nat PoolSnapshot × ExtTreeSet Text)
    (_ : Nat) : Reader MapError (ExtTreeMap Nat PoolSnapshot × ExtTreeSet Text) := do
  let (values, names) := table
  let key ← u64
  let (version, payload) ← versioned 2
  finish
  rejectIf (version < 2) (unsupported 2 2)
  let snapshot ← inside payload (decodeSnapshot limits)
  rejectIf (key ≠ snapshot.id ∨ key ∈ values ∨ snapshot.name ∈ names)
    (.malformed "duplicate or mismatched pool snapshot")
  return (values.insert key snapshot, names.insert snapshot.name)

def decodePoolSnapshots (limits : Limits) : Reader MapError (ExtTreeMap Nat PoolSnapshot) := do
  let count ← boundedCount limits.maxCollectionEntries 14
  let (values, _) ← (List.range count).foldlM (insertSnapshot limits) (∅, ∅)
  finish
  return values

/-! ## The record -/

/-- The cache tiers of a pool and what belongs to them, from version 8 to version 11. -/
def consumeTiers (limits : Limits) (version : Nat) : Reader MapError Unit := do
  since version 8 () (consume (times 2 u64))
  since version 9 () do
    consumeU64Set limits.maxCollectionEntries
    let _ ← i64
    let _ ← u8
    let _ ← i64
    let _ ← i64
  since version 10 () (consume (decodeStringMap limits limits.maxCollectionEntries))
  since version 11 () do
    skipVersioned 1
    let _ ← u32
    let _ ← u32

/-- The numbers from version 15 to version 23. -/
def consumeTierNumbers (version : Nat) : Reader MapError Unit := do
  since version 15 () (consume u32)
  since version 16 () (consume u32)
  since version 17 () (consume u64)
  since version 19 () (consume u32)
  since version 20 () (consume u32)
  since version 21 () (consume bool)
  since version 22 () (consume bool)
  since version 23 () (consume (times 2 u32))

/-- Numbers that version 30 alone has without a flag in front. -/
def consumeThirty (version : Nat) : Reader MapError Unit :=
  if version = 30 then do
    let _ ← times 3 u32
    let _ ← i32
    return ()
  else return ()

/-- What has come after the application metadata. -/
def consumeTail (version : Nat) : Reader MapError Unit := do
  since version 27 () (consume decodeUtime)
  since version 28 () do
    let _ ← times 6 u32
    let _ ← u8
  since version 29 () (skipVersioned 1)
  consumeThirty version
  since version 31 () do
    if ← bool then consume (times 4 u32) else return ()
  since version 32 () do
    consumeUnsignedVarint
    consumeUnsignedVarint

def decodePoolBody (limits : Limits) (version : Nat) : Reader MapError Pool := do
  let poolType ← u8
  let size ← u8
  let crushRule ← u8
  let objectHash ← u8
  let pgCount ← u32
  let placementPgCount ← u32
  let _ ← times 3 u32
  let snapshotSequence ← u64
  let _ ← u32
  let snapshots ← decodePoolSnapshots limits
  let _ ← decodeIntervals limits.maxCollectionEntries
  let _ ← u64
  let flags ← since version 4 0 do
    let flags ← u64
    let _ ← u32
    return flags
  let minimumSize ← since version 7 (size - size / 2) u8
  consumeTiers limits version
  let stripeWidth ← since version 12 0 u32
  since version 13 () do
    let _ ← times 2 u64
    let _ ← times 4 u32
  let erasureCodeProfile ← since version 14 [] (decodeText limits)
  consumeTierNumbers version
  let options ← since version 24 ∅ (decodePoolOptions limits)
  since version 25 () (consume u32)
  let applicationMetadata ← since version 26 []
    (decodeNestedStringMap limits limits.maxCollectionEntries)
  consumeTail version
  finish
  return {
    poolType, size, minimumSize, crushRule, objectHash, pgCount, placementPgCount, stripeWidth
    flags, snapshotSequence, snapshots, erasureCodeProfile
    applicationMetadata := .ofList applicationMetadata, options }

def decodePool (limits : Limits) : Reader MapError Pool := do
  let (version, payload) ← versioned 32
  finish
  rejectIf (version < 5) (unsupported 32 5)
  inside payload (decodePoolBody limits version)

/-- Numbers of 32 bits. -/
structure Pool.Sized (pool : Pool) : Prop where
  pgCount : pool.pgCount < 2 ^ 32
  placementPgCount : pool.placementPgCount < 2 ^ 32

end RadosRs.Maps
