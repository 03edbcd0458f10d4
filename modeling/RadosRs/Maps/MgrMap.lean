import RadosRs.Maps.MonMap

/-!
# The map of the managers

The client wants to know which manager is active and where it is.  The rest of the
record, the standbys and the modules with their options, is read and dropped, but for
each of its tables decoding makes sure that no key comes twice.  Everything follows
`src/maps/mgrmap.rs`.
-/

namespace RadosRs.Maps

open Wire Wire.Reader Fallible
open Msgr (EntityAddr)
open Protocol (decodeEntityAddrVec)

structure MgrMap where
  epoch : Nat
  activeGid : Nat
  available : Bool
  activeName : Text
  activeAddresses : List EntityAddr
  activeFeatures : Nat
  deriving DecidableEq, Repr

def decodeCanonicalBool : Reader MapError Bool := do
  let value ← u8
  finish
  rejectIf (value > 1) (.malformed "non-canonical boolean")
  return value = 1

/-- A number of entries with different keys, which are not kept. -/
def consumeDistinct {κ : Type} [DecidableEq κ] (reason : String) (maximum minimumBytes : Nat)
    (key : Reader MapError κ) (rest : κ → Reader MapError Unit) : Reader MapError Unit := do
  let count ← boundedCount maximum minimumBytes
  let _ ← (List.range count).foldlM (fun seen _ => do
    let key ← key
    rejectIf (key ∈ seen) (.malformed reason)
    rest key
    return key :: seen) []
  finish

def consumeStringSet (limits : Limits) : Reader MapError Unit :=
  consumeDistinct "duplicate string set entry" limits.maxCollectionEntries 4 (decodeText limits)
    fun _ => return ()

def consumeModuleOption (limits : Limits) : Reader MapError Text := do
  let (version, payload) ← versioned 1
  finish
  rejectIf (version < 1) (unsupported 1 1)
  inside payload do
    let name ← decodeText limits
    consume u8
    consume u8
    consume u32
    consume (times 3 (decodeText limits))
    consumeStringSet limits
    consume (times 2 (decodeText limits))
    consumeStringSet limits
    consumeStringSet limits
    finish
    return name

def consumeModuleOptions (limits : Limits) : Reader MapError Unit :=
  consumeDistinct "duplicate mgr module option" limits.maxCollectionEntries 10 (decodeText limits)
    fun key => do
      let name ← consumeModuleOption limits
      rejectIf (name ≠ key) (.malformed "module option key/name mismatch")

def consumeModuleInfo (limits : Limits) : Reader MapError Text := do
  let (version, payload) ← versioned 2
  finish
  rejectIf (version < 1) (unsupported 2 1)
  inside payload do
    let name ← decodeText limits
    consume decodeCanonicalBool
    consume (decodeText limits)
    since version 2 () (consumeModuleOptions limits)
    finish
    return name

def consumeModuleInfoVector (limits : Limits) : Reader MapError Unit :=
  consumeDistinct "duplicate mgr module" limits.maxCollectionEntries 6 (consumeModuleInfo limits)
    fun _ => return ()

def consumeStandby (limits : Limits) : Reader MapError Nat := do
  let (version, payload) ← versioned 4
  finish
  rejectIf (version < 1) (unsupported 4 1)
  inside payload do
    let gid ← u64
    consume (decodeText limits)
    since version 2 () (consumeStringSet limits)
    since version 3 () (consumeModuleInfoVector limits)
    since version 4 () (consume u64)
    finish
    return gid

def consumeStandbys (limits : Limits) : Reader MapError Unit :=
  consumeDistinct "duplicate mgr standby" limits.maxCollectionEntries 14 u64 fun key => do
    let gid ← consumeStandby limits
    rejectIf (key ≠ gid) (.malformed "standby key/GID mismatch")

def consumeAlwaysOnModules (limits : Limits) : Reader MapError Unit :=
  consumeDistinct "duplicate mgr release" limits.maxCollectionEntries 8 u32 fun _ =>
    consumeStringSet limits

/-- The clients of the manager, whose names came a version after their addresses. -/
def consumeClients (limits : Limits) (version : Nat) : Reader MapError Unit := do
  let count ← boundedCount limits.maxCollectionEntries 1
  consume (times count (decodeEntityAddrVec limits.maxAddresses : Reader MapError _))
  since version 12 () do
    let names ← decodeStrings limits limits.maxCollectionEntries
    rejectIf (names.length ≠ count) (.malformed "mgr client name/address count mismatch")

def decodeMgrmapBody (limits : Limits) (version : Nat) : Reader MapError MgrMap := do
  let epoch ← u32
  let activeAddresses ← decodeEntityAddrVec limits.maxAddresses
  let activeGid ← u64
  let available ← decodeCanonicalBool
  let activeName ← decodeText limits
  consumeStandbys limits
  consumeStringSet limits
  consume (decodeStringMap limits limits.maxCollectionEntries)
  consumeModuleInfoVector limits
  since version 7 () do
    let changed ← decodeUtime
    requireTimestamp changed
  since version 8 () (consumeAlwaysOnModules limits)
  let activeFeatures ← since version 9 0 u64
  since version 10 () (consume u32)
  since version 11 () (consumeClients limits version)
  since version 13 () (consume u64)
  since version 14 () (consumeStringSet limits)
  finish
  return { epoch, activeGid, available, activeName, activeAddresses, activeFeatures }

def decodeMgrmapWhole (limits : Limits) : Reader MapError MgrMap := do
  let (version, payload) ← versioned 14
  finish
  rejectIf (version < 6) (unsupported 14 6)
  let map ← inside payload (decodeMgrmapBody limits version)
  finish
  let left ← remaining
  rejectIf (left ≠ 0) (.malformed "trailing mgrmap bytes")
  return map

def decodeMgrmap (data : List UInt8) (limits : Limits) : Run MapError MgrMap :=
  if limits.maxBytes = 0 ∨ limits.maxAddresses = 0 ∨ limits.maxCollectionEntries = 0 then
    fail (.wire .limitExceeded)
  else do
    let (map, _) ← decodeMgrmapWhole limits (.new data limits.maxBytes)
    return map

end RadosRs.Maps
