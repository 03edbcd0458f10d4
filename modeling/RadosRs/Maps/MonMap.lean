import RadosRs.Lib.Table
import RadosRs.Maps.Pool
import RadosRs.Protocol.Address

/-!
# The map of the monitors

The monitors by name, with their addresses, and the order of their ranks.  The record
lists the monitors first and the names in the order of the ranks after that, and
decoding makes sure that the second list has every name of the first one exactly once.
Everything follows `src/maps/monmap.rs`.
-/

namespace RadosRs.Maps

open Wire Wire.Reader Fallible
open Msgr (EntityAddr)
open Protocol (decodeEntityAddrVec)
open Std (ExtTreeMap)

structure Monitor where
  name : Text
  addresses : List EntityAddr
  priority : Nat
  weight : Nat
  location : StringMap
  deriving DecidableEq

structure MonMap where
  fsid : Fsid
  epoch : Nat
  lastChanged : UTime
  created : UTime
  persistentFeatures : Nat
  optionalFeatures : Nat
  monitors : ExtTreeMap Text Monitor
  ranks : List Text
  minimumMonitorRelease : Nat
  removedRanks : List Nat
  electionStrategy : Nat
  disallowedLeaders : List Text
  stretchMode : Bool
  tiebreakerMonitor : Text
  stretchMarkedDown : List Text
  deriving DecidableEq

def decodeMonitorFeatures : Reader MapError Nat := do
  let (_, payload) ← versioned 1
  finish
  inside payload do
    let features ← u64
    finish
    return features

def decodeLocation (limits : Limits) : Reader MapError StringMap := do
  let count ← boundedCount limits.maxLocations 8
  let entries ← decodeEntries "duplicate monitor location" count do
    let key ← decodeText limits
    let value ← decodeText limits
    return (key, value)
  return .ofList entries

def decodeMonitorBody (limits : Limits) (version : Nat) : Reader MapError Monitor := do
  let name ← decodeText limits
  let addresses ← decodeEntityAddrVec limits.maxAddresses
  let priority ← since version 2 0 u16
  let weight ← since version 4 0 u16
  let location ← since version 5 ∅ (decodeLocation limits)
  finish
  return { name, addresses, priority, weight, location }

def decodeMonitor (limits : Limits) : Reader MapError Monitor := do
  let (version, payload) ← versioned 5
  finish
  rejectIf (version < 1) (unsupported 5 1)
  inside payload (decodeMonitorBody limits version)

def decodeMonitors (limits : Limits) : Reader MapError (List (Text × Monitor)) := do
  let count ← boundedCount limits.maxMonitors 5
  decodeEntries "duplicate or mismatched monitor" count do
    let key ← decodeText limits
    let monitor ← decodeMonitor limits
    rejectIf (key ≠ monitor.name) (.malformed "duplicate or mismatched monitor")
    return (key, monitor)

/-- The names in the order of the ranks. -/
def decodeRanks (limits : Limits) (monitors : List (Text × Monitor)) :
    Reader MapError (List Text) := do
  let ranks ← decodeStrings limits limits.maxMonitors
  rejectIf (ranks.length ≠ monitors.length) (.malformed "monitor rank count mismatch")
  rejectIf (¬ (ranks.Nodup ∧ ∀ name ∈ ranks, name ∈ monitors.map Prod.fst))
    (.malformed "invalid monitor rank")
  return ranks

/-- What came with the eighth version. -/
def decodeElection (limits : Limits) : Reader MapError (List Nat × Nat × List Text) := do
  let removedRanks ← decodeU32s limits.maxMonitors
  let strategy ← u8
  let disallowed ← decodeStrings limits limits.maxMonitors
  return (removedRanks, strategy, disallowed)

/-- What came with the ninth version. -/
def decodeStretch (limits : Limits) : Reader MapError (Bool × Text × List Text) := do
  let mode ← bool
  let tiebreaker ← decodeText limits
  let markedDown ← decodeStrings limits limits.maxMonitors
  return (mode, tiebreaker, markedDown)

def requireTimestamp (value : UTime) : Reader MapError Unit :=
  rejectIf (value.nanoseconds ≥ 1000000000) (.malformed "invalid timestamp")

def decodeMonmapBody (limits : Limits) (version : Nat) : Reader MapError MonMap := do
  let fsid ← decodeFsid
  let epoch ← u32
  let lastChanged ← decodeUtime
  let created ← decodeUtime
  let persistentFeatures ← decodeMonitorFeatures
  let optionalFeatures ← decodeMonitorFeatures
  let monitors ← decodeMonitors limits
  let ranks ← decodeRanks limits monitors
  let minimumMonitorRelease ← since version 7 0 u8
  let (removedRanks, electionStrategy, disallowedLeaders) ←
    since version 8 ([], 0, []) (decodeElection limits)
  let (stretchMode, tiebreakerMonitor, stretchMarkedDown) ←
    since version 9 (false, [], []) (decodeStretch limits)
  finish
  return {
    fsid, epoch, lastChanged, created, persistentFeatures, optionalFeatures
    monitors := .ofList monitors, ranks, minimumMonitorRelease, removedRanks, electionStrategy
    disallowedLeaders, stretchMode, tiebreakerMonitor, stretchMarkedDown }

/-- The times are checked last. -/
def decodeMonmapWhole (limits : Limits) : Reader MapError MonMap := do
  let (version, payload) ← versioned 9
  finish
  rejectIf (version < 6) (unsupported 9 6)
  let map ← inside payload (decodeMonmapBody limits version)
  finish
  let left ← remaining
  rejectIf (left ≠ 0) (.malformed "trailing monmap bytes")
  requireTimestamp map.lastChanged
  requireTimestamp map.created
  return map

def decodeMonmap (data : List UInt8) (limits : Limits) : Run MapError MonMap :=
  if limits.maxBytes = 0 ∨ limits.maxMonitors = 0 ∨ limits.maxAddresses = 0
      ∨ limits.maxLocations = 0 then
    fail (.wire .limitExceeded)
  else do
    let (map, _) ← decodeMonmapWhole limits (.new data limits.maxBytes)
    return map

/-! ## What decoding ensures -/

/-- Every monitor stands under its name and has one rank. -/
structure MonMap.Ranked (map : MonMap) : Prop where
  named : ∀ (name : Text) (monitor : Monitor), map.monitors[name]? = some monitor →
    monitor.name = name
  once : map.ranks.Nodup
  all : ∀ name, name ∈ map.ranks ↔ name ∈ map.monitors

variable {limits : Limits}

theorem gives_decodeMonitors :
    Gives (decodeMonitors limits) fun monitors =>
      (monitors.map Prod.fst).Nodup ∧ ∀ entry ∈ monitors, entry.2.name = entry.1 :=
  .skip fun _ => gives_decodeEntries (.skip fun _ => .skip fun _ =>
    .bind .rejectIf fun _ same => .pure (not_not.mp same).symm)

theorem gives_decodeRanks {monitors : List (Text × Monitor)} :
    Gives (decodeRanks limits monitors) fun ranks =>
      ranks.length = monitors.length ∧ ranks.Nodup ∧ ∀ name ∈ ranks, name ∈ monitors.map Prod.fst :=
  .skip fun _ => .bind .rejectIf fun _ length => .bind .rejectIf fun _ proper =>
    .pure ⟨not_not.mp length, not_not.mp proper⟩

theorem gives_decodeMonmapBody {version : Nat} :
    Gives (decodeMonmapBody limits version) MonMap.Ranked := by
  iterate 6 refine .skip fun _ => ?_
  refine .bind gives_decodeMonitors fun monitors known => ?_
  refine .bind gives_decodeRanks fun ranks proper => ?_
  iterate 4 refine .skip fun _ => ?_
  obtain ⟨length, once, inside⟩ := proper
  refine .pure ⟨fun name monitor found => ?_, once, fun name => ?_⟩
  · exact known.2 (name, monitor) ((Table.lookup_ofList known.1).mp found)
  have perm : ranks.Perm (monitors.map Prod.fst) :=
    (List.subperm_of_subset once inside).perm_of_length_le (by rw [List.length_map, length])
  rw [ExtTreeMap.mem_ofList, List.contains_iff_mem, perm.mem_iff]

theorem decodeMonmap_ranked {data : List UInt8} {map : MonMap}
    (h : decodeMonmap data limits = .ok map) : map.Ranked := by
  have whole : Gives (decodeMonmapWhole limits) MonMap.Ranked :=
    .skip fun _ => .skip fun _ => .skip fun _ => .bind (.inside gives_decodeMonmapBody) fun _ ranked =>
      .skip fun _ => .skip fun _ => .skip fun _ => .skip fun _ => .skip fun _ => .pure ranked
  unfold decodeMonmap at h
  split at h
  · cases h
  obtain ⟨⟨result, rest⟩, read, h⟩ := bind_eq_ok.mp h
  cases h
  exact whole _ _ _ read

/-- The monitors `a` and `b`, with `b` in front. -/
def sampleMonmap : List UInt8 :=
  let features : List UInt8 := [1, 1, 8, 0, 0, 0, 0, 0, 0, 0, 0, 0, 0, 0]
  let monitor (name : UInt8) : List UInt8 :=
    [1, 0, 0, 0, name, 1, 1, 10, 0, 0, 0, 1, 0, 0, 0, name, 2, 0, 0, 0, 0]
  [6, 6, 124, 0, 0, 0] ++ List.replicate 16 7 ++ [3, 0, 0, 0] ++ List.replicate 16 0 ++ features ++
    features ++ [2, 0, 0, 0] ++ monitor 97 ++ monitor 98 ++
    [2, 0, 0, 0, 1, 0, 0, 0, 98, 1, 0, 0, 0, 97]

theorem decodeMonmap_ranked_two :
    let limits : Limits :=
      { maxBytes := 200, maxMonitors := 2, maxAddresses := 1, maxLocations := 1, text := id }
    ∃ map, decodeMonmap sampleMonmap limits = .ok map ∧ map.ranks = [[98], [97]] ∧ map.Ranked := by
  intro limits
  have decoded : (decodeMonmap sampleMonmap limits).map MonMap.ranks = .ok [[98], [97]] := by
    decide +kernel
  cases read : decodeMonmap sampleMonmap limits with
  | error fault =>
    rw [read] at decoded
    cases decoded
  | ok map =>
    rw [read] at decoded
    exact ⟨map, rfl, Except.ok.inj decoded, decodeMonmap_ranked read⟩

end RadosRs.Maps
