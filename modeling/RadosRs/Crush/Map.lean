import Mathlib.Data.List.Basic
import RadosRs.Wire.Reader

/-!
# The CRUSH map

A CRUSH map has buckets, which hold devices and other buckets, rules, which say
how to choose devices, and a few tunables.  Devices are numbered from zero;
buckets have negative ids.  `decode` reads a map and accepts it only if
`validateGraph` finds every item of every bucket to be a device or a bucket of
the map, no bucket inside itself and no chain of more than 64 buckets.

The definitions follow `src/crush/map.rs`.  Bucket and rule tables are maps that
are equal when they have the same entries.
-/

namespace RadosRs.Crush

open Wire Wire.Reader Fallible
open Std (ExtTreeMap ExtTreeSet)

def magic : Nat := 0x00010000
def bucketStraw2 : Nat := 5
def hashRjenkins1 : Nat := 0
def ruleTake : Nat := 1
def ruleChooseFirstN : Nat := 2
def ruleChooseIndep : Nat := 3
def ruleEmit : Nat := 4
def ruleChooseleafFirstN : Nat := 6
def ruleSetChooseTries : Nat := 8
def ruleSetChooseleafTries : Nat := 9
def ruleTypeReplicated : Nat := 1
def ruleTypeErasure : Nat := 3

def maxCertifiedRetries : Nat := 1000
def maxCertifiedDepth : Nat := 64

inductive DecodeError where
  | wire (error : WireError)
  | unsupported
  deriving DecidableEq, Repr

instance : OfWire DecodeError := ⟨.wire⟩

inductive GraphError where
  | malformed
  | depthExceeded
  deriving DecidableEq, Repr

structure DecodeLimits where
  maxBytes : Nat
  maxBuckets : Nat
  maxRules : Nat
  maxItems : Nat
  maxNames : Nat

structure Bucket where
  id : Int
  bucketType : Nat
  weight : Nat
  items : List Int
  itemWeights : List Nat
  deriving DecidableEq, Repr

structure RuleStep where
  operation : Nat
  argument1 : Int
  argument2 : Int
  deriving DecidableEq, Repr

structure Rule where
  ruleType : Nat
  minSize : Nat
  maxSize : Nat
  steps : List RuleStep
  deriving DecidableEq, Repr

structure Map where
  maxDevices : Int
  buckets : ExtTreeMap Int Bucket := ∅
  rules : ExtTreeMap Nat Rule := ∅
  chooseLocalTries : Nat := 2
  chooseLocalFallbackTries : Nat := 5
  chooseTotalTries : Nat := 19
  chooseleafDescendOnce : Nat := 0
  chooseleafVaryR : Nat := 0
  strawCalcVersion : Nat := 0
  allowedBucketAlgorithms : Nat := (1 <<< 1) ||| (1 <<< 2) ||| (1 <<< 4)
  chooseleafStable : Nat := 0
  msrDescents : Nat := 100
  msrCollisionTries : Nat := 100
  classShadowBuckets : ExtTreeSet Int := ∅
  deriving DecidableEq

def Map.hasBucketType (m : Map) (bucketType : Nat) : Bool :=
  m.buckets.values.any fun bucket => bucket.bucketType == bucketType

/-! ## The graph of buckets -/

/-- The state of a bucket during the search. -/
inductive Mark where
  | visiting
  | visited
  deriving DecidableEq, Repr

/-- What the search knows: the buckets it has come to and the heights of those it is done with. -/
structure Visit where
  states : ExtTreeMap Int Mark := ∅
  heights : ExtTreeMap Int Nat := ∅

/-- One item of a bucket: a device has to be in range, a bucket is visited with `visit`. -/
def visitItem (m : Map) (visit : Int → Visit → Run GraphError (Nat × Visit))
    (found : Nat × Visit) (item : Int) : Run GraphError (Nat × Visit) :=
  if item ≥ 0 then
    if item ≥ m.maxDevices then fail .malformed else .ok found
  else if item ∉ m.buckets then fail .malformed
  else do
    let (childHeight, state) ← visit item found.2
    return (max found.1 (childHeight + 1), state)

/-- Visits a bucket and gives its height.  `room` is what is left of the depth, one more than
the limit at depth zero. -/
def visitBucket (m : Map) : Nat → Int → Visit → Run GraphError (Nat × Visit)
  | 0, _, _ => fail .depthExceeded
  | room + 1, id, state =>
    let depth := maxCertifiedDepth - room
    match state.states[id]? with
    | some .visiting => fail .malformed
    | some .visited => do
        let height ← expect state.heights[id]?
        if depth + height - 1 > maxCertifiedDepth then fail .depthExceeded
        else return (height, state)
    | none =>
      match m.buckets[id]? with
      | none => fail .malformed
      | some bucket => do
          let entered := { state with states := state.states.insert id .visiting }
          let (height, left) ← bucket.items.foldlM (visitItem m (visitBucket m room)) (1, entered)
          return (height, { states := left.states.insert id .visited
                            heights := left.heights.insert id height })

def Map.validateGraph (m : Map) : Run GraphError Unit := do
  let _ ← m.buckets.keys.foldlM
    (fun state id => do
      let (_, state) ← visitBucket m maxCertifiedDepth id state
      return state)
    ({} : Visit)
  return ()

/-! ## Decoding -/

def decodeBucket (limits : DecodeLimits) (buckets : ExtTreeMap Int Bucket) (index : Nat) :
    Reader DecodeError (ExtTreeMap Int Bucket) := do
  let algorithm ← u32
  if algorithm = 0 then return buckets
  else
    rejectIf (algorithm ≠ bucketStraw2) .unsupported
    let id ← i32
    let bucketType ← u16
    let encodedAlgorithm ← u8
    let hash ← u8
    let weight ← u32
    let count ← u32
    finish
    rejectIf (id ≠ -1 - index ∨ encodedAlgorithm ≠ bucketStraw2 ∨ hash ≠ hashRjenkins1)
      (.wire .malformed)
    rejectIf (count > limits.maxItems) (.wire .limitExceeded)
    let left ← remaining
    rejectIf (count * 8 > left) (.wire .malformed)
    let items ← times count i32
    let itemWeights ← times count u32
    return buckets.insert id { id, bucketType, weight, items, itemWeights }

def decodeStep : Reader DecodeError RuleStep := do
  let operation ← u32
  let argument1 ← i32
  let argument2 ← i32
  return { operation, argument1, argument2 }

def decodeRule (limits : DecodeLimits) (rules : ExtTreeMap Nat Rule) (index : Nat) :
    Reader DecodeError (ExtTreeMap Nat Rule) := do
  let present ← u32
  if present = 0 then return rules
  else
    let count ← u32
    rejectIf (count > limits.maxItems) (.wire .limitExceeded)
    let left ← remaining
    rejectIf (count * 12 + 4 > left) (.wire .malformed)
    let ruleId ← u8
    let ruleType ← u8
    let minSize ← u8
    let maxSize ← u8
    rejectIf (ruleId ≠ index) (.wire .malformed)
    let steps ← times count decodeStep
    return rules.insert index { ruleType, minSize, maxSize, steps }

def consumeNameMap (maximum : Nat) : Reader DecodeError Unit := do
  let count ← boundedCount maximum 4
  let _ ← times count do
    let _ ← i32
    blob
  finish

def consumeIntMap (maximum : Nat) : Reader DecodeError Unit := do
  let count ← boundedCount maximum 8
  let _ ← times count do
    let _ ← i32
    i32
  finish

/-- The inner values of a map of maps. -/
def consumeNestedIntMap (maximum : Nat) : Reader DecodeError (ExtTreeSet Int) := do
  let count ← boundedCount maximum 8
  let values ← times count do
    let _ ← i32
    let inner ← boundedCount maximum 8
    times inner do
      let _ ← i32
      i32
  finish
  return ExtTreeSet.ofList values.flatten

/-- A part of the map that older encodings leave out. -/
def optional (bytes : Nat) (m : Map) (part : Reader DecodeError Map) : Reader DecodeError Map := do
  let left ← remaining
  if left ≥ bytes then part else return m

def decodeTries (m : Map) : Reader DecodeError Map := do
  let chooseLocalTries ← u32
  let chooseLocalFallbackTries ← u32
  let chooseTotalTries ← u32
  rejectIf (chooseLocalTries > maxCertifiedRetries ∨ chooseLocalFallbackTries > maxCertifiedRetries
    ∨ chooseTotalTries ≥ maxCertifiedRetries) .unsupported
  return { m with chooseLocalTries, chooseLocalFallbackTries, chooseTotalTries }

def decodeDescendOnce (m : Map) : Reader DecodeError Map := do
  return { m with chooseleafDescendOnce := ← u32 }

def decodeVaryR (m : Map) : Reader DecodeError Map := do
  return { m with chooseleafVaryR := ← u8 }

def decodeStrawCalc (m : Map) : Reader DecodeError Map := do
  return { m with strawCalcVersion := ← u8 }

def decodeAlgorithms (m : Map) : Reader DecodeError Map := do
  return { m with allowedBucketAlgorithms := ← u32 }

def decodeStable (m : Map) : Reader DecodeError Map := do
  return { m with chooseleafStable := ← u8 }

def decodeClasses (limits : DecodeLimits) (m : Map) : Reader DecodeError Map := do
  consumeIntMap limits.maxNames
  consumeNameMap limits.maxNames
  let classShadowBuckets ← consumeNestedIntMap limits.maxNames
  let chooseArguments ← u32
  rejectIf (chooseArguments ≠ 0) .unsupported
  return { m with classShadowBuckets }

def decodeMsr (m : Map) : Reader DecodeError Map := do
  let msrDescents ← u32
  let msrCollisionTries ← u32
  return { m with msrDescents, msrCollisionTries }

/-- Everything after the names, each part only if there are bytes left for it. -/
def decodeTunables (limits : DecodeLimits) (m : Map) : Reader DecodeError Map := do
  let m ← optional 12 m (decodeTries m)
  let m ← optional 4 m (decodeDescendOnce m)
  let m ← optional 1 m (decodeVaryR m)
  let m ← optional 1 m (decodeStrawCalc m)
  let m ← optional 4 m (decodeAlgorithms m)
  let m ← optional 1 m (decodeStable m)
  let m ← optional 1 m (decodeClasses limits m)
  optional 8 m (decodeMsr m)

def mapGraphDecodeError : Fault GraphError → Fault DecodeError
  | .error .malformed => .error (.wire .malformed)
  | .error .depthExceeded => .error .unsupported
  | .panic => .panic
  | .unfinished => .unfinished

/-- The tables of the map, before the graph is checked. -/
def decodeTables (limits : DecodeLimits) : Reader DecodeError Map := do
  let start ← u32
  rejectIf (start ≠ magic) (.wire .malformed)
  let maxBuckets ← i32
  let maxRules ← u32
  let maxDevices ← i32
  finish
  rejectIf (maxBuckets < 0 ∨ maxBuckets.toNat > limits.maxBuckets ∨ maxRules > limits.maxRules
    ∨ maxDevices < 0 ∨ maxDevices.toNat > limits.maxItems) (.wire .limitExceeded)
  let buckets ← (List.range maxBuckets.toNat).foldlM (decodeBucket limits) ∅
  let rules ← (List.range maxRules).foldlM (decodeRule limits) ∅
  consumeNameMap limits.maxNames
  consumeNameMap limits.maxNames
  consumeNameMap limits.maxNames
  let m ← decodeTunables limits { maxDevices, buckets, rules }
  let left ← remaining
  rejectIf (left ≠ 0) (.wire .malformed)
  finish
  return m

def Map.decode (data : List UInt8) (limits : DecodeLimits) : Run DecodeError Map := do
  if limits.maxBytes = 0 ∨ limits.maxBuckets = 0 ∨ limits.maxRules = 0 ∨ limits.maxItems = 0
      ∨ limits.maxNames = 0 then
    fail (.wire .limitExceeded)
  else
    let (m, _) ← decodeTables limits (.new data limits.maxBytes)
    m.validateGraph.mapError mapGraphDecodeError
    return m

end RadosRs.Crush
