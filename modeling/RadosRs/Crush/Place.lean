import RadosRs.Crush.Ln
import RadosRs.Crush.Map

/-!
# Placement

`place` runs a rule of a CRUSH map.  A certified rule takes a bucket, chooses
devices below it and emits them.  The choice is a retry loop around a descent:
from the bucket taken, `straw2Choose` draws an item, and the descent goes on from
there until it draws an item of the type asked for.  An item that is chosen
already or a device that is out makes the descent fail, and the next one draws
with another number.

`chooseFirstN` fills the front of its output, one replica after the other.  With
`recurseToLeaf` it chooses buckets and for each of them a device below it, which
goes to the same place of `leaves`; that device is chosen by the function itself,
called for a single replica.  `chooseIndep` has a slot for each replica, leaves
`itemNone` in those it cannot fill and comes back to them in the next round.

The definitions follow `src/crush/place.rs`.  The loops of a descent have no
counter in the source and take fuel here; so does the call of a function to
itself.
-/

namespace RadosRs.Crush

open Fallible Fixed
open Retry (Next)
open Std (ExtTreeMap)

/-- The hole marker, `i32::MAX`. -/
def itemNone : Int := 2 ^ 31 - 1

def maxCertifiedReplicas : Nat := 64

structure PlacementError where
  deriving DecidableEq, Repr

/-- Any error of the graph check is a placement error. -/
def toPlacementError : Fault GraphError → Fault PlacementError
  | .error _ => .error {}
  | .panic => .panic
  | .unfinished => .unfinished

/-- A map whose graph has been checked. -/
structure ValidatedMap where
  map : Map
  valid : map.validateGraph = .ok ()

def ValidatedMap.new (m : Map) : Run PlacementError ValidatedMap :=
  match valid : m.validateGraph with
  | .ok () => .ok ⟨m, valid⟩
  | .error fault => .error (toPlacementError fault)

theorem ValidatedMap.map_of_new {m : Map} {valid : ValidatedMap} (h : new m = .ok valid) :
    valid.map = m := by
  unfold new at h
  split at h
  · cases h
    rfl
  · cases h

/-! ## Drawing an item -/

def castUnsigned (z : Int) : UInt32 := .ofInt z

/-- The smallest signed 64-bit value. -/
def i64Min : Int := -2 ^ 63

/-- The length of the straw of one item; an item without weight has the shortest. -/
def straw2Draw {ε : Type} (bucket : Bucket) (seed : UInt32) (replica place weight : Nat) :
    Run ε Int := do
  if weight = 0 then return i64Min
  else
    let item ← index bucket.items place
    let replica ← within u32Max replica
    let random := hash32Triple seed (castUnsigned item) (.ofNat replica) &&& 0xffff
    let logarithm ← crushLn random.toNat
    return ((logarithm : Int) - 2 ^ 48).tdiv weight

/-- The item with the longest straw, the first of several. -/
def straw2Choose {ε : Type} (bucket : Bucket) (seed : UInt32) (replica : Nat) : Run ε Int := do
  let (high, _) ← bucket.itemWeights.zipIdx.foldlM
    (fun (high, highDraw) (weight, place) => do
      let draw ← straw2Draw bucket seed replica place weight
      return if place = 0 ∨ draw > highDraw then (place, draw) else (high, highDraw))
    (0, i64Min)
  index bucket.items high

/-- A permutation of a bucket's items, worked out as far as it has been asked for. -/
structure Permutation where
  seed : UInt32
  count : Nat
  items : List Nat

abbrev Permutations := ExtTreeMap Int Permutation

/-- Exchanges two elements. -/
def swap {ε α : Type} (xs : List α) (i j : Nat) : Run ε (List α) := do
  let a ← index xs i
  let b ← index xs j
  let xs ← update xs i b
  update xs j a

/-- The permutation for a seed before it is worked out further: a new one, or the first
item of it was asked for alone and the others are still to be put in. -/
def Permutation.prepare {ε : Type} (state : Permutation) (seed : UInt32) : Run ε Permutation :=
  if state.seed ≠ seed ∨ state.count = 0 then
    .ok { seed, count := 0, items := List.range state.items.length }
  else if state.count = 0xffff then do
    let selected ← index state.items 0
    let items ← update (selected :: (List.range state.items.length).tail) selected 0
    return { state with count := 1, items }
  else .ok state

/-- The permutation worked out up to a place. -/
def Permutation.extend {ε : Type} (state : Permutation) (hash : Nat → Nat) (size position : Nat) :
    Run ε Permutation := do
  let items ← (List.range' state.count (position + 1 - state.count)).foldlM
    (fun items current =>
      if current < size - 1 ∧ hash current % (size - current) ≠ 0 then
        swap items current (current + hash current % (size - current))
      else .ok items)
    state.items
  return { state with count := max state.count (position + 1), items }

/-- The item at a place of the bucket's permutation. -/
def permutationChoose {ε : Type} (permutations : Permutations) (bucket : Bucket) (seed : UInt32)
    (replica : Nat) : Run ε (Int × Permutations) := do
  let size := bucket.items.length
  let hash (place : Nat) := (hash32Triple seed (castUnsigned bucket.id) (.ofNat place)).toNat
  let state := permutations[bucket.id]?.getD
    { seed := 0, count := 0, items := List.replicate size 0 }
  let replica ← within u32Max replica
  let position ← guarded (size ≠ 0) (replica % size)
  if (state.seed ≠ seed ∨ state.count = 0) ∧ position = 0 then
    let items ← update state.items 0 (hash 0 % size)
    let item ← index bucket.items (hash 0 % size)
    return (item, permutations.insert bucket.id { seed, count := 0xffff, items })
  else
    let state ← state.prepare seed
    let state ← state.extend hash size position
    let selected ← index state.items position
    let item ← index bucket.items selected
    return (item, permutations.insert bucket.id state)

/-! ## What is chosen from -/

structure Placement where
  crush : Map
  weights : List Nat

namespace Placement

def validTake (p : Placement) (item : Int) : Bool :=
  if item ≥ 0 then item < p.crush.maxDevices else p.crush.buckets.contains item

def isOut (p : Placement) (item : Int) (seed : UInt32) : Bool :=
  if item < 0 then true
  else
    match p.weights[item.toNat]? with
    | none => true
    | some weight =>
      if weight ≥ 0x10000 then false
      else if weight = 0 then true
      else (hash32Pair seed (castUnsigned item) &&& 0xffff).toNat ≥ weight

/-- The type of an item: zero for a device, nothing for a bucket that is not there. -/
def itemType (p : Placement) (item : Int) : Option Int :=
  if item < 0 then p.crush.buckets[item]?.map fun bucket => bucket.bucketType else some 0

/-! ## Choosing the first replicas -/

/-- The arguments of `choose_first_n` that a call does not change. -/
structure FirstN where
  bucket : Bucket
  seed : UInt32
  replicas : Nat
  targetType : Int
  tries : Nat
  recurseTries : Nat
  localRetries : Nat
  localFallbackRetries : Nat
  recurseToLeaf : Bool
  varyR : Nat
  stable : Bool
  parentR : Nat

/-- What a call of `choose_first_n` writes to: the places before `position` are filled, and
`count` more may be. -/
structure Slots where
  output : List Int
  leaves : Option (List Int)
  position : Nat
  count : Nat
  permutations : Permutations := ∅

/-- Where a descent is. -/
structure Search where
  current : Bucket
  localFailures : Nat := 0
  totalFailures : Nat := 0
  slots : Slots

/-- Whether another draw from the same bucket follows a failed one. -/
def redraws (call : FirstN) (current : Bucket) (localFailures : Nat) (collide : Bool) :
    Run PlacementError Bool :=
  if collide ∧ localFailures ≤ call.localRetries then .ok true
  else if call.localFallbackRetries > 0 then do
    let bound ← within u32Max (current.items.length + call.localFallbackRetries)
    return localFailures ≤ bound
  else .ok false

/-- After a failed draw: another one from the same bucket, a new descent, or no item at all. -/
def retry (call : FirstN) (s : Search) (collide : Bool) :
    Run PlacementError (Next Search (Option Int × Slots)) := do
  let totalFailures := (s.totalFailures + 1) % 2 ^ 32
  let localFailures := (s.localFailures + 1) % 2 ^ 32
  let again ← redraws call s.current localFailures collide
  if again then return .again { s with localFailures, totalFailures }
  else if totalFailures < call.tries then
    return .again { s with current := call.bucket, localFailures := 0, totalFailures }
  else return .done (none, s.slots)

/-- Whether a draw goes through the permutation of the bucket. -/
def fallsBack (call : FirstN) (s : Search) : Run PlacementError Bool :=
  if call.localFallbackRetries > 0 then do
    let half ← within u32Max (s.current.items.length >>> 1)
    return s.localFailures ≥ half ∧ s.localFailures > call.localFallbackRetries
  else .ok false

/-- The draw from the current bucket. -/
def draw (call : FirstN) (s : Search) (r : Nat) : Run PlacementError (Int × Search) := do
  let permuted ← fallsBack call s
  if permuted then
    let (item, permutations) ← permutationChoose s.slots.permutations s.current call.seed r
    return (item, { s with slots.permutations := permutations })
  else
    let item ← straw2Choose s.current call.seed r
    return (item, s)

/-- The number that the draws below a chosen bucket start from. -/
def FirstN.subR (call : FirstN) (r : Nat) : Run PlacementError Nat :=
  if call.varyR ≠ 0 then guarded (call.varyR - 1 < 64) (r >>> (call.varyR - 1)) else .ok 0

/-- The call for the device below a chosen bucket. -/
def FirstN.deeper (call : FirstN) (bucket : Bucket) (position subR : Nat) : FirstN :=
  { call with
    bucket, replicas := if call.stable then 1 else position + 1, targetType := 0
    tries := call.recurseTries, recurseTries := 0, recurseToLeaf := false, parentR := subR }

/-- Chooses the device below a chosen item and says whether there is none. -/
def firstNLeaf (p : Placement) (chooseFirstN : FirstN → Slots → Run PlacementError Slots)
    (call : FirstN) (r : Nat) (item : Int) (slots : Slots) : Run PlacementError (Bool × Slots) := do
  if ¬ call.recurseToLeaf then return (false, slots)
  else if item < 0 then
    let subR ← call.subR r
    match slots.leaves with
    | none => return (false, slots)
    | some values =>
      let bucket ← expect p.crush.buckets[item]?
      let chosen ← chooseFirstN (call.deeper bucket slots.position subR)
        { slots with output := values, leaves := none }
      return (chosen.position ≤ slots.position,
        { slots with leaves := some chosen.output, permutations := chosen.permutations })
  else
    match slots.leaves with
    | none => return (false, slots)
    | some values =>
      let values ← update values slots.position item
      return (false, { slots with leaves := some values })

/-- One turn of the loops of `choose_first_n`, from a draw to the next. -/
def firstNTurn (p : Placement) (chooseFirstN : FirstN → Slots → Run PlacementError Slots)
    (call : FirstN) (replica : Nat) (s : Search) :
    Run PlacementError (Next Search (Option Int × Slots)) := do
  let r := replica + call.parentR + s.totalFailures
  if s.current.items = [] then retry call s false
  else
    let (item, s) ← draw call s r
    if item ≥ p.crush.maxDevices then return .done (none, s.slots)
    else
      match p.itemType item with
      | none => return .done (none, s.slots)
      | some itemType =>
        if itemType ≠ call.targetType then
          if item ≥ 0 then return .done (none, s.slots)
          else
            let child ← expect p.crush.buckets[item]?
            return .again { s with current := child }
        else
          let before ← front s.slots.output s.slots.position
          if item ∈ before then retry call s true
          else
            let (reject, slots) ← firstNLeaf p chooseFirstN call r item s.slots
            let s := { s with slots }
            if reject ∨ (itemType = 0 ∧ p.isOut item call.seed) then retry call s false
            else return .done (some item, s.slots)

/-- One replica: the item found for it goes to the next place. -/
def firstNReplica (p : Placement) (chooseFirstN : FirstN → Slots → Run PlacementError Slots)
    (fuel : Nat) (call : FirstN) (slots : Slots) (replica : Nat) : Run PlacementError Slots := do
  -- without room for an item the loop over the replicas ends
  if slots.count = 0 then return slots
  else
    let (found, slots) ← loop (firstNTurn p chooseFirstN call replica) fuel
      { current := call.bucket, slots }
    match found with
    | none => return slots
    | some item =>
      let output ← update slots.output slots.position item
      return { slots with output, position := slots.position + 1, count := slots.count - 1 }

def chooseFirstN (p : Placement) : Nat → FirstN → Slots → Run PlacementError Slots
  | 0, _, _ => .error .unfinished
  | fuel + 1, call, slots =>
    let first := if call.stable then 0 else slots.position
    (List.range' first (call.replicas - first)).foldlM
      (firstNReplica p (chooseFirstN p fuel) fuel call) slots

/-! ## Choosing for each slot -/

/-- The arguments of `choose_indep` that a call does not change; the slots are those from
`start` to before `stop`. -/
structure Indep where
  bucket : Bucket
  seed : UInt32
  replicas : Nat
  targetType : Int
  start : Nat
  stop : Nat
  tries : Nat
  recurseTries : Nat
  recurseToLeaf : Bool
  parentR : Nat

/-- What a call of `choose_indep` writes to, and how many slots are still to be filled. -/
structure Holes where
  output : List Int
  leaves : Option (List Int)
  left : Nat

/-- Gives a slot up. -/
def Holes.drop (holes : Holes) : Run PlacementError Holes := do
  return { holes with left := ← minus holes.left 1 }

/-- The call for the device below a chosen bucket. -/
def Indep.deeper (call : Indep) (bucket : Bucket) (position r : Nat) : Indep :=
  { call with
    bucket, targetType := 0, start := position, stop := position + 1
    tries := call.recurseTries, recurseTries := 0, recurseToLeaf := false, parentR := r }

/-- Chooses the device below a chosen item and says whether there is none. -/
def indepLeaf (p : Placement) (chooseIndep : Indep → Holes → Run PlacementError Holes)
    (call : Indep) (position r : Nat) (item : Int) (holes : Holes) :
    Run PlacementError (Bool × Holes) := do
  match call.recurseToLeaf, holes.leaves with
  | true, some values =>
    if item < 0 then
      let bucket ← expect p.crush.buckets[item]?
      let chosen ← chooseIndep (call.deeper bucket position r)
        { output := values, leaves := none, left := 1 }
      let leaf ← index chosen.output position
      return (leaf = itemNone, { holes with leaves := some chosen.output })
    else
      let values ← update values position item
      return (false, { holes with leaves := some values })
  | _, _ => return (false, holes)

/-- One turn of the descent of `choose_indep` for a slot. -/
def indepTurn (p : Placement) (chooseIndep : Indep → Holes → Run PlacementError Holes)
    (call : Indep) (failure position : Nat) (s : Bucket × Holes) :
    Run PlacementError (Next (Bucket × Holes) Holes) := do
  let (current, holes) := s
  let r := position + call.parentR + call.replicas * failure
  if current.items = [] then return .done holes
  else
    let item ← straw2Choose current call.seed r
    if item ≥ p.crush.maxDevices then return .done (← holes.drop)
    else
      match p.itemType item with
      | none => return .done (← holes.drop)
      | some itemType =>
        if itemType ≠ call.targetType then
          if item ≥ 0 then return .done (← holes.drop)
          else
            let child ← expect p.crush.buckets[item]?
            return .again (child, holes)
        else
          let filled ← front holes.output call.stop
          if item ∈ filled.drop call.start then return .done holes
          else
            let (reject, holes) ← indepLeaf p chooseIndep call position r item holes
            if reject ∨ (itemType = 0 ∧ p.isOut item call.seed) then return .done holes
            else
              let output ← update holes.output position item
              let holes ← { holes with output }.drop
              return .done holes

/-- One slot in one round; a slot that has its item is passed over. -/
def indepSlot (p : Placement) (chooseIndep : Indep → Holes → Run PlacementError Holes)
    (fuel : Nat) (call : Indep) (failure : Nat) (holes : Holes) (position : Nat) :
    Run PlacementError Holes := do
  let here ← index holes.output position
  if here ≠ itemNone then return holes
  else loop (indepTurn p chooseIndep call failure position) fuel (call.bucket, holes)

def Indep.positions (call : Indep) : List Nat := List.range' call.start (call.stop - call.start)

/-- One round over the slots, unless all are filled. -/
def indepRound (p : Placement) (chooseIndep : Indep → Holes → Run PlacementError Holes)
    (fuel : Nat) (call : Indep) (holes : Holes) (failure : Nat) : Run PlacementError Holes :=
  if holes.left = 0 then .ok holes
  else call.positions.foldlM (indepSlot p chooseIndep fuel call failure) holes

/-- Makes a slot empty, in the output and among the leaves. -/
def emptySlot (holes : Holes) (position : Nat) : Run PlacementError Holes := do
  let output ← update holes.output position itemNone
  match holes.leaves with
  | none => return { holes with output }
  | some values =>
    let values ← update values position itemNone
    return { holes with output, leaves := some values }

def chooseIndep (p : Placement) : Nat → Indep → Holes → Run PlacementError Holes
  | 0, _, _ => .error .unfinished
  | fuel + 1, call, holes => do
      let holes ← call.positions.foldlM emptySlot holes
      (List.range call.tries).foldlM (indepRound p (chooseIndep p fuel) fuel call) holes

/-! ## Running a rule -/

/-- The variables of `rule`. -/
structure Work where
  working : List Int
  output : List Int
  leaves : List Int
  workingSize : Nat := 0
  result : List Int := []
  chooseTries : Nat
  chooseleafTries : Nat := 0
  permutations : Permutations := ∅

/-- The number of replicas a choose step asks for; zero and less count from the result size. -/
def replicaNumber (step : RuleStep) (resultMaximum : Nat) : Run PlacementError Int :=
  if step.argument1 > 0 then .ok step.argument1
  else if resultMaximum ≥ 2 ^ 31 then fail {}
  else .ok (step.argument1 + resultMaximum)

/-- Chooses below one item of the working set; `found` is the number of items in the output. -/
def chooseItem (p : Placement) (fuel : Nat) (seed : UInt32) (resultMaximum recurseTries : Nat)
    (step : RuleStep) (state : Work × Nat) (item : Int) : Run PlacementError (Work × Nat) := do
  let (work, found) := state
  let number ← replicaNumber step resultMaximum
  if number ≤ 0 then return state
  else
    match p.crush.buckets[item]? with
    | none => return state
    | some bucket =>
      let recurseToLeaf := step.operation == ruleChooseleafFirstN
      if step.operation = ruleChooseIndep then
        let count := min number.toNat (resultMaximum - found)
        let holes ← p.chooseIndep fuel
          { bucket, seed, replicas := number.toNat, targetType := step.argument2
            start := found, stop := found + count, tries := work.chooseTries
            recurseTries := if work.chooseleafTries = 0 then 1 else work.chooseleafTries
            recurseToLeaf, parentR := 0 }
          { output := work.output, leaves := some work.leaves, left := count }
        return ({ work with output := holes.output, leaves := holes.leaves.getD work.leaves },
          found + count)
      else
        let slots ← p.chooseFirstN fuel
          { bucket, seed, replicas := number.toNat, targetType := step.argument2
            tries := work.chooseTries, recurseTries
            localRetries := p.crush.chooseLocalTries
            localFallbackRetries := p.crush.chooseLocalFallbackTries, recurseToLeaf
            varyR := p.crush.chooseleafVaryR, stable := p.crush.chooseleafStable != 0
            parentR := 0 }
          { output := work.output, leaves := some work.leaves, position := found
            count := resultMaximum - found, permutations := work.permutations }
        return ({ work with
            output := slots.output, leaves := slots.leaves.getD work.leaves
            permutations := slots.permutations }, found + slots.position)

/-- After a step that chooses leaves the output is these leaves. -/
def chosenItems (step : RuleStep) (work : Work) (found : Nat) : Run PlacementError (List Int) :=
  if step.operation = ruleChooseleafFirstN then do
    let leaves ← front work.leaves found
    guarded (found ≤ work.output.length) (leaves ++ work.output.drop found)
  else .ok work.output

/-- A choose step: the items chosen become the working set. -/
def chooseStep (p : Placement) (fuel : Nat) (seed : UInt32) (resultMaximum recurseTries : Nat)
    (step : RuleStep) (work : Work) : Run PlacementError Work := do
  if work.workingSize = 0 then return work
  else
    let (work, found) ← (work.working.take work.workingSize).foldlM
      (chooseItem p fuel seed resultMaximum recurseTries step) (work, 0)
    let output ← chosenItems step work found
    return { work with working := output, output := work.working, workingSize := found }

def ruleStep (p : Placement) (fuel : Nat) (seed : UInt32) (resultMaximum recurseTries : Nat)
    (work : Work) (step : RuleStep) : Run PlacementError Work := do
  if step.operation = ruleSetChooseTries then
    return if step.argument1 > 0 then { work with chooseTries := step.argument1.toNat } else work
  else if step.operation = ruleSetChooseleafTries then
    return if step.argument1 > 0 then { work with chooseleafTries := step.argument1.toNat } else work
  else if step.operation = ruleTake then
    if ¬ p.validTake step.argument1 then return work
    else return { work with working := ← update work.working 0 step.argument1, workingSize := 1 }
  else if step.operation = ruleChooseFirstN ∨ step.operation = ruleChooseleafFirstN
      ∨ step.operation = ruleChooseIndep then
    chooseStep p fuel seed resultMaximum recurseTries step work
  else if step.operation = ruleEmit then
    let emitted ← front work.working (min (resultMaximum - work.result.length) work.workingSize)
    return { work with result := work.result ++ emitted, workingSize := 0 }
  else fail {}

def rule (p : Placement) (fuel : Nat) (rule : Rule) (seed : UInt32) (resultMaximum : Nat) :
    Run PlacementError (List Int) := do
  let empty := List.replicate resultMaximum itemNone
  let chooseTries := p.crush.chooseTotalTries + 1
  let recurseTries := if p.crush.chooseleafDescendOnce ≠ 0 then 1 else chooseTries
  let work ← rule.steps.foldlM (ruleStep p fuel seed resultMaximum recurseTries)
    { working := empty, output := empty, leaves := empty, chooseTries }
  return work.result

end Placement

/-! ## Certified rules -/

namespace Map

def emitStep : RuleStep := ⟨ruleEmit, 0, 0⟩

/-- A choose step of a certified replicated rule: devices, or one device below each of a number
of buckets of a type that the map has. -/
def certifiedChoose (m : Map) (choose : RuleStep) : Bool :=
  choose == ⟨ruleChooseFirstN, 0, 0⟩
    || (choose.operation == ruleChooseleafFirstN && choose.argument1 == 0
        && choose.argument2 > 0 && choose.argument2 < 2 ^ 16
        && m.hasBucketType choose.argument2.toNat)

/-- The bucket that a rule of one of the two certified forms takes. -/
def certifiedRoot (m : Map) (rule : Rule) : Option Int :=
  if rule.ruleType = ruleTypeReplicated then
    match rule.steps with
    | [take, choose, emit] =>
      if take.operation = ruleTake ∧ emit = emitStep ∧ m.certifiedChoose choose then
        some take.argument1
      else none
    | _ => none
  else
    match rule.steps with
    | [leafTries, tries, take, choose, emit] =>
      if leafTries = ⟨ruleSetChooseleafTries, 5, 0⟩ ∧ tries = ⟨ruleSetChooseTries, 100, 0⟩
          ∧ take.operation = ruleTake ∧ choose = ⟨ruleChooseIndep, 0, 0⟩ ∧ emit = emitStep then
        some take.argument1
      else none
    | _ => none

def certifiedTunables (m : Map) : Bool :=
  m.chooseLocalTries == 0 && m.chooseLocalFallbackTries == 0 && m.chooseTotalTries == 50
    && m.chooseleafDescendOnce == 1 && m.chooseleafVaryR == 1
    && ((m.strawCalcVersion == 0 && m.allowedBucketAlgorithms == 22)
        || (m.strawCalcVersion == 1 && m.allowedBucketAlgorithms == 54))
    && m.chooseleafStable == 1 && m.msrDescents == 100 && m.msrCollisionTries == 100

def validateCertifiedRule (m : Map) (rule : Rule) : Run PlacementError Unit :=
  match m.certifiedRoot rule with
  | none => fail {}
  | some root =>
    if root ∈ m.buckets ∧ root ∉ m.classShadowBuckets ∧ m.certifiedTunables then .ok ()
    else fail {}

def placeValidated (fuel : Nat) (m : Map) (ruleId : Nat) (seed : UInt32) (replicas : Nat)
    (weights : List Nat) : Run PlacementError (List Int) := do
  if replicas = 0 ∨ replicas > maxCertifiedReplicas then fail {}
  else
    match m.rules[ruleId]? with
    | none => fail {}
    | some rule =>
      if rule.ruleType ≠ ruleTypeReplicated ∧ rule.ruleType ≠ ruleTypeErasure then fail {}
      else
        m.validateCertifiedRule rule
        Placement.rule ⟨m, weights⟩ fuel rule seed replicas

def place (fuel : Nat) (m : Map) (ruleId : Nat) (seed : UInt32) (replicas : Nat)
    (weights : List Nat) : Run PlacementError (List Int) := do
  m.validateGraph.mapError toPlacementError
  m.placeValidated fuel ruleId seed replicas weights

end Map

def ValidatedMap.place (fuel : Nat) (m : ValidatedMap) (ruleId : Nat) (seed : UInt32)
    (replicas : Nat) (weights : List Nat) : Run PlacementError (List Int) :=
  m.map.placeValidated fuel ruleId seed replicas weights

end RadosRs.Crush
