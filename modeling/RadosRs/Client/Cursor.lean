import RadosRs.Error
import RadosRs.Msgr.Frame
import RadosRs.Osd.Enumeration

/-!
# Cursors of the caller

A caller lists the objects of a pool from one cursor to another.  A cursor is
opaque: it belongs to a pool and a name space, and it is either the terminal one
or holds a place in the order of objects as bytes.  A caller cannot make one, so
every cursor there is comes from one of the functions here, and `ObjectCursor`
carries that its bytes are those of a place.

`beginObjectCursor` is a place before all pools.  `splitCursor` cuts the interval
between two cursors at evenly spaced hashes; `lowest` is the first place in a pool
with a given hash, which is where it cuts.
-/

namespace RadosRs.Client

open Fixed Fallible Osd
open Msgr (okOr)

structure ObjectCursor where
  poolId : Int64
  nameSpace : List UInt8
  value : List UInt8
  ended : Bool
  made : if ended then value = [] else ∃ object, marshalCursor object = .ok value
  deriving DecidableEq

/-- A pool as a caller sees it: resolved to an id or not, and with a name space. -/
structure Pool where
  id : Option Int64
  nameSpace : List UInt8
  deriving DecidableEq, Repr

def cursorHobject (cursor : ObjectCursor) : Except Error HObject :=
  if cursor.ended then
    .ok { key := [], object := [], snapshot := 0, hash := 0, max := true, nameSpace := [], pool := 0 }
  else
    match unmarshalCursor cursor.value with
    | .error _ => .error (.invalid "ObjectCursor")
    | .ok object =>
      let minimum := object.snapshot == 0 && object.hash == 0 && !object.max
        && object.pool == Int64.minValue
      if object.max || (!minimum && (object.pool != cursor.poolId || object.snapshot != noSnap))
      then .error (.invalid "ObjectCursor")
      else .ok object

def newObjectCursor (poolId : Int64) (nameSpace : List UInt8) (object : HObject) :
    Except Error ObjectCursor :=
  match marshalled : marshalCursor object with
  | .error _ => .error (.invalid "ObjectCursor")
  | .ok value => .ok ⟨poolId, nameSpace, value, false, ⟨object, marshalled⟩⟩

def compareObjectCursors (left right : ObjectCursor) : Except Error Ordering :=
  if left.poolId ≠ right.poolId ∨ left.nameSpace ≠ right.nameSpace then
    .error (.invalid "compare_object_cursors")
  else
    match left.ended, right.ended with
    | true, true => .ok .eq
    | true, false => .ok .gt
    | false, true => .ok .lt
    | false, false => do
        let first ← cursorHobject left
        let second ← cursorHobject right
        return compareHobject first second

/-- The first place in a pool with a given hash. -/
def lowest (poolId : Int64) (hash : UInt32) : HObject :=
  { key := [], object := [], snapshot := noSnap, hash, max := false, nameSpace := [], pool := poolId }

namespace Pool

def beginObjectCursor (pool : Pool) : Except Error ObjectCursor := do
  let poolId ← okOr (.invalid "Pool::begin_object_cursor") pool.id
  newObjectCursor poolId pool.nameSpace
    { key := [], object := [], snapshot := 0, hash := 0, max := false, nameSpace := []
      pool := Int64.minValue }

def endObjectCursor (pool : Pool) : Except Error ObjectCursor := do
  let poolId ← okOr (.invalid "Pool::end_object_cursor") pool.id
  return ⟨poolId, pool.nameSpace, [], true, rfl⟩

def ownsCursor (pool : Pool) (cursor : ObjectCursor) : Bool :=
  pool.id == some cursor.poolId && pool.nameSpace == cursor.nameSpace

/-! ## Splitting -/

def maxPartitions : Nat := 1 <<< 20

/-- The cursor at a reversed hash. -/
def boundary (pool : Pool) (poolId : Int64) (reversed : Nat) : Except Error ObjectCursor :=
  if reversed ≥ 2 ^ 32 then pool.endObjectCursor
  else do
    let reversed ← okOr (.invalid "Pool::split_cursor") (tryFrom u32Max reversed)
    newObjectCursor poolId pool.nameSpace (lowest poolId (reverseBits (.ofNat reversed)))

/-- Where a place stands among the reversed hashes; the end is after all of them. -/
def reversedHash (object : HObject) : Nat :=
  if object.max then 2 ^ 32 else (reverseBits object.hash).toNat

def splitCursor (pool : Pool) (beginning ending : ObjectCursor) (partitions : Nat) :
    Run Error (List ObjectCursor) := do
  let poolId ← (okOr (.invalid "Pool::split_cursor") pool.id).mapError .error
  if partitions == 0 || partitions > maxPartitions || !pool.ownsCursor beginning
      || !pool.ownsCursor ending then
    fail (.invalid "Pool::split_cursor")
  else
    let ordering ← (compareObjectCursors beginning ending).mapError .error
    if ordering == .gt then fail (.invalid "Pool::split_cursor")
    else if beginning.ended then .ok (List.replicate (partitions + 1) beginning)
    else
      let start ← (cursorHobject beginning).mapError .error
      let finish ← (cursorHobject ending).mapError .error
      let startHash := (reverseBits start.hash).toNat
      let difference ← minus (reversedHash finish) startHash
      let boundaries ← (List.range' 1 (partitions - 1)).mapM fun index =>
        (pool.boundary poolId (startHash + difference / partitions * index
          + difference % partitions * index / partitions)).mapError .error
      return beginning :: boundaries ++ [ending]

end Pool

/-! ## The places of cursors -/

/-- The place before all pools, whatever its names. -/
def Minimum (object : HObject) : Prop :=
  object.snapshot = 0 ∧ object.hash = 0 ∧ object.pool = Int64.minValue

/-- A place that a cursor of a pool may hold. -/
def Holdable (poolId : Int64) (object : HObject) : Prop :=
  object.max = false ∧ (Minimum object ∨ object.pool = poolId ∧ object.snapshot = noSnap)

section

variable {poolId : Int64} {nameSpace : List UInt8} {object : HObject} {cursor : ObjectCursor}

theorem newObjectCursor_eq_ok (h : newObjectCursor poolId nameSpace object = .ok cursor) :
    cursor.poolId = poolId ∧ cursor.nameSpace = nameSpace ∧ cursor.ended = false
      ∧ cursor.value = object.bytes ∧ object.size ≤ 985 := by
  unfold newObjectCursor at h
  split at h
  · cases h
  rename_i value marshalled
  cases h
  obtain ⟨rfl, fits⟩ := marshalCursor_eq_ok.mp marshalled
  exact ⟨rfl, rfl, rfl, rfl, fits⟩

/-- The cursor that holds a place. -/
def ObjectCursor.holding (poolId : Int64) (nameSpace : List UInt8) (object : HObject)
    (fits : object.size ≤ 985) : ObjectCursor :=
  ⟨poolId, nameSpace, object.bytes, false, ⟨object, marshalCursor_eq_ok.mpr ⟨rfl, fits⟩⟩⟩

/-- The cursor at the end of a pool. -/
def ObjectCursor.atEnd (poolId : Int64) (nameSpace : List UInt8) : ObjectCursor :=
  ⟨poolId, nameSpace, [], true, rfl⟩

/-- Reading the bytes of a cursor, which are those of a place. -/
theorem unmarshalCursor_value (cursor : ObjectCursor) (inside : cursor.ended = false) :
    ∃ object, unmarshalCursor cursor.value = .ok object ∧ cursor.value = object.bytes
      ∧ object.size ≤ 985 := by
  have made := cursor.made
  rw [inside] at made
  obtain ⟨object, marshalled⟩ := made
  obtain ⟨value, fits⟩ := marshalCursor_eq_ok.mp marshalled
  exact ⟨object, value ▸ unmarshalCursor_bytes fits, value, fits⟩

theorem cursorHobject_of_value (inside : cursor.ended = false) (value : cursor.value = object.bytes)
    (fits : object.size ≤ 985) (holdable : Holdable cursor.poolId object) :
    cursorHobject cursor = .ok object := by
  obtain ⟨max, place⟩ := holdable
  rw [cursorHobject, if_neg (by rw [inside]; decide), value, unmarshalCursor_bytes fits]
  dsimp only
  rw [if_neg]
  rcases place with ⟨snapshot, hash, pool⟩ | ⟨pool, snapshot⟩
  · simp [max, snapshot, hash, pool]
  · simp [max, snapshot, pool]

/-- A cursor holds the end, or a place it may hold that fits. -/
theorem cursorHobject_eq_ok (h : cursorHobject cursor = .ok object) :
    (cursor.ended = true ∧ object.max = true) ∨
      (cursor.ended = false ∧ Holdable cursor.poolId object ∧ object.size ≤ 985) := by
  unfold cursorHobject at h
  split at h
  next ended =>
    cases h
    exact .inl ⟨ended, rfl⟩
  rename_i inside
  have inside := Bool.eq_false_iff.mpr inside
  obtain ⟨place, read, -, fits⟩ := unmarshalCursor_value cursor inside
  rw [read] at h
  dsimp only at h
  split at h
  · cases h
  rename_i checks
  cases h
  refine .inr ⟨inside, ?_, fits⟩
  unfold Holdable Minimum
  grind

theorem compareObjectCursors_eq {left right : ObjectCursor} {first second : HObject}
    (pool : left.poolId = right.poolId) (space : left.nameSpace = right.nameSpace)
    (hfirst : cursorHobject left = .ok first) (hsecond : cursorHobject right = .ok second) :
    compareObjectCursors left right = .ok (compareHobject first second) := by
  rw [compareObjectCursors, if_neg (by simp [pool, space])]
  rcases cursorHobject_eq_ok hfirst with ⟨ended, top⟩ | ⟨inside, ⟨low, -⟩, -⟩
  · rcases cursorHobject_eq_ok hsecond with ⟨ended', top'⟩ | ⟨inside', ⟨low', -⟩, -⟩
    · rw [ended, ended', compareHobject, top, top']
      rfl
    · rw [ended, inside', compareHobject_gt.mpr]
      rw [position_max top]
      exact position_lt_top low'
  · rcases cursorHobject_eq_ok hsecond with ⟨ended', top'⟩ | ⟨inside', -⟩
    · rw [inside, ended', compareHobject_lt.mpr]
      rw [position_max top']
      exact position_lt_top low
    · rw [inside, inside', hfirst, hsecond]
      rfl

end

end RadosRs.Client
