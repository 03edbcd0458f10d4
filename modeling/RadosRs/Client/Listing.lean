import RadosRs.Client.Cursor
import RadosRs.Maps.Placement
import RadosRs.Osd.Client

/-!
# Listing the objects of a pool

`listObjectsRange` returns the objects between two cursors, at most `limit` of
them, and the cursor to go on from.  It asks the OSDs for a page at a time, from
where it is.  A page has any number of entries and says where the next one
starts.  What is beyond the end is cut off, and so is what is beyond the limit;
the place to go on from is then the end, or the first entry that was cut off.

A call is given what it would find out: whether the client is ready, and for each
round the answer of the OSDs to a request (which is a function of the request,
since a call decides itself what to ask for) and the map it has after that.  A
call that has used up its rounds is still waiting, which is the fault
`unfinished`.
-/

namespace RadosRs.Client

open Fixed Fallible Osd
open Maps (OsdMap)
open Msgr (okOr)

structure ObjectEntry where
  name : List UInt8
  nameSpace : List UInt8
  locator : List UInt8
  deriving DecidableEq, Repr

structure ObjectPage where
  values : List ObjectEntry
  next : ObjectCursor
  more : Bool
  deriving DecidableEq

/-- One round of asking for a page. -/
structure Round where
  answer : HObject → Nat → Except Osd.Error ListPage
  map : Option OsdMap

/-- A call, with what it finds out on the way. -/
structure ListCall where
  limit : Nat
  ready : Except Error Unit
  rounds : List Round

def listOperation : String := "Pool::list_objects_range"

def maxFrameBytes : Nat := 32 <<< 20

def maxEntries : Nat := maxFrameBytes / 12

/-- The name space that stands for all of them. -/
def allNameSpaces : List UInt8 := [1]

def wireErrorKind : Int → ErrorKind
  | -2 => .notFound
  | -17 => .alreadyExists
  | -13 => .permissionDenied
  | -95 => .unsupported
  | -22 => .invalidArgument
  | -122 => .quotaOrFull
  | -35 | -11 => .conflict
  | -110 => .timeout
  | -125 => .canceled
  | _ => .unknown

def mapOsdError (error : Osd.Error) (operation : String) : Error :=
  match error with
  | .closed => (Error.new .closed).withOperation operation
  | .notConnected | .staleMap | .noPrimary | .recoveryExhausted | .malformedReply =>
    (Error.new .notConnected).withOperation operation
  | .limitExceeded => (Error.new .invalidArgument).withOperation operation
  | .unsupported => (Error.new .unsupported).withOperation operation
  | .timeout => (Error.new .timeout).withOperation operation
  | .cancelled => (Error.new .canceled).withOperation operation
  | .queueSaturated => (Error.new .conflict).withOperation operation
  | .outcomeUnknown cause =>
    let cause := match cause with
      | .cancelled => ErrorKind.canceled
      | .timeout => .timeout
      | .transport => .notConnected
    (Error.outcomeUnknown cause).withOperation operation
  | .wireErrno code => (Error.fromWire (wireErrorKind code) code).withOperation operation

/-! ## Pages -/

/-- The place of an entry, rebuilt from its names. -/
def entryCursor (pool : Pool) (poolId : Int64) (map : OsdMap) (entry : ListEntry) :
    Except Error HObject :=
  if pool.nameSpace ≠ allNameSpaces ∧ entry.nameSpace ≠ pool.nameSpace then
    .error (.notConnected listOperation)
  else
    match map.mapObject poolId.toInt entry.object entry.locator entry.nameSpace with
    | .error _ => .error (.notConnected listOperation)
    | .ok placement =>
      .ok { key := entry.locator, object := entry.object, snapshot := noSnap
            hash := placement.rawHash, max := false, nameSpace := entry.nameSpace
            pool := poolId }

/-- The entries are in order, from `previous` on and before `next`. -/
def validateEntries (next : HObject) : HObject → List HObject → Bool
  | _, [] => true
  | previous, entry :: entries =>
    !(compareHobject entry previous == .lt
        || (!next.max && compareHobject entry next != .lt))
      && validateEntries next entry entries

def validateEnumerationPage (poolId : Int64) (start next : HObject) (entries : List HObject) :
    Bool :=
  !(!next.max && (next.pool == Int64.minValue || next.snapshot != noSnap || next.pool != poolId))
    && validateEntries next start entries
    && !(!next.max && compareHobject next start != .gt)

/-- How many of the first `count` entries are left when those at its end that are not before
`finish` are dropped. -/
def trimEntries (cursors : List HObject) (finish : HObject) : Nat → Run Error Nat
  | 0 => .ok 0
  | count + 1 => do
      let last ← index cursors count
      if compareHobject last finish != .lt then trimEntries cursors finish count
      else return count + 1

def clipEnumerationPage (next : HObject) (entryCount : Nat) (entryCursors : List HObject)
    (finish : HObject) (available : Nat) : Run Error (HObject × Nat) := do
  let (next, entryCount) ←
    if compareHobject next finish == .gt then do
      let entryCount ← trimEntries entryCursors finish entryCount
      pure (finish, entryCount)
    else pure (next, entryCount)
  if entryCount > available then do
    let next ← index entryCursors available
    return (next, available)
  else return (next, entryCount)

/-! ## Calls -/

/-- One turn of the loop: a page is asked for, checked and clipped. -/
def listTurn (pool : Pool) (poolId : Int64) (limit : Nat) (finish : HObject) (round : Round)
    (values : List ObjectEntry) (next : HObject) : Run Error (List ObjectEntry × HObject) := do
  let page ← (round.answer next (limit - values.length)).mapError
    fun error => .error (mapOsdError error listOperation)
  let map ← (okOr (.notConnected listOperation) round.map).mapError .error
  let entryCursors ← (page.entries.mapM (entryCursor pool poolId map)).mapError .error
  if !validateEnumerationPage poolId next page.next entryCursors then
    fail (.notConnected listOperation)
  else
    let (next, entryCount) ← clipEnumerationPage page.next page.entries.length entryCursors finish
      (limit - values.length)
    return (values ++ (page.entries.take entryCount).map
      (fun entry => ⟨entry.object, entry.nameSpace, entry.locator⟩), next)

def listLoop (pool : Pool) (poolId : Int64) (limit : Nat) (finish : HObject) :
    List Round → List ObjectEntry → HObject → Run Error (List ObjectEntry × HObject)
  | [], values, next =>
    if values.length < limit ∧ compareHobject next finish = .lt then .error .unfinished
    else .ok (values, next)
  | round :: rounds, values, next =>
    if values.length < limit ∧ compareHobject next finish = .lt then do
      let (values, next) ← listTurn pool poolId limit finish round values next
      listLoop pool poolId limit finish rounds values next
    else .ok (values, next)

namespace Pool

def listObjectsRange (pool : Pool) (after ending : ObjectCursor) (call : ListCall) :
    Run Error ObjectPage := do
  let poolId ← (okOr (.invalid listOperation) pool.id).mapError .error
  if call.limit == 0 || call.limit > maxEntries || !pool.ownsCursor after
      || !pool.ownsCursor ending then
    fail (.invalid listOperation)
  else
    let ordering ← (compareObjectCursors after ending).mapError .error
    if ordering == .gt then fail (.invalid listOperation)
    else
      call.ready.mapError .error
      let finish ← (cursorHobject ending).mapError .error
      let next ← (cursorHobject after).mapError .error
      let (values, next) ← listLoop pool poolId call.limit finish call.rounds [] next
      let nextCursor ←
        (if next.max then pool.endObjectCursor
          else newObjectCursor poolId pool.nameSpace next).mapError .error
      return { values, next := nextCursor, more := compareHobject next finish == .lt }

end Pool

end RadosRs.Client
