import RadosRs.Client.Listing
import RadosRs.Client.Split
import RadosRs.Lib.Slice
import RadosRs.Maps.PlacedSets

/-!
# Listing is complete

The objects of a pool stand at the places that `listObjectsRange` rebuilds from
their names, in order and no two at the same one.  An OSD answers honestly if its
page has exactly the objects from where it was asked up to where it says the next
page starts, and that is further on.  Nothing else is assumed about pages: they
can be long or short, empty, or go past the end of what is asked for.

Clipping keeps a page a slice of the pool (`clip_slice`), so after every turn the
values of a call are the objects from where it started up to where it is, and a
call returns a cursor at that place (`Listed.slice`).  The pages of calls that are
chained by their cursors are then adjacent slices.
-/

namespace RadosRs.Client

open Fixed Fallible Osd Slice
open Maps (OsdMap)
open Msgr (okOr)

/-! ## Objects and honest answers -/

/-- The place that is rebuilt from the names of an entry. -/
def entryPlace (poolId : Int64) (entry : ListEntry) : HObject :=
  { key := entry.locator, object := entry.object, snapshot := noSnap
    hash := Crush.objectHash entry.object entry.locator entry.nameSpace, max := false
    nameSpace := entry.nameSpace, pool := poolId }

/-- The objects from one place up to another. -/
def between (poolId : Int64) (objects : List ListEntry) (first last : HObject) : List ListEntry :=
  objects.filter fun entry => compareHobject (entryPlace poolId entry) first != .lt
    && compareHobject (entryPlace poolId entry) last == .lt

/-- The objects of a pool, each before the next. -/
def InOrder (poolId : Int64) (objects : List ListEntry) : Prop :=
  objects.Pairwise fun entry other =>
    compareHobject (entryPlace poolId entry) (entryPlace poolId other) = .lt

/-- A page with exactly the objects up to where the next one starts. -/
structure ListPage.Honest (poolId : Int64) (objects : List ListEntry) (start : HObject)
    (page : ListPage) : Prop where
  further : compareHobject page.next start = .gt
  entries : page.entries = between poolId objects start page.next

/-- Every answer is honest. -/
def Round.Honest (poolId : Int64) (objects : List ListEntry) (round : Round) : Prop :=
  ∀ start count page, round.answer start count = .ok page →
    ListPage.Honest poolId objects start page

def toObjectEntry (entry : ListEntry) : ObjectEntry :=
  ⟨entry.object, entry.nameSpace, entry.locator⟩

/-- Calls that go on from the cursor of the one before, until there is no more. -/
inductive Listed (pool : Pool) (ending : ObjectCursor) :
    ObjectCursor → List ListCall → List ObjectPage → Prop
  | last {after : ObjectCursor} {call : ListCall} {page : ObjectPage} :
      pool.listObjectsRange after ending call = .ok page → page.more = false →
      Listed pool ending after [call] [page]
  | more {after : ObjectCursor} {call : ListCall} {page : ObjectPage} {calls : List ListCall}
      {pages : List ObjectPage} :
      pool.listObjectsRange after ending call = .ok page → page.more = true →
      Listed pool ending page.next calls pages →
      Listed pool ending after (call :: calls) (page :: pages)

/-! ## Slices of a pool -/

/-- Where an object stands. -/
def standing (poolId : Int64) (entry : ListEntry) : Position := position (entryPlace poolId entry)

theorem between_eq_slice (poolId : Int64) (objects : List ListEntry) (first last : HObject) :
    between poolId objects first last
      = slice (standing poolId) objects (position first) (position last) := by
  unfold between slice
  refine List.filter_congr fun entry _ => ?_
  rw [Bool.eq_iff_iff]
  simp only [Bool.and_eq_true, bne_iff_ne, beq_iff_eq, decide_eq_true_eq, compareHobject_ne_lt,
    compareHobject_lt]
  rfl

variable {poolId : Int64} {objects : List ListEntry}

theorem inOrder_iff : InOrder poolId objects ↔ Ordered (standing poolId) objects := by
  simp only [InOrder, Ordered, compareHobject_lt]
  rfl

section Pages

variable {pool : Pool} {poolId : Int64} {objects : List ListEntry} {map : OsdMap}

theorem mapObject_rawHash {poolId : Int} {object locator space : List UInt8}
    {placement : Maps.ObjectPlacement}
    (h : map.mapObject poolId object locator space = .ok placement) :
    placement.rawHash = Crush.objectHash object locator space := by
  unfold OsdMap.mapObject OsdMap.mapRawHash at h
  split at h
  · cases h
  split at h
  · cases h
  · split_ifs at h <;> cases h
    rfl

theorem entryCursor_eq_ok {entry : ListEntry} {cursor : HObject}
    (h : entryCursor pool poolId map entry = .ok cursor) : cursor = entryPlace poolId entry := by
  unfold entryCursor at h
  split at h
  · cases h
  split at h
  · cases h
  next placement placed =>
    cases h
    rw [entryPlace, mapObject_rawHash placed]

variable {cursors : List HObject}

theorem entryCursors_eq_ok {entries : List ListEntry}
    (h : entries.mapM (entryCursor pool poolId map) = .ok cursors) :
    cursors = entries.map (entryPlace poolId) := by
  have each := (forall₂_of_mapM h).imp fun _ _ made => (entryCursor_eq_ok made).symm
  rw [← List.forall₂_map_left_iff, List.forall₂_eq_eq_eq] at each
  exact each.symm

/-- What trimming leaves: the last entry left is before the end and those dropped are not. -/
theorem trimEntries_ok (finish : HObject) {count : Nat} (within : count ≤ cursors.length) :
    ∃ left ≤ count, trimEntries cursors finish count = .ok left
      ∧ (∀ cursor ∈ cursors[left - 1]?, 0 < left → position cursor < position finish)
      ∧ ∀ cursor ∈ (cursors.take count).drop left, position finish ≤ position cursor := by
  induction count with
  | zero => exact ⟨0, le_rfl, rfl, fun _ _ pos => absurd pos (lt_irrefl 0), by simp⟩
  | succ count ih =>
    have found : cursors[count]? = some cursors[count] := List.getElem?_eq_getElem within
    by_cases before : compareHobject cursors[count] finish = .lt
    · refine ⟨count + 1, le_rfl, ?_, ?_, ?_⟩
      · simp [trimEntries, index, expect, found, before, bind, Except.bind, pure, Except.pure]
      · intro cursor here _
        rw [Nat.add_sub_cancel, found] at here
        cases here
        exact compareHobject_lt.mp before
      · simp
    · obtain ⟨left, le, trimmed, last, dropped⟩ := ih (Nat.le_of_succ_le within)
      refine ⟨left, le.trans (Nat.le_succ count), ?_, last, ?_⟩
      · simpa [trimEntries, index, expect, found, before, bind, Except.bind] using trimmed
      intro cursor here
      have long : left ≤ (cursors.take count).length := by
        rw [List.length_take]
        omega
      rw [List.take_add_one, found, List.drop_append_of_le_length long] at here
      rcases List.mem_append.mp here with here | here
      · exact dropped cursor here
      · obtain rfl := List.mem_singleton.mp here
        exact compareHobject_ne_lt.mp before

variable {start next finish : HObject} {entries : List ListEntry} {available : Nat}

/-- Where a clipped page ends: where it ended before, at the end of what is asked for, or at an
object. -/
def ClippedAt (poolId : Int64) (objects : List ListEntry) (next finish clipped : HObject) : Prop :=
  clipped = next ∨ clipped = finish ∨ ∃ entry ∈ objects, clipped = entryPlace poolId entry

/-- Cutting off what is beyond the end leaves a slice. -/
theorem trim_slice (ordered : Ordered (standing poolId) objects)
    (honest : entries = slice (standing poolId) objects (position start) (position next))
    (beyond : position finish < position next) :
    ∃ count ≤ entries.length,
      trimEntries (entries.map (entryPlace poolId)) finish entries.length = .ok count
      ∧ entries.take count = slice (standing poolId) objects (position start) (position finish) := by
  have length : (entries.map (entryPlace poolId)).length = entries.length := List.length_map ..
  obtain ⟨count, le, trimmed, last, dropped⟩ := trimEntries_ok finish length.ge
  refine ⟨count, le, trimmed, ?_⟩
  rw [← slice_filter beyond.le, ← honest]
  have inOrder : Ordered (standing poolId) entries := honest ▸ ordered.of_slice _ _
  refine take_eq_filter (fun entry mem => ?_) fun entry mem => ?_
  · cases count with
    | zero => exact absurd mem List.not_mem_nil
    | succ count =>
      have found : entries[count]? = some entries[count] := List.getElem?_eq_getElem le
      have before : standing poolId entries[count] < position finish :=
        last _ (by rw [Nat.add_sub_cancel, List.getElem?_map, found]; rfl) (Nat.succ_pos count)
      rw [List.take_add_one, found] at mem
      rcases List.mem_append.mp mem with mem | mem
      · exact ((inOrder.getElem? found).1 entry mem).trans before
      · obtain rfl := List.mem_singleton.mp mem
        exact before
  · refine dropped _ ?_
    rw [← length, List.take_length, ← List.map_drop]
    exact List.mem_map_of_mem mem

/-- Clipping a page leaves a slice that ends further on, but not beyond the end. -/
theorem clip_slice (ordered : Ordered (standing poolId) objects)
    (honest : entries = slice (standing poolId) objects (position start) (position next))
    (further : position start < position next) (inside : position start < position finish)
    (pos : 0 < available) :
    ∃ clipped count,
      clipEnumerationPage next entries.length (entries.map (entryPlace poolId)) finish available
          = .ok (clipped, count)
        ∧ entries.take count
          = slice (standing poolId) objects (position start) (position clipped)
        ∧ count ≤ available ∧ position start < position clipped
        ∧ position clipped ≤ position finish ∧ ClippedAt poolId objects next finish clipped := by
  -- the end of the page and its entries after the first cut
  obtain ⟨middle, count, le, clip, part, further, within, at_⟩ : ∃ middle count,
      count ≤ entries.length
        ∧ clipEnumerationPage next entries.length (entries.map (entryPlace poolId)) finish available
          = (if count > available then do
              let next ← index (entries.map (entryPlace poolId)) available
              return (next, available)
            else return (middle, count))
        ∧ entries.take count = slice (standing poolId) objects (position start) (position middle)
        ∧ position start < position middle ∧ position middle ≤ position finish
        ∧ (middle = next ∨ middle = finish) := by
    by_cases beyond : position finish < position next
    · obtain ⟨count, le, trimmed, part⟩ := trim_slice ordered honest beyond
      refine ⟨finish, count, le, ?_, part, inside, le_rfl, .inr rfl⟩
      rw [clipEnumerationPage, compareHobject_gt.mpr beyond, trimmed]
      rfl
    refine ⟨next, entries.length, le_rfl, ?_, ?_, further, not_lt.mp beyond, .inl rfl⟩
    · rw [clipEnumerationPage, if_neg]
      · rfl
      · simpa [compareHobject_gt] using beyond
    · rw [List.take_length]
      exact honest
  by_cases full : count > available
  · -- the page goes on from the first entry that does not fit
    obtain ⟨entry, found⟩ : ∃ entry, entries[available]? = some entry :=
      ⟨_, List.getElem?_eq_getElem (full.trans_le le)⟩
    have kept : entry ∈ entries.take count :=
      List.mem_of_getElem? ((List.getElem?_take_of_lt full).trans found)
    have before : standing poolId entry < position middle := (mem_slice.mp (part ▸ kept)).2.2
    obtain ⟨first, head⟩ : ∃ first, entries[0]? = some first :=
      ⟨_, List.getElem?_eq_getElem (pos.trans (full.trans_le le))⟩
    have fromFirst : first ∈ entries.take available :=
      List.mem_of_getElem? ((List.getElem?_take_of_lt pos).trans head)
    have inOrder : Ordered (standing poolId) entries := honest ▸ ordered.of_slice _ _
    have later : standing poolId first < standing poolId entry :=
      (inOrder.getElem? found).1 first fromFirst
    obtain ⟨-, start_le, -⟩ := mem_slice.mp (honest ▸ List.mem_of_getElem? head)
    obtain ⟨here, -, -⟩ := mem_slice.mp (honest ▸ List.mem_of_getElem? found)
    refine ⟨entryPlace poolId entry, available, ?_, ?_, le_rfl, start_le.trans_lt later,
      before.le.trans within, .inr (.inr ⟨entry, here, rfl⟩)⟩
    · rw [clip, if_pos full, index, List.getElem?_map, found]
      rfl
    · subst honest
      exact ordered.slice_take found
  · refine ⟨middle, count, ?_, part, not_lt.mp full, further, within, ?_⟩
    · rw [clip, if_neg full]
      rfl
    · exact at_.imp_right .inl

end Pages

/-! ## Turns -/

/-- A place that a cursor of a pool stands for. -/
def Stands (poolId : Int64) (object : HObject) : Prop :=
  object.max = true ∨ Holdable poolId object

variable {cursor : ObjectCursor} {object : HObject}

theorem stands_of_cursorHobject (h : cursorHobject cursor = .ok object) :
    Stands cursor.poolId object :=
  (cursorHobject_eq_ok h).imp And.right fun inside => inside.2.1

/-- Where a call is: what it has are the objects from where it started up to there. -/
structure Reached (poolId : Int64) (objects : List ListEntry) (limit : Nat)
    (start finish : HObject) (values : List ObjectEntry) (next : HObject) : Prop where
  part : values
    = (slice (standing poolId) objects (position start) (position next)).map toObjectEntry
  within : values.length ≤ limit
  start_le : position start ≤ position next
  le_finish : position next ≤ position finish
  stands : Stands poolId next

section Turns

variable {pool : Pool} {poolId : Int64} {objects : List ListEntry} {limit : Nat}
  {start finish next next' : HObject} {values values' : List ObjectEntry} {round : Round}

/-- A page that passes the checks goes on from a place of the pool, or from the end. -/
theorem stands_of_validate {entries : List HObject}
    (h : validateEnumerationPage poolId start next entries = true) : Stands poolId next := by
  unfold validateEnumerationPage at h
  unfold Stands Holdable
  grind

theorem listTurn_eq_ok
    (h : listTurn pool poolId limit finish round values next = .ok (values', next')) :
    ∃ page count, round.answer next (limit - values.length) = .ok page
      ∧ validateEnumerationPage poolId next page.next (page.entries.map (entryPlace poolId)) = true
      ∧ clipEnumerationPage page.next page.entries.length (page.entries.map (entryPlace poolId))
          finish (limit - values.length) = .ok (next', count)
      ∧ values' = values ++ (page.entries.take count).map toObjectEntry := by
  obtain ⟨page, answer, h⟩ := bind_eq_ok.mp h
  obtain ⟨map, -, h⟩ := bind_eq_ok.mp h
  obtain ⟨cursors, rebuilt, h⟩ := bind_eq_ok.mp h
  obtain rfl := entryCursors_eq_ok (mapError_eq_ok.mp rebuilt)
  split at h
  · cases h
  rename_i valid
  obtain ⟨⟨next, count⟩, clip, h⟩ := bind_eq_ok.mp h
  cases h
  exact ⟨page, count, mapError_eq_ok.mp answer, by simpa using valid, clip, rfl⟩

/-- A turn goes on from where the call is. -/
theorem Reached.turn (ordered : Ordered (standing poolId) objects)
    (honest : round.Honest poolId objects) (stands : Stands poolId finish)
    (reached : Reached poolId objects limit start finish values next)
    (room : values.length < limit) (inside : position next < position finish)
    (h : listTurn pool poolId limit finish round values next = .ok (values', next')) :
    Reached poolId objects limit start finish values' next'
      ∧ position next < position next' := by
  obtain ⟨page, count, answer, valid, clip, rfl⟩ := listTurn_eq_ok h
  obtain ⟨further, entries⟩ := honest _ _ _ answer
  rw [between_eq_slice] at entries
  obtain ⟨clipped, count', clip', part, within, later, le_finish, clippedAt⟩ :=
    clip_slice ordered entries (compareHobject_gt.mp further) inside (Nat.sub_pos_of_lt room)
  cases clip.symm.trans clip'
  refine ⟨⟨?_, ?_, reached.start_le.trans later.le, le_finish, ?_⟩, later⟩
  · rw [reached.part, part, ← List.map_append, ordered.slice_append reached.start_le later.le]
  · rw [List.length_append, List.length_map, List.length_take]
    omega
  rcases clippedAt with rfl | rfl | ⟨entry, -, rfl⟩
  · exact stands_of_validate valid
  · exact stands
  · exact .inr ⟨rfl, .inr ⟨rfl, rfl⟩⟩

/-- And so does a call, through all its turns. -/
theorem Reached.loop {rounds : List Round} (ordered : Ordered (standing poolId) objects)
    (honest : ∀ round ∈ rounds, round.Honest poolId objects) (stands : Stands poolId finish)
    (reached : Reached poolId objects limit start finish values next)
    (h : listLoop pool poolId limit finish rounds values next = .ok (values', next')) :
    Reached poolId objects limit start finish values' next' := by
  induction rounds generalizing values next with
  | nil =>
    unfold listLoop at h
    split at h
    · cases h
    · cases h
      exact reached
  | cons round rounds ih =>
    unfold listLoop at h
    split at h
    next going =>
      obtain ⟨⟨values, next⟩, turn, h⟩ := bind_eq_ok.mp h
      have honestHere := honest round (.head _)
      exact ih (fun round mem => honest round (.tail _ mem))
        (reached.turn ordered honestHere stands going.1 (compareHobject_lt.mp going.2) turn).1 h
    · cases h
      exact reached

end Turns

/-! ## Calls -/

section Calls

variable {pool : Pool} {poolId : Int64} {objects : List ListEntry}

theorem Holds.stands (holds : Holds pool cursor object) (resolved : pool.id = some poolId) :
    Stands poolId object := by
  have owned := holds.owned
  simp only [Pool.ownsCursor, Bool.and_eq_true, beq_iff_eq, resolved, Option.some.injEq] at owned
  rw [owned.1]
  exact stands_of_cursorHobject holds.place

/-- The cursor that a call returns stands where the call stopped. -/
theorem holds_continuation {next : HObject} (resolved : pool.id = some poolId)
    (stands : Stands poolId next)
    (h : (if next.max then pool.endObjectCursor else newObjectCursor poolId pool.nameSpace next)
      = .ok cursor) : ∃ place, Holds pool cursor place ∧ position place = position next := by
  rcases stands with max | holdable
  · rw [if_pos max, Pool.endObjectCursor, resolved] at h
    cases h
    exact ⟨_, ⟨Pool.ownsCursor_iff.mpr ⟨resolved, rfl⟩, rfl⟩,
      (position_max rfl).trans (position_max max).symm⟩
  rw [if_neg (by rw [holdable.1]; decide)] at h
  obtain ⟨rfl, space, inside, value, fits⟩ := newObjectCursor_eq_ok h
  exact ⟨next, ⟨Pool.ownsCursor_iff.mpr ⟨resolved, space.symm⟩,
    cursorHobject_of_value inside value fits holdable⟩, rfl⟩

variable {call : ListCall} {page : ObjectPage}

/-- What a call does, if it gets to the end. -/
theorem listObjectsRange_eq_ok {after ending : ObjectCursor} (resolved : pool.id = some poolId) :
    pool.listObjectsRange after ending call = .ok page ↔
      ∃ first last next, Holds pool after first ∧ Holds pool ending last
        ∧ position first ≤ position last ∧ 0 < call.limit ∧ call.limit ≤ maxEntries
        ∧ call.ready = .ok ()
        ∧ listLoop pool poolId call.limit last call.rounds [] first = .ok (page.values, next)
        ∧ (if next.max then pool.endObjectCursor
            else newObjectCursor poolId pool.nameSpace next) = .ok page.next
        ∧ page.more = (compareHobject next last == .lt) := by
  constructor
  · intro h
    obtain ⟨_, id, h⟩ := bind_eq_ok.mp h
    rw [resolved] at id
    cases id
    split at h
    · cases h
    rename_i accepted
    obtain ⟨ordering, compared, h⟩ := bind_eq_ok.mp h
    split at h
    · cases h
    rename_i inside
    obtain ⟨⟨⟩, ready, h⟩ := bind_eq_ok.mp h
    obtain ⟨last, hlast, h⟩ := bind_eq_ok.mp h
    obtain ⟨first, hfirst, h⟩ := bind_eq_ok.mp h
    obtain ⟨⟨values, next⟩, looped, h⟩ := bind_eq_ok.mp h
    obtain ⟨cursor, continued, h⟩ := bind_eq_ok.mp h
    cases h
    simp only [Bool.or_eq_true, beq_iff_eq, decide_eq_true_eq, Bool.not_eq_true', not_or,
      Bool.not_eq_false, Nat.not_lt] at accepted
    obtain ⟨⟨⟨pos, small⟩, owned⟩, owned'⟩ := accepted
    have holds : Holds pool after first := ⟨owned, mapError_eq_ok.mp hfirst⟩
    have holds' : Holds pool ending last := ⟨owned', mapError_eq_ok.mp hlast⟩
    have le : CursorLe after ending :=
      ⟨ordering, mapError_eq_ok.mp compared, by simpa using inside⟩
    exact ⟨first, last, next, holds, holds', (holds.cursorLe_iff holds').mp le,
      Nat.pos_of_ne_zero pos, small, mapError_eq_ok.mp ready, looped,
      mapError_eq_ok.mp continued, rfl⟩
  · rintro ⟨first, last, next, holds, holds', le, pos, small, ready, looped, continued, more⟩
    obtain ⟨ordering, compared, inside⟩ := (holds.cursorLe_iff holds').mpr le
    refine bind_eq_ok.mpr ⟨poolId, by rw [resolved]; rfl, ?_⟩
    have accepted : ¬ (call.limit == 0 || decide (call.limit > maxEntries)
        || !pool.ownsCursor after || !pool.ownsCursor ending) = true := by
      simp [holds.owned, holds'.owned, pos.ne', small]
    rw [if_neg accepted]
    refine bind_eq_ok.mpr ⟨ordering, mapError_eq_ok.mpr compared, ?_⟩
    rw [if_neg (by simpa using inside)]
    refine bind_eq_ok.mpr ⟨(), mapError_eq_ok.mpr ready, ?_⟩
    refine bind_eq_ok.mpr ⟨last, mapError_eq_ok.mpr holds'.place, ?_⟩
    refine bind_eq_ok.mpr ⟨first, mapError_eq_ok.mpr holds.place, ?_⟩
    refine bind_eq_ok.mpr ⟨(page.values, next), looped, ?_⟩
    refine bind_eq_ok.mpr ⟨page.next, mapError_eq_ok.mpr continued, ?_⟩
    rw [← more]
    rfl

theorem listObjectsRange_slice {after ending : ObjectCursor} (resolved : pool.id = some poolId)
    (ordered : Ordered (standing poolId) objects)
    (honest : ∀ round ∈ call.rounds, round.Honest poolId objects)
    (h : pool.listObjectsRange after ending call = .ok page) :
    ∃ first last place, cursorHobject after = .ok first ∧ cursorHobject ending = .ok last
      ∧ cursorHobject page.next = .ok place
      ∧ page.values
          = (slice (standing poolId) objects (position first) (position place)).map toObjectEntry
      ∧ page.values.length ≤ call.limit ∧ position first ≤ position place
      ∧ position place ≤ position last
      ∧ (page.more = true ↔ position place < position last) := by
  obtain ⟨first, last, next, holds, holds', le, pos, -, -, looped, continued, more⟩ :=
    (listObjectsRange_eq_ok resolved).mp h
  have initial : Reached poolId objects call.limit first last [] first :=
    ⟨by rw [slice_self, List.map_nil], Nat.zero_le _, le_rfl, le, holds.stands resolved⟩
  obtain ⟨part, within, start_le, le_finish, stands⟩ :=
    initial.loop ordered honest (holds'.stands resolved) looped
  obtain ⟨place, ⟨-, hplace⟩, same⟩ := holds_continuation resolved stands continued
  rw [← same] at part start_le le_finish
  refine ⟨first, last, place, holds.place, holds'.place, hplace, part, within, start_le,
    le_finish, ?_⟩
  rw [more, beq_iff_eq, compareHobject_lt, same]

/-- The pages of calls that go on from one another, until there is no more, have the objects
between the first cursor and the last one: all of them, in order and each once.  No page has more
than was asked for. -/
theorem listed_complete {ending after : ObjectCursor} {calls : List ListCall}
    {pages : List ObjectPage} (resolved : pool.id = some poolId) (inOrder : InOrder poolId objects)
    (honest : ∀ call ∈ calls, ∀ round ∈ call.rounds, round.Honest poolId objects)
    (listed : Listed pool ending after calls pages) :
    ∃ first last, cursorHobject after = .ok first ∧ cursorHobject ending = .ok last
      ∧ pages.flatMap ObjectPage.values = (between poolId objects first last).map toObjectEntry
      ∧ List.Forall₂ (fun call page => page.values.length ≤ call.limit) calls pages := by
  have ordered := inOrder_iff.mp inOrder
  suffices ∃ first last, cursorHobject after = .ok first ∧ cursorHobject ending = .ok last
      ∧ position first ≤ position last
      ∧ pages.flatMap ObjectPage.values
        = (slice (standing poolId) objects (position first) (position last)).map toObjectEntry
      ∧ List.Forall₂ (fun call page => page.values.length ≤ call.limit) calls pages by
    obtain ⟨first, last, hfirst, hlast, -, values, lengths⟩ := this
    exact ⟨first, last, hfirst, hlast, by rw [values, between_eq_slice], lengths⟩
  induction listed with
  | last called noMore =>
    obtain ⟨first, last, place, hfirst, hlast, -, values, length, first_le, le_last, more⟩ :=
      listObjectsRange_slice resolved ordered (honest _ (.head _)) called
    have all : position place = position last :=
      le_last.antisymm (not_lt.mp fun lt => by simp [more.mpr lt] at noMore)
    rw [all] at values first_le
    refine ⟨first, last, hfirst, hlast, first_le, ?_, .cons length .nil⟩
    rw [List.flatMap_singleton, values]
  | more called _ _ ih =>
    obtain ⟨first, last, place, hfirst, hlast, hplace, values, length, first_le, le_last, -⟩ :=
      listObjectsRange_slice resolved ordered (honest _ (.head _)) called
    obtain ⟨_, _, hplace', hlast', _, rest, lengths⟩ :=
      ih fun call mem => honest call (.tail _ mem)
    cases hplace.symm.trans hplace'
    cases hlast.symm.trans hlast'
    refine ⟨first, last, hfirst, hlast, first_le.trans le_last, ?_, .cons length lengths⟩
    rw [List.flatMap_cons, values, rest, ← List.map_append, ordered.slice_append first_le le_last]

end Calls

/-! ## Two calls -/

def sampleObjects : List ListEntry := [⟨[], [97], []⟩, ⟨[], [98], []⟩]

/-- A place at the end. -/
def endPlace : HObject := { lowest 0 0 with max := true }

/-- A round whose pages end at given places. -/
def roundTo (poolId : Int64) (objects : List ListEntry) (map : OsdMap) (ends : HObject → HObject) :
    Round where
  answer start _ :=
    if start.max then .error .malformedReply
    else .ok ⟨ends start, between poolId objects start (ends start)⟩
  map := some map

variable {ends : HObject → HObject} {start : HObject}

theorem roundTo_answer {map : OsdMap} {count : Nat} {page : ListPage} :
    (roundTo poolId objects map ends).answer start count = .ok page ↔ start.max = false
      ∧ page = ⟨ends start, between poolId objects start (ends start)⟩ := by
  unfold roundTo
  dsimp only
  cases start.max with
  | true => simp
  | false => simp [eq_comm]

theorem roundTo_honest {map : OsdMap}
    (further : ∀ start, start.max = false → compareHobject (ends start) start = .gt) :
    (roundTo poolId objects map ends).Honest poolId objects := by
  intro start count page answer
  obtain ⟨inside, rfl⟩ := roundTo_answer.mp answer
  exact ⟨further start inside, rfl⟩

theorem compareHobject_endPlace (inside : start.max = false) :
    compareHobject endPlace start = .gt :=
  compareHobject_gt.mpr ((position_lt_top inside).trans_eq (position_max rfl).symm)

def sampleCall (limit : Nat) : ListCall :=
  ⟨limit, .ok (), [roundTo 1 sampleObjects (Maps.OsdMap.sampleMap [] []) fun _ => endPlace]⟩

set_option maxRecDepth 1000

/-- The objects of a pool, the first of them with one call and the other with the next. -/
theorem listed_complete_pair :
    ∃ pages, Listed samplePool sampleEnd (.holding 1 [] sampleMinimum (by decide))
        [sampleCall 1, sampleCall 5] pages
      ∧ pages.flatMap ObjectPage.values = sampleObjects.map toObjectEntry := by
  have listed : Listed samplePool sampleEnd (.holding 1 [] sampleMinimum (by decide))
      [sampleCall 1, sampleCall 5]
      [⟨[⟨[97], [], []⟩], .holding 1 [] (entryPlace 1 ⟨[], [98], []⟩) (by decide), true⟩,
        ⟨[⟨[98], [], []⟩], sampleEnd, false⟩] :=
    .more (by decide) rfl (.last (by decide) rfl)
  have inOrder : InOrder 1 sampleObjects := by
    unfold InOrder
    decide
  have honest : ∀ call ∈ [sampleCall 1, sampleCall 5], ∀ round ∈ call.rounds,
      round.Honest 1 sampleObjects := by
    intro call mem round here
    have same : round
        = roundTo 1 sampleObjects (Maps.OsdMap.sampleMap [] []) fun _ => endPlace := by
      simp only [List.mem_cons, List.not_mem_nil, or_false] at mem
      rcases mem with rfl | rfl <;> exact List.mem_singleton.mp here
    rw [same]
    exact roundTo_honest fun _ => compareHobject_endPlace
  obtain ⟨first, last, hfirst, hlast, all, -⟩ := listed_complete rfl inOrder honest listed
  refine ⟨_, listed, all.trans ?_⟩
  have minimum : cursorHobject (.holding 1 [] sampleMinimum (by decide)) = .ok sampleMinimum := by
    decide
  cases minimum.symm.trans hfirst
  cases hlast
  decide

end RadosRs.Client
