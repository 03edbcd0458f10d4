import RadosRs.Crush.Map
import RadosRs.Lib.Chains
import RadosRs.Lib.Table
import RadosRs.Lib.Total

/-!
# The graph check of a CRUSH map

`validateGraph` searches the buckets of a map depth first.  It keeps the heights
of the buckets it is done with, so a bucket that several others share is searched
once, and then only its height is compared with the depth at which it is met
again.

The height it keeps is the length of the longest chain of nested buckets that
starts at the bucket (`Settled`).  This does not depend on the way the search took
to the bucket, and so the check accepts exactly the maps whose items exist, whose
buckets are not nested in themselves and whose chains have at most 64 buckets
(`Map.Sound`), in whatever order the buckets are visited.
-/

namespace RadosRs.Crush

open Fallible Chains Table
open Relation (TransGen)

/-! ## Sound graphs -/

/-- An item is a device in range or a bucket of the map.  Bucket ids are negative. -/
def Map.Item (m : Map) (item : Int) : Prop :=
  (0 ≤ item ∧ item < m.maxDevices) ∨ (item < 0 ∧ item ∈ m.buckets)

/-- A bucket of the map has another one as an item. -/
def Map.Nests (m : Map) (outer inner : Int) : Prop :=
  ∃ bucket : Bucket, m.buckets[outer]? = some bucket ∧ inner ∈ bucket.items ∧ inner < 0 ∧
    inner ∈ m.buckets

/-- Every item exists, no bucket is inside itself and no chain of nested buckets is too long. -/
structure Map.Sound (m : Map) : Prop where
  items : ∀ (id : Int) (bucket : Bucket), m.buckets[id]? = some bucket →
    ∀ item ∈ bucket.items, m.Item item
  acyclic : ∀ id, ¬ TransGen m.Nests id id
  shallow : ∀ chain : List Int, chain.IsChain m.Nests → chain.length ≤ maxCertifiedDepth

/-- A bucket whose items exist and whose longest chain is known. -/
structure Settled (m : Map) (id : Int) (height : Nat) : Prop where
  items : ∀ bucket : Bucket, m.buckets[id]? = some bucket → ∀ item ∈ bucket.items, m.Item item
  longest : Longest m.Nests id height

/-- A map all of whose buckets are settled within the depth is sound. -/
theorem Map.sound_of_settled {m : Map}
    (all : ∀ id ∈ m.buckets, ∃ height ≤ maxCertifiedDepth, Settled m id height) : m.Sound where
  items := by
    intro id bucket found
    obtain ⟨_, _, settled⟩ := all id (mem_iff.mpr ⟨bucket, found⟩)
    exact settled.items bucket found
  acyclic := by
    refine acyclic_of_longest fun _ inner ⟨_, _, _, _, inside⟩ => ?_
    obtain ⟨height, _, settled⟩ := all inner inside
    exact ⟨height, settled.longest⟩
  shallow := by
    intro chain nested
    rcases chain with _ | ⟨id, _ | ⟨inner, rest⟩⟩
    · exact Nat.zero_le _
    · exact (by decide : 1 ≤ maxCertifiedDepth)
    obtain ⟨bucket, found, _⟩ := (List.isChain_cons_cons.mp nested).1
    obtain ⟨height, low, settled⟩ := all id (mem_iff.mpr ⟨bucket, found⟩)
    exact Nat.le_trans (settled.longest.bound _ nested) low

/-! ## The search -/

/-- What holds of the search below the buckets of `path`: these are the ones it is visiting,
and the heights it keeps are those of the chains. -/
structure Searching (m : Map) (path : List Int) (s : Visit) : Prop where
  visiting : ∀ id : Int, s.states[id]? = some .visiting ↔ id ∈ path
  visited : ∀ id : Int, s.states[id]? = some .visited →
    ∃ height, s.heights[id]? = some height ∧ Settled m id height

/-- Buckets the search is done with stay done. -/
def Visit.Keeps (s s' : Visit) : Prop :=
  ∀ id : Int, s.states[id]? = some .visited → s'.states[id]? = some .visited

/-- What a visit of a bucket leaves. -/
structure Visited (m : Map) (path : List Int) (id : Int) (s : Visit) (found : Nat × Visit) :
    Prop where
  searching : Searching m path found.2
  done : found.2.states[id]? = some .visited
  settled : Settled m id found.1
  shallow : path.length + found.1 ≤ maxCertifiedDepth
  keeps : s.Keeps found.2

/-- What the loop over the items of a bucket keeps, with the items it is done with. -/
structure Scanned (m : Map) (path : List Int) (s : Visit) (items : List Int)
    (found : Nat × Visit) : Prop where
  searching : Searching m path found.2
  keeps : s.Keeps found.2
  exist : ∀ item ∈ items, m.Item item
  below : ∀ item ∈ items, item < 0 → ∃ k, Settled m item k ∧ k < found.1
  attained : found.1 = 1 ∨ ∃ item ∈ items, item < 0 ∧ ∃ k, Settled m item k ∧ found.1 = k + 1
  shallow : path.length + found.1 ≤ maxCertifiedDepth + 1

variable {m : Map} {path : List Int} {s s' : Visit} {id : Int}

theorem Searching.fresh : Searching m [] {} where
  visiting id := by simp
  visited id h := by simp at h

/-- Entering a bucket. -/
theorem Searching.enter (searching : Searching m path s) (id : Int) :
    Searching m (path ++ [id]) { s with states := s.states.insert id .visiting } where
  visiting other := by
    simp only [lookup_insert, List.mem_append, List.mem_singleton]
    split
    next same => simp [same]
    next different => simp [searching.visiting, Ne.symm different]
  visited other h := by
    simp only [lookup_insert] at h
    split at h
    · cases h
    · exact searching.visited other h

/-- Leaving a bucket. -/
theorem Searching.leave {height : Nat} (searching : Searching m (path ++ [id]) s)
    (outside : id ∉ path) (settled : Settled m id height) :
    Searching m path { states := s.states.insert id .visited
                       heights := s.heights.insert id height } where
  visiting other := by
    simp only [lookup_insert]
    split
    next same => simp [← same, outside]
    next different => simp [searching.visiting, Ne.symm different]
  visited other h := by
    simp only [lookup_insert] at h ⊢
    split at h
    next same => exact ⟨height, by rw [if_pos same], same ▸ settled⟩
    rename_i different
    rw [if_neg different]
    exact searching.visited other h

theorem Visit.Keeps.trans {s'' : Visit} (h : s.Keeps s') (h' : s'.Keeps s'') : s.Keeps s'' :=
  fun id done => h' id (h id done)

/-- A bucket that was not met before can be marked. -/
theorem Visit.Keeps.mark (unmet : s.states[id]? = none) (mark : Mark)
    (heights : Std.ExtTreeMap Int Nat) :
    s.Keeps { states := s.states.insert id mark, heights } := by
  intro other done
  have apart : id ≠ other := by
    rintro rfl
    rw [unmet] at done
    cases done
  simp only [lookup_insert, if_neg apart, done]

/-- A bucket the search is done with can be marked so. -/
theorem Visit.Keeps.finish (s : Visit) (id : Int) (heights : Std.ExtTreeMap Int Nat) :
    s.Keeps { states := s.states.insert id .visited, heights } := by
  intro other done
  simp only [lookup_insert]
  split
  · rfl
  · exact done

/-! ### The items of a bucket -/

section Items

variable {visit : Int → Visit → Run GraphError (Nat × Visit)} {items : List Int}
  {found found' : Nat × Visit} {item : Int}

/-- What a visited item is, and what the loop knows after it. -/
theorem visitItem_eq_ok (h : visitItem m visit found item = .ok found') :
    (0 ≤ item ∧ item < m.maxDevices ∧ found' = found) ∨
      (item < 0 ∧ item ∈ m.buckets ∧ ∃ child, visit item found.2 = .ok child ∧
        found' = (max found.1 (child.1 + 1), child.2)) := by
  unfold visitItem at h
  split at h
  next device =>
    split at h
    · cases h
    rename_i inRange
    cases h
    exact .inl ⟨device, by omega, rfl⟩
  next bucket =>
    split at h
    · cases h
    rename_i inside
    obtain ⟨child, visited, rest⟩ := bind_eq_ok.mp h
    cases rest
    exact .inr ⟨by omega, not_not.mp inside, child, visited, rfl⟩

theorem Scanned.device (scanned : Scanned m path s items found) (device : 0 ≤ item)
    (inRange : item < m.maxDevices) : Scanned m path s (items ++ [item]) found where
  searching := scanned.searching
  keeps := scanned.keeps
  exist := List.forall_mem_append.mpr
    ⟨scanned.exist, List.forall_mem_singleton.mpr (.inl ⟨device, inRange⟩)⟩
  below := List.forall_mem_append.mpr
    ⟨scanned.below, List.forall_mem_singleton.mpr fun negative => by omega⟩
  attained := by
    rcases scanned.attained with one | ⟨other, inside, rest⟩
    · exact .inl one
    · exact .inr ⟨other, List.mem_append_left _ inside, rest⟩
  shallow := scanned.shallow

theorem Scanned.bucket {child : Nat × Visit} (scanned : Scanned m path s items found)
    (negative : item < 0) (inside : item ∈ m.buckets)
    (visited : Visited m path item found.2 child) :
    Scanned m path s (items ++ [item]) (max found.1 (child.1 + 1), child.2) where
  searching := visited.searching
  keeps := scanned.keeps.trans visited.keeps
  exist := List.forall_mem_append.mpr
    ⟨scanned.exist, List.forall_mem_singleton.mpr (.inr ⟨negative, inside⟩)⟩
  below := by
    refine List.forall_mem_append.mpr ⟨fun other mem bucket => ?_, List.forall_mem_singleton.mpr ?_⟩
    · obtain ⟨k, settled, smaller⟩ := scanned.below other mem bucket
      exact ⟨k, settled, Nat.lt_of_lt_of_le smaller (Nat.le_max_left ..)⟩
    · exact fun _ => ⟨child.1, visited.settled, Nat.le_max_right ..⟩
  attained := by
    rcases Nat.le_total found.1 (child.1 + 1) with higher | lower
    · refine .inr ⟨item, by simp, negative, child.1, visited.settled, ?_⟩
      exact Nat.max_eq_right higher
    simp only [Nat.max_eq_left lower]
    rcases scanned.attained with one | ⟨other, mem, rest⟩
    · exact .inl one
    · exact .inr ⟨other, List.mem_append_left _ mem, rest⟩
  shallow := by
    have before := scanned.shallow
    have now := visited.shallow
    simp only
    omega

/-- When all items are scanned the height of their bucket is known. -/
theorem Scanned.settled {bucket : Bucket} (lookup : m.buckets[id]? = some bucket)
    (scanned : Scanned m path s bucket.items found) : Settled m id found.1 where
  items other same := by
    rw [lookup] at same
    cases same
    exact scanned.exist
  longest := by
    apply Longest.of_successors
    · rintro inner ⟨other, same, mem, negative, _⟩
      rw [lookup] at same
      cases same
      obtain ⟨k, settled, smaller⟩ := scanned.below inner mem negative
      exact ⟨k, settled.longest, smaller⟩
    rcases scanned.attained with one | ⟨inner, mem, negative, k, settled, height⟩
    · exact .inl one
    · have inside : inner ∈ m.buckets := by
        rcases scanned.exist inner mem with ⟨device, _⟩ | ⟨_, inside⟩
        · omega
        · exact inside
      exact .inr ⟨inner, ⟨bucket, lookup, mem, negative, inside⟩, k, settled.longest, height⟩

end Items

/-! ### One bucket -/

variable {found : Nat × Visit}

/-- A visit that succeeds settles its bucket. -/
theorem visitBucket_visited (path : List Int) {room : Nat}
    (depth : path.length + room = maxCertifiedDepth) (searching : Searching m path s)
    (h : visitBucket m room id s = .ok found) : Visited m path id s found := by
  -- the recursion is on the room, with the path growing as it shrinks
  induction room generalizing path id s found with
  | zero => cases h
  | succ room ih =>
    rw [visitBucket] at h
    split at h
    · cases h
    next done =>
      obtain ⟨height, kept, h⟩ := bind_eq_ok.mp h
      obtain ⟨_, known, settled⟩ := searching.visited id done
      rw [known] at kept
      cases kept
      split at h
      · cases h
      rename_i low
      cases h
      exact ⟨searching, done, settled, by simp only; omega, fun _ h => h⟩
    next unmet =>
      split at h
      · cases h
      rename_i bucket lookup
      obtain ⟨⟨height, left⟩, scan, h⟩ := bind_eq_ok.mp h
      cases h
      have outside : id ∉ path := by
        intro inside
        have visiting := (searching.visiting id).mpr inside
        rw [unmet] at visiting
        cases visiting
      have deeper : (path ++ [id]).length + room = maxCertifiedDepth := by
        rw [List.length_append, List.length_singleton]
        omega
      have start : Scanned m (path ++ [id]) s []
          (1, { s with states := s.states.insert id .visiting }) :=
        ⟨searching.enter id, .mark unmet _ _, nofun, nofun, .inl rfl, by simp only; omega⟩
      have scanned := foldlM_collects (Scanned m (path ++ [id]) s) (fun item => [item])
        (fun items before item after _ scanned step => by
          obtain ⟨device, inRange, rfl⟩ | ⟨negative, inside, child, visited, rfl⟩ :=
            visitItem_eq_ok step
          · exact scanned.device device inRange
          · exact scanned.bucket negative inside (ih (path ++ [id]) deeper scanned.searching visited))
        start scan
      rw [List.nil_append, List.flatMap_singleton'] at scanned
      have settled := scanned.settled lookup
      have shallow := scanned.shallow
      rw [List.length_append, List.length_singleton] at shallow
      exact ⟨scanned.searching.leave outside settled, by simp, settled,
        by simp only at shallow ⊢; omega, scanned.keeps.trans (.finish left id _)⟩

/-- In a sound graph a visit succeeds, whatever was visited before. -/
theorem visitBucket_succeeds (sound : m.Sound) (path : List Int) {room : Nat}
    (depth : path.length + room = maxCertifiedDepth) (chain : (path ++ [id]).IsChain m.Nests)
    (inside : id ∈ m.buckets) (searching : Searching m path s) :
    ∃ found, visitBucket m room id s = .ok found := by
  induction room generalizing path id s with
  | zero =>
    have shallow := sound.shallow _ chain
    rw [List.length_append, List.length_singleton] at shallow
    omega
  | succ room ih =>
    rw [visitBucket]
    split
    next visiting =>
      have mem := (searching.visiting id).mp visiting
      exact absurd (transGen_of_chain chain mem) (sound.acyclic id)
    next done =>
      obtain ⟨height, kept, settled⟩ := searching.visited id done
      obtain ⟨rest, longest, length⟩ := settled.longest.attained
      have shallow := sound.shallow _ (List.isChain_split.mpr ⟨chain, longest⟩)
      rw [List.length_append, List.length_cons, length] at shallow
      refine ⟨(height, s), bind_eq_ok.mpr ⟨height, by rw [kept]; rfl, ?_⟩⟩
      rw [if_neg (by omega)]
      rfl
    next unmet =>
      obtain ⟨bucket, lookup⟩ := mem_iff.mp inside
      have deeper : (path ++ [id]).length + room = maxCertifiedDepth := by
        rw [List.length_append, List.length_singleton]
        omega
      have each : ∀ (found : Nat × Visit) (item : Int), item ∈ bucket.items →
          Searching m (path ++ [id]) found.2 →
          ∃ found', visitItem m (visitBucket m room) found item = .ok found' ∧
            Searching m (path ++ [id]) found'.2 := by
        intro found item mem known
        rcases sound.items id bucket lookup item mem with ⟨device, inRange⟩ | ⟨negative, child⟩
        · exact ⟨found, by rw [visitItem, if_pos device, if_neg (by omega)], known⟩
        have nests : m.Nests id item := ⟨bucket, lookup, mem, negative, child⟩
        have longer : (path ++ [id] ++ [item]).IsChain m.Nests := by
          rw [List.append_assoc]
          exact List.isChain_split.mpr ⟨chain, List.isChain_pair.mpr nests⟩
        obtain ⟨below, visited⟩ := ih (path ++ [id]) deeper longer child known
        refine ⟨(max found.1 (below.1 + 1), below.2), ?_,
          (visitBucket_visited _ deeper known visited).searching⟩
        rw [visitItem, if_neg (by omega), if_neg (not_not.mpr child)]
        exact bind_eq_ok.mpr ⟨below, visited, rfl⟩
      obtain ⟨⟨height, left⟩, scan, _⟩ :=
        foldlM_total (fun found => Searching m (path ++ [id]) found.2) each (s := (1, _))
          (searching.enter id)
      rw [lookup]
      exact ⟨_, bind_eq_ok.mpr ⟨_, scan, rfl⟩⟩

/-! ## All buckets -/

/-- The check with the buckets visited in the given order. -/
def Map.validateFrom (m : Map) (order : List Int) : Run GraphError Unit := do
  let _ ← order.foldlM
    (fun state id => do
      let (_, state) ← visitBucket m maxCertifiedDepth id state
      return state)
    ({} : Visit)
  return ()

theorem Map.validateGraph_eq (m : Map) : m.validateGraph = m.validateFrom m.buckets.keys := rfl

/-- The buckets that were visited so far, at the top, are settled. -/
structure Done (m : Map) (ids : List Int) (s : Visit) : Prop where
  searching : Searching m [] s
  visited : ∀ id ∈ ids, s.states[id]? = some .visited ∧
    ∃ height ≤ maxCertifiedDepth, Settled m id height

theorem Done.visit {ids : List Int} (done : Done m ids s) (visited : Visited m [] id s found) :
    Done m (ids ++ [id]) found.2 where
  searching := visited.searching
  visited := by
    refine List.forall_mem_append.mpr ⟨fun other mem => ?_, List.forall_mem_singleton.mpr ?_⟩
    · obtain ⟨before, settled⟩ := done.visited other mem
      exact ⟨visited.keeps other before, settled⟩
    · exact ⟨visited.done, found.1, Nat.zero_add found.1 ▸ visited.shallow, visited.settled⟩

variable {order : List Int}

theorem Map.sound_of_validateFrom (complete : ∀ id ∈ m.buckets, id ∈ order)
    (h : m.validateFrom order = .ok ()) : m.Sound := by
  obtain ⟨final, visits, _⟩ := bind_eq_ok.mp h
  have start : Done m [] {} := ⟨.fresh, nofun⟩
  have all := foldlM_collects (Done m) (fun id => [id])
    (fun done s id s' _ known step => by
      obtain ⟨found, visited, rest⟩ := bind_eq_ok.mp step
      cases rest
      exact known.visit (visitBucket_visited [] (Nat.zero_add _) known.searching visited))
    start visits
  rw [List.nil_append, List.flatMap_singleton'] at all
  exact Map.sound_of_settled fun id inside => (all.visited id (complete id inside)).2

theorem Map.validateFrom_of_sound (sound : m.Sound) (known : ∀ id ∈ order, id ∈ m.buckets) :
    m.validateFrom order = .ok () := by
  have each : ∀ (s : Visit) (id : Int), id ∈ order → Searching m [] s →
      ∃ s', (do
        let (_, state) ← visitBucket m maxCertifiedDepth id s
        return state) = .ok s' ∧ Searching m [] s' := by
    intro s id mem searching
    obtain ⟨found, visited⟩ := visitBucket_succeeds sound [] (Nat.zero_add _) (.singleton id)
      (known id mem) searching
    exact ⟨found.2, bind_eq_ok.mpr ⟨found, visited, rfl⟩,
      (visitBucket_visited [] (Nat.zero_add _) searching visited).searching⟩
  obtain ⟨final, visits, _⟩ := foldlM_total (Searching m []) each .fresh
  exact bind_eq_ok.mpr ⟨final, visits, rfl⟩

theorem Map.validateFrom_iff (keys : ∀ id, id ∈ order ↔ id ∈ m.buckets) :
    m.validateFrom order = .ok () ↔ m.Sound :=
  ⟨Map.sound_of_validateFrom fun id => (keys id).mpr,
    fun sound => Map.validateFrom_of_sound sound fun id => (keys id).mp⟩

/-- The check accepts exactly the sound graphs, and visiting the buckets in another order
makes no difference. -/
theorem validateGraph_iff_sound (m : Map) :
    (m.validateGraph = .ok () ↔ m.Sound) ∧
      ∀ order : List Int, (∀ id, id ∈ order ↔ id ∈ m.buckets) →
        (m.validateFrom order = .ok () ↔ m.Sound) := by
  constructor
  · rw [Map.validateGraph_eq]
    exact Map.validateFrom_iff fun id => Std.ExtTreeMap.mem_keys
  · exact fun order keys => Map.validateFrom_iff keys

/-- A bucket that two others share, one of them inside the other. -/
def sharingMap : Map where
  maxDevices := 1
  buckets := .ofList [((-1 : Int), (⟨-1, 10, 3, [-2, -3], [2, 1]⟩ : Bucket)),
    (-2, ⟨-2, 2, 2, [-3, 0], [1, 1]⟩), (-3, ⟨-3, 1, 1, [0], [1]⟩)]

theorem validateGraph_iff_sound_sharing :
    sharingMap.Sound ∧ sharingMap.validateFrom [-3, -1, -2] = .ok () := by
  have sound := (validateGraph_iff_sound sharingMap).1.mp (by decide)
  refine ⟨sound, ((validateGraph_iff_sound sharingMap).2 _ fun id => ?_).mpr sound⟩
  simp [sharingMap, Std.ExtTreeMap.mem_ofList]
  tauto

end RadosRs.Crush
