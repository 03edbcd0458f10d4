import Mathlib.Data.List.Perm.Basic
import RadosRs.Crush.Devices
import RadosRs.Crush.StableMod
import RadosRs.Maps.Placement

/-!
# What a placement promises

Three things about the answer of `placeRawHash`.

* It depends on the hash only through the placement group.  The seed for CRUSH is
  computed with another count than the group, but from the group it can be found.
* The up set has no OSD twice and only OSDs that are up, whatever overrides the map
  has: a replacement is checked, a remap brings in an OSD that is not there yet, and
  the primary only changes places.
* The acting primary is an OSD of the acting set that is up.  There is one exception.
  A temporary primary from the map is looked for in the acting set and nowhere else,
  and the set of an erasure pool can have holes.  A temporary primary that is the hole
  marker is found in them.
-/

namespace RadosRs.Maps

open Fallible Crush Selection

/-- Everything in a placement but the hash it came from. -/
def ObjectPlacement.located (placement : ObjectPlacement) :
    Pg × UInt32 × OsdMap.PlacedSets × Int × Bool :=
  (placement.pg, placement.placementSeed,
    ⟨placement.raw, placement.up, placement.upPrimary, placement.acting, placement.actingPrimary⟩,
    placement.primaryShard, placement.sharded)

namespace OsdMap

variable {map : OsdMap} {fuel : Nat} {poolId : Int} {pool : Pool} {pg : Pg} {hash seed : UInt32}
  {placement placed : ObjectPlacement}

/-! ## Hashes and placement groups -/

/-- The placement group of a hash. -/
def groupOf (poolId : Int) (pool : Pool) (hash : UInt32) : Pg :=
  { pool := poolId.toNat, seed := stableMod hash.toNat pool.pgCount, preferred := -1 }

/-- What a hash is mapped to before anything is placed. -/
def mapped (poolId : Int) (pool : Pool) (hash : UInt32) : ObjectPlacement :=
  { rawHash := hash
    rawPg := { pool := poolId.toNat, seed := hash.toNat, preferred := -1 }
    pg := groupOf poolId pool hash
    placementSeed :=
      hash32Pair (.ofNat (stableMod hash.toNat pool.placementPgCount)) (castUnsigned poolId) }

/-- Whether a hash is mapped at all does not depend on it. -/
theorem mapRawHash_eq (found : map.pools[poolId]? = some pool) :
    (∃ reason, ∀ hash, map.mapRawHash poolId hash = unsupportedPlacement reason) ∨
      ∀ hash, map.mapRawHash poolId hash = .ok (mapped poolId pool hash) := by
  unfold mapRawHash
  rw [found]
  dsimp only
  split_ifs
  · exact .inl ⟨_, fun _ => rfl⟩
  · exact .inl ⟨_, fun _ => rfl⟩
  · exact .inl ⟨_, fun _ => rfl⟩
  · exact .inl ⟨_, fun _ => rfl⟩
  · exact .inr fun _ => rfl

/-- Placing reads the group and the seed of what has been mapped. -/
theorem placeMapped_located {other : ObjectPlacement} (same : placement.located = other.located) :
    (map.placeMapped fuel poolId placement).map ObjectPlacement.located =
      (map.placeMapped fuel poolId other).map ObjectPlacement.located := by
  simp only [ObjectPlacement.located, Prod.mk.injEq] at same
  obtain ⟨pg, seed, -, shard, sharded⟩ := same
  unfold placeMapped
  split
  · rfl
  rename_i pool _
  rw [pg, seed]
  cases checkPool pool with
  | error _ => rfl
  | ok _ =>
    cases map.placedSets fuel pool other.pg other.placementSeed with
    | error _ => rfl
    | ok sets =>
      cases shard_eq : shardOf pool sets.acting sets.actingPrimary with
      | error _ => simp [shard_eq, bind, Except.bind, Except.map]
      | ok found =>
        simp [shard_eq, bind, Except.bind, Except.map, pure, Except.pure, fillIn,
          ObjectPlacement.located, pg, seed, shard, sharded]

/-- Hashes of one group have one seed. -/
theorem located_mapped {other : UInt32} (word : pool.pgCount < 2 ^ 32)
    (geometry : 0 < pool.placementPgCount ∧ pool.placementPgCount ≤ pool.pgCount)
    (same : stableMod hash.toNat pool.pgCount = stableMod other.toNat pool.pgCount) :
    (mapped poolId pool hash).located = (mapped poolId pool other).located := by
  have seed : stableMod hash.toNat pool.placementPgCount =
      stableMod other.toNat pool.placementPgCount := by
    rw [← stableMod_stableMod geometry.1 geometry.2 word, same,
      stableMod_stableMod geometry.1 geometry.2 word]
  simp only [ObjectPlacement.located, mapped, groupOf, same, seed]

/-! ## OSDs that are up -/

/-- Every OSD has a number below the hole marker. -/
def Numbered (map : OsdMap) : Prop := (map.osdState.length : Int) ≤ itemNone

variable {osd : Int}

theorem osdEntry_eq_some {α : Type} {values : List α} {value : α}
    (h : osdEntry values osd = some value) : 0 ≤ osd ∧ values[osd.toNat]? = some value := by
  unfold osdEntry at h
  split at h
  · cases h
  next nonneg => exact ⟨by omega, h⟩

theorem exists_of_isUp (up : map.isUp osd = true) : map.osdExists osd = true := by
  obtain ⟨state, entry, bits⟩ := (Option.any_eq_true _ _).mp up
  refine (Option.any_eq_true _ _).mpr ⟨state, entry, ?_⟩
  simp only [decide_eq_true_eq] at bits ⊢
  exact bits.1

theorem isUp_bounds (up : map.isUp osd = true) : 0 ≤ osd ∧ osd < map.osdState.length := by
  obtain ⟨state, entry, -⟩ := (Option.any_eq_true _ _).mp up
  obtain ⟨nonneg, found⟩ := osdEntry_eq_some entry
  obtain ⟨inside, -⟩ := List.getElem?_eq_some_iff.mp found
  omega

theorem Numbered.ne_itemNone (numbered : map.Numbered) (up : map.isUp osd = true) :
    osd ≠ itemNone := by
  have bounds := isUp_bounds up
  have marker : (map.osdState.length : Int) ≤ itemNone := numbered
  omega

variable {sharded : Bool} {source : List Int}

theorem mem_onlyUp (mem : osd ∈ map.onlyUp source sharded) :
    map.isUp osd = true ∨ (sharded = true ∧ osd = itemNone) := by
  obtain ⟨given, -, kept⟩ := List.mem_filterMap.mp mem
  split at kept
  next up =>
    cases kept
    exact .inl up
  split at kept
  next slots =>
    cases kept
    exact .inr ⟨slots, rfl⟩
  · cases kept

theorem onlyUp_once (once : NoRepeat itemNone source) :
    NoRepeat itemNone (map.onlyUp source sharded) := by
  refine once.filterMap fun a b kept => ?_
  split at kept
  · exact .inl (Option.some.inj kept).symm
  split at kept
  · exact .inr (Option.some.inj kept).symm
  · cases kept

/-! ## Overrides -/

variable {osds : List Int}

theorem validateFrom_once {name : String} {seen : List Int}
    (h : map.validateFrom name false seen osds = .ok ()) :
    NoRepeat itemNone osds ∧ ∀ osd ∈ osds, osd ≠ itemNone → osd ∉ seen := by
  induction osds generalizing seen with
  | nil => exact ⟨fun _ _ => Nat.zero_le _, nofun⟩
  | cons osd osds ih =>
    unfold validateFrom at h
    split at h
    next hole =>
      obtain ⟨once, unseen⟩ := ih h
      refine ⟨fun a other => ?_, fun a mem other => ?_⟩
      · have differs : osd ≠ a := hole ▸ other.symm
        rw [List.count_cons_of_ne differs]
        exact once a other
      rcases List.mem_cons.mp mem with rfl | mem
      · exact absurd hole other
      · exact unseen a mem other
    next proper =>
      split at h
      · cases h
      split at h
      · cases h
      next new =>
        obtain ⟨once, unseen⟩ := ih h
        refine ⟨fun a other => ?_, fun a mem other => ?_⟩
        · by_cases same : osd = a
          · subst same
            have gone : osd ∉ osds := fun mem => unseen osd mem other (.head _)
            rw [List.count_cons_self, List.count_eq_zero_of_not_mem gone]
          · rw [List.count_cons_of_ne same]
            exact once a other
        · rcases List.mem_cons.mp mem with rfl | mem
          · exact fun before => new ⟨rfl, before⟩
          · exact fun before => unseen a mem other (.tail _ before)

variable {remap : OsdRemap} {position : Option Nat}

/-- A remap has a place to go to only if its target is not there yet. -/
theorem scanRemap_fresh {start : Nat} {place : Nat}
    (h : map.scanRemap remap osds start position = (false, some place)) : remap.target ∉ osds := by
  induction osds generalizing start position with
  | nil => exact List.not_mem_nil
  | cons osd osds ih =>
    unfold scanRemap at h
    split at h
    · cases h
    rename_i differs
    have rest : remap.target ∉ osds := by
      split at h
      · exact ih h
      · exact ih h
    exact fun mem => (List.mem_cons.mp mem).elim (fun same => differs same.symm) rest

variable {result : List Int}

theorem applyRemap_once (once : NoRepeat itemNone result) :
    NoRepeat itemNone (map.applyRemap result remap) := by
  unfold applyRemap
  split
  next place scanned => exact once.set (.inl (scanRemap_fresh scanned)) place
  · exact once

theorem swapPrimary_perm (primary : Int) (result : List Int) :
    (swapPrimary primary result).Perm result := by
  cases result with
  | nil => exact .refl []
  | cons first rest =>
    unfold swapPrimary
    dsimp only
    split
    · exact .refl _
    rename_i place found
    obtain ⟨inside, rfl, -⟩ := List.idxOf?_eq_some_iff.mp found
    calc (rest[place] :: rest.set place first).Perm (rest[place] :: first :: rest.eraseIdx place) :=
          (List.set_perm_cons_eraseIdx inside first).cons _
      List.Perm _ (first :: rest[place] :: rest.eraseIdx place) := .swap ..
      List.Perm _ (first :: rest) := (List.getElem_cons_eraseIdx_perm inside).cons _

theorem applyUpmapItems_once (once : NoRepeat itemNone result) :
    NoRepeat itemNone (map.applyUpmapItems pg result) := by
  have remapped : NoRepeat itemNone
      (((map.pgUpmapItems[pg]?).getD []).foldl map.applyRemap result) :=
    List.foldlRecOn _ _ once fun _ kept _ _ => applyRemap_once kept
  unfold applyUpmapItems upmapPrimary
  split
  · exact remapped
  split
  · exact remapped.perm (swapPrimary_perm _ _)
  · exact remapped

variable {raw : List Int}

theorem applyUpmap_once (valid : map.validateUpmap pg = .ok ()) (once : NoRepeat itemNone raw) :
    NoRepeat itemNone (map.applyUpmap pg raw) := by
  obtain ⟨_, replacement, -⟩ := bind_eq_ok.mp valid
  unfold validateReplacement at replacement
  unfold applyUpmap
  split at replacement
  next none => exact applyUpmapItems_once once
  rename_i osds some
  split
  · exact applyUpmapItems_once (validateFrom_once replacement).1
  · exact once

/-! ## The up set -/

/-- The set and its primary fit together: OSDs that are up or holes, no OSD twice, and a primary
from among them if there is one. -/
structure Chosen (map : OsdMap) (osds : List Int) (primary : Int) : Prop where
  entries : ∀ osd ∈ osds, osd = itemNone ∨ map.isUp osd = true
  once : NoRepeat itemNone osds
  primary : (primary = -1 ∧ ∀ osd ∈ osds, osd = itemNone) ∨
    (primary ∈ osds ∧ map.isUp primary = true)

theorem firstOsd_cases (entries : ∀ osd ∈ osds, osd = itemNone ∨ map.isUp osd = true) :
    (firstOsd osds = -1 ∧ ∀ osd ∈ osds, osd = itemNone) ∨
      (firstOsd osds ∈ osds ∧ map.isUp (firstOsd osds) = true) := by
  unfold firstOsd
  cases first : osds.find? (· ≠ itemNone) with
  | none =>
    have holes := List.find?_eq_none.mp first
    exact .inl ⟨rfl, fun osd mem => by simpa using holes osd mem⟩
  | some osd =>
    have mem := List.mem_of_find?_eq_some first
    have proper : osd ≠ itemNone := by simpa using List.find?_some first
    exact .inr ⟨mem, (entries osd mem).resolve_left proper⟩

/-- The position that the affinities give is that of an OSD. -/
theorem affinityPosition_proper {start : Nat} {place : Nat}
    (h : map.affinityPosition seed osds start position = some place) :
    position = some place ∨ ∃ offset osd, place = start + offset ∧ osds[offset]? = some osd ∧
      osd ≠ itemNone := by
  induction osds generalizing start position with
  | nil => exact .inl h
  | cons osd osds ih =>
    have later {position : Option Nat}
        (h : map.affinityPosition seed osds (start + 1) position = some place) :
        position = some place ∨ ∃ offset other, place = start + offset ∧
          (osd :: osds)[offset]? = some other ∧ other ≠ itemNone := by
      refine (ih h).imp_right ?_
      rintro ⟨offset, other, here, found, proper⟩
      exact ⟨offset + 1, other, by omega, by simpa using found, proper⟩
    unfold affinityPosition at h
    split at h
    · exact later h
    rename_i proper
    have here : ∃ offset other, start = start + offset ∧
        (osd :: osds)[offset]? = some other ∧ other ≠ itemNone :=
      ⟨0, osd, rfl, rfl, proper⟩
    split at h
    · exact later h
    split at h
    · rcases later h with before | after
      · rcases Option.or_eq_some_iff.mp before with old | ⟨-, new⟩
        · exact .inl old
        · exact .inr (Option.some.inj new ▸ here)
      · exact .inr after
    · exact .inr (Option.some.inj h ▸ here)

variable {primary : Int}

/-- A primary is chosen from among the OSDs, and at most changes places. -/
theorem Chosen.applyPrimaryAffinity {after : List Int} {primary' : Int} {shift : Bool}
    (chosen : map.Chosen osds primary)
    (h : map.applyPrimaryAffinity seed osds primary shift = .ok (after, primary')) :
    map.Chosen after primary' ∧ after.Perm osds := by
  unfold OsdMap.applyPrimaryAffinity at h
  split at h
  · cases h
    exact ⟨chosen, .refl _⟩
  split at h
  · cases h
    exact ⟨chosen, .refl _⟩
  next place located =>
    obtain ⟨osd, found, h⟩ := bind_eq_ok.mp h
    have found := expect_eq_ok.mp found
    have mem := List.mem_of_getElem? found
    have proper : osd ≠ itemNone := by
      obtain ⟨⟨⟩⟩ | ⟨offset, other, rfl, same, proper⟩ := affinityPosition_proper located
      rw [Nat.zero_add, same] at found
      exact Option.some.inj found ▸ proper
    have up := (chosen.entries osd mem).resolve_left proper
    split at h
    · cases h
      obtain ⟨inside, rfl⟩ := List.getElem?_eq_some_iff.mp found
      have perm := List.getElem_cons_eraseIdx_perm inside
      exact ⟨⟨fun other there => chosen.entries other (perm.mem_iff.mp there),
        chosen.once.perm perm, .inr ⟨.head _, up⟩⟩, perm⟩
    · cases h
      exact ⟨⟨chosen.entries, chosen.once, .inr ⟨mem, up⟩⟩, .refl _⟩

theorem upSet_chosen {up : List Int} (valid : map.validateUpmap pg = .ok ())
    (once : NoRepeat itemNone raw) (h : map.upSet pg seed sharded raw = .ok (up, primary)) :
    map.Chosen up primary ∧ ∀ osd ∈ up, map.isUp osd = true ∨ sharded = true := by
  have entries : ∀ osd ∈ map.onlyUp (map.applyUpmap pg raw) sharded,
      osd = itemNone ∨ map.isUp osd = true :=
    fun osd mem => (mem_onlyUp mem).elim .inr fun hole => .inl hole.2
  obtain ⟨chosen, perm⟩ := Chosen.applyPrimaryAffinity
    ⟨entries, onlyUp_once (applyUpmap_once valid once), firstOsd_cases entries⟩ h
  exact ⟨chosen, fun osd mem => (mem_onlyUp (perm.mem_iff.mp mem)).imp_right And.left⟩

theorem decodeCrushMap_decoded {crush : ValidatedMap} (h : map.decodeCrushMap = .ok crush) :
    Crush.Map.decode map.crushData (crushLimits map.crushData) = .ok crush.map := by
  unfold decodeCrushMap at h
  split at h
  · cases h
  · obtain ⟨decoded, decoding, h⟩ := bind_eq_ok.mp h
    rw [mapError_eq_ok.mp decoding, ValidatedMap.map_of_new (mapError_eq_ok.mp h)]

theorem rawSet_once (h : map.rawSet fuel pool seed = .ok raw) : NoRepeat itemNone raw := by
  obtain ⟨crush, decoding, h⟩ := bind_eq_ok.mp h
  exact Crush.Map.placeValidated_once (Crush.Map.decode_wf (decodeCrushMap_decoded decoding))
    (mapError_eq_ok.mp h)

/-- What went before a placement that was given. -/
theorem placeRawHash_eq_ok (found : map.pools[poolId]? = some pool)
    (h : map.placeRawHash fuel poolId hash = .ok placed) :
    ∃ sets shard, map.placedSets fuel pool (groupOf poolId pool hash)
        (mapped poolId pool hash).placementSeed = .ok sets ∧
      shardOf pool sets.acting sets.actingPrimary = .ok shard ∧
      placed = fillIn (mapped poolId pool hash) sets shard := by
  obtain ⟨placement, here, h⟩ := bind_eq_ok.mp h
  rcases mapRawHash_eq found with ⟨reason, failed⟩ | ok
  · rw [failed] at here
    cases here
  rw [ok] at here
  cases here
  unfold placeMapped at h
  rw [found] at h
  obtain ⟨_, -, h⟩ := bind_eq_ok.mp h
  obtain ⟨sets, sets_eq, h⟩ := bind_eq_ok.mp h
  obtain ⟨shard, shard_eq, h⟩ := bind_eq_ok.mp h
  cases h
  exact ⟨sets, shard, sets_eq, shard_eq, rfl⟩

variable {sets : PlacedSets}

/-- The up set of a placement. -/
theorem placedSets_up (h : map.placedSets fuel pool pg seed = .ok sets) :
    map.Chosen sets.up sets.upPrimary ∧
      ∀ osd ∈ sets.up, map.isUp osd = true ∨ pool.poolType = poolTypeErasure := by
  obtain ⟨raw, raw_eq, h⟩ := bind_eq_ok.mp h
  obtain ⟨_, valid, h⟩ := bind_eq_ok.mp h
  obtain ⟨⟨up, upPrimary⟩, up_eq, h⟩ := bind_eq_ok.mp h
  obtain ⟨⟨acting, actingPrimary⟩, -, h⟩ := bind_eq_ok.mp h
  cases h
  obtain ⟨chosen, proper⟩ := upSet_chosen valid (rawSet_once raw_eq) up_eq
  exact ⟨chosen, fun osd mem => (proper osd mem).imp_right of_decide_eq_true⟩

/-! ## The acting set -/

/-- A temporary primary is the one from the map, or one that has been found among OSDs that are
up. -/
theorem tempMapping_eq_ok {temp : List Int} (h : map.tempMapping pg sharded = .ok (temp, primary)) :
    (∀ osd ∈ temp, osd = itemNone ∨ map.isUp osd = true) ∧
      (primary = (map.primaryTemp[pg]?).getD (-1) ∨
        ((map.primaryTemp[pg]?).getD (-1) = -1 ∧ map.isUp primary = true)) := by
  unfold tempMapping at h
  dsimp only at h
  split at h
  · cases h
    exact ⟨nofun, .inl rfl⟩
  rename_i source _
  obtain ⟨_, -, h⟩ := bind_eq_ok.mp h
  cases h
  have entries : ∀ osd ∈ map.onlyUp source sharded, osd = itemNone ∨ map.isUp osd = true :=
    fun osd mem => (mem_onlyUp mem).elim .inr fun hole => .inl hole.2
  refine ⟨entries, ?_⟩
  split
  next absent =>
    rcases firstOsd_cases entries with ⟨none, -⟩ | ⟨-, up⟩
    · exact .inl (none.trans absent.symm)
    · exact .inr ⟨absent, up⟩
  · exact .inl rfl

variable {acting : List Int}

theorem checkPrimary_eq_ok {after : List Int} {primary' : Int}
    (h : checkPrimary acting primary = .ok (after, primary')) :
    acting = after ∧ primary = primary' ∧ (primary ≠ -1 → primary ∈ acting) := by
  unfold checkPrimary at h
  split at h
  · cases h
  rename_i inside
  cases h
  exact ⟨rfl, rfl, fun present => by_contra fun outside => inside ⟨present, outside⟩⟩

/-- The acting primary is in the acting set, and it is a hole only if the map's temporary primary
is one. -/
theorem actingSet_eq_ok {up : List Int} {upPrimary : Int} (numbered : map.Numbered)
    (chosen : map.Chosen up upPrimary)
    (h : map.actingSet pg sharded up upPrimary = .ok (acting, primary)) :
    (∀ osd ∈ acting, osd = itemNone ∨ map.isUp osd = true) ∧ (primary ≠ -1 → primary ∈ acting) ∧
      (primary = itemNone ↔ map.primaryTemp[pg]? = some itemNone) := by
  obtain ⟨⟨temp, tempPrimary⟩, temporary, h⟩ := bind_eq_ok.mp h
  obtain ⟨entries, given⟩ := tempMapping_eq_ok temporary
  obtain ⟨rfl, rfl, inside⟩ := checkPrimary_eq_ok h
  refine ⟨?_, inside, ?_⟩
  · split
    · exact chosen.entries
    · exact entries
  have fromMap : (map.primaryTemp[pg]?).getD (-1) = itemNone ↔
      map.primaryTemp[pg]? = some itemNone := by
    cases map.primaryTemp[pg]? with
    | none => simp [itemNone]
    | some primary => simp
  rw [← fromMap]
  have proper : upPrimary ≠ itemNone := by
    rcases chosen.primary with ⟨none, -⟩ | ⟨-, up⟩
    · rw [none]
      decide
    · exact numbered.ne_itemNone up
  rcases given with same | ⟨absent, up⟩
  · subst same
    split
    next defaulted =>
      rw [defaulted.2]
      exact iff_of_false proper (by decide)
    · exact Iff.rfl
  · have hole := numbered.ne_itemNone up
    rw [absent]
    split
    · exact iff_of_false proper (by decide)
    · exact iff_of_false hole (by decide)

theorem placedSets_acting (numbered : map.Numbered)
    (h : map.placedSets fuel pool pg seed = .ok sets) :
    (∀ osd ∈ sets.acting, osd = itemNone ∨ map.isUp osd = true) ∧
      (sets.actingPrimary ≠ -1 → sets.actingPrimary ∈ sets.acting) ∧
      (sets.actingPrimary = itemNone ↔ map.primaryTemp[pg]? = some itemNone) := by
  have up := (placedSets_up h).1
  obtain ⟨raw, -, h⟩ := bind_eq_ok.mp h
  obtain ⟨_, -, h⟩ := bind_eq_ok.mp h
  obtain ⟨⟨up, upPrimary⟩, -, h⟩ := bind_eq_ok.mp h
  obtain ⟨⟨acting, actingPrimary⟩, acting_eq, h⟩ := bind_eq_ok.mp h
  cases h
  exact actingSet_eq_ok numbered up acting_eq

/-- The shard of an erasure pool is where its primary stands. -/
theorem shardOf_eq_ok {shard : Option Nat} (erasure : pool.poolType = poolTypeErasure)
    (mem : primary ∈ acting) (h : shardOf pool acting primary = .ok shard) :
    ∃ index, shard = some index ∧ acting[index]? = some primary := by
  unfold shardOf at h
  rw [if_pos erasure] at h
  split at h
  next absent => exact absurd mem (List.idxOf?_eq_none_iff.mp absent)
  rename_i index found
  split at h
  · cases h
  cases h
  obtain ⟨inside, here, -⟩ := List.idxOf?_eq_some_iff.mp found
  exact ⟨index, rfl, List.getElem?_eq_some_iff.mpr ⟨inside, here⟩⟩

theorem numbered_of_decoded {data : List UInt8} {limits : Limits}
    (decoded : decodeOsdmap data limits = .ok map) : map.Numbered := by
  obtain ⟨sized, range⟩ := decodeOsdmap_sized decoded
  have state := sized.state
  show (map.osdState.length : Int) ≤ 2 ^ 31 - 1
  omega

/-! ## The results -/

def sampleWords (words : List Nat) : List UInt8 := words.flatMap (Bytes.leBytes 4)

/-- One root with four devices, and an erasure rule that takes it. -/
def sampleCrush : List UInt8 :=
  sampleWords [magic, 1, 1, 4, bucketStraw2, 2 ^ 32 - 1] ++ [1, 0, 5, 0]
    ++ sampleWords [0x40000, 4, 0, 1, 2, 3, 0x10000, 0x10000, 0x10000, 0x10000]
    ++ sampleWords [1, 5] ++ [0, 3, 1, 10]
    ++ sampleWords [ruleSetChooseleafTries, 5, 0, ruleSetChooseTries, 100, 0, ruleTake,
        2 ^ 32 - 1, 0, ruleChooseIndep, 0, 0, ruleEmit, 0, 0]
    ++ sampleWords [0, 0, 0, 0, 0, 50, 1] ++ [1, 1] ++ sampleWords [54] ++ [1]
    ++ sampleWords [0, 0, 0, 0, 100, 100]

/-- An erasure pool with three slots on four devices. -/
def samplePool : Pool :=
  { id := 1, name := [97], poolType := poolTypeErasure, size := 3, minimumSize := 2, crushRule := 0
    objectHash := objectHashRjenkins, pgCount := 12, placementPgCount := 8, stripeWidth := 0
    flags := 1, snapshotSequence := 0, snapshots := ∅, erasureCodeProfile := []
    applicationMetadata := ∅, options := ∅ }

/-- The group of the hashes 5 and 21. -/
def sampleGroup : Pg := ⟨1, 5, -1⟩

def sampleMap (pgTemp : List (Pg × List Int)) (primaryTemp : List (Pg × Int)) : OsdMap :=
  { fsid := List.replicate 16 7, epoch := 1, created := {}, modified := {}
    pools := .ofList [((1 : Int), samplePool)]
    nameToId := .ofList [((samplePool.name : Text), (1 : Int))]
    poolMax := 1, flags := 0, maxOsd := 4, osdState := [3, 3, 3, 3]
    osdWeight := List.replicate 4 0x10000, clientAddresses := [[], [], [], []]
    pgTemp := .ofList pgTemp, primaryTemp := .ofList primaryTemp, primaryAffinity := []
    crushData := sampleCrush, erasureCodeProfiles := ∅, pgUpmap := ∅, pgUpmapItems := ∅
    crushVersion := 0, newRemovedSnapshots := ∅, newPurgedSnapshots := ∅, lastUpChange := {}
    lastInChange := {}, pgUpmapPrimaries := ∅ }

/-- OSD 1 is down, and OSD 0 takes the place of OSD 2. -/
def sampleRemapped : OsdMap :=
  { sampleMap [] [] with
    osdState := [3, 1, 3, 3], pgUpmapItems := .ofList [(sampleGroup, [OsdRemap.mk 2 0])] }

/-- The group of the hash 6. -/
def otherGroup : Pg := ⟨1, 6, -1⟩

/-- Temporary sets with a hole for two groups. -/
def sampleTemp : List (Pg × List Int) :=
  [(sampleGroup, [2, itemNone, 0]), (otherGroup, [2, itemNone, 0])]

/-- The temporary primary of the first group is the hole marker. -/
def samplePrimaries : List (Pg × Int) := [(sampleGroup, itemNone), (otherGroup, 0)]

/-- A map with these sets and primaries. -/
def sampleDecoded : OsdMap :=
  { sampleMap sampleTemp samplePrimaries with crc := 3316045834, crcVerified := true }

-- the three runs in one term, so that the rule and the tables are evaluated once
theorem sample_placed :
    sampleRemapped.placeRawHash 8 1 5 = .ok (fillIn (mapped 1 samplePool 5)
        ⟨[2, 1, 3], [0, itemNone, 3], 0, [0, itemNone, 3], 0⟩ (some 0)) ∧
      sampleDecoded.placeRawHash 8 1 6 = .ok (fillIn (mapped 1 samplePool 6)
        ⟨[3, 0, 2], [3, 0, 2], 3, [2, itemNone, 0], 0⟩ (some 2)) ∧
      sampleDecoded.placeRawHash 8 1 5 = .ok (fillIn (mapped 1 samplePool 5)
        ⟨[2, 1, 3], [2, 1, 3], 2, [2, itemNone, 0], itemNone⟩ (some 1)) := by
  decide +kernel

/-- Placement is a function of the placement group: hashes of one group have the same seed, sets,
primaries and shard, or the same error.  And a larger number of groups moves an object only to a
group that has been added. -/
theorem placeRawHash_of_group {other : UInt32} (found : map.pools[poolId]? = some pool)
    (word : pool.pgCount < 2 ^ 32)
    (geometry : 0 < pool.placementPgCount ∧ pool.placementPgCount ≤ pool.pgCount)
    (same : stableMod hash.toNat pool.pgCount = stableMod other.toNat pool.pgCount) :
    (map.placeRawHash fuel poolId hash).map ObjectPlacement.located =
        (map.placeRawHash fuel poolId other).map ObjectPlacement.located ∧
      ∀ value count more : Nat, 1 ≤ count → count ≤ more → more < 2 ^ 32 →
        stableMod value count < count ∧
          (stableMod value more = stableMod value count ∨ count ≤ stableMod value more) := by
  refine ⟨?_, fun value count more positive le word =>
    ⟨stableMod_lt positive (by omega), stableMod_of_le positive le word⟩⟩
  unfold placeRawHash
  rcases mapRawHash_eq found with ⟨reason, failed⟩ | ok
  · rw [failed, failed]
  · rw [ok, ok]
    exact placeMapped_located (located_mapped word geometry same)

theorem placeRawHash_of_group_sample :
    stableMod 5 12 = 5 ∧ stableMod 21 12 = 5 ∧
      ((sampleMap [] []).placeRawHash 8 1 5).map ObjectPlacement.located =
        ((sampleMap [] []).placeRawHash 8 1 21).map ObjectPlacement.located := by
  have found : (sampleMap [] []).pools[(1 : Int)]? = some samplePool := by decide
  refine ⟨by decide, by decide, ?_⟩
  exact (placeRawHash_of_group found (by decide) (by decide) (by decide)).1

/-- Every entry of the up set is a hole or an OSD that is up, no OSD is there twice, a replicated
pool has no holes, and the primary is an OSD of the set unless the set has none. -/
theorem placeRawHash_up_set (numbered : map.Numbered) (found : map.pools[poolId]? = some pool)
    (h : map.placeRawHash fuel poolId hash = .ok placed) :
    (∀ osd ∈ placed.up, osd ≠ itemNone → map.osdExists osd = true ∧ map.isUp osd = true) ∧
      NoRepeat itemNone placed.up ∧
      (pool.poolType = poolTypeReplicated → itemNone ∉ placed.up) ∧
      (placed.upPrimary = -1 ↔ ∀ osd ∈ placed.up, osd = itemNone) ∧
      (placed.upPrimary ≠ -1 → placed.upPrimary ∈ placed.up ∧ placed.upPrimary ≠ itemNone) := by
  obtain ⟨sets, shard, sets_eq, -, rfl⟩ := placeRawHash_eq_ok found h
  obtain ⟨chosen, proper⟩ := placedSets_up sets_eq
  have primary := chosen.primary
  refine ⟨fun osd mem other => ?_, chosen.once, fun replicated hole => ?_, ?_, fun present => ?_⟩
  · have up := (chosen.entries osd mem).resolve_left other
    exact ⟨exists_of_isUp up, up⟩
  · rcases proper itemNone hole with up | erasure
    · exact numbered.ne_itemNone up rfl
    · rw [replicated] at erasure
      cases erasure
  · rcases primary with ⟨none, holes⟩ | ⟨mem, up⟩
    · exact iff_of_true none holes
    · refine iff_of_false (fun none => ?_) fun holes => numbered.ne_itemNone up (holes _ mem)
      have bounds := isUp_bounds up
      rw [show sets.upPrimary = -1 from none] at bounds
      omega
  · obtain ⟨mem, up⟩ := primary.resolve_left fun absent => present absent.1
    exact ⟨mem, numbered.ne_itemNone up⟩

theorem placeRawHash_up_set_remapped :
    ∃ placed, sampleRemapped.placeRawHash 8 1 5 = .ok placed ∧ placed.raw = [2, 1, 3] ∧
      placed.up = [0, itemNone, 3] ∧ NoRepeat itemNone placed.up ∧ placed.upPrimary ∈ placed.up := by
  have found : sampleRemapped.pools[(1 : Int)]? = some samplePool := by decide
  have numbered : sampleRemapped.Numbered := show (4 : Int) ≤ itemNone by decide
  obtain ⟨-, once, -, -, primary⟩ := placeRawHash_up_set numbered found sample_placed.1
  exact ⟨_, sample_placed.1, rfl, rfl, once, (primary (by decide)).1⟩

/-- A decoded map gives an acting primary that is an OSD of the acting set and up, at the shard it
is given for an erasure pool, exactly if the map does not name the hole marker as the group's
temporary primary. -/
theorem placeRawHash_acting_primary {data : List UInt8} {limits : Limits}
    (decoded : decodeOsdmap data limits = .ok map) (found : map.pools[poolId]? = some pool)
    (h : map.placeRawHash fuel poolId hash = .ok placed) :
    ((placed.actingPrimary = -1 ∨
        (map.osdExists placed.actingPrimary = true ∧ map.isUp placed.actingPrimary = true ∧
          placed.actingPrimary ∈ placed.acting)) ∧
      (pool.poolType = poolTypeErasure → placed.actingPrimary ≠ -1 →
        0 ≤ placed.primaryShard ∧
          placed.acting[placed.primaryShard.toNat]? = some placed.actingPrimary)) ↔
      map.primaryTemp[groupOf poolId pool hash]? ≠ some itemNone := by
  have numbered := numbered_of_decoded decoded
  obtain ⟨sets, shard, sets_eq, shard_eq, rfl⟩ := placeRawHash_eq_ok found h
  obtain ⟨entries, inside, hole⟩ := placedSets_acting numbered sets_eq
  show ((sets.actingPrimary = -1 ∨ (map.osdExists sets.actingPrimary = true ∧
      map.isUp sets.actingPrimary = true ∧ sets.actingPrimary ∈ sets.acting)) ∧ _) ↔ _
  refine Iff.trans ?_ (not_congr hole)
  constructor
  · rintro ⟨absent | ⟨-, up, -⟩, -⟩ marker
    · rw [absent] at marker
      cases marker
    · exact numbered.ne_itemNone up marker
  intro proper
  refine ⟨?_, fun erasure present => ?_⟩
  · by_cases absent : sets.actingPrimary = -1
    · exact .inl absent
    · have up := (entries _ (inside absent)).resolve_left proper
      exact .inr ⟨exists_of_isUp up, up, inside absent⟩
  · obtain ⟨index, rfl, here⟩ := shardOf_eq_ok erasure (inside present) shard_eq
    exact ⟨Int.natCast_nonneg index, here⟩

def sampleData : List UInt8 :=
  encodeSample (encodeSampleClient [samplePool] [(1, samplePool.name)] 4 sampleTemp samplePrimaries
    sampleCrush) 3316045834

theorem decode_sampleData : decodeOsdmap sampleData sampleLimits = .ok sampleDecoded := by
  have read : decodeVersion 8 (decodeWrapper sampleLimits) (.new sampleData 4096) =
      .ok ({ sampleDecoded with crcVerified := false },
        ⟨sampleData, sampleData.length, 4096, none⟩) := by
    decide +kernel
  have decoded := decodeOsdmap_of_checksum rfl read (by decide +kernel) (by decide +kernel)
  exact decoded

theorem placeRawHash_acting_primary_sample :
    ∃ placed, sampleDecoded.placeRawHash 8 1 6 = .ok placed ∧ placed.acting = [2, itemNone, 0] ∧
      placed.acting[placed.primaryShard.toNat]? = some placed.actingPrimary := by
  have found : sampleDecoded.pools[(1 : Int)]? = some samplePool := by decide
  have placed := sample_placed.2.1
  have right := (placeRawHash_acting_primary decode_sampleData found placed).mpr (by decide)
  exact ⟨_, placed, rfl, (right.2 rfl (by decide)).2⟩

/-- The hash 5 is given a primary that is no OSD, at the position of a hole. -/
theorem acting_primary_of_hole :
    ∃ data map placed, decodeOsdmap data sampleLimits = .ok map ∧
      map.placeRawHash 8 1 5 = .ok placed ∧ placed.acting = [2, itemNone, 0] ∧
      placed.actingPrimary = itemNone ∧ map.osdExists placed.actingPrimary = false := by
  exact ⟨sampleData, sampleDecoded, _, decode_sampleData, sample_placed.2.2, rfl, rfl, by decide⟩

end OsdMap

end RadosRs.Maps
