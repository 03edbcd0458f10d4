import RadosRs.Maps.PoolNames

/-!
# Well-formed maps

A map is well-formed when the names of its pools and the table from names to ids are
inverse to each other, no name is empty, and each vector has one entry for each OSD.

An incremental goes through states in which this does not hold: a new pool has no
name until the walk over the names has come to it, and a pool may even be given the
empty name and be removed afterwards.  What holds in between is `Partial`, which says
nothing about a name that is empty.  The last check of the source, that no pool is
left without a name, makes it whole again.
-/

namespace RadosRs.Maps

open Fallible
open Std (ExtTreeMap)

/-! ## Pools -/

/-- The tables are consistent and no name is empty. -/
structure PoolTables.Named (tables : PoolTables) : Prop extends tables.Consistent where
  nonempty : ∀ (id : Int) (pool : Pool), tables.pools[id]? = some pool → pool.name ≠ []

/-- The tables while some pools are without a name. -/
structure PoolTables.Partial (tables : PoolTables) : Prop where
  keyed : ∀ (id : Int) (pool : Pool), tables.pools[id]? = some pool → pool.id = id
  listed : ∀ (id : Int) (pool : Pool), tables.pools[id]? = some pool →
    pool.name = [] ∨ tables.nameToId[pool.name]? = some id
  carried : ∀ (name : Text) (id : Int), tables.nameToId[name]? = some id →
    ∃ pool, tables.pools[id]? = some pool ∧ pool.name = name

namespace PoolTables

variable {tables tables' : PoolTables}

theorem Named.toPartial (h : tables.Named) : tables.Partial where
  keyed := h.keyed
  listed id pool found := .inr (h.listed id pool found)
  carried := h.carried

theorem hasUnnamed_eq_false :
    tables.hasUnnamed = false ↔
      ∀ (id : Int) (pool : Pool), tables.pools[id]? = some pool → pool.name ≠ [] := by
  simp only [hasUnnamed, List.any_eq_false, decide_eq_true_eq, Prod.forall,
    ExtTreeMap.mem_toList_iff_getElem?_eq_some, ne_eq]

theorem Partial.toNamed (h : tables.Partial) (named : tables.hasUnnamed = false) :
    tables.Named where
  keyed := h.keyed
  listed id pool found :=
    (h.listed id pool found).resolve_left (hasUnnamed_eq_false.mp named id pool found)
  carried := h.carried
  nonempty := hasUnnamed_eq_false.mp named

/-- Two pools do not share a name that is not empty. -/
theorem Partial.same {id id' : Int} {pool pool' : Pool} (h : tables.Partial)
    (found : tables.pools[id]? = some pool) (found' : tables.pools[id']? = some pool')
    (shared : pool.name = pool'.name) (nonempty : pool.name ≠ []) : id = id' := by
  have leads := (h.listed id pool found).resolve_left nonempty
  have leads' := (h.listed id' pool' found').resolve_left (shared ▸ nonempty)
  rw [← shared, leads] at leads'
  exact Option.some.inj leads'

theorem Partial.insertPool {entry : Int × Pool} (h : tables.Partial)
    (new : entry.2.name = [] ∧ entry.2.id = entry.1) : (tables.insertPool entry).Partial := by
  unfold PoolTables.insertPool
  constructor
  case keyed =>
    intro id pool found
    rw [Table.lookup_insert] at found
    split at found
    next same =>
      rw [← Option.some.inj found, ← same]
      split <;> exact new.2
    · exact h.keyed id pool found
  case listed =>
    intro id pool found
    rw [Table.lookup_insert] at found
    split at found
    next same =>
      rw [← Option.some.inj found]
      split
      next old there => exact same ▸ h.listed entry.1 old there
      · exact .inl new.1
    · exact h.listed id pool found
  case carried =>
    intro name id leads
    obtain ⟨pool, found, named⟩ := h.carried name id leads
    rw [Table.lookup_insert]
    split
    next same =>
      rw [same, found]
      exact ⟨_, rfl, named⟩
    · exact ⟨pool, found, named⟩

variable {entry : Int × Text}

theorem rename_eq_ok :
    tables.rename entry = .ok tables' ↔
      ∃ pool, tables.pools[entry.1]? = some pool ∧
        (∀ holder, tables.nameToId[entry.2]? = some holder → holder = entry.1) ∧
        tables' = ⟨tables.pools.insert entry.1 { pool with name := entry.2 },
          (tables.nameToId.erase pool.name).insert entry.2 entry.1⟩ := by
  unfold rename
  cases tables.pools[entry.1]? with
  | none => simp [fail]
  | some pool =>
    cases tables.nameToId[entry.2]? with
    | none => simp [eq_comm]
    | some holder =>
      by_cases own : holder = entry.1
      · simp [own, eq_comm]
      · simp [own, fail]

theorem Partial.rename (h : tables.Partial) (step : tables.rename entry = .ok tables') :
    tables'.Partial := by
  obtain ⟨pool, there, free, rfl⟩ := rename_eq_ok.mp step
  constructor
  case keyed =>
    intro id other found
    rw [Table.lookup_insert] at found
    split at found
    next same =>
      rw [← Option.some.inj found, ← same]
      exact h.keyed entry.1 pool there
    · exact h.keyed id other found
  case listed =>
    intro id other found
    rw [Table.lookup_insert] at found
    split at found
    next same =>
      rw [← Option.some.inj found]
      exact .inr (by rw [Table.lookup_insert, if_pos rfl, same])
    rename_i differs
    refine or_iff_not_imp_left.mpr fun nonempty => ?_
    have leads := (h.listed id other found).resolve_left nonempty
    rw [Table.lookup_insert, Table.lookup_erase, if_neg, if_neg, leads]
    · exact fun shared => differs (h.same there found shared (shared ▸ nonempty))
    · exact fun taken => differs (free id (taken ▸ leads)).symm
  case carried =>
    intro name id leads
    rw [Table.lookup_insert] at leads
    rw [Table.lookup_insert]
    split at leads
    next same =>
      cases leads
      rw [if_pos rfl]
      exact ⟨_, rfl, same⟩
    rw [Table.lookup_erase] at leads
    split at leads
    · cases leads
    rename_i other
    obtain ⟨pool', found, named⟩ := h.carried name id leads
    rw [if_neg]
    · exact ⟨pool', found, named⟩
    rintro rfl
    cases there.symm.trans found
    exact other named

theorem Partial.removePool {id : Int} (h : tables.Partial) : (tables.removePool id).Partial := by
  unfold PoolTables.removePool
  split
  · exact h
  rename_i pool there
  have left {id' : Int} {other : Pool} :
      (tables.pools.erase id)[id']? = some other ↔ id ≠ id' ∧ tables.pools[id']? = some other := by
    rw [Table.lookup_erase]
    split <;> simp_all
  constructor
  case keyed => exact fun id' other found => h.keyed id' other (left.mp found).2
  case listed =>
    intro id' other found
    obtain ⟨differs, found⟩ := left.mp found
    refine or_iff_not_imp_left.mpr fun nonempty => ?_
    rw [Table.lookup_erase, if_neg]
    · exact (h.listed id' other found).resolve_left nonempty
    · exact fun shared => differs (h.same there found shared (shared ▸ nonempty))
  case carried =>
    intro name id' leads
    rw [Table.lookup_erase] at leads
    split at leads
    · cases leads
    rename_i other
    obtain ⟨pool', found, named⟩ := h.carried name id' leads
    refine ⟨pool', left.mpr ⟨?_, found⟩, named⟩
    rintro rfl
    cases there.symm.trans found
    exact other named

end PoolTables

/-! ## OSDs -/

@[simp] theorem length_resize {α : Type} (values : List α) (size : Nat) (value : α) :
    (resize values size value).length = size := by
  simp only [resize, List.length_append, List.length_take, List.length_replicate]
  omega

namespace OsdVectors

variable {vectors vectors' : OsdVectors} {osd : Int} {id size : Nat}

/-- The map has a place for the OSD. -/
def Valid (vectors : OsdVectors) (osd : Int) : Prop := 0 ≤ osd ∧ osd.toNat < vectors.state.length

instance : Decidable (vectors.Valid osd) := inferInstanceAs (Decidable (_ ∧ _))

theorem validOsd_eq_ok : vectors.validOsd osd = .ok id ↔ vectors.Valid osd ∧ osd.toNat = id := by
  unfold validOsd Valid
  split
  next valid => simp [valid]
  next invalid => simp [invalid, fail]

/-- The affinities that a change of one of them starts from. -/
def affinities (vectors : OsdVectors) : List Nat := vectors.ensurePrimaryAffinity.affinity

theorem ensurePrimaryAffinity_eq :
    vectors.ensurePrimaryAffinity = { vectors with affinity := vectors.affinities } := by
  unfold affinities ensurePrimaryAffinity
  split <;> rfl

variable {entry : Int × Nat}

theorem setWeight_eq_ok :
    vectors.setWeight entry = .ok vectors' ↔
      vectors.Valid entry.1 ∧ entry.1.toNat < vectors.weight.length ∧
        vectors' = { vectors with
          weight := vectors.weight.set entry.1.toNat entry.2
          state :=
            if entry.2 ≠ 0 then
              vectors.state.modify entry.1.toNat (clearBits · ((1 <<< 2) ||| (1 <<< 3)))
            else vectors.state } := by
  simp only [setWeight, bind_eq_ok, validOsd_eq_ok, update, guarded_eq_ok]
  constructor
  · rintro ⟨_, ⟨valid, rfl⟩, _, ⟨inside, rfl⟩, here⟩
    cases here
    exact ⟨valid, inside, rfl⟩
  · rintro ⟨valid, inside, rfl⟩
    exact ⟨_, ⟨valid, rfl⟩, _, ⟨inside, rfl⟩, rfl⟩

theorem setAffinity_eq_ok :
    vectors.setAffinity entry = .ok vectors' ↔
      vectors.Valid entry.1 ∧ entry.1.toNat < vectors.affinities.length ∧
        vectors' = { vectors with
          affinity := vectors.affinities.set entry.1.toNat entry.2 } := by
  simp only [setAffinity, bind_eq_ok, validOsd_eq_ok, update, guarded_eq_ok,
    ensurePrimaryAffinity_eq]
  constructor
  · rintro ⟨_, ⟨valid, rfl⟩, _, ⟨inside, rfl⟩, here⟩
    cases here
    exact ⟨valid, inside, rfl⟩
  · rintro ⟨valid, inside, rfl⟩
    exact ⟨_, ⟨valid, rfl⟩, _, ⟨inside, rfl⟩, rfl⟩

theorem setUp_eq_ok {entry : Int × List Msgr.EntityAddr} :
    vectors.setUp entry = .ok vectors' ↔
      vectors.Valid entry.1 ∧ entry.1.toNat < vectors.addresses.length ∧
        vectors' = { vectors with
          state := vectors.state.modify entry.1.toNat fun state =>
            clearBits (state ||| 3) (1 <<< 12)
          addresses := vectors.addresses.set entry.1.toNat entry.2 } := by
  simp only [setUp, bind_eq_ok, validOsd_eq_ok, update, guarded_eq_ok]
  constructor
  · rintro ⟨_, ⟨valid, rfl⟩, _, ⟨inside, rfl⟩, here⟩
    cases here
    exact ⟨valid, inside, rfl⟩
  · rintro ⟨valid, inside, rfl⟩
    exact ⟨_, ⟨valid, rfl⟩, _, ⟨inside, rfl⟩, rfl⟩

/-- The vectors with an OSD destroyed. -/
def destroyed (vectors : OsdVectors) (id : Nat) : OsdVectors :=
  { vectors with
    state := vectors.state.set id 0
    affinity := vectors.affinities.set id defaultPrimaryAffinity
    addresses := vectors.addresses.set id [] }

theorem affinities_congr {other : OsdVectors} (affinity : other.affinity = vectors.affinity)
    (length : other.state.length = vectors.state.length) :
    other.affinities = vectors.affinities := by
  unfold affinities ensurePrimaryAffinity
  rw [affinity, length]
  split
  · rfl
  · exact affinity

theorem destroy_eq_ok :
    vectors.destroy id = .ok vectors' ↔
      id < vectors.affinities.length ∧ id < vectors.addresses.length ∧
        vectors' = vectors.destroyed id := by
  have same : ({ vectors with state := vectors.state.set id 0 } : OsdVectors).affinities =
      vectors.affinities := affinities_congr rfl (List.length_set ..)
  simp only [destroy, bind_eq_ok, update, guarded_eq_ok, ensurePrimaryAffinity_eq, same]
  constructor
  · rintro ⟨_, ⟨affine, rfl⟩, _, ⟨addressed, rfl⟩, here⟩
    cases here
    exact ⟨affine, addressed, rfl⟩
  · rintro ⟨affine, addressed, rfl⟩
    exact ⟨_, ⟨affine, rfl⟩, _, ⟨addressed, rfl⟩, rfl⟩

/-- The bits that an entry changes. -/
abbrev flipped (bits : Nat) : Nat := if bits = 0 then 1 <<< 1 else bits

/-- What the change of a state does to an OSD that has been in a state. -/
inductive Changes (vectors : OsdVectors) (id old bits : Nat) : OsdVectors → Prop where
  | destroys (both : old &&& 1 ≠ 0 ∧ flipped bits &&& 1 ≠ 0) (affine : id < vectors.affinities.length)
      (addressed : id < vectors.addresses.length) :
      Changes vectors id old bits (vectors.destroyed id)
  | flips (not : ¬ (old &&& 1 ≠ 0 ∧ flipped bits &&& 1 ≠ 0)) :
      Changes vectors id old bits { vectors with state := vectors.state.set id (old ^^^ flipped bits) }

theorem changeState_eq_ok :
    vectors.changeState entry = .ok vectors' ↔
      ∃ old, vectors.Valid entry.1 ∧ vectors.state[entry.1.toNat]? = some old ∧
        vectors.Changes entry.1.toNat old entry.2 vectors' := by
  simp only [changeState, bind_eq_ok, validOsd_eq_ok, index, expect_eq_ok]
  constructor
  · rintro ⟨_, ⟨valid, rfl⟩, old, was, h⟩
    refine ⟨old, valid, was, ?_⟩
    by_cases both : old &&& 1 ≠ 0 ∧ flipped entry.2 &&& 1 ≠ 0
    · rw [if_pos both] at h
      obtain ⟨affine, addressed, rfl⟩ := destroy_eq_ok.mp h
      exact .destroys both affine addressed
    rw [if_neg both] at h
    cases h
    exact .flips both
  · rintro ⟨old, valid, was, changes⟩
    refine ⟨_, ⟨valid, rfl⟩, old, was, ?_⟩
    cases changes with
    | destroys both affine addressed =>
      rw [if_pos both]
      exact destroy_eq_ok.mpr ⟨affine, addressed, rfl⟩
    | flips not =>
      rw [if_neg not]
      rfl

/-! ### Their sizes -/

/-- There is a place for each OSD. -/
structure Sized (vectors : OsdVectors) (size : Nat) : Prop where
  state : vectors.state.length = size
  weight : vectors.weight.length = size
  addresses : vectors.addresses.length = size
  affinity : vectors.affinity = [] ∨ vectors.affinity.length = size

theorem Sized.resizeOsds (vectors : OsdVectors) (size : Nat) :
    (vectors.resizeOsds size).Sized size where
  state := length_resize ..
  weight := length_resize ..
  addresses := length_resize ..
  affinity := by
    unfold OsdVectors.resizeOsds
    split
    · exact .inl rfl
    · exact .inr (length_resize ..)

theorem Sized.affinities (h : vectors.Sized size) : vectors.affinities.length = size := by
  unfold OsdVectors.affinities ensurePrimaryAffinity
  split
  · rw [length_resize, h.state]
  next present => exact h.affinity.resolve_left present

theorem Sized.setWeight (h : vectors.Sized size) (step : vectors.setWeight entry = .ok vectors') :
    vectors'.Sized size := by
  obtain ⟨-, -, rfl⟩ := setWeight_eq_ok.mp step
  refine ⟨?_, by simpa using h.weight, h.addresses, h.affinity⟩
  split
  · simpa using h.state
  · exact h.state

theorem Sized.setAffinity (h : vectors.Sized size)
    (step : vectors.setAffinity entry = .ok vectors') : vectors'.Sized size := by
  obtain ⟨-, -, rfl⟩ := setAffinity_eq_ok.mp step
  exact ⟨h.state, h.weight, h.addresses, .inr (by simpa using h.affinities)⟩

theorem Sized.changeState (h : vectors.Sized size)
    (step : vectors.changeState entry = .ok vectors') : vectors'.Sized size := by
  obtain ⟨old, -, -, changes⟩ := changeState_eq_ok.mp step
  cases changes with
  | destroys both affine addressed =>
    exact ⟨(List.length_set ..).trans h.state, h.weight, (List.length_set ..).trans h.addresses,
      .inr ((List.length_set ..).trans h.affinities)⟩
  | flips not => exact ⟨by simpa using h.state, h.weight, h.addresses, h.affinity⟩

theorem Sized.setUp {entry : Int × List Msgr.EntityAddr} (h : vectors.Sized size)
    (step : vectors.setUp entry = .ok vectors') : vectors'.Sized size := by
  obtain ⟨-, -, rfl⟩ := setUp_eq_ok.mp step
  exact ⟨by simpa using h.state, h.weight, by simpa using h.addresses, h.affinity⟩

end OsdVectors

/-! ## Maps -/

/-- The pools and their names are inverse to each other, and there is a place for each OSD in
each vector. -/
structure OsdMap.WellFormed (map : OsdMap) : Prop where
  pools : map.tables.Named
  osds : map.Sized

namespace OsdMap

variable {map map' : OsdMap} {incremental : OsdMapIncremental} {limits : Limits}

theorem changePools_partial {tables : PoolTables} (h : map.tables.Partial)
    (proper : incremental.Proper) (run : map.changePools incremental = .ok tables) :
    tables.Partial := by
  rw [changePools] at run
  obtain ⟨renamed, renames, removals⟩ := bind_eq_ok.mp run
  cases removals
  have inserted : (incremental.newPools.foldl PoolTables.insertPool map.tables).Partial :=
    List.foldlRecOn _ _ h fun tables ok entry mem => ok.insertPool (proper.unnamed entry mem)
  have named : renamed.Partial :=
    foldlM_rule PoolTables.Partial (fun _ _ _ _ ok step => ok.rename step) inserted renames
  exact List.foldlRecOn _ _ named fun tables ok id _ => ok.removePool

theorem resized_sized {size : Nat} (h : map.vectors.Sized size) :
    (map.resized incremental).Sized
      (if incremental.newMaxOsd ≥ 0 then incremental.newMaxOsd.toNat else size) := by
  unfold resized
  split
  · exact .resizeOsds ..
  · exact h

theorem changeOsds_sized {vectors : OsdVectors} {size : Nat}
    (h : (map.resized incremental).Sized size) (run : map.changeOsds incremental = .ok vectors) :
    vectors.Sized size := by
  rw [changeOsds] at run
  obtain ⟨weighted, weights, run⟩ := bind_eq_ok.mp run
  obtain ⟨affine, affinities, run⟩ := bind_eq_ok.mp run
  obtain ⟨changed, states, addresses⟩ := bind_eq_ok.mp run
  have h : weighted.Sized size :=
    foldlM_rule (OsdVectors.Sized · size) (fun _ _ _ _ ok step => ok.setWeight step) h weights
  have h : affine.Sized size :=
    foldlM_rule (OsdVectors.Sized · size) (fun _ _ _ _ ok step => ok.setAffinity step) h affinities
  have h : changed.Sized size :=
    foldlM_rule (OsdVectors.Sized · size) (fun _ _ _ _ ok step => ok.changeState step) h states
  exact foldlM_rule (OsdVectors.Sized · size) (fun _ _ _ _ ok step => ok.setUp step) h addresses

theorem sized_iff : map.Sized ↔ ∃ size : Nat, map.maxOsd = size ∧ map.vectors.Sized size := by
  constructor
  · intro h
    have number {length : Nat} (same : (length : Int) = map.maxOsd) :
        length = map.osdState.length := Int.ofNat_inj.mp (same.trans h.state.symm)
    exact ⟨map.osdState.length, h.state.symm, rfl, number h.weight, number h.addresses,
      h.affinity.imp_right number⟩
  rintro ⟨size, total, h⟩
  have number {length : Nat} (same : length = size) : (length : Int) = map.maxOsd := by
    rw [total, same]
  exact ⟨number h.state, number h.weight, number h.addresses, h.affinity.imp_right number⟩

/-- When the changes of an incremental without a whole map succeed, and what they lead to. -/
theorem applyOsdmapIncremental_eq_ok (whole : incremental.fullMap = []) :
    map.applyOsdmapIncremental incremental limits = .ok map' ↔
      incremental.fsid = map.fsid ∧ map.epoch + 1 ≤ 2 ^ 32 - 1 ∧ incremental.epoch = map.epoch + 1 ∧
        ∃ crush tables vectors, map.changeCrush incremental = .ok crush ∧
          map.changePools incremental = .ok tables ∧ map.changeOsds incremental = .ok vectors ∧
          tables.hasUnnamed = false ∧ map' = map.assemble incremental crush tables vectors := by
  unfold applyOsdmapIncremental
  constructor
  · intro h
    split at h
    · cases h
    rename_i cluster
    split at h
    · cases h
    rename_i sequence
    rw [if_neg (not_not.mpr whole), applyChanges] at h
    obtain ⟨crush, crush_eq, h⟩ := bind_eq_ok.mp h
    obtain ⟨tables, pools, h⟩ := bind_eq_ok.mp h
    obtain ⟨vectors, osds, h⟩ := bind_eq_ok.mp h
    split at h
    · cases h
    rename_i named
    cases h
    obtain ⟨bound, epoch⟩ := not_or.mp sequence
    exact ⟨not_not.mp cluster, not_lt.mp bound, not_not.mp epoch, crush, tables, vectors,
      crush_eq, pools, osds, Bool.eq_false_iff.mpr named, rfl⟩
  · rintro ⟨cluster, bound, epoch, crush, tables, vectors, crush_eq, pools, osds, named, rfl⟩
    rw [if_neg (not_not.mpr cluster), if_neg (not_or.mpr ⟨not_lt.mpr bound, not_not.mpr epoch⟩),
      if_neg (not_not.mpr whole), applyChanges]
    refine bind_eq_ok.mpr ⟨crush, crush_eq, bind_eq_ok.mpr ⟨tables, pools, ?_⟩⟩
    refine bind_eq_ok.mpr ⟨vectors, osds, ?_⟩
    rw [if_neg (Bool.eq_false_iff.mp named)]
    rfl

/-- Every incremental, with or without a whole map, leads to the next epoch of the same cluster. -/
theorem applyOsdmapIncremental_identity
    (h : map.applyOsdmapIncremental incremental limits = .ok map') :
    map'.epoch = map.epoch + 1 ∧ map'.fsid = map.fsid ∧ incremental.epoch = map.epoch + 1 := by
  by_cases whole : incremental.fullMap = []
  · obtain ⟨-, -, sequence, _, _, _, -, -, -, -, rfl⟩ := (applyOsdmapIncremental_eq_ok whole).mp h
    exact ⟨sequence, rfl, sequence⟩
  unfold applyOsdmapIncremental at h
  split at h
  · cases h
  split at h
  · cases h
  next sequence =>
    have sequence := not_not.mp (not_or.mp sequence).2
    rw [replaceWhole] at h
    obtain ⟨replacement, -, h⟩ := bind_eq_ok.mp h
    split at h
    · cases h
    rename_i same
    cases h
    obtain ⟨cluster, same⟩ := not_or.mp same
    exact ⟨(not_not.mp (not_or.mp same).1).trans sequence, not_not.mp cluster, sequence⟩

/-- One incremental. -/
theorem WellFormed.apply (h : map.WellFormed) (decoded : incremental.Decoded)
    (whole : incremental.fullMap = [])
    (step : map.applyOsdmapIncremental incremental limits = .ok map') :
    map'.WellFormed ∧ map'.epoch = map.epoch + 1 ∧ map'.fsid = map.fsid := by
  obtain ⟨cluster, -, sequence, crush, tables, vectors, -, pools, osds, named, rfl⟩ :=
    (applyOsdmapIncremental_eq_ok whole).mp step
  obtain ⟨size, total, sized⟩ := sized_iff.mp h.osds
  have sized := changeOsds_sized (resized_sized sized) osds
  have known := changePools_partial h.pools.toPartial decoded.proper.1 pools
  refine ⟨⟨known.toNamed named, sized_iff.mpr ⟨_, ?_, sized⟩⟩, sequence, rfl⟩
  show (if incremental.newMaxOsd ≥ 0 then incremental.newMaxOsd else map.maxOsd) = _
  split
  next nonneg => exact (Int.toNat_of_nonneg nonneg).symm
  · exact total

/-- A run of incrementals, in whatever orders their tables are walked, takes a well-formed map to
a well-formed map of the same cluster, one epoch further for each of them. -/
theorem wellFormed_of_incrementals {incrementals : List OsdMapIncremental} (h : map.WellFormed)
    (decoded : ∀ incremental ∈ incrementals, incremental.Decoded ∧ incremental.fullMap = [])
    (run : incrementals.foldlM (fun map incremental =>
      map.applyOsdmapIncremental incremental limits) map = .ok map') :
    map'.WellFormed ∧ map'.epoch = map.epoch + incrementals.length ∧ map'.fsid = map.fsid := by
  induction incrementals generalizing map with
  | nil =>
    cases run
    exact ⟨h, rfl, rfl⟩
  | cons incremental incrementals ih =>
    rw [List.foldlM_cons] at run
    obtain ⟨next, first, rest⟩ := bind_eq_ok.mp run
    obtain ⟨known, whole⟩ := decoded incremental (.head _)
    obtain ⟨formed, epoch, cluster⟩ := h.apply known whole first
    obtain ⟨formed', epoch', cluster'⟩ := ih formed (fun i mem => decoded i (.tail _ mem)) rest
    refine ⟨formed', ?_, cluster'.trans cluster⟩
    rw [epoch', epoch, List.length_cons]
    omega

end OsdMap

/-! ### A run of two incrementals -/

theorem named_ofList {pools : List (Int × Pool)} {names : List (Text × Int)}
    (distinct : Distinct pools) (once : Distinct names)
    (listed : ∀ entry ∈ pools, entry.2.id = entry.1 ∧ entry.2.name ≠ [] ∧
      (entry.2.name, entry.1) ∈ names)
    (carried : ∀ entry ∈ names, ∃ other ∈ pools, other.1 = entry.2 ∧ other.2.name = entry.1) :
    PoolTables.Named ⟨.ofList pools, .ofList names⟩ where
  keyed id pool found := (listed _ ((Table.lookup_ofList distinct).mp found)).1
  nonempty id pool found := (listed _ ((Table.lookup_ofList distinct).mp found)).2.1
  listed id pool found :=
    (Table.lookup_ofList once).mpr (listed _ ((Table.lookup_ofList distinct).mp found)).2.2
  carried name id leads := by
    obtain ⟨⟨_, pool⟩, mem, rfl, named⟩ := carried _ ((Table.lookup_ofList once).mp leads)
    exact ⟨pool, (Table.lookup_ofList distinct).mpr mem, named⟩

/-- Two pools. -/
def pairMap : OsdMap :=
  bareMap [(1, barePool 1 [97]), (2, barePool 2 [98])] [([97], 1), ([98], 2)] 0

theorem pairMap_wellFormed : pairMap.WellFormed where
  pools := named_ofList (by decide) (by decide) (by decide) (by decide)
  osds := ⟨rfl, rfl, rfl, .inl rfl⟩

/-- A third pool and two OSDs, the first one existing and up. -/
def growth : OsdMapIncremental :=
  sampleIncremental 2 2 [barePool 3 []] [(3, [99])] [] [(0, 3)] 2927489750

/-- Another name for the first pool, no second pool, and no first OSD. -/
def shrinkage : OsdMapIncremental :=
  sampleIncremental 3 (-1) [] [(1, [100])] [2] [(0, 1)] 818413706

theorem growth_decoded : growth.Decoded :=
  ⟨encodeSampleIncremental (encodeSampleChange 2 2 [barePool 3 []] [(3, [99])] [] [(0, 3)])
      2927489750, sampleLimits, growth, decodeOsdmapIncremental_of_checksum rfl (by decide +kernel)
      (by decide +kernel) (by decide +kernel), .refl growth⟩

theorem shrinkage_decoded : shrinkage.Decoded :=
  ⟨encodeSampleIncremental (encodeSampleChange 3 (-1) [] [(1, [100])] [2] [(0, 1)])
      818413706, sampleLimits, shrinkage, decodeOsdmapIncremental_of_checksum rfl (by decide +kernel)
      (by decide +kernel) (by decide +kernel), .refl shrinkage⟩

theorem wellFormed_of_two_incrementals :
    ∃ map', [growth, shrinkage].foldlM (fun map incremental =>
        OsdMap.applyOsdmapIncremental map incremental sampleLimits) pairMap = .ok map' ∧
      map'.WellFormed ∧ map'.epoch = 3 := by
  have accepted : ([growth, shrinkage].foldlM (fun map incremental =>
      OsdMap.applyOsdmapIncremental map incremental sampleLimits) pairMap).isOk = true := by
    decide
  obtain ⟨map', applied⟩ := exists_of_isOk accepted
  have decoded : ∀ incremental ∈ [growth, shrinkage], incremental.Decoded ∧
      incremental.fullMap = [] := by
    intro incremental mem
    rcases List.mem_pair.mp mem with rfl | rfl
    · exact ⟨growth_decoded, rfl⟩
    · exact ⟨shrinkage_decoded, rfl⟩
  obtain ⟨formed, epoch, -⟩ := OsdMap.wellFormed_of_incrementals pairMap_wellFormed decoded applied
  exact ⟨map', applied, formed, epoch⟩

end RadosRs.Maps
