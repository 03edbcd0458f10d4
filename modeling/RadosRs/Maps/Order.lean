import RadosRs.Lib.Total
import RadosRs.Maps.Renames

/-!
# An incremental in any order

Two programs that apply the same incremental may walk its tables in different
orders.  Changes of OSDs act on one place of each vector and can be exchanged, and so
can changes of placement groups and new pools.  What is left is the walk over the new
names of the pools, and the outcome depends on the order exactly if that walk
succeeds in some orders only, and nothing else makes the change fail.
-/

namespace RadosRs.Maps

open Fallible
open Walk (Swap)
open Std (ExtTreeMap)

/-! ## OSDs -/

namespace OsdVectors

variable {vectors vectors' : OsdVectors} {osd : Int}

theorem Valid.congr {other : OsdVectors} (valid : vectors.Valid osd)
    (length : other.state.length = vectors.state.length) : other.Valid osd :=
  ⟨valid.1, length ▸ valid.2⟩

theorem Valid.toNat_ne {other : Int} (valid : vectors.Valid osd) (valid' : vectors'.Valid other)
    (differ : osd ≠ other) : osd.toNat ≠ other.toNat := by
  have := valid.1
  have := valid'.1
  omega

/-- The states after an OSD has been given a weight. -/
def reweighted (state : List Nat) (id weight : Nat) : List Nat :=
  if weight ≠ 0 then state.modify id (clearBits · ((1 <<< 2) ||| (1 <<< 3))) else state

@[simp] theorem length_reweighted (state : List Nat) (id weight : Nat) :
    (reweighted state id weight).length = state.length := by
  unfold reweighted
  split <;> simp

theorem reweighted_comm (state : List Nat) {i j : Nat} (differ : i ≠ j) (v w : Nat) :
    reweighted (reweighted state i v) j w = reweighted (reweighted state j w) i v := by
  unfold reweighted
  split_ifs
  · exact (List.modify_modify_ne _ _ state differ)
  · rfl
  · rfl
  · rfl

theorem swap_setWeight {a b : Int × Nat} (differ : a.1 ≠ b.1) : Swap setWeight a b := by
  intro vectors between final first second
  obtain ⟨valid, inside, rfl⟩ := setWeight_eq_ok.mp first
  obtain ⟨valid', inside', rfl⟩ := setWeight_eq_ok.mp second
  have apart := valid.toNat_ne valid' differ
  have valid' : vectors.Valid b.1 := valid'.congr (length_reweighted ..).symm
  refine ⟨_, setWeight_eq_ok.mpr ⟨valid', by simpa using inside', rfl⟩, ?_⟩
  refine setWeight_eq_ok.mpr ⟨valid.congr (length_reweighted ..), by simpa using inside, ?_⟩
  simp only [mk.injEq, and_true]
  exact ⟨reweighted_comm vectors.state apart .., List.set_comm _ _ apart⟩

variable {id : Nat}

/-- Once one of the affinities has been set, the others are there. -/
theorem affinities_set {value : Nat} (inside : id < vectors.affinities.length) :
    ({ vectors with affinity := vectors.affinities.set id value } : OsdVectors).affinities =
      vectors.affinities.set id value := by
  have present : vectors.affinities.set id value ≠ [] := by
    intro none
    have length := congrArg List.length none
    rw [List.length_set, List.length_nil] at length
    omega
  rw [affinities, ensurePrimaryAffinity, if_neg present]

theorem swap_setAffinity {a b : Int × Nat} (differ : a.1 ≠ b.1) : Swap setAffinity a b := by
  intro vectors between final first second
  obtain ⟨valid, inside, rfl⟩ := setAffinity_eq_ok.mp first
  obtain ⟨valid', inside', rfl⟩ := setAffinity_eq_ok.mp second
  have apart := valid.toNat_ne valid' differ
  rw [affinities_set inside] at inside' ⊢
  have inside' : b.1.toNat < vectors.affinities.length := by simpa using inside'
  refine ⟨_, setAffinity_eq_ok.mpr ⟨valid', inside', rfl⟩, setAffinity_eq_ok.mpr ?_⟩
  rw [affinities_set inside']
  exact ⟨valid, by simpa using inside, by rw [List.set_comm _ _ apart]⟩

theorem swap_setUp {a b : Int × List Msgr.EntityAddr} (differ : a.1 ≠ b.1) : Swap setUp a b := by
  intro vectors between final first second
  obtain ⟨valid, inside, rfl⟩ := setUp_eq_ok.mp first
  obtain ⟨valid', inside', rfl⟩ := setUp_eq_ok.mp second
  have apart := valid.toNat_ne valid' differ
  have valid' : vectors.Valid b.1 := valid'.congr (List.length_modify ..).symm
  refine ⟨_, setUp_eq_ok.mpr ⟨valid', by simpa using inside', rfl⟩, ?_⟩
  refine setUp_eq_ok.mpr ⟨valid.congr (List.length_modify ..), by simpa using inside, ?_⟩
  simp only [mk.injEq, true_and]
  exact ⟨List.modify_modify_ne _ _ vectors.state apart, List.set_comm _ _ apart⟩

theorem affinities_destroyed (inside : id < vectors.affinities.length) :
    (vectors.destroyed id).affinities = vectors.affinities.set id defaultPrimaryAffinity := by
  rw [← affinities_set inside]
  exact affinities_congr rfl (List.length_set ..)

theorem Changes.state {old bits : Nat} (h : vectors.Changes id old bits vectors') :
    ∃ value, vectors'.state = vectors.state.set id value := by
  cases h with
  | destroys => exact ⟨_, rfl⟩
  | flips => exact ⟨_, rfl⟩

theorem affinities_setState {value : Nat} :
    ({ vectors with state := vectors.state.set id value } : OsdVectors).affinities =
      vectors.affinities :=
  affinities_congr rfl (List.length_set ..)

theorem destroyed_comm {i j : Nat} (apart : i ≠ j) (affine : i < vectors.affinities.length)
    (affine' : j < vectors.affinities.length) :
    (vectors.destroyed i).destroyed j = (vectors.destroyed j).destroyed i := by
  have affinities := affinities_destroyed affine
  have affinities' := affinities_destroyed affine'
  unfold destroyed at affinities affinities' ⊢
  simp only [affinities, affinities', mk.injEq, true_and]
  exact ⟨List.set_comm _ _ apart, List.set_comm _ _ apart, List.set_comm _ _ apart⟩

theorem destroyed_setState {i j value : Nat} (apart : i ≠ j) :
    ({ vectors with state := vectors.state.set j value } : OsdVectors).destroyed i =
      { vectors.destroyed i with state := (vectors.destroyed i).state.set j value } := by
  unfold destroyed
  simp only [affinities_setState, mk.injEq, and_true]
  exact List.set_comm _ _ apart.symm

/-- Changes of two OSDs.  What one of them does to the vectors does not depend on the other. -/
theorem Changes.swap {between final : OsdVectors} {i j old old' bits bits' : Nat} (apart : i ≠ j)
    (first : vectors.Changes i old bits between) (second : between.Changes j old' bits' final) :
    ∃ other, vectors.Changes j old' bits' other ∧ other.Changes i old bits final := by
  cases first with
  | destroys both affine addressed =>
    cases second with
    | destroys both' affine' addressed' =>
      rw [affinities_destroyed affine, List.length_set] at affine'
      refine ⟨_, .destroys both' affine' (by simpa [destroyed] using addressed'), ?_⟩
      rw [destroyed_comm apart affine affine']
      exact .destroys both (by rw [affinities_destroyed affine', List.length_set]; exact affine)
        (by simpa [destroyed] using addressed)
    | flips not' =>
      refine ⟨_, .flips not', ?_⟩
      rw [← destroyed_setState apart]
      exact .destroys both (by rw [affinities_setState]; exact affine) addressed
  | flips not =>
    cases second with
    | destroys both' affine' addressed' =>
      rw [affinities_setState] at affine'
      refine ⟨_, .destroys both' affine' addressed', ?_⟩
      rw [destroyed_setState apart.symm]
      exact .flips not
    | flips not' =>
      refine ⟨_, .flips not', ?_⟩
      simp only [List.set_comm _ _ apart]
      exact .flips not

theorem swap_changeState {a b : Int × Nat} (differ : a.1 ≠ b.1) : Swap changeState a b := by
  intro vectors between final first second
  obtain ⟨old, valid, was, changes⟩ := changeState_eq_ok.mp first
  obtain ⟨old', valid', was', changes'⟩ := changeState_eq_ok.mp second
  have apart := valid.toNat_ne valid' differ
  obtain ⟨other, changed, changed'⟩ := changes.swap apart changes'
  obtain ⟨value, states⟩ := changes.state
  obtain ⟨value', states'⟩ := changed.state
  rw [states, List.getElem?_set_ne apart] at was'
  have valid' : vectors.Valid b.1 := valid'.congr (by rw [states, List.length_set])
  refine ⟨other, changeState_eq_ok.mpr ⟨old', valid', was', changed⟩, ?_⟩
  refine changeState_eq_ok.mpr ⟨old, valid.congr (by rw [states', List.length_set]), ?_, changed'⟩
  rw [states', List.getElem?_set_ne apart.symm, was]

theorem Sized.exists_changeState {size : Nat} {entry : Int × Nat} (h : vectors.Sized size)
    (valid : vectors.Valid entry.1) : ∃ vectors', vectors.changeState entry = .ok vectors' := by
  have inside : entry.1.toNat < size := h.state ▸ valid.2
  obtain ⟨old, was⟩ : ∃ old, vectors.state[entry.1.toNat]? = some old :=
    ⟨_, List.getElem?_eq_getElem valid.2⟩
  by_cases both : old &&& 1 ≠ 0 ∧ flipped entry.2 &&& 1 ≠ 0
  · exact ⟨_, changeState_eq_ok.mpr ⟨old, valid, was, .destroys both
      (by rw [h.affinities]; exact inside) (by rw [h.addresses]; exact inside)⟩⟩
  · exact ⟨_, changeState_eq_ok.mpr ⟨old, valid, was, .flips both⟩⟩

end OsdVectors

/-! ## Tables and pools -/

section Tables

variable {κ ν : Type} [Ord κ] [Std.TransOrd κ] [Std.LawfulEqOrd κ] [DecidableEq κ]
  {entries entries' : List (κ × ν)}

omit [Std.LawfulEqOrd κ] [DecidableEq κ] in
theorem applyEntry_eq (deletes : ν → Bool) (table : ExtTreeMap κ ν) (entry : κ × ν) :
    applyEntry deletes table entry =
      Table.put table entry.1 (if deletes entry.2 then none else some entry.2) := by
  unfold applyEntry
  split <;> rfl

theorem applyEntries_perm (deletes : ν → Bool) (table : ExtTreeMap κ ν)
    (distinct : Distinct entries) (perm : entries.Perm entries') :
    applyEntries deletes table entries = applyEntries deletes table entries' := by
  refine Walk.foldl_perm (fun table a b differ => ?_) distinct perm table
  simp only [applyEntry_eq]
  exact Table.put_comm table differ _ _

theorem ofList_perm (distinct : Distinct entries) (perm : entries.Perm entries') :
    (ExtTreeMap.ofList entries : ExtTreeMap κ ν) = .ofList entries' := by
  apply ExtTreeMap.ext_getElem?
  intro key
  apply Option.ext
  intro value
  rw [Table.lookup_ofList distinct, Table.lookup_ofList (distinct.perm perm), perm.mem_iff]

end Tables

namespace PoolTables

variable {tables tables' : PoolTables}

theorem insertPool_comm (tables : PoolTables) {a b : Int × Pool} (differ : a.1 ≠ b.1) :
    (tables.insertPool a).insertPool b = (tables.insertPool b).insertPool a := by
  unfold insertPool
  simp only [Table.lookup_insert, if_neg differ, if_neg differ.symm, mk.injEq, and_true]
  exact Table.put_comm tables.pools differ (some _) (some _)

theorem insertPools_perm {pools pools' : List (Int × Pool)} (distinct : Distinct pools)
    (perm : pools.Perm pools') (tables : PoolTables) :
    pools.foldl insertPool tables = pools'.foldl insertPool tables :=
  Walk.foldl_perm (fun tables _ _ differ => tables.insertPool_comm differ) distinct perm tables

theorem nameToId_insertPools (pools : List (Int × Pool)) (tables : PoolTables) :
    (pools.foldl insertPool tables).nameToId = tables.nameToId := by
  induction pools generalizing tables with
  | nil => rfl
  | cons entry pools ih => exact ih (tables.insertPool entry)

/-- A name of a pool that is to be removed. -/
def Removed (tables : PoolTables) (ids : List Int) (name : Text) : Prop :=
  ∃ id ∈ ids, ∃ pool, tables.pools[id]? = some pool ∧ pool.name = name

theorem pools_removePool (tables : PoolTables) (id key : Int) :
    (tables.removePool id).pools[key]? = if id = key then none else tables.pools[key]? := by
  unfold removePool
  split
  next absent =>
    split
    next same => rw [← same, absent]
    · rfl
  · exact Table.lookup_erase ..

theorem pools_removePools (ids : List Int) (tables : PoolTables) (key : Int) :
    (ids.foldl removePool tables).pools[key]? = if key ∈ ids then none else tables.pools[key]? := by
  induction ids generalizing tables with
  | nil => rfl
  | cons id ids ih =>
    rw [List.foldl_cons, ih, pools_removePool]
    by_cases mem : key ∈ ids
    · simp [mem]
    · simp [mem, eq_comm]

/-- Removing pools removes their names, and only these. -/
theorem nameToId_removePools (ids : List Int) (name : Text)
    (h : tables.Removed ids name ∨ tables.nameToId[name]? = tables'.nameToId[name]?)
    (same : tables.pools = tables'.pools) :
    (ids.foldl removePool tables).nameToId[name]? =
      (ids.foldl removePool tables').nameToId[name]? := by
  induction ids generalizing tables tables' with
  | nil =>
    rcases h with ⟨_, mem, _⟩ | h
    · cases mem
    · exact h
  | cons id ids ih =>
    rw [List.foldl_cons, List.foldl_cons]
    cases found : tables.pools[id]? with
    | none =>
      have found' : tables'.pools[id]? = none := same ▸ found
      simp only [removePool, found, found']
      refine ih (h.imp_left ?_) same
      rintro ⟨id', mem, pool, there, named⟩
      cases mem with
      | head => cases found.symm.trans there
      | tail _ mem => exact ⟨id', mem, pool, there, named⟩
    | some pool =>
      have found' : tables'.pools[id]? = some pool := same ▸ found
      simp only [removePool, found, found']
      refine ih ?_ (by rw [same])
      by_cases here : pool.name = name
      · exact .inr (by simp only [Table.lookup_erase, if_pos here])
      refine h.imp ?_ fun agree => by simp only [Table.lookup_erase, if_neg here, agree]
      rintro ⟨id', mem, pool', there, named⟩
      cases mem with
      | head =>
        cases found.symm.trans there
        exact absurd named here
      | tail _ mem =>
        refine ⟨id', mem, pool', ?_, named⟩
        rw [Table.lookup_erase, if_neg, there]
        rintro rfl
        cases found.symm.trans there
        exact here named

/-- Tables with the same pools, whose names differ only where they are removed. -/
theorem removePools_eq {ids : List Int} (same : tables.pools = tables'.pools)
    (names : ∀ name, tables.Removed ids name ∨ tables.nameToId[name]? = tables'.nameToId[name]?) :
    ids.foldl removePool tables = ids.foldl removePool tables' := by
  apply PoolTables.ext
  · apply ExtTreeMap.ext_getElem?
    intro key
    rw [pools_removePools, pools_removePools, same]
  apply ExtTreeMap.ext_getElem?
  intro name
  exact nameToId_removePools ids name (names name) same

end PoolTables

/-! ## The whole incremental -/

theorem OsdMapIncremental.Reordered.eq {a b : OsdMapIncremental} (h : a.Reordered b) :
    ∃ tables, a.toIncrementalTables.Perm tables ∧ b = { a with toIncrementalTables := tables } :=
  ⟨b.toIncrementalTables, h.tables, h.rest⟩

theorem OsdMapIncremental.Reordered.symm {a b : OsdMapIncremental} (h : a.Reordered b) :
    b.Reordered a := by
  obtain ⟨tables, perm, rfl⟩ := h.eq
  refine ⟨?_, rfl⟩
  exact ⟨perm.newPools.symm, perm.newPoolNames.symm, perm.newUpClient.symm, perm.newState.symm,
    perm.newWeight.symm, perm.newPgTemp.symm, perm.newPrimaryTemp.symm, perm.newPrimaryAffinity.symm,
    perm.newErasureProfiles.symm, perm.newPgUpmap.symm, perm.newPgUpmapItems.symm,
    perm.newRemovedSnapshots.symm, perm.newPurgedSnapshots.symm, perm.newPgUpmapPrimaries.symm⟩

/-- The OSDs that an incremental changes. -/
def OsdMapIncremental.osds (incremental : OsdMapIncremental) : List Int :=
  incremental.newWeight.map Prod.fst ++ incremental.newPrimaryAffinity.map Prod.fst
    ++ incremental.newState.map Prod.fst ++ incremental.newUpClient.map Prod.fst

namespace OsdMap

variable {map map' : OsdMap} {incremental incremental' : OsdMapIncremental} {limits : Limits}

/-- The pools that the walk over the names starts from. -/
def grown (map : OsdMap) (incremental : OsdMapIncremental) : PoolTables :=
  incremental.newPools.foldl PoolTables.insertPool map.tables

/-- A pool that is not removed ends up without a name. -/
def LeavesUnnamed (map : OsdMap) (incremental : OsdMapIncremental) : Prop :=
  ∃ id pool, (map.grown incremental).pools[id]? = some pool ∧ id ∉ incremental.oldPools ∧
    ((id, []) ∈ incremental.newPoolNames ∨
      pool.name = [] ∧ id ∉ incremental.newPoolNames.map Prod.fst)

/-- The outcome is decided whatever the orders are: by a whole map, or because something in the
incremental does not fit the map. -/
inductive Decided (map : OsdMap) (incremental : OsdMapIncremental) : Prop where
  | cluster (other : incremental.fsid ≠ map.fsid)
  | sequence (other : map.epoch + 1 > 2 ^ 32 - 1 ∨ incremental.epoch ≠ map.epoch + 1)
  | whole (present : incremental.fullMap ≠ [])
  | crush (present : incremental.crushData ≠ []) (last : map.crushVersion + 1 > 2 ^ 32 - 1)
  | pool (entry : Int × Text) (mem : entry ∈ incremental.newPoolNames)
      (unknown : entry.1 ∉ (map.grown incremental).pools)
  | osd (osd : Int) (mem : osd ∈ incremental.osds) (outside : ¬ (map.resized incremental).Valid osd)
  | name (unnamed : map.LeavesUnnamed incremental)

/-- The incremental leads to the same map, or fails, in all orders of its tables. -/
def OrderFree (map : OsdMap) (incremental : OsdMapIncremental) (limits : Limits) : Prop :=
  ∀ incremental', incremental.Reordered incremental' →
    (map.applyOsdmapIncremental incremental' limits).toOption =
      (map.applyOsdmapIncremental incremental limits).toOption

theorem grown_perm (proper : incremental.Proper) (h : incremental.Reordered incremental') :
    map.grown incremental = map.grown incremental' :=
  PoolTables.insertPools_perm proper.newPools h.tables.newPools map.tables

theorem assemble_perm (proper : incremental.Proper) (h : incremental.Reordered incremental')
    (crush : List UInt8 × Nat) (tables : PoolTables) (vectors : OsdVectors) :
    map.assemble incremental crush tables vectors =
      map.assemble incremental' crush tables vectors := by
  obtain ⟨order, perm, rfl⟩ := h.eq
  simp only [assemble, applyPgVectors, applyPgInts,
    applyEntries_perm _ _ proper.newPgTemp perm.newPgTemp,
    applyEntries_perm _ _ proper.newPrimaryTemp perm.newPrimaryTemp,
    applyEntries_perm _ _ proper.newErasureProfiles perm.newErasureProfiles,
    applyEntries_perm _ _ proper.newPgUpmap perm.newPgUpmap,
    applyEntries_perm _ _ proper.newPgUpmapItems perm.newPgUpmapItems,
    applyEntries_perm _ _ proper.newPgUpmapPrimaries perm.newPgUpmapPrimaries,
    ofList_perm proper.newRemovedSnapshots perm.newRemovedSnapshots,
    ofList_perm proper.newPurgedSnapshots perm.newPurgedSnapshots]

variable {vectors : OsdVectors}

theorem changeOsds_perm (proper : incremental.Proper) (h : incremental.Reordered incremental')
    (run : map.changeOsds incremental = .ok vectors) :
    map.changeOsds incremental' = .ok vectors := by
  obtain ⟨order, perm, rfl⟩ := h.eq
  rw [changeOsds] at run ⊢
  obtain ⟨weighted, weights, run⟩ := bind_eq_ok.mp run
  obtain ⟨affine, affinities, run⟩ := bind_eq_ok.mp run
  obtain ⟨changed, states, addresses⟩ := bind_eq_ok.mp run
  have weights := Walk.foldlM_perm (fun _ _ => OsdVectors.swap_setWeight) proper.newWeight
    perm.newWeight weights
  have affinities := Walk.foldlM_perm (fun _ _ => OsdVectors.swap_setAffinity)
    proper.newPrimaryAffinity perm.newPrimaryAffinity affinities
  have states := Walk.foldlM_perm (fun _ _ => OsdVectors.swap_changeState) proper.newState
    perm.newState states
  have addresses := Walk.foldlM_perm (fun _ _ => OsdVectors.swap_setUp) proper.newUpClient
    perm.newUpClient addresses
  exact bind_eq_ok.mpr ⟨weighted, weights, bind_eq_ok.mpr ⟨affine, affinities,
    bind_eq_ok.mpr ⟨changed, states, addresses⟩⟩⟩

/-- If the pools do not depend on the order, nothing does. -/
theorem apply_perm (proper : incremental.Proper) (h : incremental.Reordered incremental')
    (whole : incremental.fullMap = [])
    (pools : ∀ tables, map.changePools incremental = .ok tables → tables.hasUnnamed = false →
      map.changePools incremental' = .ok tables)
    (run : map.applyOsdmapIncremental incremental limits = .ok map') :
    map.applyOsdmapIncremental incremental' limits = .ok map' := by
  obtain ⟨cluster, bound, epoch, crush, tables, vectors, crush_eq, tables_eq, osds, named, rfl⟩ :=
    (applyOsdmapIncremental_eq_ok whole).mp run
  have tables_eq := pools tables tables_eq named
  have osds := changeOsds_perm proper h osds
  rw [assemble_perm proper h]
  obtain ⟨order, perm, rfl⟩ := h.eq
  refine (applyOsdmapIncremental_eq_ok ?_).mpr ⟨cluster, bound, epoch, crush, tables, vectors,
    crush_eq, tables_eq, osds, named, rfl⟩
  exact whole

variable {tables : PoolTables}

theorem changePools_eq_ok :
    map.changePools incremental = .ok tables ↔
      ∃ renamed, incremental.newPoolNames.foldlM PoolTables.rename (map.grown incremental) =
          .ok renamed ∧
        tables = incremental.oldPools.foldl PoolTables.removePool renamed := by
  rw [changePools, bind_eq_ok]
  refine exists_congr fun renamed => and_congr_right fun _ => ?_
  exact ⟨fun h => (Except.ok.inj h).symm, fun h => congrArg Except.ok h.symm⟩

/-- Names that are settled lead to the same pools in every order.  The order may decide whether
the empty name leads somewhere, but then only to a pool that is removed afterwards. -/
theorem changePools_perm (proper : incremental.Proper) (h : incremental.Reordered incremental')
    (settled : (map.grown incremental).Settled incremental.newPoolNames)
    (walk : map.changePools incremental = .ok tables) (named : tables.hasUnnamed = false) :
    map.changePools incremental' = .ok tables := by
  obtain ⟨renamed, run, rfl⟩ := changePools_eq_ok.mp walk
  have perm := h.tables.newPoolNames
  have distinct' := proper.newPoolNames.perm perm
  have pools := PoolTables.renamed_of_foldlM proper.newPoolNames run
  obtain ⟨renamed', run'⟩ := (settled.perm perm).exists_foldlM distinct' fun entry mem => by
    obtain ⟨pool, found, -⟩ := pools.renamed entry (perm.mem_iff.mpr mem)
    exact Table.mem_iff.mpr ⟨pool, found⟩
  have pools' := PoolTables.renamed_of_foldlM distinct' run'
  have names := settled.relabelled proper.newPoolNames run
  have names' := (settled.perm perm).relabelled distinct' run'
  refine changePools_eq_ok.mpr ⟨renamed', grown_perm proper h ▸ run', ?_⟩
  have old : incremental'.oldPools = incremental.oldPools := by
    obtain ⟨order, -, rfl⟩ := h.eq
    rfl
  rw [old]
  refine PoolTables.removePools_eq (pools.pools_eq pools' perm) fun name => ?_
  by_cases given : name = [] ∧ name ∈ incremental.newPoolNames.map Prod.snd
  · obtain ⟨rfl, mem⟩ := given
    obtain ⟨entry, there, empty⟩ := List.mem_map.mp mem
    obtain ⟨pool, -, final⟩ := pools.renamed entry there
    refine .inl ⟨entry.1, ?_, _, final, empty⟩
    by_contra kept
    have left : (incremental.oldPools.foldl PoolTables.removePool renamed).pools[entry.1]? =
        some { pool with name := entry.2 } := by
      rw [PoolTables.pools_removePools, if_neg kept, final]
    exact PoolTables.hasUnnamed_eq_false.mp named entry.1 _ left empty
  · rw [not_and_or] at given
    exact .inr (names.lookup_eq names' perm given)

/-! ### What is decided -/

/-- Every OSD of a walk that comes to its end has a place in the vectors. -/
theorem valid_of_foldlM {ν : Type} {step : OsdVectors → Int × ν → Run MapError OsdVectors}
    (one : ∀ vectors entry vectors', step vectors entry = .ok vectors' →
      vectors.Valid entry.1 ∧ vectors'.state.length = vectors.state.length)
    {entries : List (Int × ν)} {vectors' : OsdVectors}
    (run : entries.foldlM step vectors = .ok vectors') :
    vectors'.state.length = vectors.state.length ∧ ∀ entry ∈ entries, vectors.Valid entry.1 := by
  have keeps (now : OsdVectors) (entry : Int × ν) (after : OsdVectors)
      (same : now.state.length = vectors.state.length) (taken : step now entry = .ok after) :
      after.state.length = vectors.state.length := (one now entry after taken).2.trans same
  refine ⟨foldlM_rule (·.state.length = vectors.state.length)
    (fun now entry after _ => keeps now entry after) rfl run, fun entry mem => ?_⟩
  obtain ⟨now, after, same, taken⟩ := Walk.foldlM_visits _ keeps rfl run mem
  exact (one now entry after taken).1.congr same.symm

theorem valid_of_changeOsds (run : map.changeOsds incremental = .ok vectors) :
    ∀ osd ∈ incremental.osds, (map.resized incremental).Valid osd := by
  rw [changeOsds] at run
  obtain ⟨weighted, weights, run⟩ := bind_eq_ok.mp run
  obtain ⟨affine, affinities, run⟩ := bind_eq_ok.mp run
  obtain ⟨changed, states, addresses⟩ := bind_eq_ok.mp run
  obtain ⟨length, weights⟩ := valid_of_foldlM (fun _ _ _ step => by
    obtain ⟨valid, -, rfl⟩ := OsdVectors.setWeight_eq_ok.mp step
    exact ⟨valid, OsdVectors.length_reweighted ..⟩) weights
  obtain ⟨length', affinities⟩ := valid_of_foldlM (fun _ _ _ step => by
    obtain ⟨valid, -, rfl⟩ := OsdVectors.setAffinity_eq_ok.mp step
    exact ⟨valid, rfl⟩) affinities
  obtain ⟨length'', states⟩ := valid_of_foldlM (fun _ _ _ step => by
    obtain ⟨old, valid, -, changes⟩ := OsdVectors.changeState_eq_ok.mp step
    obtain ⟨value, same⟩ := changes.state
    exact ⟨valid, by rw [same, List.length_set]⟩) states
  obtain ⟨-, addresses⟩ := valid_of_foldlM (fun _ _ _ step => by
    obtain ⟨valid, -, rfl⟩ := OsdVectors.setUp_eq_ok.mp step
    exact ⟨valid, List.length_modify ..⟩) addresses
  intro osd mem
  simp only [OsdMapIncremental.osds, List.mem_append, List.mem_map] at mem
  rcases mem with ((⟨entry, mem, rfl⟩ | ⟨entry, mem, rfl⟩) | ⟨entry, mem, rfl⟩) | ⟨entry, mem, rfl⟩
  · exact weights entry mem
  · exact (affinities entry mem).congr length.symm
  · exact (states entry mem).congr (length'.trans length).symm
  · exact (addresses entry mem).congr (length''.trans (length'.trans length)).symm

variable {renamed : PoolTables}

/-- Whether a pool is left without a name can be seen from the lists alone. -/
theorem hasUnnamed_iff (proper : incremental.Proper)
    (run : incremental.newPoolNames.foldlM PoolTables.rename (map.grown incremental) = .ok renamed) :
    (incremental.oldPools.foldl PoolTables.removePool renamed).hasUnnamed = false ↔
      ¬ map.LeavesUnnamed incremental := by
  have pools := PoolTables.renamed_of_foldlM proper.newPoolNames run
  rw [PoolTables.hasUnnamed_eq_false]
  constructor
  · rintro named ⟨id, pool, found, kept, given | ⟨empty, other⟩⟩
    · obtain ⟨pool', -, final⟩ := pools.renamed _ given
      refine named id { pool' with name := [] } ?_ rfl
      rw [PoolTables.pools_removePools, if_neg kept, final]
    · refine named id pool ?_ empty
      rw [PoolTables.pools_removePools, if_neg kept, pools.kept id other, found]
  · intro unnamed id pool found empty
    rw [PoolTables.pools_removePools] at found
    split at found
    · cases found
    rename_i kept
    by_cases mem : id ∈ incremental.newPoolNames.map Prod.fst
    · obtain ⟨entry, there, rfl⟩ := List.mem_map.mp mem
      obtain ⟨old, before, final⟩ := pools.renamed _ there
      cases found.symm.trans final
      have empty : entry.2 = [] := empty
      exact unnamed ⟨entry.1, old, before, kept, .inl (empty ▸ there)⟩
    · exact unnamed ⟨id, pool, pools.kept id mem ▸ found, kept, .inr ⟨empty, mem⟩⟩

theorem changeCrush_eq_ok (h : incremental.crushData = [] ∨ map.crushVersion + 1 ≤ 2 ^ 32 - 1) :
    ∃ crush, map.changeCrush incremental = .ok crush := by
  unfold changeCrush
  split
  · exact ⟨_, rfl⟩
  next present => exact ⟨_, if_neg (not_lt.mpr (h.resolve_left present))⟩

/-- What is decided without a whole map is decided to fail. -/
theorem Decided.not_ok (h : map.Decided incremental) (proper : incremental.Proper)
    (whole : incremental.fullMap = []) :
    map.applyOsdmapIncremental incremental limits ≠ .ok map' := by
  intro run
  obtain ⟨cluster, bound, epoch, crush, tables, vectors, crush_eq, tables_eq, osds, named, rfl⟩ :=
    (applyOsdmapIncremental_eq_ok whole).mp run
  obtain ⟨renamed, renames, rfl⟩ := changePools_eq_ok.mp tables_eq
  cases h with
  | cluster other => exact other cluster
  | sequence other => exact other.elim (fun last => by omega) fun other => other epoch
  | whole present => exact present whole
  | crush present last =>
    rw [changeCrush, if_neg present, if_pos last] at crush_eq
    cases crush_eq
  | pool entry mem unknown =>
    obtain ⟨pool, found, -⟩ :=
      (PoolTables.renamed_of_foldlM proper.newPoolNames renames).renamed entry mem
    exact unknown (Table.mem_iff.mpr ⟨pool, found⟩)
  | osd osd mem outside => exact outside (valid_of_changeOsds osds osd mem)
  | name unnamed => exact (hasUnnamed_iff proper renames).mp named unnamed

theorem changeOsds_total {size : Nat} (sized : (map.resized incremental).Sized size)
    (valid : ∀ osd ∈ incremental.osds, (map.resized incremental).Valid osd) :
    ∃ vectors, map.changeOsds incremental = .ok vectors := by
  have place {osd : Int} (mem : osd ∈ incremental.osds) {vectors : OsdVectors}
      (now : vectors.Sized size) : vectors.Valid osd ∧ osd.toNat < size := by
    have valid := (valid osd mem).congr (now.state.trans sized.state.symm)
    exact ⟨valid, now.state ▸ valid.2⟩
  simp only [OsdMapIncremental.osds, List.mem_append] at place
  obtain ⟨weighted, weights, sized⟩ := foldlM_total (OsdVectors.Sized · size)
    (fun vectors entry mem now => by
      obtain ⟨valid, inside⟩ := place (.inl (.inl (.inl (List.mem_map_of_mem mem)))) now
      have step := OsdVectors.setWeight_eq_ok.mpr ⟨valid, by rw [now.weight]; exact inside, rfl⟩
      exact ⟨_, step, now.setWeight step⟩) sized
  obtain ⟨affine, affinities, sized⟩ := foldlM_total (OsdVectors.Sized · size)
    (fun vectors entry mem now => by
      obtain ⟨valid, inside⟩ := place (.inl (.inl (.inr (List.mem_map_of_mem mem)))) now
      have step := OsdVectors.setAffinity_eq_ok.mpr
        ⟨valid, by rw [now.affinities]; exact inside, rfl⟩
      exact ⟨_, step, now.setAffinity step⟩) sized
  obtain ⟨changed, states, sized⟩ := foldlM_total (OsdVectors.Sized · size)
    (fun vectors entry mem now => by
      obtain ⟨valid, -⟩ := place (.inl (.inr (List.mem_map_of_mem mem))) now
      obtain ⟨after, step⟩ := now.exists_changeState valid
      exact ⟨after, step, now.changeState step⟩) sized
  obtain ⟨last, addresses, -⟩ := foldlM_total (OsdVectors.Sized · size)
    (fun vectors entry mem now => by
      obtain ⟨valid, inside⟩ := place (.inr (List.mem_map_of_mem mem)) now
      have step := OsdVectors.setUp_eq_ok.mpr ⟨valid, by rw [now.addresses]; exact inside, rfl⟩
      exact ⟨_, step, now.setUp step⟩) sized
  exact ⟨last, bind_eq_ok.mpr ⟨weighted, weights, bind_eq_ok.mpr ⟨affine, affinities,
    bind_eq_ok.mpr ⟨changed, states, addresses⟩⟩⟩⟩

/-- In a well-formed map only the walk over the names can fail if nothing is decided. -/
theorem apply_total (formed : map.WellFormed) (proper : incremental.Proper)
    (undecided : ¬ map.Decided incremental)
    (run : incremental.newPoolNames.foldlM PoolTables.rename (map.grown incremental) = .ok renamed) :
    ∃ map', map.applyOsdmapIncremental incremental limits = .ok map' := by
  have whole : incremental.fullMap = [] := by
    by_contra present
    exact undecided (.whole present)
  have cluster : incremental.fsid = map.fsid := by
    by_contra other
    exact undecided (.cluster other)
  have sequence : map.epoch + 1 ≤ 2 ^ 32 - 1 ∧ incremental.epoch = map.epoch + 1 := by
    by_contra other
    exact undecided (.sequence ((not_and_or.mp other).imp_left not_le.mp))
  obtain ⟨crush, crush_eq⟩ : ∃ crush, map.changeCrush incremental = .ok crush := by
    refine changeCrush_eq_ok ?_
    by_contra other
    obtain ⟨present, last⟩ := not_or.mp other
    exact undecided (.crush present (not_le.mp last))
  obtain ⟨size, -, sized⟩ := sized_iff.mp formed.osds
  have sized : (map.resized incremental).Sized _ := resized_sized sized
  obtain ⟨vectors, osds⟩ := changeOsds_total sized fun osd mem => by
    by_contra outside
    exact undecided (.osd osd mem outside)
  have named := (hasUnnamed_iff proper run).mpr fun unnamed => undecided (.name unnamed)
  exact ⟨_, (applyOsdmapIncremental_eq_ok whole).mpr ⟨cluster, sequence.1, sequence.2, crush, _,
    vectors, crush_eq, changePools_eq_ok.mpr ⟨renamed, run, rfl⟩, osds, named, rfl⟩⟩

/-! ### When the order does not matter -/

theorem Decided.perm (h : map.Decided incremental) (proper : incremental.Proper)
    (reordered : incremental.Reordered incremental') : map.Decided incremental' := by
  have grown : map.grown incremental = map.grown incremental' := grown_perm proper reordered
  obtain ⟨order, perm, rfl⟩ := reordered.eq
  have names := perm.newPoolNames
  cases h with
  | cluster other => exact .cluster other
  | sequence other => exact .sequence other
  | whole present => exact .whole present
  | crush present last => exact .crush present last
  | pool entry mem unknown => exact .pool entry (names.mem_iff.mp mem) (grown ▸ unknown)
  | osd osd mem outside =>
    refine .osd osd ?_ outside
    have same := ((perm.newWeight.map Prod.fst).append (perm.newPrimaryAffinity.map Prod.fst)
      |>.append (perm.newState.map Prod.fst)).append (perm.newUpClient.map Prod.fst)
    exact same.mem_iff.mp mem
  | name unnamed =>
    obtain ⟨id, pool, found, kept, empty⟩ := unnamed
    refine .name ⟨id, pool, grown ▸ found, kept, ?_⟩
    exact empty.imp names.mem_iff.mp fun ⟨empty, other⟩ =>
      ⟨empty, fun mem => other ((names.map Prod.fst).mem_iff.mpr mem)⟩

/-- If no order loses a result, all have the same. -/
theorem orderFree_of_transfer
    (transfer : ∀ (a b : OsdMapIncremental) (map' : OsdMap), incremental.Reordered a →
      a.Reordered b → map.applyOsdmapIncremental a limits = .ok map' →
      map.applyOsdmapIncremental b limits = .ok map') :
    map.OrderFree incremental limits := by
  intro incremental' reordered
  apply Option.ext
  intro map'
  have iff (x : Run MapError OsdMap) : x.toOption = some map' ↔ x = .ok map' := by
    cases x <;> simp [Except.toOption]
  rw [iff, iff]
  exact ⟨transfer _ _ map' reordered reordered.symm, transfer _ _ map' (.refl _) reordered⟩

theorem apply_of_whole (whole : incremental.fullMap ≠ [])
    (h : incremental.Reordered incremental') :
    map.applyOsdmapIncremental incremental' limits =
      map.applyOsdmapIncremental incremental limits := by
  obtain ⟨order, -, rfl⟩ := h.eq
  unfold applyOsdmapIncremental
  simp only [if_pos whole]
  rfl

theorem orderFree_of_decided (proper : incremental.Proper) (h : map.Decided incremental) :
    map.OrderFree incremental limits := by
  by_cases whole : incremental.fullMap = []
  · refine orderFree_of_transfer fun a b map' here _ run => absurd run ?_
    refine (h.perm proper here).not_ok (proper.perm here.tables) ?_
    rwa [here.rest]
  · intro incremental' reordered
    rw [apply_of_whole whole reordered]

theorem orderFree_of_settled (proper : incremental.Proper)
    (h : (map.grown incremental).Settled incremental.newPoolNames) :
    map.OrderFree incremental limits := by
  by_cases whole : incremental.fullMap = []
  · refine orderFree_of_transfer fun a b map' here reordered run => ?_
    have settled : (map.grown a).Settled a.newPoolNames :=
      grown_perm proper here ▸ h.perm here.tables.newPoolNames
    have proper := proper.perm here.tables
    refine apply_perm proper reordered ?_ (fun tables => changePools_perm proper reordered settled) run
    rwa [here.rest]
  · exact orderFree_of_decided proper (.whole whole)

theorem renames_of_apply (run : map.applyOsdmapIncremental incremental limits = .ok map')
    (whole : incremental.fullMap = []) :
    ∃ renamed, incremental.newPoolNames.foldlM PoolTables.rename (map.grown incremental) =
      .ok renamed := by
  obtain ⟨-, -, -, crush, tables, vectors, -, tables_eq, -⟩ :=
    (applyOsdmapIncremental_eq_ok whole).mp run
  obtain ⟨renamed, renames, -⟩ := changePools_eq_ok.mp tables_eq
  exact ⟨renamed, renames⟩

/-- The walk over the names fails in every order. -/
theorem orderFree_of_fails (proper : incremental.Proper)
    (h : ∀ names tables, incremental.newPoolNames.Perm names →
      names.foldlM PoolTables.rename (map.grown incremental) ≠ .ok tables) :
    map.OrderFree incremental limits := by
  by_cases whole : incremental.fullMap = []
  · refine orderFree_of_transfer fun a b map' here _ run => ?_
    obtain ⟨renamed, renames⟩ := renames_of_apply run (by rwa [here.rest])
    rw [← grown_perm proper here] at renames
    exact absurd renames (h a.newPoolNames renamed here.tables.newPoolNames)
  · exact orderFree_of_decided proper (.whole whole)

theorem grown_partial (formed : map.WellFormed) (proper : incremental.Proper) :
    (map.grown incremental).Partial :=
  List.foldlRecOn _ _ formed.pools.toPartial fun _ ok entry mem =>
    ok.insertPool (proper.unnamed entry mem)

theorem grown_empty (formed : map.WellFormed) :
    (map.grown incremental).nameToId[([] : Text)]? = none := by
  rw [grown, PoolTables.nameToId_insertPools]
  by_contra present
  obtain ⟨id, leads⟩ := Option.ne_none_iff_exists'.mp present
  obtain ⟨pool, found, named⟩ := formed.pools.carried [] id leads
  exact formed.pools.nonempty id pool found named

variable {names : List (Int × Text)}

/-- Walks of which one succeeds and another one fails. -/
theorem not_orderFree (formed : map.WellFormed) (proper : incremental.Proper)
    (undecided : ¬ map.Decided incremental) {names' : List (Int × Text)}
    (perm : incremental.newPoolNames.Perm names) (perm' : incremental.newPoolNames.Perm names')
    (succeeds : names.foldlM PoolTables.rename (map.grown incremental) = .ok tables)
    (fails : ∀ tables, names'.foldlM PoolTables.rename (map.grown incremental) ≠ .ok tables) :
    ¬ map.OrderFree incremental limits := by
  intro free
  have order {names : List (Int × Text)} (perm : incremental.newPoolNames.Perm names) :
      incremental.Reordered { incremental with newPoolNames := names } :=
    ⟨{ (IncrementalTables.Perm.refl incremental.toIncrementalTables) with newPoolNames := perm }, rfl⟩
  have whole : incremental.fullMap = [] := by
    by_contra present
    exact undecided (.whole present)
  have undecided' : ¬ map.Decided { incremental with newPoolNames := names } := fun decided =>
    undecided (decided.perm (proper.perm (order perm).tables) (order perm).symm)
  obtain ⟨map', ok⟩ : ∃ map', map.applyOsdmapIncremental { incremental with newPoolNames := names }
      limits = .ok map' :=
    apply_total formed (proper.perm (order perm).tables) undecided' succeeds
  have same := (free _ (order perm')).trans (free _ (order perm)).symm
  rw [ok] at same
  cases run : map.applyOsdmapIncremental { incremental with newPoolNames := names' } limits with
  | error fault =>
    rw [run] at same
    cases same
  | ok other =>
    obtain ⟨renamed, renames⟩ := renames_of_apply run whole
    exact fails renamed renames

/-- A pool that wants the name of another one, visited first, is refused. -/
theorem exists_failing {entry : Int × Text} {holder : Int} (mem : entry ∈ names)
    (leads : tables.nameToId[entry.2]? = some holder) (other : holder ≠ entry.1) :
    ∃ names', names.Perm names' ∧ ∀ after, names'.foldlM PoolTables.rename tables ≠ .ok after := by
  refine ⟨entry :: names.erase entry, List.perm_cons_erase mem, fun after run => ?_⟩
  rw [List.foldlM_cons] at run
  obtain ⟨between, step, -⟩ := bind_eq_ok.mp run
  obtain ⟨-, -, free, -⟩ := PoolTables.rename_eq_ok.mp step
  exact other (free holder leads)

/-- In a well-formed map, names that are not settled are wanted twice or belong to another pool. -/
theorem not_settled (consistent : tables.Partial) (once : (names.map Prod.snd).Nodup)
    (h : ¬ tables.Settled names) :
    ∃ entry ∈ names, ∃ holder, tables.nameToId[entry.2]? = some holder ∧ holder ≠ entry.1 := by
  by_contra free
  push Not at free
  refine h ⟨once, free, fun entry mem nonempty other _ differs pool found named => differs ?_⟩
  have leads := (consistent.listed other.1 pool found).resolve_left (named ▸ nonempty)
  exact free entry mem other.1 (named ▸ leads)

/-- An incremental leads to the same outcome in all orders of its tables if the outcome is decided
without the walk over the new names, or if no pool wants the name of another one.  In a
well-formed map, unless two pools get the empty name, it does so exactly if in addition two pools
want the same name, or pools wait for each other. -/
theorem applyOsdmapIncremental_orderFree (decoded : incremental.Decoded) :
    (map.Decided incremental ∨ (map.grown incremental).Settled incremental.newPoolNames →
      map.OrderFree incremental limits) ∧
    (map.WellFormed →
      (∀ a ∈ incremental.newPoolNames, ∀ b ∈ incremental.newPoolNames,
        a.2 = [] → b.2 = [] → a = b) →
      (map.OrderFree incremental limits ↔
        map.Decided incremental ∨ (map.grown incremental).Settled incremental.newPoolNames ∨
          PoolTables.Contested incremental.newPoolNames ∨
          (map.grown incremental).Deadlocked incremental.newPoolNames)) := by
  have proper := decoded.proper.1
  refine ⟨fun h => h.elim (orderFree_of_decided proper) (orderFree_of_settled proper), ?_⟩
  intro formed single
  have consistent := grown_partial formed proper
  constructor
  · intro free
    by_contra none
    obtain ⟨undecided, unsettled, uncontested, alive⟩ := by simpa only [not_or] using none
    have once : (incremental.newPoolNames.map Prod.snd).Nodup := by
      refine (List.Nodup.of_map Prod.fst proper.newPoolNames).map_on fun a mem b mem' same => ?_
      by_contra differ
      by_cases empty : a.2 = []
      · exact differ (single a mem b mem' empty (same ▸ empty))
      · refine uncontested ⟨a, mem, b, mem', fun key => ?_, same, empty⟩
        exact differ (proper.newPoolNames.eq_of_key mem mem' key)
    have known : ∀ entry ∈ incremental.newPoolNames, entry.1 ∈ (map.grown incremental).pools := by
      intro entry mem
      by_contra unknown
      exact undecided (.pool entry mem unknown)
    obtain ⟨names, tables, perm, succeeds⟩ :=
      PoolTables.exists_order consistent proper.newPoolNames once known alive
    obtain ⟨entry, mem, holder, leads, other⟩ := not_settled consistent once unsettled
    obtain ⟨names', perm', fails⟩ := exists_failing mem leads other
    exact not_orderFree formed proper undecided perm perm' succeeds fails free
  · rintro (decided | settled | contested | deadlocked)
    · exact orderFree_of_decided proper decided
    · exact orderFree_of_settled proper settled
    · refine orderFree_of_fails proper fun names tables perm => ?_
      exact (contested.perm perm).not_ok consistent (proper.newPoolNames.perm perm)
    · refine orderFree_of_fails proper fun names tables perm => ?_
      exact (deadlocked.perm perm).not_ok consistent (proper.newPoolNames.perm perm)
        (grown_empty formed)

theorem growth_orderFree : pairMap.OrderFree growth sampleLimits := by
  have free : (pairMap.grown growth).nameToId[([99] : Text)]? = none := by decide
  have settled : (pairMap.grown growth).Settled growth.newPoolNames := by
    refine ⟨by decide, fun entry mem holder leads => ?_, fun entry mem _ other mem' differs => ?_⟩
    · cases List.mem_singleton.mp mem
      cases free.symm.trans leads
    cases List.mem_singleton.mp mem
    cases List.mem_singleton.mp mem'
    exact absurd rfl differs
  exact ((applyOsdmapIncremental_orderFree growth_decoded).2 pairMap_wellFormed
    (by decide)).mpr (.inr (.inl settled))

end OsdMap

/-- The first pool gives up its name, and the second one takes it. -/
def succession (names : List (Int × Text)) : OsdMapIncremental :=
  sampleIncremental 2 (-1) [] names [] [] 534421439

/-- Both orders of the two names belong to the same bytes.  In one of them the second pool wants
its name while the first one still has it. -/
theorem names_in_two_orders :
    (succession [(1, [99]), (2, [97])]).Decoded ∧
      (succession [(1, [99]), (2, [97])]).Reordered (succession [(2, [97]), (1, [99])]) ∧
      (pairMap.applyOsdmapIncremental (succession [(1, [99]), (2, [97])]) sampleLimits).isOk = true ∧
      pairMap.applyOsdmapIncremental (succession [(2, [97]), (1, [99])]) sampleLimits =
        fail (.malformed "duplicate pool name") ∧
      ¬ pairMap.OrderFree (succession [(1, [99]), (2, [97])]) sampleLimits := by
  have reordered : (succession [(1, [99]), (2, [97])]).Reordered
      (succession [(2, [97]), (1, [99])]) :=
    ⟨{ IncrementalTables.Perm.refl _ with newPoolNames := .swap .. }, rfl⟩
  have succeeds : (pairMap.applyOsdmapIncremental (succession [(1, [99]), (2, [97])])
      sampleLimits).isOk = true := by decide
  have fails : pairMap.applyOsdmapIncremental (succession [(2, [97]), (1, [99])]) sampleLimits =
      fail (.malformed "duplicate pool name") := by decide
  refine ⟨?_, reordered, succeeds, fails, fun free => ?_⟩
  · exact ⟨encodeSampleIncremental (encodeSampleChange 2 (-1) [] [(1, [99]), (2, [97])] [] [])
      534421439, sampleLimits, _, decodeOsdmapIncremental_of_checksum rfl (by decide +kernel)
      (by decide +kernel) (by decide +kernel), .refl _⟩
  have same := free _ reordered
  obtain ⟨map', ok⟩ := exists_of_isOk succeeds
  rw [fails, ok] at same
  cases same

end RadosRs.Maps
