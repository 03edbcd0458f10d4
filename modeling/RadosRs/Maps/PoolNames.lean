import RadosRs.Lib.Table
import RadosRs.Maps.Incremental

/-!
# The names of the pools

A map knows the names of its pools twice: each pool has its name, and a table leads
from names to ids.  `Consistent` says that the two are inverse to each other.

A record lists the names by pool id.  Decoding makes sure that every id is that of a
pool, that no name comes twice, and that there are as many names as pools.  It does
not make sure that no id comes twice.  A record that names one pool twice and
another one not at all passes, and the tables are consistent exactly if the ids in
its list are different.
-/

namespace RadosRs.Maps

open Wire Wire.Reader Fallible
open Std (ExtTreeMap)

/-- Every pool stands under its id, its name leads to that id, and every name leads to the pool
that has it. -/
structure PoolTables.Consistent (tables : PoolTables) : Prop where
  keyed : ∀ (id : Int) (pool : Pool), tables.pools[id]? = some pool → pool.id = id
  listed : ∀ (id : Int) (pool : Pool), tables.pools[id]? = some pool →
    tables.nameToId[pool.name]? = some id
  carried : ∀ (name : Text) (id : Int), tables.nameToId[name]? = some id →
    ∃ pool, tables.pools[id]? = some pool ∧ pool.name = name

/-! ## The list of names in a record -/

/-- The list of names as it stands in the record, without a check. -/
def readPoolNames (limits : Limits) : Reader MapError (List (Int × Text)) := do
  let _ ← decodeHeader
  let _ ← decodePools limits "duplicate pool id"
  let count ← boundedCount limits.maxPools 12
  times count (decodePoolName limits)

/-- The list of names in the bytes of a map. -/
def poolNames (data : List UInt8) (limits : Limits) : Run MapError (List (Int × Text)) := do
  let (names, _) ← decodeVersion 8 (decodeVersion 10 (readPoolNames limits))
    (.new data limits.maxBytes)
  return names

/-! ## Entering names -/

/-- What the tables hold after a list of names has been entered into pools without names. -/
structure PoolTables.Entered (tables : PoolTables) (names : List (Int × Text)) : Prop where
  once : (names.map Prod.snd).Nodup
  known : ∀ entry ∈ names, entry.1 ∈ tables.pools
  table : ∀ (name : Text) (id : Int), tables.nameToId[name]? = some id ↔ (id, name) ∈ names
  size : tables.nameToId.size = names.length
  keyed : ∀ (id : Int) (pool : Pool), tables.pools[id]? = some pool → pool.id = id
  named : ∀ (id : Int) (pool : Pool), tables.pools[id]? = some pool → id ∈ names.map Prod.fst →
    (id, pool.name) ∈ names

namespace PoolTables

variable {tables tables' : PoolTables} {entry : Int × Text} {names more : List (Int × Text)}

theorem enter_eq_ok (h : tables.enter entry = .ok tables') :
    ∃ pool, tables.pools[entry.1]? = some pool ∧ entry.2 ∉ tables.nameToId ∧
      tables' = ⟨tables.pools.insert entry.1 { pool with name := entry.2 },
        tables.nameToId.insert entry.2 entry.1⟩ := by
  unfold enter at h
  split at h
  · cases h
  rename_i pool found
  split at h
  · cases h
  rename_i new
  cases h
  exact ⟨pool, found, new, rfl⟩

/-- One more name. -/
theorem Entered.enter (h : tables.Entered names) (step : tables.enter entry = .ok tables') :
    tables'.Entered (names ++ [entry]) := by
  obtain ⟨pool, found, new, rfl⟩ := enter_eq_ok step
  have fresh : entry.2 ∉ names.map Prod.snd := by
    intro mem
    obtain ⟨other, there, same⟩ := List.mem_map.mp mem
    exact new (Table.mem_iff.mpr ⟨other.1, (h.table entry.2 other.1).mpr (same ▸ there)⟩)
  constructor
  case once =>
    rw [List.map_append, List.map_singleton, ← List.concat_eq_append]
    exact h.once.concat fresh
  case known =>
    intro other mem
    rcases List.mem_append.mp mem with before | last
    · exact ExtTreeMap.mem_insert.mpr (.inr (h.known other before))
    · rw [List.mem_singleton.mp last]
      exact ExtTreeMap.mem_insert_self
  case table =>
    intro name id
    rw [Table.lookup_insert]
    split
    next same =>
      subst same
      have absent : (id, entry.2) ∉ names := fun mem => fresh (List.mem_map.mpr ⟨_, mem, rfl⟩)
      simp [absent, Prod.ext_iff, eq_comm]
    rename_i other
    rw [h.table]
    simp [Prod.ext_iff, Ne.symm other]
  case size =>
    rw [ExtTreeMap.size_insert, if_neg (by simpa using new), h.size, List.length_append,
      List.length_singleton]
  case keyed =>
    intro id other here
    rw [Table.lookup_insert] at here
    split at here
    next same =>
      cases here
      exact same ▸ h.keyed entry.1 pool found
    · exact h.keyed id other here
  case named =>
    intro id other here mem
    rw [Table.lookup_insert] at here
    split at here
    next same =>
      cases here
      exact List.mem_append_right _ (List.mem_singleton.mpr (Prod.ext same.symm rfl))
    rename_i differs
    rw [List.map_append, List.mem_append] at mem
    rcases mem with before | last
    · exact List.mem_append_left _ (h.named id other here before)
    · exact absurd (List.mem_singleton.mp last).symm differs

theorem Entered.foldlM (h : tables.Entered names)
    (run : more.foldlM PoolTables.enter tables = .ok tables') : tables'.Entered (names ++ more) := by
  induction more generalizing names tables with
  | nil =>
    cases run
    rwa [List.append_nil]
  | cons entry more ih =>
    rw [List.foldlM_cons] at run
    obtain ⟨between, first, rest⟩ := bind_eq_ok.mp run
    have entered := ih (h.enter first) rest
    rwa [List.append_assoc, List.singleton_append] at entered

/-- With as many names as pools, the tables are consistent exactly if no pool has two names. -/
theorem Entered.consistent_iff (h : tables.Entered names)
    (counted : tables.nameToId.size = tables.pools.size) :
    tables.Consistent ↔ (names.map Prod.fst).Nodup := by
  constructor
  · intro consistent
    refine (List.Nodup.of_map Prod.snd h.once).map_on ?_
    rintro ⟨id, name⟩ mem ⟨_, other⟩ mem' rfl
    obtain ⟨pool, found, rfl⟩ := consistent.carried name id ((h.table name id).mpr mem)
    obtain ⟨_, found', rfl⟩ := consistent.carried other id ((h.table other id).mpr mem')
    rw [found] at found'
    cases found'
    rfl
  · intro distinct
    have all (id : Int) (mem : id ∈ tables.pools) : id ∈ names.map Prod.fst := by
      refine Table.mem_of_length distinct ?_ ?_ mem
      · intro id mem
        obtain ⟨entry, there, rfl⟩ := List.mem_map.mp mem
        exact h.known entry there
      · rw [List.length_map, ← counted, h.size]
    refine ⟨h.keyed, fun id pool found => ?_, fun name id leads => ?_⟩
    · exact (h.table pool.name id).mpr
        (h.named id pool found (all id (Table.mem_iff.mpr ⟨pool, found⟩)))
    have mem := (h.table name id).mp leads
    obtain ⟨pool, found⟩ := Table.mem_iff.mp (h.known _ mem)
    have mem' := h.named id pool found (List.mem_map.mpr ⟨_, mem, rfl⟩)
    have same := List.inj_on_of_nodup_map distinct mem' mem rfl
    exact ⟨pool, found, congrArg Prod.snd same⟩

end PoolTables

/-! ## Names and maps -/

variable {decoder after : Decoder}

/-- Two readers of one record: what the first one reads says what the second one reads. -/
theorem decodeVersion_other {α β : Type} {version : Nat} {body : Reader MapError α}
    {body' : Reader MapError β} {P : β → Prop} {a : α}
    (h : decodeVersion version body decoder = .ok (a, after))
    (other : ∀ payload rest, body payload = .ok (a, rest) →
      ∃ b rest', body' payload = .ok (b, rest') ∧ P b) :
    ∃ b, decodeVersion version body' decoder = .ok (b, after) ∧ P b := by
  rw [decodeVersion] at h
  obtain ⟨⟨actual, payload⟩, _, opened, h⟩ := step_eq_ok.mp h
  obtain ⟨_, _, finished, h⟩ := step_eq_ok.mp h
  obtain ⟨_, _, current, h⟩ := step_eq_ok.mp h
  obtain ⟨here, rest, read⟩ := inside_eq_ok.mp h
  obtain ⟨b, rest', read', holds⟩ := other payload rest read
  refine ⟨b, ?_, holds⟩
  rw [decodeVersion]
  exact step_eq_ok.mpr ⟨_, _, opened, step_eq_ok.mpr ⟨_, _, finished,
    step_eq_ok.mpr ⟨_, _, current, inside_eq_ok.mpr ⟨here, rest', read'⟩⟩⟩⟩

variable {limits : Limits}

theorem gives_decodeAfterNames_tables {header : Header} {tables : PoolTables} :
    Gives (decodeAfterNames limits header tables) (·.tables = tables) := by
  iterate 23 refine .skip fun _ => ?_
  exact .pure rfl

variable {pools : List (Int × Pool)}

/-- The pools that a record has been read with stand under their ids. -/
theorem entered_nil (distinct : Distinct pools) (keyed : ∀ entry ∈ pools, entry.2.id = entry.1) :
    PoolTables.Entered ⟨.ofList pools, ∅⟩ [] where
  once := List.nodup_nil
  known := nofun
  table name id := by simp
  size := by simp
  keyed id pool found := keyed (id, pool) ((Table.lookup_ofList distinct).mp found)
  named id pool found := nofun

variable {map : OsdMap}

/-- The pools and names of a map, as they stand in the client's part. -/
theorem decodeClient_names (h : decodeClient limits decoder = .ok (map, after)) :
    ∃ names rest, readPoolNames limits decoder = .ok (names, rest) ∧
      map.tables.Entered names ∧ map.nameToId.size = map.pools.size := by
  rw [decodeClient] at h
  obtain ⟨header, _, header_eq, h⟩ := step_eq_ok.mp h
  obtain ⟨pools, _, pools_eq, h⟩ := step_eq_ok.mp h
  obtain ⟨tables, _, tables_eq, h⟩ := step_eq_ok.mp h
  obtain ⟨result, _, result_eq, h⟩ := step_eq_ok.mp h
  obtain ⟨_, _, -, h⟩ := step_eq_ok.mp h
  cases h
  rw [decodePoolNames] at tables_eq
  obtain ⟨count, _, count_eq, entering⟩ := step_eq_ok.mp tables_eq
  obtain ⟨entered, _, loop, checking⟩ := step_eq_ok.mp entering
  obtain ⟨_, _, counted, checked⟩ := step_eq_ok.mp checking
  cases checked
  obtain ⟨names, read, run⟩ := turns_eq_ok loop
  obtain ⟨distinct, keyed⟩ := gives_decodePools _ _ _ pools_eq
  have known := (entered_nil distinct fun entry mem => (keyed entry mem).2).foldlM run
  have same : map.tables = tables := gives_decodeAfterNames_tables _ _ _ result_eq
  have listed : readPoolNames limits decoder = .ok (names, _) := step_eq_ok.mpr
    ⟨_, _, header_eq, step_eq_ok.mpr ⟨_, _, pools_eq, step_eq_ok.mpr ⟨_, _, count_eq, read⟩⟩⟩
  refine ⟨names, _, listed, same ▸ known, ?_⟩
  have equal := Gives.rejectIf _ _ _ counted
  rw [← same] at equal
  exact not_not.mp equal

theorem decodeWrapper_names (h : decodeWrapper limits decoder = .ok (map, after)) :
    ∃ names rest, decodeVersion 10 (readPoolNames limits) decoder = .ok (names, rest) ∧
      map.tables.Entered names ∧ map.nameToId.size = map.pools.size := by
  rw [decodeWrapper] at h
  obtain ⟨client, _, version, h⟩ := step_eq_ok.mp h
  obtain ⟨_, _, -, h⟩ := step_eq_ok.mp h
  obtain ⟨_, _, -, h⟩ := step_eq_ok.mp h
  obtain ⟨_, _, -, h⟩ := step_eq_ok.mp h
  cases h
  obtain ⟨names, found, known⟩ := decodeVersion_other version
    fun payload rest client => decodeClient_names client
  exact ⟨names, _, found, known⟩

/-- The names in the bytes of a map have been entered into its tables. -/
theorem decodeOsdmap_names {data : List UInt8} (h : decodeOsdmap data limits = .ok map) :
    ∃ names, poolNames data limits = .ok names ∧ map.tables.Entered names ∧
      map.nameToId.size = map.pools.size := by
  rw [decodeOsdmap] at h
  obtain ⟨_, -, h⟩ := bind_eq_ok.mp h
  obtain ⟨⟨result, rest⟩, whole, h⟩ := bind_eq_ok.mp h
  cases h
  rw [decodeWhole] at whole
  obtain ⟨wrapped, _, read, whole⟩ := step_eq_ok.mp whole
  obtain ⟨_, _, -, whole⟩ := step_eq_ok.mp whole
  obtain ⟨_, _, -, whole⟩ := step_eq_ok.mp whole
  obtain ⟨_, _, -, whole⟩ := step_eq_ok.mp whole
  obtain ⟨_, _, -, whole⟩ := step_eq_ok.mp whole
  obtain ⟨_, _, -, whole⟩ := step_eq_ok.mp whole
  cases whole
  obtain ⟨names, inner, known⟩ := decodeVersion_other read
    fun payload rest wrapper => decodeWrapper_names wrapper
  refine ⟨names, ?_, known⟩
  rw [poolNames, inner]
  rfl

/-! ## Decoded maps -/

/-- A pool without data. -/
def barePool (id : Int) (name : Text) : Pool :=
  { id, name, poolType := poolTypeReplicated, size := 3, minimumSize := 2, crushRule := 0
    objectHash := objectHashRjenkins, pgCount := 8, placementPgCount := 8, stripeWidth := 0
    flags := 1, snapshotSequence := 0, snapshots := ∅, erasureCodeProfile := []
    applicationMetadata := ∅, options := ∅ }

/-- A map without OSDs. -/
def bareMap (pools : List (Int × Pool)) (names : List (Text × Int)) (crc : Nat) : OsdMap :=
  { fsid := List.replicate 16 7, epoch := 1, created := {}, modified := {}, pools := .ofList pools
    nameToId := .ofList names, poolMax := 2, flags := 0, maxOsd := 0, osdState := []
    osdWeight := [], clientAddresses := [], pgTemp := ∅, primaryTemp := ∅, primaryAffinity := []
    crushData := [], erasureCodeProfiles := ∅, pgUpmap := ∅, pgUpmapItems := ∅, crushVersion := 0
    newRemovedSnapshots := ∅, newPurgedSnapshots := ∅, lastUpChange := {}, lastInChange := {}
    pgUpmapPrimaries := ∅, crc }

/-- Two pools and a list of names for them. -/
def bareData (names : List (Int × Text)) (crc : Nat) : List UInt8 :=
  encodeSample (encodeSampleClient [barePool 1 [], barePool 2 []] names 0 [] [] []) crc

theorem decode_bareData {listed : List (Int × Text)} {names : List (Text × Int)} {crc : Nat}
    (read : decodeVersion 8 (decodeWrapper sampleLimits) (.new (bareData listed crc) 4096) =
      .ok (bareMap pools names crc, ⟨bareData listed crc, (bareData listed crc).length, 4096, none⟩))
    (long : 10 ≤ (bareData listed crc).length)
    (checksum : crcNumeral ((bareData listed crc).take ((bareData listed crc).length - 4))
      crcSeed.toNat = crc) :
    decodeOsdmap (bareData listed crc) sampleLimits =
      .ok { bareMap pools names crc with crcVerified := true } :=
  decodeOsdmap_of_checksum rfl read long checksum

/-- The pools and the names of a decoded map are inverse to each other exactly if the list in
its bytes does not name a pool twice. -/
theorem decodeOsdmap_consistent_iff {data : List UInt8} {limits : Limits} {map : OsdMap}
    (h : decodeOsdmap data limits = .ok map) :
    map.tables.Consistent ↔
      ∃ names, poolNames data limits = .ok names ∧ (names.map Prod.fst).Nodup := by
  obtain ⟨names, listed, entered, counted⟩ := decodeOsdmap_names h
  rw [entered.consistent_iff counted]
  constructor
  · intro distinct
    exact ⟨names, listed, distinct⟩
  rintro ⟨others, listed', distinct⟩
  rw [listed] at listed'
  cases listed'
  exact distinct

theorem decodeOsdmap_consistent_iff_bare :
    ∃ data map, decodeOsdmap data sampleLimits = .ok map ∧ map.pools.size = 2 ∧
      map.tables.Consistent := by
  have decoded : decodeOsdmap (bareData [(1, [97]), (2, [98])] 2988944942) sampleLimits =
      .ok { bareMap [(1, barePool 1 [97]), (2, barePool 2 [98])] [([97], 1), ([98], 2)] 2988944942 with
        crcVerified := true } :=
    decode_bareData (by decide +kernel) (by decide +kernel) (by decide +kernel)
  refine ⟨_, _, decoded, by decide, (decodeOsdmap_consistent_iff decoded).mpr ?_⟩
  exact ⟨[(1, [97]), (2, [98])], by decide +kernel, by decide⟩

/-- Two names for the first pool and none for the second one: the first name leads to a pool that
has another one, and the second pool has no name. -/
theorem names_of_one_pool :
    ∃ data map, decodeOsdmap data sampleLimits = .ok map ∧ map.nameToId[([97] : Text)]? = some 1 ∧
      map.pools[(1 : Int)]?.map Pool.name = some [98] ∧
      map.pools[(2 : Int)]?.map Pool.name = some [] ∧ ¬ map.tables.Consistent := by
  have decoded : decodeOsdmap (bareData [(1, [97]), (1, [98])] 1926463349) sampleLimits =
      .ok { bareMap [(1, barePool 1 [98]), (2, barePool 2 [])] [([97], 1), ([98], 1)] 1926463349 with
        crcVerified := true } :=
    decode_bareData (by decide +kernel) (by decide +kernel) (by decide +kernel)
  refine ⟨_, _, decoded, by decide, by decide, by decide, fun consistent => ?_⟩
  obtain ⟨pool, found, name⟩ := consistent.carried [97] 1 (by decide)
  have second : (bareMap [(1, barePool 1 [98]), (2, barePool 2 [])] [([97], 1), ([98], 1)]
      1926463349).pools[(1 : Int)]? = some (barePool 1 [98]) := by decide
  cases second.symm.trans found
  cases name

end RadosRs.Maps
