import RadosRs.Lib.Walk
import RadosRs.Maps.WellFormed

/-!
# Renaming pools in any order

The walk over the new names gives each pool its name if no other pool has that name
at that moment.  Each pool is renamed at most once, so the pools at the end are
always the same (`Renamed`).  Whether the walk comes to its end can depend on the
order: a name that one pool gives up and another one takes is free only after the
first one has been visited.

Three cases are told apart.  If no name is wanted that another pool has, every order
comes to its end (`Settled`).  If there are pools that wait for each other, or for a
pool that keeps its name, none does (`Deadlocked`).  Otherwise the walk succeeds in
some orders: as long as there is no deadlock, some pool can be visited next, and
there is none after the visit either.
-/

namespace RadosRs.Maps

open Fallible
open Keyed (distinct_cons)
open Std (ExtTreeMap)

namespace PoolTables

variable {start tables tables' : PoolTables} {names names' : List (Int × Text)}

/-! ## What a walk that comes to its end does -/

/-- The pools of a list have their new names, and the others are as they were. -/
structure Renamed (start tables : PoolTables) (names : List (Int × Text)) : Prop where
  renamed : ∀ entry ∈ names, ∃ pool, start.pools[entry.1]? = some pool ∧
    tables.pools[entry.1]? = some { pool with name := entry.2 }
  kept : ∀ id ∉ names.map Prod.fst, tables.pools[id]? = start.pools[id]?

variable {entry : Int × Text}

theorem rename_kept (h : start.rename entry = .ok tables) {id : Int} (other : entry.1 ≠ id) :
    tables.pools[id]? = start.pools[id]? := by
  obtain ⟨pool, -, -, rfl⟩ := rename_eq_ok.mp h
  rw [Table.lookup_insert, if_neg other]

theorem renamed_of_foldlM (distinct : Distinct names)
    (h : names.foldlM rename start = .ok tables) : Renamed start tables names := by
  induction names generalizing start with
  | nil =>
    cases h
    exact ⟨nofun, fun _ _ => rfl⟩
  | cons entry names ih =>
    rw [List.foldlM_cons] at h
    obtain ⟨between, first, rest⟩ := bind_eq_ok.mp h
    obtain ⟨others, distinct⟩ := distinct_cons.mp distinct
    have later := ih distinct rest
    have once : entry.1 ∉ names.map Prod.fst := by
      intro mem
      obtain ⟨other, there, same⟩ := List.mem_map.mp mem
      exact others other there same
    constructor
    case renamed =>
      intro visited mem
      cases mem with
      | head =>
        obtain ⟨pool, found, -, rfl⟩ := rename_eq_ok.mp first
        refine ⟨pool, found, ?_⟩
        rw [later.kept entry.1 once, Table.lookup_insert, if_pos rfl]
      | tail _ mem =>
        obtain ⟨pool, found, final⟩ := later.renamed visited mem
        exact ⟨pool, (rename_kept first (others visited mem).symm).symm.trans found, final⟩
    case kept =>
      intro id absent
      rw [List.map_cons, List.mem_cons, not_or] at absent
      rw [later.kept id absent.2, rename_kept first (Ne.symm absent.1)]

/-- All orders lead to the same pools. -/
theorem Renamed.pools_eq (h : Renamed start tables names) (h' : Renamed start tables' names')
    (perm : names.Perm names') : tables.pools = tables'.pools := by
  apply ExtTreeMap.ext_getElem?
  intro id
  by_cases mem : id ∈ names.map Prod.fst
  · obtain ⟨entry, there, rfl⟩ := List.mem_map.mp mem
    obtain ⟨pool, found, final⟩ := h.renamed entry there
    obtain ⟨pool', found', final'⟩ := h'.renamed entry (perm.mem_iff.mp there)
    cases found.symm.trans found'
    rw [final, final']
  · rw [h.kept id mem, h'.kept id fun mem' => mem ((perm.map Prod.fst).mem_iff.mpr mem')]

/-! ## Every order -/

/-- No name is wanted twice, and none that another pool has.  A renamed pool may have had the
empty name whatever the others want. -/
structure Settled (tables : PoolTables) (names : List (Int × Text)) : Prop where
  once : (names.map Prod.snd).Nodup
  free : ∀ entry ∈ names, ∀ holder, tables.nameToId[entry.2]? = some holder → holder = entry.1
  apart : ∀ entry ∈ names, entry.2 ≠ [] → ∀ other ∈ names, other.1 ≠ entry.1 →
    ∀ pool, tables.pools[other.1]? = some pool → pool.name ≠ entry.2

theorem Settled.perm (h : tables.Settled names) (perm : names.Perm names') :
    tables.Settled names' where
  once := (perm.map Prod.snd).nodup_iff.mp h.once
  free entry mem := h.free entry (perm.mem_iff.mpr mem)
  apart entry mem nonempty other there :=
    h.apart entry (perm.mem_iff.mpr mem) nonempty other (perm.mem_iff.mpr there)

theorem Settled.rename (h : start.Settled (entry :: names)) (distinct : Distinct (entry :: names))
    (step : start.rename entry = .ok tables) : tables.Settled names := by
  obtain ⟨others, -⟩ := distinct_cons.mp distinct
  obtain ⟨pool, found, -, same⟩ := rename_eq_ok.mp step
  obtain ⟨fresh, once⟩ := List.nodup_cons.mp h.once
  constructor
  case once => exact once
  case free =>
    intro wanting mem holder leads
    refine h.free wanting (.tail _ mem) holder ?_
    have differs : entry.2 ≠ wanting.2 := fun same =>
      fresh (List.mem_map.mpr ⟨wanting, mem, same.symm⟩)
    rw [same, Table.lookup_insert, if_neg differs, Table.lookup_erase] at leads
    split at leads
    · cases leads
    · exact leads
  case apart =>
    intro wanting mem nonempty other there differs pool found
    rw [rename_kept step (others other there).symm] at found
    exact h.apart wanting (.tail _ mem) nonempty other (.tail _ there) differs pool found

/-- Every order comes to its end. -/
theorem Settled.exists_foldlM (h : start.Settled names) (distinct : Distinct names)
    (known : ∀ entry ∈ names, entry.1 ∈ start.pools) :
    ∃ tables, names.foldlM PoolTables.rename start = .ok tables := by
  induction names generalizing start with
  | nil => exact ⟨start, rfl⟩
  | cons entry names ih =>
    obtain ⟨pool, found⟩ := Table.mem_iff.mp (known entry (.head _))
    have step := rename_eq_ok.mpr ⟨pool, found, h.free entry (.head _), rfl⟩
    obtain ⟨others, distinct'⟩ := distinct_cons.mp distinct
    obtain ⟨tables, rest⟩ := ih (h.rename distinct step) distinct' fun other mem => by
      rw [Table.mem_iff, rename_kept step (others other mem).symm]
      exact Table.mem_iff.mp (known other (.tail _ mem))
    exact ⟨tables, by rw [List.foldlM_cons]; exact bind_eq_ok.mpr ⟨_, step, rest⟩⟩

/-- A renamed pool has had a name. -/
def GivenUp (start : PoolTables) (names : List (Int × Text)) (name : Text) : Prop :=
  ∃ entry ∈ names, ∃ pool, start.pools[entry.1]? = some pool ∧ pool.name = name

/-- Where the names lead after the walk.  Nothing is said about the empty name if some pool has
been given it. -/
structure Relabelled (start tables : PoolTables) (names : List (Int × Text)) : Prop where
  taken : ∀ entry ∈ names, entry.2 ≠ [] → tables.nameToId[entry.2]? = some entry.1
  gone : ∀ name ∉ names.map Prod.snd, start.GivenUp names name → tables.nameToId[name]? = none
  kept : ∀ name ∉ names.map Prod.snd, ¬ start.GivenUp names name →
    tables.nameToId[name]? = start.nameToId[name]?

theorem givenUp_cons {pool : Pool} {name : Text} (distinct : Distinct (entry :: names))
    (found : start.pools[entry.1]? = some pool) (step : start.rename entry = .ok tables) :
    start.GivenUp (entry :: names) name ↔ pool.name = name ∨ tables.GivenUp names name := by
  obtain ⟨others, -⟩ := distinct_cons.mp distinct
  constructor
  · rintro ⟨other, mem, pool', found', named⟩
    cases mem with
    | head =>
      cases found.symm.trans found'
      exact .inl named
    | tail _ mem =>
      rw [← rename_kept step (others other mem).symm] at found'
      exact .inr ⟨other, mem, pool', found', named⟩
  · rintro (named | ⟨other, mem, pool', found', named⟩)
    · exact ⟨entry, .head _, pool, found, named⟩
    · rw [rename_kept step (others other mem).symm] at found'
      exact ⟨other, .tail _ mem, pool', found', named⟩

theorem Settled.relabelled (h : start.Settled names) (distinct : Distinct names)
    (run : names.foldlM PoolTables.rename start = .ok tables) : Relabelled start tables names := by
  induction names generalizing start with
  | nil =>
    cases run
    exact ⟨nofun, fun _ _ ⟨_, mem, _⟩ => absurd mem List.not_mem_nil, fun _ _ _ => rfl⟩
  | cons entry names ih =>
    rw [List.foldlM_cons] at run
    obtain ⟨between, first, rest⟩ := bind_eq_ok.mp run
    have later := ih (h.rename distinct first) (distinct_cons.mp distinct).2 rest
    obtain ⟨pool, found, -, same⟩ := rename_eq_ok.mp first
    have lookup (name : Text) : between.nameToId[name]? =
        if entry.2 = name then some entry.1
        else if pool.name = name then none else start.nameToId[name]? := by
      rw [same, Table.lookup_insert, Table.lookup_erase]
    obtain ⟨fresh, -⟩ := List.nodup_cons.mp h.once
    constructor
    case taken =>
      intro wanting mem nonempty
      cases mem with
      | head =>
        rw [later.kept entry.2 fresh, lookup, if_pos rfl]
        rintro ⟨other, there, pool', found', named⟩
        obtain ⟨others, -⟩ := distinct_cons.mp distinct
        rw [rename_kept first (others other there).symm] at found'
        exact h.apart entry (.head _) nonempty other (.tail _ there) (others other there) pool'
          found' named
      | tail _ mem => exact later.taken wanting mem nonempty
    case gone =>
      intro name absent given
      rw [List.map_cons, List.mem_cons, not_or] at absent
      by_cases later' : between.GivenUp names name
      · exact later.gone name absent.2 later'
      · have named := ((givenUp_cons distinct found first).mp given).resolve_right later'
        rw [later.kept name absent.2 later', lookup, if_neg (Ne.symm absent.1), if_pos named]
    case kept =>
      intro name absent given
      rw [List.map_cons, List.mem_cons, not_or] at absent
      obtain ⟨named, later'⟩ := not_or.mp ((givenUp_cons distinct found first).not.mp given)
      rw [later.kept name absent.2 later', lookup, if_neg (Ne.symm absent.1), if_neg named]

/-- All orders lead to the same names, but for the empty one. -/
theorem Relabelled.lookup_eq (h : Relabelled start tables names)
    (h' : Relabelled start tables' names') (perm : names.Perm names') {name : Text}
    (nonempty : name ≠ [] ∨ name ∉ names.map Prod.snd) :
    tables.nameToId[name]? = tables'.nameToId[name]? := by
  by_cases mem : name ∈ names.map Prod.snd
  · have nonempty := nonempty.resolve_right (not_not.mpr mem)
    obtain ⟨entry, there, rfl⟩ := List.mem_map.mp mem
    rw [h.taken entry there nonempty, h'.taken entry (perm.mem_iff.mp there) nonempty]
  have absent : name ∉ names'.map Prod.snd :=
    fun mem' => mem ((perm.map Prod.snd).mem_iff.mpr mem')
  have same : start.GivenUp names' name ↔ start.GivenUp names name :=
    exists_congr fun entry => and_congr_left fun _ => perm.mem_iff.symm
  by_cases given : start.GivenUp names name
  · rw [h.gone name mem given, h'.gone name absent (same.mpr given)]
  · rw [h.kept name mem given, h'.kept name absent (same.not.mpr given)]

/-! ## No order -/

/-- Some pools want names of pools that are among them or keep their names. -/
def Deadlocked (tables : PoolTables) (names : List (Int × Text)) : Prop :=
  ∃ blocked, blocked ≠ [] ∧ blocked ⊆ names ∧ ∀ entry ∈ blocked, ∃ holder,
    tables.nameToId[entry.2]? = some holder ∧ holder ≠ entry.1 ∧
      (holder ∈ names.map Prod.fst → holder ∈ blocked.map Prod.fst)

theorem Deadlocked.perm (h : tables.Deadlocked names) (perm : names.Perm names') :
    tables.Deadlocked names' := by
  obtain ⟨blocked, present, inside, waits⟩ := h
  refine ⟨blocked, present, fun entry mem => perm.mem_iff.mp (inside mem), fun entry mem => ?_⟩
  obtain ⟨holder, leads, other, within⟩ := waits entry mem
  exact ⟨holder, leads, other, fun visited => within ((perm.map Prod.fst).mem_iff.mpr visited)⟩

/-- Two pools want the same name. -/
def Contested (names : List (Int × Text)) : Prop :=
  ∃ entry ∈ names, ∃ other ∈ names, entry.1 ≠ other.1 ∧ entry.2 = other.2 ∧ entry.2 ≠ []

theorem Contested.perm (h : Contested names) (perm : names.Perm names') : Contested names' := by
  obtain ⟨entry, mem, other, there, differ⟩ := h
  exact ⟨entry, perm.mem_iff.mp mem, other, perm.mem_iff.mp there, differ⟩

theorem Partial.foldlM (h : start.Partial) (run : names.foldlM PoolTables.rename start = .ok tables) :
    tables.Partial :=
  foldlM_rule Partial (fun _ _ _ _ ok step => ok.rename step) h run

theorem Contested.not_ok (h : Contested names) (consistent : start.Partial)
    (distinct : Distinct names) : names.foldlM rename start ≠ .ok tables := by
  intro run
  obtain ⟨entry, mem, other, there, differ, same, nonempty⟩ := h
  have renamed := renamed_of_foldlM distinct run
  obtain ⟨pool, -, final⟩ := renamed.renamed entry mem
  obtain ⟨pool', -, final'⟩ := renamed.renamed other there
  exact differ ((consistent.foldlM run).same final final' same nonempty)

/-- The blocked pools stay blocked: the first of them to be visited is refused. -/
theorem Deadlocked.not_ok (h : start.Deadlocked names) (consistent : start.Partial)
    (distinct : Distinct names) (nonempty : start.nameToId[([] : Text)]? = none) :
    names.foldlM rename start ≠ .ok tables := by
  obtain ⟨blocked, present, inside, waits⟩ := h
  have wants : ∀ entry ∈ blocked, entry.2 ≠ [] := by
    intro entry mem empty
    obtain ⟨holder, leads, -⟩ := waits entry mem
    rw [empty, nonempty] at leads
    cases leads
  clear nonempty
  induction names generalizing start with
  | nil => exact absurd (List.subset_nil.mp inside) present
  | cons first names ih =>
    intro run
    rw [List.foldlM_cons] at run
    obtain ⟨between, step, rest⟩ := bind_eq_ok.mp run
    obtain ⟨others, distinct'⟩ := distinct_cons.mp distinct
    obtain ⟨pool, found, free, after⟩ := rename_eq_ok.mp step
    by_cases mem : first ∈ blocked
    · obtain ⟨holder, leads, other, -⟩ := waits first mem
      exact other (free holder leads)
    -- a holder that is visited would be among the blocked
    have stays (entry : Int × Text) (there : entry ∈ blocked) (holder : Int)
        (within : holder ∈ (first :: names).map Prod.fst → holder ∈ blocked.map Prod.fst) :
        holder ≠ first.1 := by
      rintro rfl
      obtain ⟨other, there, same⟩ := List.mem_map.mp (within (.head _))
      exact mem (distinct.eq_of_key (inside there) (.head _) same ▸ there)
    refine ih (consistent.rename step) distinct' ?_ ?_ rest
    · intro entry there
      refine (List.mem_cons.mp (inside there)).resolve_left ?_
      rintro rfl
      exact mem there
    intro entry there
    obtain ⟨holder, leads, other, within⟩ := waits entry there
    have differs := stays entry there holder within
    refine ⟨holder, ?_, other, fun visited => within (.tail _ visited)⟩
    rw [after, Table.lookup_insert, if_neg, Table.lookup_erase, if_neg, leads]
    · rintro given
      obtain ⟨pool', found', named⟩ := consistent.carried entry.2 holder leads
      exact differs (consistent.same found' found (named.trans given.symm)
        (named ▸ wants entry there))
    · rintro taken
      exact differs (free holder (taken ▸ leads))

/-! ## Some order -/

/-- Without a deadlock there is a pool that can be visited. -/
theorem exists_free (present : names ≠ []) (h : ¬ tables.Deadlocked names) :
    ∃ entry ∈ names, ∀ holder, tables.nameToId[entry.2]? = some holder → holder = entry.1 := by
  by_contra taken
  push Not at taken
  refine h ⟨names, present, List.Subset.refl names, fun entry mem => ?_⟩
  obtain ⟨holder, leads, other⟩ := taken entry mem
  exact ⟨holder, leads, other, id⟩

/-- The visit of a pool does not lead to a deadlock. -/
theorem not_deadlocked_of_rename (consistent : start.Partial)
    (once : ((entry :: names).map Prod.snd).Nodup) (h : ¬ start.Deadlocked (entry :: names))
    (step : start.rename entry = .ok tables) : ¬ tables.Deadlocked names := by
  rintro ⟨blocked, present, inside, waits⟩
  obtain ⟨pool, found, -, after⟩ := rename_eq_ok.mp step
  refine h ⟨blocked, present, fun other mem => .tail _ (inside mem), fun other mem => ?_⟩
  obtain ⟨holder, leads, differs, within⟩ := waits other mem
  have fresh : entry.2 ≠ other.2 := fun same =>
    (List.nodup_cons.mp once).1 (List.mem_map.mpr ⟨other, inside mem, same.symm⟩)
  rw [after, Table.lookup_insert, if_neg fresh, Table.lookup_erase] at leads
  split at leads
  · cases leads
  rename_i kept
  refine ⟨holder, leads, differs, fun visited => ?_⟩
  rcases List.mem_cons.mp visited with rfl | visited
  · obtain ⟨pool', found', named⟩ := consistent.carried other.2 entry.1 leads
    cases found.symm.trans found'
    exact absurd named kept
  · exact within visited

theorem exists_order (consistent : start.Partial) (distinct : Distinct names)
    (once : (names.map Prod.snd).Nodup) (known : ∀ entry ∈ names, entry.1 ∈ start.pools)
    (h : ¬ start.Deadlocked names) :
    ∃ names' tables, names.Perm names' ∧ names'.foldlM rename start = .ok tables := by
  induction length : names.length generalizing start names with
  | zero =>
    cases List.length_eq_zero_iff.mp length
    exact ⟨[], start, .refl _, rfl⟩
  | succ n ih =>
    obtain ⟨entry, mem, free⟩ := exists_free (List.ne_nil_of_length_eq_add_one length) h
    obtain ⟨pool, found⟩ := Table.mem_iff.mp (known entry mem)
    have step := rename_eq_ok.mpr ⟨pool, found, free, rfl⟩
    have perm : names.Perm (entry :: names.erase entry) := List.perm_cons_erase mem
    have distinct := distinct.perm perm
    have once := (perm.map Prod.snd).nodup_iff.mp once
    have h : ¬ start.Deadlocked (entry :: names.erase entry) := fun deadlock =>
      h (deadlock.perm perm.symm)
    obtain ⟨others, rest⟩ := distinct_cons.mp distinct
    obtain ⟨names', tables, perm', run⟩ := ih (consistent.rename step) rest
      (List.nodup_cons.mp once).2 (fun other there => by
        rw [Table.mem_iff, rename_kept step (others other there).symm]
        exact Table.mem_iff.mp (known other (List.mem_of_mem_erase there)))
      (not_deadlocked_of_rename consistent once h step)
      (by rw [List.length_erase_of_mem mem, length, Nat.add_sub_cancel])
    refine ⟨entry :: names', tables, perm.trans (perm'.cons entry), ?_⟩
    rw [List.foldlM_cons]
    exact bind_eq_ok.mpr ⟨_, step, run⟩

end PoolTables

end RadosRs.Maps
