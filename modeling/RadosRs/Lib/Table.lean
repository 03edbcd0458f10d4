import Mathlib.Data.List.Nodup
import Mathlib.Data.List.Perm.Subperm

/-!
# Tables

Maps that are equal when they have the same entries.  A lookup after an update is
stated with an equation between keys, and two tables are shown equal by their
lookups.  `put` is an update that can be a deletion; updates of different keys can
be made in either order.
-/

namespace Table

open Std (ExtTreeMap)

variable {κ ν : Type} [Ord κ] [Std.TransOrd κ] [Std.LawfulEqOrd κ] [DecidableEq κ]
  {table : ExtTreeMap κ ν}

theorem lookup_insert (table : ExtTreeMap κ ν) (k a : κ) (v : ν) :
    (table.insert k v)[a]? = if k = a then some v else table[a]? := by
  simp only [ExtTreeMap.getElem?_insert, Std.LawfulEqCmp.compare_eq_iff_eq]

theorem lookup_erase (table : ExtTreeMap κ ν) (k a : κ) :
    (table.erase k)[a]? = if k = a then none else table[a]? := by
  simp only [ExtTreeMap.getElem?_erase, Std.LawfulEqCmp.compare_eq_iff_eq]

variable {k : κ}

omit [Std.LawfulEqOrd κ] [DecidableEq κ] in
theorem mem_iff : k ∈ table ↔ ∃ v, table[k]? = some v := by
  rw [ExtTreeMap.mem_iff_isSome_getElem?, Option.isSome_iff_exists]

omit [Std.LawfulEqOrd κ] [DecidableEq κ] in
theorem size_insert_fresh {v : ν} (fresh : k ∉ table) :
    (table.insert k v).size = table.size + 1 := by
  rw [ExtTreeMap.size_insert, if_neg (by rwa [ExtTreeMap.contains_iff_mem])]

/-- The table of a list without a repeated key has the entries of the list. -/
theorem lookup_ofList {entries : List (κ × ν)} (distinct : (entries.map Prod.fst).Nodup) {v : ν} :
    (ExtTreeMap.ofList entries)[k]? = some v ↔ (k, v) ∈ entries := by
  have apart : entries.Pairwise fun a b => ¬ compare a.1 b.1 = .eq :=
    (List.pairwise_map.mp distinct).imp fun other same =>
      other (Std.LawfulEqCmp.compare_eq_iff_eq.mp same)
  constructor
  · intro found
    have mem : k ∈ entries.map Prod.fst := by
      by_contra absent
      rw [ExtTreeMap.getElem?_ofList_of_contains_eq_false (by simpa using absent)] at found
      cases found
    obtain ⟨⟨k, w⟩, there, rfl⟩ := List.mem_map.mp mem
    rw [ExtTreeMap.getElem?_ofList_of_mem Std.ReflCmp.compare_self apart there] at found
    cases found
    exact there
  · intro mem
    exact ExtTreeMap.getElem?_ofList_of_mem Std.ReflCmp.compare_self apart mem

/-- Sets or deletes the value of a key. -/
def put (table : ExtTreeMap κ ν) (k : κ) : Option ν → ExtTreeMap κ ν
  | some v => table.insert k v
  | none => table.erase k

theorem lookup_put (table : ExtTreeMap κ ν) (k a : κ) (value : Option ν) :
    (put table k value)[a]? = if k = a then value else table[a]? := by
  cases value with
  | none => exact lookup_erase table k a
  | some v => exact lookup_insert table k a v

/-- Updates of different keys can be made in either order. -/
theorem put_comm (table : ExtTreeMap κ ν) {k' : κ} (other : k ≠ k') (value value' : Option ν) :
    put (put table k value) k' value' = put (put table k' value') k value := by
  apply ExtTreeMap.ext_getElem?
  intro a
  simp only [lookup_put]
  split_ifs with here there
  · exact absurd (there.trans here.symm) other
  · rfl
  · rfl
  · rfl

omit [DecidableEq κ] in
/-- A list of keys without repetition that has as many members as the table, all of them keys of
the table, has all keys of the table. -/
theorem mem_of_length {keys : List κ} (distinct : keys.Nodup) (inside : ∀ k ∈ keys, k ∈ table)
    (length : keys.length = table.size) (mem : k ∈ table) : k ∈ keys := by
  have sub : keys.Subperm table.keys :=
    List.subperm_of_subset distinct fun k here => ExtTreeMap.mem_keys.mpr (inside k here)
  have perm : keys.Perm table.keys :=
    sub.perm_of_length_le (by rw [ExtTreeMap.length_keys]; omega)
  exact perm.mem_iff.mpr (ExtTreeMap.mem_keys.mpr mem)

end Table
