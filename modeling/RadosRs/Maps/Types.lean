import Mathlib.Data.List.Nodup
import RadosRs.Wire.Reader

/-!
# What the cluster maps share

Errors, limits and the small records that the maps of a cluster are made of,
after `src/maps/mod.rs`.

The source keeps its tables in hash maps.  A table that is only looked up and
updated is a map that is equal to another one with the same entries, whichever
order they came in.  Where a function walks over a table, the order of the walk is
left open by the source, and the table is the list of its entries in the order in
which the walk finds them, no key twice.

Names are texts.  What the sender wrote need not be UTF-8, and the source reads
it with a function of the standard library that replaces what is not.  This
function is the parameter `text` of the limits, and a text is kept as its bytes.
-/

namespace RadosRs.Maps

open Wire Wire.Reader Fallible

inductive MapError where
  | wire (error : WireError)
  | malformed (reason : String)
  | unsupportedPlacement (reason : String)
  | invalidSequence
  | fsidMismatch
  | lockPoisoned
  deriving DecidableEq, Repr

instance : OfWire MapError := ⟨.wire⟩

/-- Bounds on maps and messages, and how bytes are read as a text. -/
structure Limits where
  maxBytes : Nat := 0
  maxMonitors : Nat := 0
  maxAddresses : Nat := 0
  maxLocations : Nat := 0
  maxPools : Nat := 0
  maxOsds : Nat := 0
  maxPgMappings : Nat := 0
  maxCollectionEntries : Nat := 0
  text : List UInt8 → List UInt8

abbrev Fsid := List UInt8

abbrev Text := List UInt8

instance : LawfulBEq Text := inferInstance

structure UTime where
  seconds : Nat := 0
  nanoseconds : Nat := 0
  deriving DecidableEq, Repr

/-- A placement group. -/
structure Pg where
  pool : Nat
  seed : Nat
  preferred : Int
  deriving DecidableEq, Repr

namespace Pg

def cmp : Pg → Pg → Ordering :=
  compareLex (compareOn pool) (compareLex (compareOn seed) (compareOn preferred))

instance : Ord Pg := ⟨cmp⟩

instance : Std.TransOrd Pg :=
  inferInstanceAs (Std.TransCmp
    (compareLex (compareOn pool) (compareLex (compareOn seed) (compareOn preferred))))

instance : Std.LawfulEqOrd Pg where
  compare_self := Std.ReflCmp.compare_self
  eq_of_compare := by
    intro a b same
    have same : cmp a b = .eq := same
    simp only [cmp, compareLex, Ordering.then_eq_eq, compareOn,
      Std.LawfulEqCmp.compare_eq_iff_eq] at same
    obtain ⟨pool, seed, preferred⟩ := same
    cases a
    cases b
    simp_all

end Pg

/-! ## Reading them -/

def decodeUtime : Reader MapError UTime := do
  let seconds ← u32
  let nanoseconds ← u32
  return { seconds, nanoseconds }

def decodeFsid : Reader MapError Fsid := do
  let fsid ← raw 16
  rejectIf (fsid.length ≠ 16) (.wire .malformed)
  return fsid

def decodeText (limits : Limits) : Reader MapError Text := do
  return limits.text (← blob)

def decodeStrings (limits : Limits) (maximum : Nat) : Reader MapError (List Text) := do
  let count ← boundedCount maximum 4
  let values ← times count (decodeText limits)
  finish
  return values

def decodeU32s (maximum : Nat) : Reader MapError (List Nat) := do
  let count ← boundedCount maximum 4
  let values ← times count u32
  finish
  return values

section Tables

variable {κ ν : Type} [DecidableEq κ]

/-- An entry under a key that has to be new. -/
def appendNew (reason : String) (entries : List (κ × ν)) (entry : κ × ν) :
    Reader MapError (List (κ × ν)) := do
  rejectIf (entry.1 ∈ entries.map Prod.fst) (.malformed reason)
  return entries ++ [entry]

/-- A hash table of a number of entries, each under a new key. -/
def decodeEntries (reason : String) (count : Nat) (entry : Reader MapError (κ × ν)) :
    Reader MapError (List (κ × ν)) :=
  (List.range count).foldlM (fun entries _ => do appendNew reason entries (← entry)) []

theorem gives_decodeEntries {reason : String} {count : Nat} {entry : Reader MapError (κ × ν)}
    {P : κ × ν → Prop} (each : Gives entry P) :
    Gives (decodeEntries reason count entry) fun entries =>
      (entries.map Prod.fst).Nodup ∧ ∀ e ∈ entries, P e := by
  refine .foldlM (fun entries known _ _ => ?_) ⟨List.nodup_nil, nofun⟩
  refine .bind each fun e ok => .bind .rejectIf fun _ new => .pure ⟨?_, ?_⟩
  · rw [List.map_append, List.map_singleton, ← List.concat_eq_append]
    exact known.1.concat new
  intro other mem
  rcases List.mem_append.mp mem with before | last
  · exact known.2 other before
  · exact List.mem_singleton.mp last ▸ ok

end Tables

end RadosRs.Maps
