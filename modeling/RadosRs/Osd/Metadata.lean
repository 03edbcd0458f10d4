import Mathlib.Data.List.Chain
import RadosRs.Wire.Format
import RadosRs.Wire.Writing

/-!
# The attributes of an object

The key-value map of an object is sent as a count and the entries, in the order
of their keys.  `encodeMap` sorts what it is given and refuses a key that occurs
twice, and `decodeMap` insists on the order.  So there is one encoding for each
map, whatever order its entries come in, and the decoder accepts no other.
-/

namespace RadosRs

open Bytes Fallible Fixed Wire Reader

structure Entry where
  key : List UInt8
  value : List UInt8
  deriving DecidableEq, Repr

/-- The order of byte strings. -/
def keyLt (left right : List UInt8) : Bool := left.lex right fun a b => a.toNat < b.toNat

/-- Two neighbours are the same. -/
def repeats (keys : List (List UInt8)) : Bool :=
  (keys.zip keys.tail).any fun (key, after) => key == after

def encodeMap (entries : List Entry) (maxBytes : Nat) : Except WireError (List UInt8) :=
  let entries := entries.mergeSort fun left right => !keyLt right.key left.key
  if entries.length > u32Max || repeats (entries.map Entry.key) then .error .malformed
  else
    (entries.foldl (fun encoder entry => (encoder.blob entry.key).blob entry.value)
      ((Encoder.new maxBytes).u32 entries.length)).finish

def encodeKeys (keys : List (List UInt8)) (maxBytes : Nat) : Except WireError (List UInt8) :=
  let keys := keys.mergeSort fun left right => !keyLt right left
  if keys.length > u32Max || repeats keys then .error .malformed
  else (keys.foldl Encoder.blob ((Encoder.new maxBytes).u32 keys.length)).finish

def encodeRange (first last : List UInt8) (maxBytes : Nat) : Except WireError (List UInt8) :=
  if !keyLt first last then .error .malformed
  else (((Encoder.new maxBytes).blob first).blob last).finish

def encodeCompare (key value : List UInt8) (comparison : Int) (maxBytes : Nat) :
    Except WireError (List UInt8) :=
  (((((Encoder.new maxBytes).u32 1).blob key).blob value).i32 comparison).finish

/-- Reads an entry, whose key has to come after the last one. -/
def decodeEntry (entries : List Entry) : Reader WireError (List Entry) := do
  let key ← blob
  let value ← blob
  finish
  rejectIf (entries.getLast?.any fun previous => !keyLt previous.key key) .malformed
  return entries ++ [⟨key, value⟩]

def decodeEntries (maxEntries : Nat) : Reader WireError (List Entry) := do
  let count ← u32
  finish
  let left ← remaining
  rejectIf (count > maxEntries ∨ count * 8 > left) .limitExceeded
  iterate decodeEntry count []

def decodeMap (data : List UInt8) (maxBytes maxEntries : Nat) : Run WireError (List Entry) :=
  whole (decodeEntries maxEntries) .malformed data maxBytes

/-! ## The order of keys -/

theorem keyLt_iff {a b : List UInt8} :
    keyLt a b = true ↔ List.Lex (fun x y : UInt8 => x.toNat < y.toNat) a b := by
  rw [keyLt, List.lex_eq_true_iff_lex]
  simp only [decide_eq_true_eq]

theorem keyLt_irrefl (key : List UInt8) : ¬ keyLt key key = true := by
  rw [keyLt_iff]
  exact List.lex_irrefl (fun b : UInt8 => Nat.lt_irrefl b.toNat) key

theorem keyLt_trans {a b c : List UInt8} (h : keyLt a b = true) (k : keyLt b c = true) :
    keyLt a c = true := by
  rw [keyLt_iff] at h k ⊢
  exact List.lex_trans Nat.lt_trans h k

theorem eq_of_not_keyLt {a b : List UInt8} (h : ¬ keyLt a b = true) (k : ¬ keyLt b a = true) :
    a = b := by
  have bytes : Std.Trichotomous fun x y : UInt8 => x.toNat < y.toNat :=
    ⟨fun x y h k => UInt8.toNat_inj.mp (Nat.le_antisymm (Nat.not_lt.mp k) (Nat.not_lt.mp h))⟩
  rw [keyLt_iff] at h k
  exact (List.Lex.trichotomous _).trichotomous a b h k

/-- The entries are in the order of their keys, and no key occurs twice. -/
def Ascending (entries : List Entry) : Prop :=
  entries.Pairwise fun left right => keyLt left.key right.key = true

instance : Trans (fun a b : Entry => keyLt a.key b.key = true)
    (fun b c : Entry => keyLt b.key c.key = true) fun a c : Entry => keyLt a.key c.key = true :=
  ⟨keyLt_trans⟩

variable {entries : List Entry}

theorem Ascending.nodup (h : Ascending entries) : (entries.map Entry.key).Nodup := by
  refine List.pairwise_map.mpr (h.imp fun {a b} lt same => ?_)
  rw [same] at lt
  exact keyLt_irrefl b.key lt

variable {entries' : List Entry}

/-- There is only one way to put entries in order. -/
theorem Ascending.eq_of_perm (h : Ascending entries) (h' : Ascending entries')
    (perm : entries.Perm entries') : entries = entries' :=
  perm.eq_of_pairwise (fun a _ _ _ lt gt => absurd (keyLt_trans lt gt) (keyLt_irrefl a.key)) h h'

theorem repeats_eq_false {keys : List (List UInt8)} :
    repeats keys = false ↔ keys.IsChain (· ≠ ·) := by
  induction keys with
  | nil => simp [repeats]
  | cons key keys ih =>
    cases keys with
    | nil => simp [repeats]
    | cons after keys =>
      rw [List.isChain_cons_cons, ← ih]
      simp [repeats]

/-- The entries as they are sent. -/
def sorted (entries : List Entry) : List Entry :=
  entries.mergeSort fun left right => !keyLt right.key left.key

theorem sorted_perm (entries : List Entry) : (sorted entries).Perm entries :=
  List.mergeSort_perm ..

theorem pairwise_sorted (entries : List Entry) :
    (sorted entries).Pairwise fun left right => ¬ keyLt right.key left.key = true := by
  refine (List.pairwise_mergeSort (fun a b c h k => ?_) (fun a b => ?_) entries).imp fun h => ?_
  · simp only [Bool.not_eq_true', ← Bool.not_eq_true] at h k ⊢
    intro lt
    by_cases before : keyLt b.key c.key = true
    · exact h (keyLt_trans before lt)
    · rw [eq_of_not_keyLt before k] at h
      exact h lt
  · by_cases before : keyLt b.key a.key = true
    · have after : ¬ keyLt a.key b.key = true := fun after =>
        keyLt_irrefl b.key (keyLt_trans before after)
      simp [after]
    · simp [before]
  · simpa using h

/-- Neighbours that differ are enough for sorted keys. -/
theorem repeats_sorted :
    repeats ((sorted entries).map Entry.key) = false ↔ Ascending (sorted entries) := by
  rw [repeats_eq_false, List.isChain_map]
  refine ⟨fun differ => List.IsChain.pairwise ?_, fun ascending => ?_⟩
  · have order := (pairwise_sorted entries).isChain
    rw [List.isChain_iff_forall_rel_of_append_cons_cons] at differ order ⊢
    intro a b front back parts
    by_contra before
    exact differ parts (eq_of_not_keyLt before (order parts))
  · exact (List.pairwise_map.mp ascending.nodup).isChain

theorem ascending_sorted : Ascending (sorted entries) ↔ (entries.map Entry.key).Nodup := by
  have perm : ((sorted entries).map Entry.key).Perm (entries.map Entry.key) :=
    (sorted_perm entries).map _
  refine ⟨fun h => perm.nodup_iff.mp h.nodup, fun differ => ?_⟩
  have differ := List.pairwise_map.mp (perm.nodup_iff.mpr differ)
  refine ((pairwise_sorted entries).and differ).imp fun {a b} h => ?_
  by_contra before
  exact h.2 (eq_of_not_keyLt before h.1)

/-! ## The format -/

def entryBytes (entry : Entry) : List UInt8 := blobBytes entry.key ++ blobBytes entry.value

/-- A count and the entries. -/
def mapBytes (entries : List Entry) : List UInt8 :=
  leBytes 4 entries.length ++ entries.flatMap entryBytes

/-- Keys and values are no longer than the bound. -/
def Short (bound : Nat) (entries : List Entry) : Prop :=
  ∀ entry ∈ entries, entry.key.length ≤ bound ∧ entry.value.length ≤ bound

theorem Short.mono {bound bound' : Nat} (le : bound ≤ bound') (h : Short bound entries) :
    Short bound' entries :=
  fun entry mem => ⟨(h entry mem).1.trans le, (h entry mem).2.trans le⟩

/-- The entries can be sent in a message of that size.  Counts and lengths have 32 bits. -/
structure Fits (limit : Nat) (entries : List Entry) : Prop where
  count : entries.length ≤ u32Max
  short : Short u32Max entries
  room : (mapBytes entries).length ≤ limit

variable {limit : Nat}

theorem Fits.perm (perm : entries.Perm entries') (h : Fits limit entries) :
    Fits limit entries' where
  count := perm.length_eq ▸ h.count
  short entry mem := h.short entry (perm.mem_iff.mpr mem)
  room := by
    have room := h.room
    rw [mapBytes, List.length_append, (perm.flatMap_right entryBytes).length_eq] at room
    rwa [mapBytes, List.length_append, length_leBytes]

/-- Each entry adds to the size. -/
theorem length_le_mapBytes (entries : List Entry) :
    4 + 8 * entries.length ≤ (mapBytes entries).length ∧
      Short (mapBytes entries).length entries := by
  induction entries with
  | nil => exact ⟨Nat.le_refl _, nofun⟩
  | cons entry entries ih =>
    have size : (mapBytes (entry :: entries)).length =
        8 + entry.key.length + entry.value.length + (mapBytes entries).length := by
      simp only [mapBytes, entryBytes, blobBytes, List.flatMap_cons, List.length_append,
        length_leBytes]
      omega
    rw [size]
    refine ⟨by rw [List.length_cons]; omega, List.forall_mem_cons.mpr ⟨⟨by omega, by omega⟩, ?_⟩⟩
    exact ih.2.mono (by omega)

/-- Below the limit of lengths it is the size alone that counts. -/
theorem fits_iff (small : limit ≤ u32Max) :
    Fits limit entries ↔ (mapBytes entries).length ≤ limit := by
  obtain ⟨count, short⟩ := length_le_mapBytes entries
  exact ⟨Fits.room, fun room =>
    ⟨by omega, short.mono (room.trans small), room⟩⟩

variable {bytes : List UInt8}

theorem encodeMap_eq_ok :
    encodeMap entries limit = .ok bytes ↔
      bytes = mapBytes (sorted entries) ∧ Ascending (sorted entries) ∧
        Fits limit (sorted entries) := by
  have each (entry : Entry) := (Encoder.Writes.ofBlob limit entry.key).comp (.ofBlob limit entry.value)
  have all := (Encoder.Writes.ofUint limit 4 (sorted entries).length).comp
    (.foldl each (sorted entries))
  unfold encodeMap
  change (if _ > u32Max || repeats ((sorted entries).map Entry.key) then _ else _) = _ ↔ _
  split_ifs with bad
  · simp only [false_iff]
    rintro ⟨-, ascending, fits⟩
    rw [repeats_sorted.mpr ascending, Bool.or_false, decide_eq_true_eq] at bad
    exact Nat.not_lt.mpr fits.count bad
  rw [Bool.not_eq_true, Bool.or_eq_false_iff, decide_eq_false_iff_not, repeats_sorted,
    Nat.not_lt] at bad
  refine all.finish_eq_ok.trans (and_congr_right fun _ => ?_)
  exact ⟨fun h => ⟨bad.2, bad.1, h.1.2, h.2⟩, fun h => ⟨⟨trivial, h.2.short⟩, h.2.room⟩⟩

theorem encodeMap_of_repeated (limit : Nat) (repeated : ¬ (entries.map Entry.key).Nodup) :
    encodeMap entries limit = .error .malformed := by
  rw [← ascending_sorted, ← repeats_sorted, Bool.not_eq_false, sorted] at repeated
  simp [encodeMap, repeated]

/-- What a turn reads. -/
def EntryFormat (maxBytes : Nat) (entries : List Entry) (bytes : List UInt8)
    (entries' : List Entry) : Prop :=
  ∃ entry, bytes = entryBytes entry ∧ entries' = entries ++ [entry] ∧
    Short maxBytes [entry] ∧ Short u32Max [entry] ∧
    ∀ previous ∈ entries.getLast?, keyLt previous.key entry.key = true

theorem reads_decodeEntry (maxBytes : Nat) (entries : List Entry) :
    Reads maxBytes (decodeEntry entries) (EntryFormat maxBytes entries) := by
  refine (Reads.blob.bind fun key => .bind .blob fun value => .finish (.rejectIf (.pure _))).congr
    fun bytes entries' => ?_
  simp only [Option.any_eq_true, Bool.not_eq_true', not_exists, not_and, Bool.not_eq_false]
  constructor
  · rintro ⟨key, _, _, rfl, ⟨rfl, short⟩, value, _, _, rfl, ⟨rfl, short'⟩, order, rfl, rfl⟩
    refine ⟨⟨key, value⟩, by rw [List.append_nil, entryBytes], rfl, ?_, ?_, order⟩
    · exact List.forall_mem_singleton.mpr ⟨short.1, short'.1⟩
    · exact List.forall_mem_singleton.mpr ⟨short.2, short'.2⟩
  rintro ⟨⟨key, value⟩, rfl, rfl, short, fits, order⟩
  obtain ⟨keyShort, valueShort⟩ := short _ (.head _)
  obtain ⟨keyFits, valueFits⟩ := fits _ (.head _)
  exact ⟨key, _, _, rfl, ⟨rfl, keyShort, keyFits⟩, value, _, [], (List.append_nil _).symm,
    ⟨rfl, valueShort, valueFits⟩, order, rfl, rfl⟩

theorem turns_entryFormat {maxBytes count : Nat} (ascending : Ascending entries) :
    Turns (EntryFormat maxBytes) count entries bytes entries' ↔
      ∃ more, more.length = count ∧ entries' = entries ++ more ∧ bytes = more.flatMap entryBytes ∧
        Short maxBytes more ∧ Short u32Max more ∧ Ascending entries' := by
  induction count generalizing entries bytes with
  | zero =>
    constructor
    · rintro ⟨rfl, rfl⟩
      exact ⟨[], rfl, (List.append_nil _).symm, rfl, nofun, nofun, ascending⟩
    rintro ⟨more, none, rfl, rfl, -⟩
    obtain rfl := List.length_eq_zero_iff.mp none
    exact ⟨rfl, List.append_nil _⟩
  | succ count ih =>
    constructor
    · rintro ⟨_, _, back, rfl, ⟨entry, rfl, rfl, short, fits, order⟩, later⟩
      have ascending : Ascending (entries ++ [entry]) := by
        refine List.isChain_iff_pairwise.mp (List.isChain_append.mpr ⟨ascending.isChain, by simp, ?_⟩)
        intro previous last _ same
        cases same
        exact order previous last
      obtain ⟨more, rfl, rfl, rfl, short', fits', ascending⟩ := (ih ascending).mp later
      rw [List.append_assoc] at ascending ⊢
      exact ⟨entry :: more, rfl, rfl, rfl, List.forall_mem_append.mpr ⟨short, short'⟩,
        List.forall_mem_append.mpr ⟨fits, fits'⟩, ascending⟩
    · rintro ⟨_ | ⟨entry, more⟩, length, rfl, rfl, short, fits, ascending⟩
      · cases length
      have all := ascending
      rw [← List.singleton_append, ← List.append_assoc] at all
      have parts := List.pairwise_append.mp ascending
      refine ⟨_, _, _, rfl, ⟨entry, rfl, rfl, ?_, ?_, fun previous last => ?_⟩,
        (ih (List.pairwise_append.mp all).1).mpr ⟨more, Nat.succ.inj length, ?_, rfl, ?_, ?_,
          ascending⟩⟩
      · exact List.forall_mem_singleton.mpr (short _ (.head _))
      · exact List.forall_mem_singleton.mpr (fits _ (.head _))
      · exact parts.2.2 previous (List.mem_of_mem_getLast? last) entry (.head _)
      · simp
      · exact fun entry mem => short entry (.tail _ mem)
      · exact fun entry mem => fits entry (.tail _ mem)

theorem decodeMap_eq_ok {data : List UInt8} {maxBytes maxEntries : Nat} :
    decodeMap data maxBytes maxEntries = .ok entries ↔
      data = mapBytes entries ∧ Ascending entries ∧ entries.length ≤ maxEntries ∧
        Short maxBytes entries ∧ Fits data.length entries := by
  have turns (count : Nat) := Reads.iterate (reads_decodeEntry maxBytes) count []
  have empty : Ascending [] := .nil
  have read : Reads maxBytes (decodeEntries maxEntries) fun bytes entries =>
      ∃ count front back, bytes = front ++ back ∧ (front = leBytes 4 count ∧ count < 256 ^ 4) ∧
        (count ≤ maxEntries ∧ Turns (EntryFormat maxBytes) count [] back entries) := by
    refine (Reads.uint 4).bind fun count => .finish (.remaining (fun left => .rejectIf (turns count))
      fun left bytes entries enough => ⟨fun h => ⟨by omega, h.2⟩, fun h => ⟨?_, h.2⟩⟩)
    obtain ⟨more, rfl, -, rfl, -⟩ := (turns_entryFormat empty).mp h.2
    have size := (length_le_mapBytes more).1
    rw [mapBytes, List.length_append, length_leBytes] at size
    omega
  rw [decodeMap, read.whole_eq_ok]
  constructor
  · rintro ⟨count, _, _, rfl, ⟨rfl, width⟩, few, later⟩
    obtain ⟨more, rfl, rfl, rfl, short, fits, ascending⟩ := (turns_entryFormat empty).mp later
    exact ⟨rfl, ascending, few, short, Nat.le_sub_one_of_lt width, fits, Nat.le_refl _⟩
  rintro ⟨rfl, ascending, few, short, fits⟩
  refine ⟨entries.length, _, _, rfl, ⟨rfl, ?_⟩, few, (turns_entryFormat empty).mpr
    ⟨entries, rfl, rfl, rfl, short, fits.short, ascending⟩⟩
  have count := fits.count
  unfold u32Max at count
  omega

/-- The encoding of a map is canonical. -/
theorem encodeMap_canonical :
    (∀ entries limit, (∃ bytes, encodeMap entries limit = .ok bytes) ↔
      (entries.map Entry.key).Nodup ∧ Fits limit entries) ∧
    (∀ entries limit, limit ≤ u32Max →
      (Fits limit entries ↔ (mapBytes entries).length ≤ limit)) ∧
    (∀ entries entries' limit, entries.Perm entries' →
      encodeMap entries limit = encodeMap entries' limit) ∧
    (∀ entries limit bytes maxBytes maxEntries, encodeMap entries limit = .ok bytes →
      entries.length ≤ maxEntries → Short maxBytes entries →
      ∃ entries', entries'.Perm entries ∧ Ascending entries' ∧
        decodeMap bytes maxBytes maxEntries = .ok entries') ∧
    ∀ data maxBytes maxEntries entries, decodeMap data maxBytes maxEntries = .ok entries →
      ∀ limit, data.length ≤ limit → encodeMap entries limit = .ok data := by
  refine ⟨fun entries limit => ?_, fun entries limit small => fits_iff small,
    fun entries entries' limit perm => ?_,
    fun entries limit bytes maxBytes maxEntries encoded few short => ?_,
    fun data maxBytes maxEntries entries decoded limit room => ?_⟩
  · simp only [encodeMap_eq_ok, exists_eq_left, ascending_sorted]
    exact and_congr_right fun _ => ⟨.perm (sorted_perm entries), .perm (sorted_perm entries).symm⟩
  · by_cases differ : (entries.map Entry.key).Nodup
    · have differ' := (perm.map Entry.key).nodup_iff.mp differ
      have same : sorted entries = sorted entries' :=
        (ascending_sorted.mpr differ).eq_of_perm (ascending_sorted.mpr differ')
          ((sorted_perm entries).trans (perm.trans (sorted_perm entries').symm))
      unfold sorted at same
      simp only [encodeMap, same]
    · rw [encodeMap_of_repeated limit differ,
        encodeMap_of_repeated limit (mt (perm.map Entry.key).nodup_iff.mpr differ)]
  · obtain ⟨rfl, ascending, fits⟩ := encodeMap_eq_ok.mp encoded
    have perm := sorted_perm entries
    exact ⟨_, perm, ascending, decodeMap_eq_ok.mpr ⟨rfl, ascending, perm.length_eq.trans_le few,
      fun entry mem => short entry (perm.mem_iff.mp mem), fits.count, fits.short, Nat.le_refl _⟩⟩
  · obtain ⟨rfl, ascending, few, short, fits⟩ := decodeMap_eq_ok.mp decoded
    have same : sorted entries = entries :=
      (ascending_sorted.mpr ascending.nodup).eq_of_perm ascending (sorted_perm entries)
    rw [encodeMap_eq_ok, same]
    exact ⟨rfl, ascending, fits.count, fits.short, room⟩

end RadosRs
