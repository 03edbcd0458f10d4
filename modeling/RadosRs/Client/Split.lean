import Mathlib.Data.List.Chain
import RadosRs.Client.Cursor

/-!
# Splitting an interval of cursors

`splitCursor` cuts at hashes only, and always at the first place with a hash.
There are `partitions + 1` cursors, the first and the last are those it was
given, and the ones between are in order (`reversed_mono`).  What can go wrong is
at the two ends.

* The first cut can fall on the hash of the beginning, if there are more
  partitions than hashes.  It stands before the beginning then, unless the
  beginning is itself the first place with its hash.
* If the end is the place before all pools, every cut stands after it.

`splitCursor_covers_iff` says that these are the only cases.
-/

namespace RadosRs.Client

open Fixed Fallible Osd
open Msgr (okOr)

/-- One cursor is not after another. -/
def CursorLe (left right : ObjectCursor) : Prop :=
  ∃ ordering, compareObjectCursors left right = .ok ordering ∧ ordering ≠ .gt

/-- The cursors of a split: as many as there have to be, from the beginning to the end, and
each one not after the next. -/
structure Covers (beginning ending : ObjectCursor) (partitions : Nat)
    (cursors : List ObjectCursor) : Prop where
  length : cursors.length = partitions + 1
  first : cursors.head? = some beginning
  last : cursors.getLast? = some ending
  ordered : cursors.IsChain CursorLe

/-- When the cuts between two places fall between them. -/
def Divisible (poolId : Int64) (start finish : HObject) (partitions : Nat) : Prop :=
  start.max = true ∨ partitions = 1 ∨
    ((compareHobject start (lowest poolId start.hash) ≠ .gt
        ∨ partitions ≤ Pool.reversedHash finish - (reverseBits start.hash).toNat)
      ∧ (finish.max = true ∨ compareHobject (lowest poolId finish.hash) finish ≠ .gt))

/-! ## Places by reversed hash -/

theorem reverseBits_reverseBits (hash : UInt32) : reverseBits (reverseBits hash) = hash := by
  simp only [reverseBits, BitVec.reverse_reverse_eq]

/-- The first place in a pool with a reversed hash. -/
def cut (poolId : Int64) (reversed : Nat) : HObject :=
  lowest poolId (reverseBits (.ofNat reversed))

theorem cut_toNat (poolId : Int64) (hash : UInt32) :
    cut poolId (reverseBits hash).toNat = lowest poolId hash := by
  rw [cut, UInt32.ofNat_toNat, reverseBits_reverseBits]

theorem position_cut (poolId : Int64) {reversed : Nat} (fits : reversed < 2 ^ 32) :
    position (cut poolId reversed)
      = ↑(toLex (poolId.toInt, toLex (reversed, toLex (([] : List ℕ), toLex (([] : List ℕ),
          toLex (([] : List ℕ), noSnap.toNat)))))) := by
  have value : (reverseBits (reverseBits (.ofNat reversed))).toNat = reversed := by
    rw [reverseBits_reverseBits, UInt32.toNat_ofNat']
    exact Nat.mod_eq_of_lt fits
  simp [position, cut, lowest, value, effectiveKey, numbers]

theorem position_cut_le (poolId : Int64) {r r' : Nat} (fits : r' < 2 ^ 32) (le : r ≤ r') :
    position (cut poolId r) ≤ position (cut poolId r') := by
  rw [position_cut poolId fits, position_cut poolId (by omega), WithTop.coe_le_coe]
  exact Prod.Lex.toLex_mono ⟨le_rfl, Prod.Lex.toLex_mono ⟨le, le_rfl⟩⟩

variable {poolId : Int64} {object : HObject}

/-- A place of the pool is not before the first one with its hash. -/
theorem position_lowest_le (max : object.max = false) (pool : object.pool = poolId)
    (snapshot : object.snapshot = noSnap) :
    position (lowest poolId object.hash) ≤ position object := by
  subst pool
  simp only [position, max, lowest, snapshot, effectiveKey, numbers, Bool.false_eq_true, if_false,
    List.isEmpty_nil, if_true, List.map_nil, WithTop.coe_le_coe]
  have empty : ∀ names : List ℕ, Preorder.toLE.le [] names :=
    fun names => not_lt.mp (List.not_lt_nil names)
  refine Prod.Lex.toLex_mono ⟨le_rfl, Prod.Lex.toLex_mono ⟨le_rfl, ?_⟩⟩
  exact Prod.Lex.toLex_mono ⟨empty _, Prod.Lex.toLex_mono ⟨empty _,
    Prod.Lex.toLex_mono ⟨empty _, le_rfl⟩⟩⟩

/-- A place with a smaller reversed hash, in the pool or before it, is before a cut. -/
theorem position_lt_cut {r : Nat} (fits : r < 2 ^ 32) (max : object.max = false)
    (pool : object.pool.toInt ≤ poolId.toInt) (hash : (reverseBits object.hash).toNat < r) :
    position object < position (cut poolId r) := by
  rw [position_cut poolId fits, position, if_neg (by rw [max]; decide), WithTop.coe_lt_coe,
    Prod.Lex.toLex_lt_toLex]
  rcases pool.lt_or_eq with lt | eq
  · exact .inl lt
  · exact .inr ⟨eq, Prod.Lex.toLex_lt_toLex.mpr (.inl hash)⟩

theorem Holdable.pool_le (h : Holdable poolId object) : object.pool.toInt ≤ poolId.toInt := by
  rcases h.2 with minimum | inside
  · rw [minimum.2.2]
    exact poolId.le_toInt
  · rw [inside.1]

/-! ## The cuts -/

/-- The reversed hash of a cut, as it is computed without a product that might overflow. -/
theorem reversed_eq {difference partitions : Nat} (pos : 0 < partitions) (index : Nat) :
    difference / partitions * index + difference % partitions * index / partitions
      = difference * index / partitions := by
  conv_rhs =>
    rw [← Nat.div_add_mod difference partitions, Nat.add_mul, Nat.mul_assoc, Nat.mul_add_div pos]

section Cuts

variable {start finish : HObject} {partitions index : Nat}

/-- The reversed hash of the cut with a given number. -/
def reversed (start finish : HObject) (partitions index : Nat) : Nat :=
  (reverseBits start.hash).toNat
    + (Pool.reversedHash finish - (reverseBits start.hash).toNat) * index / partitions

theorem reversed_mono {i j : Nat} (le : i ≤ j) :
    reversed start finish partitions i ≤ reversed start finish partitions j :=
  Nat.add_le_add_left (Nat.div_le_div_right (Nat.mul_le_mul_left _ le)) _

theorem reversed_le (le : (reverseBits start.hash).toNat ≤ Pool.reversedHash finish)
    (lt : index < partitions) :
    reversed start finish partitions index ≤ Pool.reversedHash finish := by
  have bound : (Pool.reversedHash finish - (reverseBits start.hash).toNat) * index / partitions
      ≤ Pool.reversedHash finish - (reverseBits start.hash).toNat :=
    Nat.div_le_of_le_mul (by rw [Nat.mul_comm]; exact Nat.mul_le_mul_right _ lt.le)
  unfold reversed
  omega

/-- No cut falls on the end of all hashes. -/
theorem reversed_lt (le : (reverseBits start.hash).toNat ≤ Pool.reversedHash finish)
    (lt : index < partitions) : reversed start finish partitions index < 2 ^ 32 := by
  have bound := reversed_le le lt
  have small : (reverseBits start.hash).toNat < 2 ^ 32 := UInt32.toNat_lt _
  cases max : finish.max with
  | false =>
    have small' : (reverseBits finish.hash).toNat < 2 ^ 32 := UInt32.toNat_lt _
    simp only [Pool.reversedHash, max, Bool.false_eq_true, if_false] at bound
    omega
  | true =>
    have top : Pool.reversedHash finish = 2 ^ 32 := by simp [Pool.reversedHash, max]
    have less : (Pool.reversedHash finish - (reverseBits start.hash).toNat) * index / partitions
        < Pool.reversedHash finish - (reverseBits start.hash).toNat := by
      rw [Nat.div_lt_iff_lt_mul (by omega)]
      exact Nat.mul_lt_mul_of_pos_left lt (by omega)
    unfold reversed
    omega

variable {poolId : Int64}

/-- The first cut is the one that can stand before the beginning. -/
theorem start_le_cuts_iff (holdable : Holdable poolId start) (pos : 0 < partitions)
    (le : (reverseBits start.hash).toNat ≤ Pool.reversedHash finish) :
    (∀ index, 1 ≤ index → index < partitions →
        position start ≤ position (cut poolId (reversed start finish partitions index)))
      ↔ partitions = 1 ∨ compareHobject start (lowest poolId start.hash) ≠ .gt
        ∨ partitions ≤ Pool.reversedHash finish - (reverseBits start.hash).toNat := by
  rw [compareHobject_ne_gt]
  constructor
  · intro all
    by_cases one : partitions = 1
    · exact .inl one
    by_cases few : partitions ≤ Pool.reversedHash finish - (reverseBits start.hash).toNat
    · exact .inr (.inr few)
    have first := all 1 le_rfl (by omega)
    rw [reversed, Nat.mul_one, Nat.div_eq_of_lt (Nat.not_le.mp few), Nat.add_zero, cut_toNat]
      at first
    exact .inr (.inl first)
  · intro cases index one lt
    rcases cases with only | first | few
    · omega
    · refine first.trans ?_
      rw [← cut_toNat]
      exact position_cut_le poolId (reversed_lt le lt) (Nat.le_add_right _ _)
    refine (position_lt_cut (reversed_lt le lt) holdable.1 holdable.pool_le ?_).le
    have step : 1 ≤ (Pool.reversedHash finish - (reverseBits start.hash).toNat) * index
        / partitions :=
      (Nat.one_le_div_iff pos).mpr (few.trans (Nat.le_mul_of_pos_right _ one))
    unfold reversed
    omega

/-- Every cut stands before the end, unless that is the place before all pools. -/
theorem cuts_le_finish_iff (holdable : finish.max = true ∨ Holdable poolId finish)
    (pos : 0 < partitions) (le : (reverseBits start.hash).toNat ≤ Pool.reversedHash finish) :
    (∀ index, 1 ≤ index → index < partitions →
        position (cut poolId (reversed start finish partitions index)) ≤ position finish)
      ↔ partitions = 1 ∨ finish.max = true
        ∨ compareHobject (lowest poolId finish.hash) finish ≠ .gt := by
  rw [compareHobject_ne_gt]
  constructor
  · intro all
    by_cases one : partitions = 1
    · exact .inl one
    refine .inr (holdable.imp_right fun ⟨max, place⟩ => ?_)
    rcases place with minimum | ⟨pool, snapshot⟩
    · -- the beginning is not after it, so both have the first hash and so has the cut
      have first := all 1 le_rfl (by omega)
      have hash : (reverseBits finish.hash).toNat = 0 := by
        rw [minimum.2.1]
        decide +kernel
      have top : Pool.reversedHash finish = 0 := by simp [Pool.reversedHash, max, hash]
      rw [reversed, top, Nat.zero_sub, Nat.zero_mul, Nat.zero_div, Nat.add_zero,
        show (reverseBits start.hash).toNat = (reverseBits finish.hash).toNat by omega,
        cut_toNat] at first
      exact first
    · exact position_lowest_le max pool snapshot
  · intro cases index one lt
    rcases cases with only | max | last
    · omega
    · rw [position_max max]
      exact le_top
    cases max : finish.max with
    | true =>
      rw [position_max max]
      exact le_top
    | false =>
      have bound := reversed_le le lt
      simp only [Pool.reversedHash, max, Bool.false_eq_true, if_false] at bound
      refine le_trans ?_ last
      rw [← cut_toNat]
      exact position_cut_le poolId (UInt32.toNat_lt _) bound

end Cuts

/-! ## The cursors of a split -/

/-- The places of the cursors of a split. -/
def places (poolId : Int64) (start finish : HObject) (partitions : Nat) : List HObject :=
  start :: (List.range' 1 (partitions - 1)).map
    (fun index => cut poolId (reversed start finish partitions index)) ++ [finish]

/-- One place is not after another. -/
def PlaceLe (left right : HObject) : Prop := position left ≤ position right

theorem pairwise_places_iff {start finish : HObject} {partitions : Nat}
    (ordered : position start ≤ position finish) (holdable : Holdable poolId start)
    (holdable' : finish.max = true ∨ Holdable poolId finish) (pos : 0 < partitions)
    (le : (reverseBits start.hash).toNat ≤ Pool.reversedHash finish) :
    (places poolId start finish partitions).Pairwise PlaceLe
      ↔ Divisible poolId start finish partitions := by
  have numbers : ∀ index, index ∈ List.range' 1 (partitions - 1)
      ↔ 1 ≤ index ∧ index < partitions := by
    intro index
    rw [List.mem_range'_1]
    omega
  have mem : ∀ P : HObject → Prop,
      (∀ place ∈ (List.range' 1 (partitions - 1)).map
          (fun index => cut poolId (reversed start finish partitions index)), P place)
        ↔ ∀ index, 1 ≤ index → index < partitions →
          P (cut poolId (reversed start finish partitions index)) := by
    intro P
    simp only [List.forall_mem_map, numbers, and_imp]
  have starts := start_le_cuts_iff holdable pos le
  have ends := cuts_le_finish_iff holdable' pos le
  constructor
  · intro pairwise
    obtain ⟨front, -, last⟩ := List.pairwise_append.mp pairwise
    have first := starts.mp ((mem _).mp (List.pairwise_cons.mp front).1)
    have last := ends.mp ((mem _).mp fun place here => last place (.tail _ here) finish (.head _))
    rcases first with one | first
    · exact .inr (.inl one)
    rcases last with one | last
    · exact .inr (.inl one)
    exact .inr (.inr ⟨first, last⟩)
  · intro divisible
    have cases : partitions = 1 ∨ (_ ∧ _) :=
      divisible.resolve_left (by rw [holdable.1]; exact Bool.false_ne_true)
    have first := (mem (PlaceLe start)).mpr (starts.mpr (cases.imp_right And.left))
    have last := (mem (PlaceLe · finish)).mpr (ends.mpr (cases.imp_right And.right))
    have between : (List.range' 1 (partitions - 1)).Pairwise fun i j =>
        PlaceLe (cut poolId (reversed start finish partitions i))
          (cut poolId (reversed start finish partitions j)) :=
      List.Pairwise.imp_of_mem (fun _ memj lt =>
        position_cut_le poolId (reversed_lt le ((numbers _).mp memj).2) (reversed_mono lt.le))
        List.pairwise_lt_range'
    refine List.pairwise_append.mpr ⟨List.pairwise_cons.mpr ⟨first, List.pairwise_map.mpr between⟩,
      List.pairwise_singleton _ _, fun place here place' here' => ?_⟩
    obtain rfl := List.mem_singleton.mp here'
    cases here with
    | head => exact ordered
    | tail _ here => exact last place here

/-- Two lists whose members correspond are chains together. -/
theorem isChain_iff_of_forall₂ {α β : Type} {R : α → α → Prop} {R' : β → β → Prop}
    {S : α → β → Prop} {l : List α} {l' : List β} (h : List.Forall₂ S l l')
    (related : ∀ a b a' b', S a a' → S b b' → (R a b ↔ R' a' b')) :
    l.IsChain R ↔ l'.IsChain R' := by
  induction h with
  | nil => simp
  | cons first rest ih =>
    cases rest with
    | nil => simp
    | cons second rest => rw [List.isChain_cons_cons, List.isChain_cons_cons, ih,
        related _ _ _ _ first second]

section Split

variable {pool : Pool} {poolId : Int64} {beginning ending : ObjectCursor} {partitions : Nat}
  {cursors : List ObjectCursor}

/-- A cursor of the pool that holds a place. -/
structure Holds (pool : Pool) (cursor : ObjectCursor) (object : HObject) : Prop where
  owned : pool.ownsCursor cursor = true
  place : cursorHobject cursor = .ok object

variable {left right : ObjectCursor}

theorem Holds.cursorLe_iff {first second : HObject} (hleft : Holds pool left first)
    (hright : Holds pool right second) : CursorLe left right ↔ PlaceLe first second := by
  have ids := hleft.owned
  have ids' := hright.owned
  simp only [Pool.ownsCursor, Bool.and_eq_true, beq_iff_eq] at ids ids'
  have pools : left.poolId = right.poolId := Option.some.inj (ids.1.symm.trans ids'.1)
  have compared := compareObjectCursors_eq pools (ids.2.symm.trans ids'.2) hleft.place hright.place
  rw [CursorLe, compared, PlaceLe, ← compareHobject_ne_gt]
  constructor
  · rintro ⟨ordering, eq, le⟩
    cases eq
    exact le
  · exact fun le => ⟨_, rfl, le⟩

variable {cursor : ObjectCursor}

theorem boundary_holds {reversed : Nat} (id : pool.id = some poolId) (fits : reversed < 2 ^ 32)
    (h : pool.boundary poolId reversed = .ok cursor) : Holds pool cursor (cut poolId reversed) := by
  have inside : ¬ reversed ≥ 2 ^ 32 := Nat.not_le.mpr fits
  have small : reversed ≤ u32Max := Nat.le_pred_of_lt fits
  rw [Pool.boundary, if_neg inside, tryFrom, if_pos small] at h
  obtain ⟨_, same, h⟩ := bind_eq_ok.mp h
  cases same
  obtain ⟨samePool, sameSpace, inside, value, size⟩ := newObjectCursor_eq_ok h
  have holdable : Holdable cursor.poolId (cut poolId reversed) := ⟨rfl, .inr ⟨samePool.symm, rfl⟩⟩
  exact ⟨by simp [Pool.ownsCursor, id, samePool, sameSpace],
    cursorHobject_of_value inside value size holdable⟩

/-- What a successful call has checked, and the cursors it returns. -/
theorem splitCursor_eq_ok (h : pool.splitCursor beginning ending partitions = .ok cursors) :
    ∃ poolId, pool.id = some poolId ∧ 0 < partitions ∧ pool.ownsCursor beginning = true
      ∧ pool.ownsCursor ending = true ∧ CursorLe beginning ending
      ∧ ((beginning.ended = true ∧ cursors = List.replicate (partitions + 1) beginning)
        ∨ (beginning.ended = false ∧ ∃ start finish boundaries,
          cursorHobject beginning = .ok start ∧ cursorHobject ending = .ok finish
            ∧ (reverseBits start.hash).toNat ≤ Pool.reversedHash finish
            ∧ List.Forall₂ (fun index cursor =>
                pool.boundary poolId (reversed start finish partitions index) = .ok cursor)
              (List.range' 1 (partitions - 1)) boundaries
            ∧ cursors = beginning :: boundaries ++ [ending])) := by
  unfold Pool.splitCursor at h
  obtain ⟨poolId, id, h⟩ := bind_eq_ok.mp h
  split at h
  · cases h
  rename_i checks
  simp only [Bool.or_eq_true, beq_iff_eq, decide_eq_true_eq, Bool.not_eq_true', not_or,
    Bool.not_eq_false] at checks
  obtain ⟨⟨⟨nonzero, -⟩, owns⟩, owns'⟩ := checks
  obtain ⟨ordering, compared, h⟩ := bind_eq_ok.mp h
  split at h
  · cases h
  rename_i notGreater
  have le : CursorLe beginning ending :=
    ⟨ordering, mapError_eq_ok.mp compared, by simpa using notGreater⟩
  refine ⟨poolId, ?_, Nat.pos_of_ne_zero nonzero, owns, owns', le, ?_⟩
  · cases found : pool.id with
    | none =>
      rw [found] at id
      cases id
    | some value =>
      rw [found] at id
      cases id
      rfl
  split at h
  next ended =>
    cases h
    exact .inl ⟨ended, rfl⟩
  rename_i inside
  obtain ⟨start, hstart, h⟩ := bind_eq_ok.mp h
  obtain ⟨finish, hfinish, h⟩ := bind_eq_ok.mp h
  obtain ⟨difference, subtracted, h⟩ := bind_eq_ok.mp h
  obtain ⟨boundaries, cuts, h⟩ := bind_eq_ok.mp h
  cases h
  obtain ⟨le, rfl⟩ := guarded_eq_ok.mp subtracted
  refine .inr ⟨Bool.eq_false_iff.mpr inside, start, finish, boundaries,
    mapError_eq_ok.mp hstart, mapError_eq_ok.mp hfinish, le, ?_, rfl⟩
  refine (forall₂_of_mapM cuts).imp fun index cursor made => ?_
  rw [reversed, ← reversed_eq (Nat.pos_of_ne_zero nonzero), ← Nat.add_assoc]
  exact mapError_eq_ok.mp made

theorem Pool.ownsCursor_iff :
    pool.ownsCursor cursor = true ↔ pool.id = some cursor.poolId
      ∧ pool.nameSpace = cursor.nameSpace := by
  simp only [Pool.ownsCursor, Bool.and_eq_true, beq_iff_eq]

/-- There is only one terminal cursor of a pool and a name space. -/
theorem ObjectCursor.eq_of_ended (pools : left.poolId = right.poolId)
    (spaces : left.nameSpace = right.nameSpace) (ended : left.ended = true)
    (ended' : right.ended = true) : left = right := by
  have value := left.made
  have value' := right.made
  rw [if_pos ended] at value
  rw [if_pos ended'] at value'
  cases left
  cases right
  simp_all

/-- Nothing is after the terminal cursor. -/
theorem CursorLe.ended (h : CursorLe left right) (ended : left.ended = true) : left = right := by
  obtain ⟨ordering, compared, le⟩ := h
  unfold compareObjectCursors at compared
  split at compared
  · cases compared
  rename_i same
  rw [not_or, not_not, not_not] at same
  rw [ended] at compared
  cases ended' : right.ended with
  | true => exact ObjectCursor.eq_of_ended same.1 same.2 ended ended'
  | false =>
    rw [ended'] at compared
    cases compared
    exact absurd rfl le

instance : Trans PlaceLe PlaceLe PlaceLe := ⟨le_trans⟩

/-- A split has the right number of cursors, from the beginning to the end and in order, if and
only if the interval is divisible into so many partitions. -/
theorem splitCursor_covers_iff
    (h : pool.splitCursor beginning ending partitions = .ok cursors) :
    Covers beginning ending partitions cursors
      ↔ ∀ poolId start finish, pool.id = some poolId → cursorHobject beginning = .ok start →
        cursorHobject ending = .ok finish → Divisible poolId start finish partitions := by
  obtain ⟨poolId, id, pos, owns, owns', le, ended | inside⟩ := splitCursor_eq_ok h
  · obtain ⟨ended, rfl⟩ := ended
    obtain rfl := le.ended ended
    refine iff_of_true ⟨List.length_replicate, rfl, ?_, ?_⟩ fun poolId start finish _ hstart _ => ?_
    · rw [List.getLast?_replicate, if_neg (Nat.succ_ne_zero partitions)]
    · exact List.isChain_replicate_of_rel _ le
    rcases cursorHobject_eq_ok hstart with ⟨-, max⟩ | ⟨inside, -⟩
    · exact .inl max
    · rw [ended] at inside
      cases inside
  · obtain ⟨inside, start, finish, boundaries, hstart, hfinish, hashes, cuts, rfl⟩ := inside
    have here : Holds pool beginning start := ⟨owns, hstart⟩
    have there : Holds pool ending finish := ⟨owns', hfinish⟩
    have samePool := Option.some.inj ((Pool.ownsCursor_iff.mp owns).1.symm.trans id)
    have samePool' := Option.some.inj ((Pool.ownsCursor_iff.mp owns').1.symm.trans id)
    have holdable : Holdable poolId start := by
      rcases cursorHobject_eq_ok hstart with ⟨ended, -⟩ | ⟨-, holdable, -⟩
      · rw [inside] at ended
        cases ended
      · exact samePool ▸ holdable
    have holdable' : finish.max = true ∨ Holdable poolId finish := by
      rcases cursorHobject_eq_ok hfinish with ⟨-, max⟩ | ⟨-, holdable, -⟩
      · exact .inl max
      · exact .inr (samePool' ▸ holdable)
    have held : List.Forall₂ (Holds pool) (beginning :: boundaries ++ [ending])
        (places poolId start finish partitions) := by
      refine List.rel_append (.cons here ?_) (.cons there .nil)
      rw [List.forall₂_map_right_iff]
      have numbered := (List.forall₂_and_left _ _).mpr
        ⟨fun index mem => (List.mem_range'_1.mp mem).2, cuts⟩
      exact numbered.flip.imp fun cursor index made =>
        boundary_holds id (reversed_lt hashes (by omega)) made.2
    have count := cuts.length_eq
    rw [List.length_range'] at count
    have ordered : (beginning :: boundaries ++ [ending]).IsChain CursorLe
        ↔ Divisible poolId start finish partitions := by
      have same : (beginning :: boundaries ++ [ending]).IsChain CursorLe
          ↔ (places poolId start finish partitions).IsChain PlaceLe :=
        isChain_iff_of_forall₂ held fun _ _ _ _ => Holds.cursorLe_iff
      rw [same, List.isChain_iff_pairwise]
      exact pairwise_places_iff ((here.cursorLe_iff there).mp le) holdable holdable' pos hashes
    constructor
    · intro covers poolId' start' finish' id' hstart' hfinish'
      cases id.symm.trans id'
      cases hstart.symm.trans hstart'
      cases hfinish.symm.trans hfinish'
      exact ordered.mp covers.ordered
    intro divisible
    refine ⟨?_, rfl, List.getLast?_concat .., ?_⟩
    · simp only [List.length_append, List.length_cons, List.length_nil]
      omega
    · exact ordered.mpr (divisible poolId start finish id hstart hfinish)

end Split

/-! ## Two splits -/

def samplePool : Pool := ⟨some 1, []⟩

/-- The place before all pools. -/
def sampleMinimum : HObject :=
  { key := [], object := [], snapshot := 0, hash := 0, max := false, nameSpace := []
    pool := Int64.minValue }

/-- An object with the last of all hashes. -/
def sampleLast : HObject := { lowest 1 0xffffffff with object := [97] }

def sampleEnd : ObjectCursor := .atEnd 1 []

set_option maxRecDepth 2000

/-- The whole pool in two partitions. -/
theorem splitCursor_covers_whole :
    ∃ cursors, samplePool.splitCursor (.holding 1 [] sampleMinimum (by decide)) sampleEnd 2
        = .ok cursors
      ∧ Covers (.holding 1 [] sampleMinimum (by decide)) sampleEnd 2 cursors := by
  have split : samplePool.splitCursor (.holding 1 [] sampleMinimum (by decide)) sampleEnd 2
      = .ok [.holding 1 [] sampleMinimum (by decide), .holding 1 [] (cut 1 (2 ^ 31)) (by decide),
        sampleEnd] := by
    decide
  have minimum : cursorHobject (.holding 1 [] sampleMinimum (by decide)) = .ok sampleMinimum := by
    decide
  have divisible : ∀ finish, cursorHobject sampleEnd = .ok finish →
      Divisible 1 sampleMinimum finish 2 := by
    intro finish hfinish
    cases hfinish
    exact .inr (.inr ⟨.inl (by decide), .inl rfl⟩)
  refine ⟨_, split, (splitCursor_covers_iff split).mpr fun poolId start finish id hstart => ?_⟩
  cases id
  cases minimum.symm.trans hstart
  exact divisible finish

/-- The last hash in two partitions, from an object with that hash. -/
theorem not_covers_last :
    ∃ cursors, samplePool.splitCursor (.holding 1 [] sampleLast (by decide)) sampleEnd 2
        = .ok cursors
      ∧ ¬ Covers (.holding 1 [] sampleLast (by decide)) sampleEnd 2 cursors := by
  refine ⟨[.holding 1 [] sampleLast (by decide), .holding 1 [] (lowest 1 0xffffffff) (by decide),
    sampleEnd], by decide, fun covers => ?_⟩
  have after : compareObjectCursors (.holding 1 [] sampleLast (by decide))
      (.holding 1 [] (lowest 1 0xffffffff) (by decide)) = .ok .gt := by
    decide
  obtain ⟨ordering, compared, le⟩ := (List.isChain_cons_cons.mp covers.ordered).1
  rw [after] at compared
  cases compared
  exact le rfl

end RadosRs.Client
