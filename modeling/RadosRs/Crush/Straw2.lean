import Mathlib.Tactic.IntervalCases
import RadosRs.Crush.Place
import RadosRs.Lib.Leader
import RadosRs.Lib.Total

/-!
# Drawing an item from a bucket

The straw of an item is its logarithm, which is not positive, divided by its
weight: the more weight, the longer the straw.  `straw2Choose` takes the item with
the longest straw, the first of several, so that another weight for one item moves
the choice only to that item or away from it (`straw2Choose_stable`).

That no logarithm is positive comes from the tables of `crushLn`: the entries it
adds for a 16-bit value come to at most one.
-/

namespace RadosRs.Crush

open Fallible Fixed Leader

/-! ## The logarithm -/

variable {x : Nat}

theorem and_eq_zero_iff (small : x ≤ 2 ^ 16) : x &&& 0x18000 = 0 ↔ x < 2 ^ 15 := by
  have upper : (x &&& 0x18000) / 2 ^ 15 = x / 2 ^ 15 &&& 3 := Nat.and_div_two_pow
  have lower : (x &&& 0x18000) % 2 ^ 15 = x % 2 ^ 15 &&& 0 := Nat.and_mod_two_pow
  rw [Nat.and_zero] at lower
  have top : x / 2 ^ 15 ≤ 2 := by omega
  generalize quotient : x / 2 ^ 15 = q at *
  interval_cases q <;> simp at upper <;> omega

variable {ε : Type}

/-- The argument is shifted up until its top bit is bit 15, or is bit 16 already. -/
theorem normalize_eq_ok (positive : 1 ≤ x) (small : x ≤ 2 ^ 16) :
    ∃ y exponent, (normalize x : Run ε (Nat × Nat)) = .ok (y, exponent) ∧
      2 ^ 15 ≤ y ∧ y ≤ 2 ^ 16 ∧ exponent ≤ 15 := by
  unfold normalize
  split
  next low =>
    rw [and_eq_zero_iff small] at low
    have nonzero : x ≠ 0 := by omega
    have bits : x.log2 < 15 := (Nat.log2_lt nonzero).mpr low
    have same : x &&& 0x1ffff = x := Nat.and_two_pow_sub_one_of_lt_two_pow (n := 17) (by omega)
    have zeros : leadingZeros (x &&& 0x1ffff) = 31 - x.log2 := by
      rw [same, leadingZeros, if_neg nonzero]
    have below := Nat.log2_self_le nonzero
    have above := Nat.lt_log2_self (n := x)
    have shifted : 31 - x.log2 - 16 = 15 - x.log2 := by omega
    have whole : 2 ^ x.log2 * 2 ^ (15 - x.log2) = 2 ^ 15 := by
      rw [← Nat.pow_add]
      congr 1
      omega
    have lower : 2 ^ 15 ≤ x * 2 ^ (15 - x.log2) := by
      rw [← whole]
      exact Nat.mul_le_mul_right _ below
    have upper : x * 2 ^ (15 - x.log2) ≤ 2 ^ 16 := by
      have := Nat.mul_le_mul_right (2 ^ (15 - x.log2)) above.le
      rw [Nat.pow_succ, Nat.mul_right_comm, whole] at this
      exact this
    refine ⟨x * 2 ^ (15 - x.log2), 15 - (15 - x.log2), ?_, lower, upper, by omega⟩
    rw [zeros]
    refine bind_eq_ok.mpr ⟨_, guarded_eq_ok.mpr ⟨by omega, rfl⟩, ?_⟩
    refine bind_eq_ok.mpr ⟨_, guarded_eq_ok.mpr ⟨by omega, rfl⟩, ?_⟩
    rw [shifted, Nat.shiftLeft_eq, Nat.mod_eq_of_lt (by omega)]
    rfl
  next high =>
    rw [and_eq_zero_iff small] at high
    exact ⟨x, 15, rfl, by omega, small, Nat.le_refl 15⟩

/-- The largest of the corrections. -/
def largestLow : Nat := 0x2dced24f814

set_option maxRecDepth 2000

theorem low_le : ∀ low ∈ crushLnLl, low ≤ largestLow := by decide

theorem high_le : ∀ high ∈ crushLnLh.take 127, high + largestLow ≤ 2 ^ 48 := by decide

theorem low_le_of_small : ∀ low ∈ crushLnLl.take 129, 0xfe8df263f957 + low ≤ 2 ^ 48 := by
  decide

/-- The rest below the upper byte is small when the byte is large. -/
def fraction (x : Nat) : Nat := ((x * ((2 ^ 55 + x >>> 8 - 1) / (x >>> 8))) >>> 48) &&& 0xff

theorem fraction_lt (x : Nat) : fraction x < 256 := Nat.and_lt_two_pow (n := 8) _ (by decide)

theorem fraction_le (coarse : x >>> 8 = 255) : fraction x ≤ 128 := by
  have reciprocal : (2 ^ 55 + 255 - 1) / 255 = 141289400074369 := by decide
  rw [fraction, coarse, reciprocal, Nat.shiftRight_eq_div_pow,
    Nat.and_two_pow_sub_one_eq_mod _ 8]
  rw [Nat.shiftRight_eq_div_pow] at coarse
  have bounds : 2 ^ 15 ≤ x * 141289400074369 / 2 ^ 48 ∧
      x * 141289400074369 / 2 ^ 48 ≤ 2 ^ 15 + 128 := by omega
  generalize x * 141289400074369 / 2 ^ 48 = quotient at *
  omega

theorem fraction_eq_zero : fraction (2 ^ 16) = 0 := by decide

theorem mem_take_of_getElem? {α : Type} {xs : List α} {i n : Nat} {a : α} (here : xs[i]? = some a)
    (before : i < n) : a ∈ xs.take n :=
  List.mem_of_getElem? ((List.getElem?_take_of_lt before).trans here)

theorem tableU64_eq_ok {table : List Nat} {offset word : Nat} (here : table[offset]? = some word) :
    (tableU64 table offset : Run ε Nat) = .ok word :=
  expect_eq_ok.mpr here

/-- Both tables have the entries the logarithm asks for, and their sum is at most one. -/
theorem tables_sum (lower : 2 ^ 15 ≤ x) (upper : x ≤ 2 ^ 16) :
    128 ≤ x >>> 8 ∧ ∃ high low, crushLnLh[x >>> 8 - 128]? = some high ∧
      crushLnLl[fraction x]? = some low ∧ high + low ≤ 2 ^ 48 := by
  have byte : x >>> 8 = x / 256 := Nat.shiftRight_eq_div_pow x 8
  have lows : crushLnLl.length = 256 := by decide
  have highs : crushLnLh.length = 129 := by decide
  have low := List.getElem?_eq_getElem (l := crushLnLl) (i := fraction x) (lows ▸ fraction_lt x)
  refine ⟨by omega, ?_⟩
  rcases Nat.lt_or_ge (x >>> 8) 255 with small | large
  · have high := List.getElem?_eq_getElem (l := crushLnLh) (i := x >>> 8 - 128) (by omega)
    refine ⟨_, _, high, low, ?_⟩
    have := high_le _ (mem_take_of_getElem? high (by omega))
    have := low_le _ (List.mem_of_getElem? low)
    omega
  rcases Nat.eq_or_lt_of_le large with last | above
  · rw [← last]
    refine ⟨0xfe8df263f957, _, rfl, low, low_le_of_small _ ?_⟩
    have := fraction_le last.symm
    exact mem_take_of_getElem? low (by omega)
  · have whole : x = 2 ^ 16 := by omega
    subst whole
    exact ⟨0xffff00000000, 0, rfl, by rw [fraction_eq_zero]; rfl, by decide⟩

/-- The logarithm of a 16-bit value is at most one. -/
theorem crushLn_le {input : Nat} (h : input ≤ 0xffff) :
    ∃ logarithm, (crushLn input : Run ε Nat) = .ok logarithm ∧ logarithm ≤ 2 ^ 48 := by
  have small : (input + 1) % 2 ^ 32 = input + 1 := Nat.mod_eq_of_lt (by omega)
  obtain ⟨x, exponent, normal, lower, upper, fits⟩ :=
    normalize_eq_ok (ε := ε) (x := input + 1) (by omega) (by omega)
  obtain ⟨enough, high, low, atHigh, atLow, sum⟩ := tables_sum lower upper
  refine ⟨exponent <<< 44 + (high + low) >>> 4, ?_, ?_⟩
  · unfold crushLn
    rw [small]
    refine bind_eq_ok.mpr ⟨_, normal, ?_⟩
    refine bind_eq_ok.mpr ⟨_, guarded_eq_ok.mpr ⟨by omega, rfl⟩, ?_⟩
    refine bind_eq_ok.mpr ⟨_, guarded_eq_ok.mpr ⟨enough, rfl⟩, ?_⟩
    refine bind_eq_ok.mpr ⟨high, tableU64_eq_ok atHigh, ?_⟩
    exact bind_eq_ok.mpr ⟨low, tableU64_eq_ok atLow, rfl⟩
  · rw [Nat.shiftLeft_eq, Nat.shiftRight_eq_div_pow]
    omega

/-! ## Straws -/

section Straws

variable {ε : Type} {bucket : Bucket} {seed : UInt32} {replica place weight : Nat} {straw : Int}

/-- The logarithm that is divided by the weight. -/
def strawLogarithm (bucket : Bucket) (seed : UInt32) (replica place : Nat) : Run ε Nat := do
  let item ← index bucket.items place
  let replica ← within u32Max replica
  crushLn (hash32Triple seed (castUnsigned item) (.ofNat replica) &&& 0xffff).toNat

/-- The straw of a logarithm and a weight. -/
def strawOf (logarithm weight : Nat) : Int := ((logarithm : Int) - 2 ^ 48).tdiv weight

theorem straw2Draw_eq_ok (h : (straw2Draw bucket seed replica place weight : Run ε Int) = .ok straw) :
    (weight = 0 ∧ straw = i64Min) ∨
      (0 < weight ∧ ∃ logarithm, (strawLogarithm bucket seed replica place : Run ε Nat) = .ok logarithm ∧
        straw = strawOf logarithm weight) := by
  unfold straw2Draw at h
  split at h
  next zero =>
    cases h
    exact .inl ⟨zero, rfl⟩
  rename_i nonzero
  obtain ⟨item, held, h⟩ := bind_eq_ok.mp h
  obtain ⟨r, fits, h⟩ := bind_eq_ok.mp h
  obtain ⟨logarithm, found, h⟩ := bind_eq_ok.mp h
  cases h
  exact .inr ⟨Nat.pos_of_ne_zero nonzero, logarithm,
    bind_eq_ok.mpr ⟨item, held, bind_eq_ok.mpr ⟨r, fits, found⟩⟩, rfl⟩

theorem random_le (value : UInt32) : (value &&& 0xffff).toNat ≤ 0xffff := by
  rw [UInt32.toNat_and]
  exact Nat.and_le_right

variable {logarithm : Nat}

theorem strawLogarithm_le
    (h : (strawLogarithm bucket seed replica place : Run ε Nat) = .ok logarithm) :
    logarithm ≤ 2 ^ 48 := by
  obtain ⟨item, _, h⟩ := bind_eq_ok.mp h
  obtain ⟨r, _, h⟩ := bind_eq_ok.mp h
  obtain ⟨_, found, small⟩ := crushLn_le (ε := ε)
    (random_le (hash32Triple seed (castUnsigned item) (.ofNat r)))
  rw [found] at h
  cases h
  exact small

/-- More weight makes the straw of a logarithm longer. -/
theorem strawOf_mono {w w' : Nat} (small : logarithm ≤ 2 ^ 48) (positive : 0 < w) (more : w ≤ w') :
    strawOf logarithm w ≤ strawOf logarithm w' := by
  obtain ⟨n, negated⟩ : ∃ n : Nat, (logarithm : Int) - 2 ^ 48 = -n := ⟨2 ^ 48 - logarithm, by omega⟩
  rw [strawOf, strawOf, negated, Int.neg_tdiv, Int.neg_tdiv]
  apply Int.neg_le_neg
  rw [← Int.ofNat_tdiv, ← Int.ofNat_tdiv]
  exact_mod_cast Nat.div_le_div_left more positive

/-- An item with weight has a longer straw than one without. -/
theorem i64Min_lt_strawOf (small : logarithm ≤ 2 ^ 48) (w : Nat) :
    i64Min < strawOf logarithm w := by
  have bound := Int.natAbs_tdiv_le_natAbs ((logarithm : Int) - 2 ^ 48) w
  rw [strawOf, i64Min]
  omega

/-- The straw becomes longer, or stays as it is, when the weight does. -/
theorem straw2Draw_mono {w w' : Nat} {short long : Int} (more : w ≤ w')
    (before : (straw2Draw bucket seed replica place w : Run ε Int) = .ok short)
    (after : (straw2Draw bucket seed replica place w' : Run ε Int) = .ok long) : short ≤ long := by
  rcases straw2Draw_eq_ok before with ⟨_, rfl⟩ | ⟨positive, logarithm, found, rfl⟩
  · rcases straw2Draw_eq_ok after with ⟨_, rfl⟩ | ⟨_, logarithm, found, rfl⟩
    · exact le_refl _
    · exact (i64Min_lt_strawOf (strawLogarithm_le found) w').le
  rcases straw2Draw_eq_ok after with ⟨zero, _⟩ | ⟨_, _, same, rfl⟩
  · omega
  · rw [found] at same
    cases same
    exact strawOf_mono (strawLogarithm_le found) positive more

/-- With an item for the place and a replica number that fits there is a straw. -/
theorem straw2Draw_total (held : place < bucket.items.length) (fits : replica ≤ u32Max) :
    ∃ straw, (straw2Draw bucket seed replica place weight : Run ε Int) = .ok straw := by
  unfold straw2Draw
  split
  · exact ⟨i64Min, rfl⟩
  obtain ⟨logarithm, found, _⟩ := crushLn_le (ε := ε)
    (random_le (hash32Triple seed (castUnsigned bucket.items[place]) (.ofNat replica)))
  refine ⟨strawOf logarithm weight, bind_eq_ok.mpr ⟨bucket.items[place], ?_, ?_⟩⟩
  · exact expect_eq_ok.mpr (List.getElem?_eq_getElem held)
  · exact bind_eq_ok.mpr ⟨replica, guarded_eq_ok.mpr ⟨fits, rfl⟩,
      bind_eq_ok.mpr ⟨logarithm, found, rfl⟩⟩

end Straws

/-! ## The longest straw -/

section Choice

variable {ε : Type} {bucket : Bucket} {seed : UInt32} {replica : Nat}

/-- The straws of a list of weights. -/
def Straws (ε : Type) (bucket : Bucket) (seed : UInt32) (replica : Nat) (weights : List Nat)
    (straws : List Int) : Prop :=
  straws.length = weights.length ∧ ∀ (j w : Nat) (straw : Int), weights[j]? = some w →
    straws[j]? = some straw → (straw2Draw bucket seed replica j w : Run ε Int) = .ok straw

/-- One turn of the loop of `straw2Choose`. -/
def straw2Turn (bucket : Bucket) (seed : UInt32) (replica : Nat) (best : Nat × Int)
    (entry : Nat × Nat) : Run ε (Nat × Int) := do
  let draw ← straw2Draw bucket seed replica entry.2 entry.1
  return if entry.2 = 0 ∨ draw > best.2 then (entry.2, draw) else best

theorem straw2Choose_eq (bucket : Bucket) (seed : UInt32) (replica : Nat) :
    (straw2Choose bucket seed replica : Run ε Int) =
      bucket.itemWeights.zipIdx.foldlM (straw2Turn bucket seed replica) (0, i64Min) >>=
        fun best => index bucket.items best.1 :=
  rfl

/-- What the loop knows after the straws it has drawn. -/
def Best (straws : List Int) (best : Nat × Int) : Prop := straws = [] ∨ Leads straws best.1 best.2

variable {straws : List Int}

theorem Best.snoc {best : Nat × Int} (h : Best straws best) (straw : Int) :
    Best (straws ++ [straw])
      (if straws.length = 0 ∨ straw > best.2 then (straws.length, straw) else best) := by
  rcases h with rfl | leads
  · exact .inr (.singleton straw)
  have nonempty : straws.length ≠ 0 := by
    have := (List.getElem?_eq_some_iff.mp leads.here).1
    omega
  have longer := leads.snoc straw
  split at longer
  next larger =>
    rw [if_pos (.inr larger)]
    exact .inr longer
  rename_i smaller
  rw [if_neg (not_or.mpr ⟨nonempty, smaller⟩)]
  exact .inr longer

variable {weights : List Nat}

/-- The loop finds the first of the longest straws. -/
theorem straw2Turn_foldlM {n : Nat} {best final : Nat × Int} (length : straws.length = n)
    (known : Best straws best)
    (h : (weights.zipIdx n).foldlM (straw2Turn bucket seed replica) best = Except.ok (ε := Fault ε) final) :
    ∃ more, more.length = weights.length ∧ (∀ (j w : Nat) (straw : Int), weights[j]? = some w →
      more[j]? = some straw →
        (straw2Draw bucket seed replica (n + j) w : Run ε Int) = .ok straw) ∧
      Best (straws ++ more) final := by
  induction weights generalizing straws n best with
  | nil =>
    cases h
    exact ⟨[], rfl, nofun, by rwa [List.append_nil]⟩
  | cons w weights ih =>
    rw [List.zipIdx_cons, List.foldlM_cons] at h
    obtain ⟨next, turn, rest⟩ := bind_eq_ok.mp h
    obtain ⟨straw, drawn, turn⟩ := bind_eq_ok.mp turn
    cases turn
    subst length
    have longer : (straws ++ [straw]).length = straws.length + 1 := by
      rw [List.length_append, List.length_singleton]
    obtain ⟨more, lengths, draws, best⟩ := ih longer (known.snoc straw) rest
    refine ⟨straw :: more, by rw [List.length_cons, List.length_cons, lengths], ?_, ?_⟩
    · intro j v other
      cases j with
      | zero =>
        intro weight here
        cases weight
        cases here
        exact drawn
      | succ j =>
        intro weight here
        rw [Nat.add_comm j 1, ← Nat.add_assoc]
        exact draws j v other weight here
    · rwa [List.append_assoc, List.singleton_append] at best

/-- The choice is the item with the first of the longest straws. -/
theorem straw2Choose_eq_ok {item : Int} (weighted : bucket.itemWeights ≠ [])
    (h : (straw2Choose bucket seed replica : Run ε Int) = .ok item) :
    ∃ straws, Straws ε bucket seed replica bucket.itemWeights straws ∧
      ∃ k straw, Leads straws k straw ∧ bucket.items[k]? = some item := by
  rw [straw2Choose_eq] at h
  obtain ⟨best, scan, h⟩ := bind_eq_ok.mp h
  obtain ⟨straws, length, draws, known⟩ := straw2Turn_foldlM rfl (.inl rfl) scan
  rw [List.nil_append] at known
  refine ⟨straws, ⟨length, fun j => by simpa using draws j⟩, ?_⟩
  rcases known with rfl | leads
  · exact absurd (List.eq_nil_of_length_eq_zero length.symm) weighted
  · exact ⟨best.1, best.2, leads, expect_eq_ok.mp h⟩

/-- A bucket has a weight for each item. -/
def Bucket.Paired (bucket : Bucket) : Prop := bucket.itemWeights.length = bucket.items.length

/-- A choice from a bucket with items succeeds. -/
theorem straw2Choose_total (seed : UInt32) (paired : bucket.Paired) (nonempty : bucket.items ≠ [])
    (fits : replica ≤ u32Max) :
    ∃ item ∈ bucket.items, (straw2Choose bucket seed replica : Run ε Int) = .ok item := by
  have each : ∀ (best : Nat × Int) (entry : Nat × Nat), entry ∈ bucket.itemWeights.zipIdx →
      best.1 < bucket.items.length →
      ∃ next, (straw2Turn bucket seed replica best entry : Run ε (Nat × Int)) = .ok next ∧
        next.1 < bucket.items.length := by
    intro best entry mem known
    have held : entry.2 < bucket.items.length := paired ▸ List.snd_lt_of_mem_zipIdx mem
    obtain ⟨straw, drawn⟩ := straw2Draw_total (ε := ε) held fits
    refine ⟨_, bind_eq_ok.mpr ⟨straw, drawn, rfl⟩, ?_⟩
    split
    · exact held
    · exact known
  obtain ⟨best, scan, inside⟩ := foldlM_total (fun best : Nat × Int => best.1 < bucket.items.length)
    each (s := (0, i64Min)) (List.length_pos_iff.mpr nonempty)
  refine ⟨bucket.items[best.1], List.getElem_mem inside, ?_⟩
  rw [straw2Choose_eq]
  exact bind_eq_ok.mpr ⟨best, scan, expect_eq_ok.mpr (List.getElem?_eq_getElem inside)⟩

/-- The bucket with another weight for one of its items. -/
def Bucket.reweigh (bucket : Bucket) (i weight : Nat) : Bucket :=
  { bucket with itemWeights := bucket.itemWeights.set i weight }

theorem Bucket.Paired.reweigh (paired : bucket.Paired) (i weight : Nat) :
    (bucket.reweigh i weight).Paired := by
  rw [Paired, Bucket.reweigh, List.length_set]
  exact paired

/-- Straws for the same weight are of the same length. -/
theorem Straws.congr {weights' : List Nat} {straws' : List Int}
    (h : Straws ε bucket seed replica weights straws)
    (h' : Straws ε bucket seed replica weights' straws') {j : Nat}
    (same : weights[j]? = weights'[j]?) : straws[j]? = straws'[j]? := by
  cases weight : weights[j]? with
  | none =>
    rw [List.getElem?_eq_none (h.1 ▸ List.getElem?_eq_none_iff.mp weight),
      List.getElem?_eq_none (h'.1 ▸ List.getElem?_eq_none_iff.mp (same ▸ weight))]
  | some w =>
    have inside := (List.getElem?_eq_some_iff.mp weight).1
    have inside' := (List.getElem?_eq_some_iff.mp (same ▸ weight)).1
    have here := List.getElem?_eq_getElem (h.1 ▸ inside)
    have here' := List.getElem?_eq_getElem (h'.1 ▸ inside')
    have drawn := h.2 j w _ weight here
    rw [h'.2 j w _ (same ▸ weight) here'] at drawn
    rw [here, here', Except.ok.inj drawn]

/-- The first of the longest straws has a weight, unless none has. -/
theorem Straws.weight_of_leads {k : Nat} {straw : Int}
    (h : Straws ε bucket seed replica bucket.itemWeights straws) (leads : Leads straws k straw) :
    ∃ w, bucket.itemWeights[k]? = some w ∧ (w = 0 → ∀ v ∈ bucket.itemWeights, v = 0) := by
  have inside : k < bucket.itemWeights.length :=
    h.1 ▸ (List.getElem?_eq_some_iff.mp leads.here).1
  refine ⟨_, List.getElem?_eq_getElem inside, fun zero v mem => ?_⟩
  -- the leading straw is the shortest there is, so no item has a longer one
  have drawn := h.2 k _ straw (List.getElem?_eq_getElem inside) leads.here
  rw [zero] at drawn
  obtain ⟨j, there, rfl⟩ := List.mem_iff_getElem.mp mem
  have straw_j := List.getElem?_eq_getElem (h.1.symm ▸ there : j < straws.length)
  have low := leads.le j _ straw_j
  rcases straw2Draw_eq_ok (h.2 j _ _ (List.getElem?_eq_getElem there) straw_j) with
    ⟨none_here, _⟩ | ⟨_, logarithm, found, longer⟩
  · exact none_here
  rcases straw2Draw_eq_ok drawn with ⟨_, rfl⟩ | ⟨positive, _⟩
  · have := i64Min_lt_strawOf (strawLogarithm_le found) bucket.itemWeights[j]
    rw [longer] at low
    omega
  · omega

/-- The places of the choices before and after a larger weight for one item. -/
theorem Straws.leads_of_grown {i old new : Nat} {straws' : List Int} {k k' : Nat}
    {straw straw' : Int} (weight : weights[i]? = some old)
    (h : Straws ε bucket seed replica weights straws)
    (h' : Straws ε bucket seed replica (weights.set i new) straws') (leads : Leads straws k straw)
    (leads' : Leads straws' k' straw') :
    (old ≤ new → k' = k ∨ k' = i) ∧ (new ≤ old → k = k' ∨ k = i) := by
  have inside := (List.getElem?_eq_some_iff.mp weight).1
  have length : straws.length = straws'.length := by rw [h.1, h'.1, List.length_set]
  have same : ∀ j, j ≠ i → straws[j]? = straws'[j]? := fun j apart =>
    h.congr h' (List.getElem?_set_ne apart.symm).symm
  have weight' : (weights.set i new)[i]? = some new := List.getElem?_set_self inside
  refine ⟨fun more => leads.of_grown leads' length same fun x y here here' => ?_,
    fun less => leads'.of_grown leads length.symm (fun j apart => (same j apart).symm)
      fun x y here' here => ?_⟩
  · exact straw2Draw_mono more (h.2 i old x weight here) (h'.2 i new y weight' here')
  · exact straw2Draw_mono less (h'.2 i new x weight' here') (h.2 i old y weight here)

end Choice

/-- Another weight for one item moves the choice only to that item, when it becomes larger, or
away from it, when it becomes smaller.  An item without weight is chosen only from a bucket
without any. -/
theorem straw2Choose_stable {ε : Type} (bucket : Bucket) (paired : bucket.Paired) (seed : UInt32)
    (replica i old new : Nat) (weight : bucket.itemWeights[i]? = some old) :
    (∀ before after : Int,
      straw2Choose bucket seed replica = Except.ok (ε := Fault ε) before →
      straw2Choose (bucket.reweigh i new) seed replica = Except.ok (ε := Fault ε) after →
      (old ≤ new → after = before ∨ bucket.items[i]? = some after) ∧
      (new ≤ old → after ≠ before → bucket.items[i]? = some before)) ∧
    (∀ chosen : Int, straw2Choose bucket seed replica = Except.ok (ε := Fault ε) chosen →
      ∃ k w : Nat, bucket.items[k]? = some chosen ∧ bucket.itemWeights[k]? = some w ∧
        (w = 0 → ∀ v ∈ bucket.itemWeights, v = 0)) ∧
    (replica ≤ u32Max →
      ∃ before after : Int,
        straw2Choose bucket seed replica = Except.ok (ε := Fault ε) before ∧
        straw2Choose (bucket.reweigh i new) seed replica = Except.ok (ε := Fault ε) after) := by
  have inside := (List.getElem?_eq_some_iff.mp weight).1
  have weighted : bucket.itemWeights ≠ [] := List.ne_nil_of_length_pos (by omega)
  have weighted' : (bucket.reweigh i new).itemWeights ≠ [] :=
    List.ne_nil_of_length_pos (by rw [Bucket.reweigh, List.length_set]; omega)
  have held : bucket.items ≠ [] := List.ne_nil_of_length_pos (paired ▸ (by omega))
  refine ⟨fun before after ran ran' => ?_, fun chosen ran => ?_, fun fits => ?_⟩
  · obtain ⟨straws, drawn, k, straw, leads, here⟩ := straw2Choose_eq_ok weighted ran
    obtain ⟨straws', drawn', k', straw', leads', here'⟩ := straw2Choose_eq_ok weighted' ran'
    obtain ⟨grown, shrunk⟩ := drawn.leads_of_grown weight drawn' leads leads'
    constructor
    · intro more
      rcases grown more with rfl | rfl
      · exact .inl (Option.some.inj (here'.symm.trans here))
      · exact .inr here'
    intro less moved
    rcases shrunk less with rfl | rfl
    · exact absurd (Option.some.inj (here'.symm.trans here)) moved
    · exact here
  · obtain ⟨straws, drawn, k, straw, leads, here⟩ := straw2Choose_eq_ok weighted ran
    obtain ⟨w, weight, zero⟩ := drawn.weight_of_leads leads
    exact ⟨k, w, here, weight, zero⟩
  · obtain ⟨before, _, ran⟩ := straw2Choose_total (ε := ε) seed paired held fits
    obtain ⟨after, _, ran'⟩ :=
      straw2Choose_total (ε := ε) seed (paired.reweigh i new) held fits
    exact ⟨before, after, ran, ran'⟩

/-- Two devices, one with twice the weight of the other. -/
def pairBucket : Bucket := ⟨-1, 1, 3, [0, 1], [1, 2]⟩

theorem straw2Choose_stable_pair :
    pairBucket.Paired ∧ pairBucket.itemWeights[0]? = some 1 ∧
      ∃ before after : Int, straw2Choose pairBucket 7 0 = Except.ok (ε := Fault Unit) before ∧
        straw2Choose (pairBucket.reweigh 0 4) 7 0 = Except.ok (ε := Fault Unit) after ∧
        (after = before ∨ pairBucket.items[0]? = some after) := by
  obtain ⟨moves, _, runs⟩ := straw2Choose_stable (ε := Unit) pairBucket rfl 7 0 0 1 4 rfl
  obtain ⟨before, after, ran, ran'⟩ := runs (by decide)
  exact ⟨rfl, rfl, before, after, ran, ran', (moves before after ran ran').1 (by decide)⟩

end RadosRs.Crush
