import RadosRs.Msgr.Session.Machine
import RadosRs.Osd.Enumeration
import RadosRs.Osd.Message

/-!
# Backoffs

An OSD that cannot serve a range of objects sends a backoff, and the client holds
requests to the range back until the OSD takes it off again.  The range is half
open in the order of objects, and a range from an object to itself is this object
alone: `contains` is membership in it (`contains_iff`).

The client acknowledges a block by sending the backoff back with another operation.
Such an acknowledgment takes a lane of the session of its own, which lets nothing
else pass and knows it by the byte at a fixed place.  The operation stands there
whatever the backoff is, since all that is written before it has a fixed width.
-/

namespace RadosRs.Osd

open Bytes Fixed Fallible Wire Msgr
open Maps (Pg)

def messageOsdBackoff : Nat := 61
def backoffBlock : Nat := 1
def backoffAckBlock : Nat := 2
def backoffUnblock : Nat := 3

structure Backoff where
  pg : Pg
  shard : Int
  mapEpoch : Nat
  operation : Nat
  id : Nat
  beginning : HObject
  ending : HObject
  deriving DecidableEq, Repr

def Backoff.contains (backoff : Backoff) (target : HObject) : Bool :=
  if compareHobject backoff.beginning backoff.ending = .eq then
    compareHobject target backoff.beginning == .eq
  else
    compareHobject backoff.beginning target != .gt
      && compareHobject target backoff.ending == .lt

/-! ## On the wire -/

def decodeSpg (decoder : Decoder) : Except WireError ((Pg × Int) × Decoder) := do
  let ((version, payload), decoder) := decoder.versioned 1
  decoder.finish
  let (layout, payload) := payload.u8
  if version != 1 || layout != 1 then throw (.unsupportedVersion 1 version)
  let (pool, payload) := payload.u64
  let (seed, payload) := payload.u32
  let (preferred, payload) := payload.i32
  let (shard, payload) := payload.i8
  payload.finish
  if payload.remaining != 0 then throw .malformed
  return ((⟨pool, seed, preferred⟩, shard), decoder)

def encodeSpg (encoder : Encoder) (pg : Pg) (shard : Int) : Encoder :=
  encoder.versioned 1 1 fun payload =>
    ((((payload.u8 1).u64 pg.pool).u32 pg.seed).i32 pg.preferred).i8 shard

/-- The front of a message, after the checks of its header. -/
def decodeBackoffFront (decoder : Decoder) : Except WireError Backoff := do
  let ((pg, shard), decoder) ← decodeSpg decoder
  let (mapEpoch, decoder) := decoder.u32
  let (operation, decoder) := decoder.u8
  if operation != backoffBlock && operation != backoffUnblock then
    throw (.unsupportedVersion backoffUnblock operation)
  let (id, decoder) := decoder.u64
  let (beginning, decoder) ← decodeHobject decoder
  let (ending, decoder) ← decodeHobject decoder
  decoder.finish
  if decoder.remaining != 0 then throw .malformed
  return { pg, shard, mapEpoch, operation, id, beginning, ending }

def decodeBackoff (message : Message) (limits : MessageLimits) : Except WireError Backoff :=
  if limits.maxBytes == 0 || message.header.messageType != messageOsdBackoff
      || message.header.version != 1 || message.header.compatVersion > 1
      || !message.middle.isEmpty || !message.data.isEmpty
      || message.front.length > limits.maxBytes then .error .malformed
  else decodeBackoffFront (.new message.front limits.maxBytes)

def encodeBackoffFront (encoder : Encoder) (backoff : Backoff) (operation : Nat) : Encoder :=
  let encoder := encodeSpg encoder backoff.pg backoff.shard
  let encoder := ((encoder.u32 backoff.mapEpoch).u8 operation).u64 backoff.id
  encodeHobject (encodeHobject encoder backoff.beginning) backoff.ending

def backoffMessage (front : List UInt8) : Message :=
  { header := { messageType := messageOsdBackoff, version := 1, compatVersion := 1 }
    lengths := { front := front.length }
    front }

/-- The source's `encode`. -/
def encodeBackoff (backoff : Backoff) (operation : Nat) (limits : MessageLimits) :
    Except WireError Message := do
  let front ← (encodeBackoffFront (.new limits.maxBytes) backoff operation).finish
  if front.length > u32Max then throw .limitExceeded
  return backoffMessage front

def encodeAcknowledgment (backoff : Backoff) (limits : MessageLimits) :
    Except WireError Message :=
  if limits.maxBytes == 0 || backoff.operation != backoffBlock then .error .malformed
  else encodeBackoff backoff backoffAckBlock limits

/-! ## Ranges -/

/-- What objects are compared by: the end of all objects, the pool, the reversed hash, the name
space, the key, the name and the snapshot. -/
def rank (object : HObject) : Bool ×ₗ ℤ ×ₗ ℕ ×ₗ List ℕ ×ₗ List ℕ ×ₗ List ℕ ×ₗ ℕ :=
  toLex (object.max, toLex (object.pool.toInt, toLex ((reverseBits object.hash).toNat,
    toLex (numbers object.nameSpace, toLex (numbers (effectiveKey object),
      toLex (numbers object.object, object.snapshot.toNat))))))

theorem order_rank {left right : HObject} (one : ¬ (left.max = true ∧ right.max = true)) :
    order (position left) (position right) = order (rank left) (rank right) := by
  cases first : left.max with
  | true =>
    cases second : right.max with
    | true => exact absurd ⟨first, second⟩ one
    | false =>
      rw [position_max first, rank, rank, first, second, order_toLex]
      exact order_eq_gt.mpr (position_lt_top second)
  | false =>
    cases second : right.max with
    | true =>
      rw [position_max second, rank, rank, first, second, order_toLex]
      exact order_eq_lt.mpr (position_lt_top first)
    | false =>
      have same : order false false = .eq := order_eq_eq.mpr rfl
      rw [rank, rank, first, second, order_toLex, same, Ordering.eq_then]
      simp only [position, first, second, Bool.false_eq_true, if_false, order_coe]

theorem compareHobject_eq_eq {left right : HObject} :
    compareHobject left right = .eq ↔ position left = position right := by
  rw [compareHobject_eq, order_eq_eq]

variable {backoff : Backoff}

/-- A range from one object up to a later one is half open. -/
theorem contains_iff (proper : compareHobject backoff.beginning backoff.ending = .lt)
    (target : HObject) :
    backoff.contains target = true
      ↔ position backoff.beginning ≤ position target
        ∧ position target < position backoff.ending := by
  have different : ¬ compareHobject backoff.beginning backoff.ending = .eq := by
    rw [proper]
    decide
  rw [Backoff.contains, if_neg different, Bool.and_eq_true, bne_iff_ne, beq_iff_eq,
    compareHobject_ne_gt, compareHobject_lt]

/-- Objects are compared by their rank, all ends being equal, and the ranges of backoffs are
intervals of this order. -/
theorem hobjects_ordered :
    (∀ left right, compareHobject left right
        = if left.max && right.max then .eq else cmp (rank left) (rank right))
      ∧ (∀ object, compareHobject object object = .eq)
      ∧ (∀ left right, compareHobject right left = (compareHobject left right).swap)
      ∧ (∀ first second third, compareHobject first second ≠ .gt →
        compareHobject second third ≠ .gt → compareHobject first third ≠ .gt)
      ∧ ∀ backoff : Backoff,
        (compareHobject backoff.beginning backoff.ending = .lt →
          (∀ target, backoff.contains target = true
            ↔ compareHobject backoff.beginning target ≠ .gt
              ∧ compareHobject target backoff.ending = .lt)
          ∧ ∀ first second third, backoff.contains first = true → backoff.contains third = true →
            compareHobject first second ≠ .gt → compareHobject second third ≠ .gt →
            backoff.contains second = true)
        ∧ (compareHobject backoff.beginning backoff.ending = .eq →
          ∀ target, backoff.contains target = true
            ↔ compareHobject target backoff.beginning = .eq) := by
  refine ⟨fun left right => ?_, fun object => ?_, fun left right => ?_,
    fun first second third => ?_, fun backoff => ⟨fun proper => ⟨fun target => ?_,
      fun first second third => ?_⟩, fun same target => ?_⟩⟩
  · split
    next both =>
      rw [Bool.and_eq_true] at both
      rw [compareHobject_eq_eq, position_max both.1, position_max both.2]
    next one =>
      rw [Bool.and_eq_true] at one
      rw [compareHobject_eq, order_rank one]
      rfl
  · rw [compareHobject_eq_eq]
  · rw [compareHobject_eq, compareHobject_eq]
    exact (cmp_swap _ _).symm
  · simp only [compareHobject_ne_gt]
    exact le_trans
  · rw [contains_iff proper, compareHobject_ne_gt, compareHobject_lt]
  · simp only [contains_iff proper, compareHobject_ne_gt]
    rintro ⟨low, -⟩ ⟨-, high⟩ before after
    exact ⟨low.trans before, after.trans_lt high⟩
  · rw [Backoff.contains, if_pos same, beq_iff_eq]

/-- An object of pool 7 by its name. -/
def sampleHobject (name : List UInt8) : HObject :=
  ⟨[], name, noSnap, 0x80000000, false, [115], 7⟩

def sampleBackoff : Backoff :=
  ⟨⟨7, 3, -1⟩, -1, 9, backoffBlock, 42, sampleHobject [97], sampleHobject [122]⟩

set_option maxRecDepth 1000

theorem hobjects_ordered_sample :
    compareHobject sampleBackoff.beginning sampleBackoff.ending = .lt
      ∧ sampleBackoff.contains (sampleHobject [109]) = true := by
  have proper : compareHobject sampleBackoff.beginning sampleBackoff.ending = .lt := by
    decide
  refine ⟨proper, ((hobjects_ordered.2.2.2.2 sampleBackoff).1 proper).1 _ |>.mpr ?_⟩
  decide

/-! ## Acknowledgments -/

namespace Backoff

/-- The record with the placement group. -/
def spgBytes (backoff : Backoff) : List UInt8 :=
  leBytes 1 1 ++ leBytes 8 backoff.pg.pool ++ leBytes 4 backoff.pg.seed
    ++ leBytes 4 (twos 4 backoff.pg.preferred) ++ leBytes 1 (twos 1 backoff.shard)

/-- What is written before the operation. -/
def before (backoff : Backoff) : List UInt8 :=
  leBytes 1 1 ++ leBytes 1 1 ++ leBytes 4 backoff.spgBytes.length ++ backoff.spgBytes
    ++ leBytes 4 backoff.mapEpoch

/-- What is written after the operation. -/
def after (backoff : Backoff) : List UInt8 :=
  leBytes 8 backoff.id ++ backoff.beginning.bytes ++ backoff.ending.bytes

/-- The front with the given operation. -/
def front (backoff : Backoff) (operation : Nat) : List UInt8 :=
  backoff.before ++ leBytes 1 operation ++ backoff.after

theorem length_before (backoff : Backoff) : backoff.before.length = 28 := by
  simp [before, spgBytes]

end Backoff

/-- The operation stands at a fixed place. -/
theorem Backoff.operation_front (backoff : Backoff) (operation : Nat) :
    (backoff.front operation)[28]? = some (UInt8.ofNat operation) := by
  have before := backoff.length_before
  rw [front, List.append_assoc, List.getElem?_append_right (le_of_eq before), before]
  rfl

theorem Backoff.set_front (backoff : Backoff) (operation operation' : Nat) :
    (backoff.front operation).set 28 (UInt8.ofNat operation') = backoff.front operation' := by
  have before := backoff.length_before
  rw [front, List.append_assoc, List.set_append_right _ _ (le_of_eq before), before, front,
    List.append_assoc]
  rfl

theorem appends_encodeHobject {write : Encoder → Encoder} {value : List UInt8}
    (h : Encoder.Appends write value) (object : HObject) :
    Encoder.Appends (fun e => encodeHobject (write e) object) (value ++ object.bytes) := by
  have body := ((((((Encoder.Appends.nothing.blob object.key).blob object.object).uint 8
    object.snapshot.toNat).uint 4 object.hash.toNat).uint 1 object.max.toNat).blob
    object.nameSpace).sint 8 object.pool.toInt
  have written := h.versioned 4 3 body
  simp only [List.nil_append] at written
  simp only [HObject.bytes, HObject.payload, List.append_assoc] at written ⊢
  exact written

theorem appends_encodeBackoffFront (backoff : Backoff) (operation : Nat) :
    Encoder.Appends (encodeBackoffFront · backoff operation) (backoff.front operation) := by
  have spg := ((((Encoder.Appends.nothing.uint 1 1).uint 8 backoff.pg.pool).uint 4
    backoff.pg.seed).sint 4 backoff.pg.preferred).sint 1 backoff.shard
  have written := appends_encodeHobject (appends_encodeHobject
    ((((Encoder.Appends.nothing.versioned 1 1 spg).uint 4 backoff.mapEpoch).uint 1 operation).uint 8
      backoff.id) backoff.beginning) backoff.ending
  simp only [List.nil_append, List.append_assoc] at written
  simp only [Backoff.front, Backoff.before, Backoff.after, Backoff.spgBytes, List.append_assoc]
  exact written

variable {operation : Nat}

theorem bytes_encodeBackoffFront {limit : Nat}
    (unfailed : (encodeBackoffFront (.new limit) backoff operation).error = none) :
    (encodeBackoffFront (.new limit) backoff operation).bytes = backoff.front operation :=
  (appends_encodeBackoffFront backoff operation _ unfailed).2

theorem within_encodeHobject {limit : Nat} {e : Encoder} (h : Encoder.Within limit e)
    (object : HObject) : Encoder.Within limit (encodeHobject e object) := h.versioned 4 3 _

theorem within_encodeBackoffFront (limit : Nat) (backoff : Backoff) (operation : Nat) :
    Encoder.Within limit (encodeBackoffFront (.new limit) backoff operation) := by
  have spg : Encoder.Within limit (encodeSpg (.new limit) backoff.pg backoff.shard) :=
    (Encoder.Within.new limit).versioned 1 1 _
  have header := ((spg.uint 4 backoff.mapEpoch).uint 1 operation).uint 8 backoff.id
  exact within_encodeHobject (within_encodeHobject header _) _

/-- The operation does not decide whether a backoff can be encoded. -/
theorem alike_encodeBackoffFront (encoder : Encoder) (backoff : Backoff)
    (operation operation' : Nat) :
    (encodeBackoffFront encoder backoff operation).Alike
      (encodeBackoffFront encoder backoff operation') := by
  have object {e f : Encoder} (h : e.Alike f) (object : HObject) :
      (encodeHobject e object).Alike (encodeHobject f object) :=
    h.versioned 4 3 fun h =>
      ((((((h.blob _).blob _).uint 8 _ _).uint 4 _ _).uint 1 _ _).blob _).sint 8 _ _
  have header := (((Encoder.Alike.refl (encodeSpg encoder backoff.pg backoff.shard)).uint 4
    backoff.mapEpoch backoff.mapEpoch).uint 1 operation operation').uint 8 backoff.id backoff.id
  exact object (object header _) _

variable {limits : MessageLimits} {message : Message}

theorem encodeBackoff_eq_ok (h : encodeBackoff backoff operation limits = .ok message) :
    message = backoffMessage (backoff.front operation)
      ∧ (backoff.front operation).length ≤ u32Max
      ∧ (encodeBackoffFront (.new limits.maxBytes) backoff operation).error = none := by
  obtain ⟨front, finished, h⟩ := bind_eq_ok.mp h
  obtain ⟨unfailed, rfl⟩ := Encoder.finish_eq_ok finished
  have bytes := bytes_encodeBackoffFront unfailed
  obtain ⟨short, h⟩ := check_eq_ok.mp h
  cases h
  rw [bytes] at short ⊢
  exact ⟨rfl, not_lt.mp short, unfailed⟩

theorem length_front (backoff : Backoff) (operation operation' : Nat) :
    (backoff.front operation).length = (backoff.front operation').length := by
  simp [Backoff.front]

/-- A backoff that can be encoded with one operation can be encoded with any other. -/
theorem encodeBackoff_other (h : encodeBackoff backoff operation limits = .ok message)
    (operation' : Nat) :
    encodeBackoff backoff operation' limits = .ok (backoffMessage (backoff.front operation')) := by
  obtain ⟨-, short, unfailed⟩ := encodeBackoff_eq_ok h
  have alike := alike_encodeBackoffFront (.new limits.maxBytes) backoff operation operation'
  have unfailed' := alike.error.symm.trans unfailed
  refine bind_eq_ok.mpr ⟨backoff.front operation', ?_, check_eq_ok.mpr ⟨?_, rfl⟩⟩
  · rw [Encoder.finish, unfailed', bytes_encodeBackoffFront unfailed']
  · rw [length_front backoff operation' operation]
    exact not_lt.mpr short

/-- The numbers are within the widths they are written with. -/
structure Backoff.Bounded (backoff : Backoff) : Prop where
  pool : backoff.pg.pool < 256 ^ 8
  seed : backoff.pg.seed < 256 ^ 4
  preferred : -2 ^ 31 ≤ backoff.pg.preferred ∧ backoff.pg.preferred < 2 ^ 31
  shard : -2 ^ 7 ≤ backoff.shard ∧ backoff.shard < 2 ^ 7
  mapEpoch : backoff.mapEpoch < 256 ^ 4
  operation : backoff.operation = backoffBlock ∨ backoff.operation = backoffUnblock
  id : backoff.id < 256 ^ 8

theorem decodeSpg_eq_ok {decoder after : Decoder} {pg : Pg} {shard : Int}
    (h : decodeSpg decoder = .ok ((pg, shard), after)) :
    pg.pool < 256 ^ 8 ∧ pg.seed < 256 ^ 4 ∧ (-2 ^ 31 ≤ pg.preferred ∧ pg.preferred < 2 ^ 31)
      ∧ -2 ^ 7 ≤ shard ∧ shard < 2 ^ 7 := by
  obtain ⟨-, -, h⟩ := bind_eq_ok.mp h
  obtain ⟨-, h⟩ := check_eq_ok.mp h
  obtain ⟨-, -, h⟩ := bind_eq_ok.mp h
  obtain ⟨-, h⟩ := check_eq_ok.mp h
  cases h
  exact ⟨Decoder.uint_lt _ 8, Decoder.uint_lt _ 4, Decoder.sint_bounds _ (by decide),
    Decoder.sint_bounds _ (by decide)⟩

theorem decodeBackoffFront_eq_ok {decoder : Decoder}
    (h : decodeBackoffFront decoder = .ok backoff) : backoff.Bounded := by
  obtain ⟨⟨⟨pg, shard⟩, after⟩, spg, h⟩ := bind_eq_ok.mp h
  obtain ⟨pool, seed, preferred, shard⟩ := decodeSpg_eq_ok spg
  obtain ⟨known, h⟩ := check_eq_ok.mp h
  obtain ⟨⟨beginning, _⟩, -, h⟩ := bind_eq_ok.mp h
  obtain ⟨⟨ending, _⟩, -, h⟩ := bind_eq_ok.mp h
  obtain ⟨-, -, h⟩ := bind_eq_ok.mp h
  obtain ⟨-, h⟩ := check_eq_ok.mp h
  cases h
  refine ⟨pool, seed, preferred, shard, Decoder.uint_lt _ 4, ?_, Decoder.uint_lt _ 8⟩
  rw [Bool.and_eq_true, bne_iff_ne, bne_iff_ne, not_and_or, not_not, not_not] at known
  exact known

theorem decodeBackoff_eq_ok (h : decodeBackoff message limits = .ok backoff) : backoff.Bounded := by
  unfold decodeBackoff at h
  split at h
  · cases h
  · exact decodeBackoffFront_eq_ok h

section Reading

variable {backoff : Backoff} {maxBytes : Nat}

theorem decodeSpg_between (bounded : backoff.Bounded) (room : 18 ≤ maxBytes) (rest : List UInt8) :
    decodeSpg (.between [] (leBytes 1 1 ++ (leBytes 1 1 ++ (leBytes 4 backoff.spgBytes.length
        ++ (backoff.spgBytes ++ rest)))) maxBytes)
      = .ok ((backoff.pg, backoff.shard), .between (leBytes 1 1 ++ leBytes 1 1
          ++ leBytes 4 backoff.spgBytes.length ++ backoff.spgBytes) rest maxBytes) := by
  have length : backoff.spgBytes.length = 18 := by simp [Backoff.spgBytes]
  have record := Decoder.versioned_between [] rest maxBytes backoff.spgBytes
    (by decide : 1 < 256) (by decide : 1 ≤ 1) (by decide) (by rw [length]; decide)
    (by rw [length]; exact room)
  simp only [List.nil_append] at record
  have preferred : ofTwos 4 (twos 4 backoff.pg.preferred % 256 ^ 4) = backoff.pg.preferred := by
    rw [Nat.mod_eq_of_lt (twos_lt 4 _), ofTwos_twos (by decide) bounded.preferred.1
      bounded.preferred.2]
  have shard : ofTwos 1 (twos 1 backoff.shard % 256 ^ 1) = backoff.shard := by
    rw [Nat.mod_eq_of_lt (twos_lt 1 _), ofTwos_twos (by decide) bounded.shard.1 bounded.shard.2]
  have last := fun used => Decoder.sint_between used [] maxBytes 1 (twos 1 backoff.shard)
  simp only [List.append_nil] at last
  simp only [decodeSpg, record, Decoder.finish_between]
  simp only [Backoff.spgBytes, Decoder.new_eq_between, List.append_assoc, Decoder.u8, Decoder.u64,
    Decoder.u32, Decoder.i32, Decoder.i8, Decoder.uint_between, Decoder.sint_between, last,
    preferred, shard, Nat.mod_eq_of_lt bounded.pool, Nat.mod_eq_of_lt bounded.seed,
    Decoder.finish_between, Decoder.remaining_between]
  rfl

theorem decodeBackoffFront_front (bounded : backoff.Bounded)
    (fits : (backoff.front backoff.operation).length ≤ u32Max)
    (room : (backoff.front backoff.operation).length ≤ maxBytes) :
    decodeBackoffFront (.new (backoff.front backoff.operation) maxBytes) = .ok backoff := by
  have lengths : (backoff.front backoff.operation).length
      = 37 + backoff.beginning.bytes.length + backoff.ending.bytes.length := by
    simp [Backoff.front, Backoff.after, Backoff.length_before]
    omega
  have small : backoff.operation < 256 ^ 1 := by
    obtain block | unblock := bounded.operation
    · rw [block]; decide
    · rw [unblock]; decide
  have known : ¬ (backoff.operation != backoffBlock && backoff.operation != backoffUnblock) = true := by
    rw [Bool.and_eq_true, bne_iff_ne, bne_iff_ne, not_and_or, not_not, not_not]
    exact bounded.operation
  have object (object : HObject) (within : object.bytes.length
      ≤ (backoff.front backoff.operation).length) (used rest : List UInt8) :
      decodeHobject (.between used (object.bytes ++ rest) maxBytes)
        = .ok (object, .between (used ++ object.bytes) rest maxBytes) := by
    have payload : object.payload.length ≤ object.bytes.length := by
      rw [object.length_bytes, object.length_payload]
      omega
    exact decodeHobject_between object (by omega) (by omega) used rest
  have last := fun used => object backoff.ending (by omega) used []
  simp only [List.append_nil] at last
  have whole : backoff.front backoff.operation
      = leBytes 1 1 ++ (leBytes 1 1 ++ (leBytes 4 backoff.spgBytes.length ++ (backoff.spgBytes
        ++ (leBytes 4 backoff.mapEpoch ++ (leBytes 1 backoff.operation ++ (leBytes 8 backoff.id
          ++ (backoff.beginning.bytes ++ backoff.ending.bytes))))))) := by
    simp only [Backoff.front, Backoff.before, Backoff.after, List.append_assoc]
  rw [whole, Decoder.new_eq_between]
  refine bind_eq_ok.mpr ⟨_, decodeSpg_between bounded (by omega) _, ?_⟩
  simp only [Decoder.u32, Decoder.u8, Decoder.u64, Decoder.uint_between,
    Nat.mod_eq_of_lt bounded.mapEpoch, Nat.mod_eq_of_lt small, Nat.mod_eq_of_lt bounded.id]
  refine check_eq_ok.mpr ⟨known, ?_⟩
  refine bind_eq_ok.mpr ⟨_, object backoff.beginning (by omega) _ _, ?_⟩
  refine bind_eq_ok.mpr ⟨_, last _, ?_⟩
  simp only [Decoder.finish_between, Decoder.remaining_between]
  rfl

end Reading

/-- The encoding of a backoff is read as this backoff. -/
theorem decodeBackoff_encodeBackoff {canonical : Message} (bounded : backoff.Bounded)
    (room : limits.maxBytes ≠ 0)
    (h : encodeBackoff backoff backoff.operation limits = .ok canonical) :
    decodeBackoff canonical limits = .ok backoff := by
  obtain ⟨rfl, fits, unfailed⟩ := encodeBackoff_eq_ok h
  have short : (backoff.front backoff.operation).length ≤ limits.maxBytes := by
    rw [← bytes_encodeBackoffFront unfailed]
    exact (within_encodeBackoffFront limits.maxBytes backoff backoff.operation).length
  have usable : ¬ (limits.maxBytes == 0
      || (backoffMessage (backoff.front backoff.operation)).header.messageType != messageOsdBackoff
      || (backoffMessage (backoff.front backoff.operation)).header.version != 1
      || (backoffMessage (backoff.front backoff.operation)).header.compatVersion > 1
      || !(backoffMessage (backoff.front backoff.operation)).middle.isEmpty
      || !(backoffMessage (backoff.front backoff.operation)).data.isEmpty
      || (backoffMessage (backoff.front backoff.operation)).front.length > limits.maxBytes)
        = true := by
    simp [backoffMessage, room, short]
  rw [decodeBackoff, if_neg usable]
  exact decodeBackoffFront_front bounded fits short

/-- The lane of acknowledgments, for a session in which it is open. -/
theorem admitControl_backoffMessage (x : Session.Exec) (requestId generation : Nat)
    (backoff : Backoff) :
    x.admitControl requestId (backoffMessage (backoff.front backoffAckBlock)) generation
      = if generation != x.controlGeneration || x.state != .ready then
          x.emit (.failed requestId .disconnected)
        else x.admitRequest requestId (backoffMessage (backoff.front backoffAckBlock)) true true := by
  have length : ¬ (backoff.front backoffAckBlock).length < 29 := by
    have before := backoff.length_before
    simp only [Backoff.front, List.length_append, before, length_leBytes]
    omega
  have operation : (backoff.front backoffAckBlock)[28]? = some 2 :=
    backoff.operation_front backoffAckBlock
  have passes : ¬ ((backoffMessage (backoff.front backoffAckBlock)).header.messageType != 61
      || (backoffMessage (backoff.front backoffAckBlock)).header.version != 1
      || (backoffMessage (backoff.front backoffAckBlock)).header.compatVersion > 1
      || (backoffMessage (backoff.front backoffAckBlock)).front.length < 29
      || (backoffMessage (backoff.front backoffAckBlock)).front[28]? != some 2
      || !(backoffMessage (backoff.front backoffAckBlock)).middle.isEmpty
      || !(backoffMessage (backoff.front backoffAckBlock)).data.isEmpty) = true := by
    simp [backoffMessage, messageOsdBackoff, length, operation]
  rw [Session.Exec.admitControl, if_neg passes]

/-- A cursor is read back as it was, and a block that has been read is acknowledged by its own
encoding with another operation, which the session takes. -/
theorem cursors_and_acknowledgments :
    (∀ (cursor : HObject) (data : List UInt8), marshalCursor cursor = .ok data →
      unmarshalCursor data = .ok cursor)
      ∧ ∀ (message : Message) (limits limits' : MessageLimits) (backoff : Backoff)
        (acknowledgment : Message), decodeBackoff message limits = .ok backoff →
        encodeAcknowledgment backoff limits' = .ok acknowledgment →
        (∃ canonical, encodeBackoff backoff backoff.operation limits' = .ok canonical
          ∧ decodeBackoff canonical limits' = .ok backoff
          ∧ canonical.front[28]? = some (UInt8.ofNat backoffBlock)
          ∧ acknowledgment
            = { canonical with front := canonical.front.set 28 (UInt8.ofNat backoffAckBlock) })
        ∧ ∀ (x : Session.Exec) (requestId generation : Nat),
          x.admitControl requestId acknowledgment generation
            = if generation != x.controlGeneration || x.state != .ready then
                x.emit (.failed requestId .disconnected)
              else x.admitRequest requestId acknowledgment true true := by
  refine ⟨fun cursor data h => ?_, fun message limits limits' backoff acknowledgment decoded h => ?_⟩
  · obtain ⟨rfl, fits⟩ := marshalCursor_eq_ok.mp h
    exact unmarshalCursor_bytes fits
  have bounded := decodeBackoff_eq_ok decoded
  unfold encodeAcknowledgment at h
  split at h
  · cases h
  rename_i usable
  rw [Bool.or_eq_true, beq_iff_eq, bne_iff_ne, not_or, not_not] at usable
  obtain ⟨rfl, -, -⟩ := encodeBackoff_eq_ok h
  have encoded := encodeBackoff_other h backoff.operation
  refine ⟨⟨_, encoded, decodeBackoff_encodeBackoff bounded usable.1 encoded, ?_, ?_⟩,
    fun x requestId generation => admitControl_backoffMessage x requestId generation backoff⟩
  · rw [usable.2]
    exact backoff.operation_front backoffBlock
  · rw [usable.2, backoffMessage, backoffMessage, backoff.set_front, length_front backoff]

theorem cursors_and_acknowledgments_sample :
    let limits : MessageLimits := ⟨4096, 4⟩
    unmarshalCursor (sampleHobject [97]).bytes = .ok (sampleHobject [97])
      ∧ ∃ message acknowledgment, decodeBackoff message limits = .ok sampleBackoff
        ∧ encodeAcknowledgment sampleBackoff limits = .ok acknowledgment
        ∧ ∃ canonical, decodeBackoff canonical limits = .ok sampleBackoff
          ∧ acknowledgment
            = { canonical with front := canonical.front.set 28 (UInt8.ofNat backoffAckBlock) } := by
  intro limits
  obtain ⟨cursors, acknowledgments⟩ := cursors_and_acknowledgments
  have marshalled : marshalCursor (sampleHobject [97]) = .ok (sampleHobject [97]).bytes := by
    decide
  have decoded : decodeBackoff (backoffMessage (sampleBackoff.front backoffBlock)) limits
      = .ok sampleBackoff := by decide
  have encoded : encodeAcknowledgment sampleBackoff limits
      = .ok (backoffMessage (sampleBackoff.front backoffAckBlock)) := by decide
  obtain ⟨⟨canonical, -, read, -, same⟩, -⟩ := acknowledgments _ _ _ _ _ decoded encoded
  exact ⟨cursors _ _ marshalled, _, _, decoded, encoded, canonical, read, same⟩

end RadosRs.Osd
