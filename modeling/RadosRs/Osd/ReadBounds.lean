import RadosRs.Osd.Client
import RadosRs.Osd.ReplyFront
import RadosRs.ReadOp

/-!
# How much data a read is answered with

`validateOperations` compares a reply with the operations it answers: one result
for each of them, with the same code, and no more data for a read than it asked
for.  The last check looks at the operation as it is, so it is not made for a
read that carries flags of its own.  Such a read can be answered with as much
data as fits into a message.

How much that is follows from the layout of a reply.  One that is accepted has at
least `replyFront` bytes in front of the data, and the shortest reply has exactly
that many.  So the reads of a request are bounded by what they asked for if and
only if every read with flags asks for at least as much as a reply can carry.
-/

namespace RadosRs.Osd

open Bytes Fixed Fallible Msgr

/-! ## What a reply has to be -/

/-- How many bytes an operation asks for, if it is a read. -/
def Operation.requested : Operation → Option Nat
  | .read _ length => some length
  | .withFlags operation _ => operation.requested
  | _ => none

/-- Whether it carries flags of its own. -/
def Operation.flagged : Operation → Bool
  | .withFlags .. => true
  | _ => false

/-- One result for each operation, in the same order, with the same code and with at most as
much data as the operation asked for. -/
def Answered (reply : Reply) (operations : List Operation) : Prop :=
  List.Forall₂
    (fun result operation => result.operation = operation.code
      ∧ ∀ length ∈ operation.requested, result.data.length ≤ length)
    reply.operations operations

/-- How much data a reply with `count` results can have. -/
def replyRoom (limits : MessageLimits) (count : Nat) : Nat := limits.maxBytes - replyFront count

/-! ## What is checked -/

/-- The part of the comparison that looks at one operation. -/
def Matched (result : OperationResult) (operation : Operation) : Prop :=
  result.operation = operation.code
    ∧ (operation.flagged = false → ∀ length ∈ operation.requested, result.data.length ≤ length)

theorem validateOperations_iff {reply : Reply} {operations : List Operation} :
    validateOperations reply operations = true
      ↔ List.Forall₂ Matched reply.operations operations := by
  rw [List.forall₂_iff_zip]
  unfold validateOperations
  rw [Bool.and_eq_true, beq_iff_eq, List.all_eq_true]
  refine and_congr_right fun _ => ⟨fun h result operation mem => ?_, fun h pair mem => ?_⟩
  · have checked := h _ mem
    rw [Bool.and_eq_true, beq_iff_eq] at checked
    refine ⟨checked.1, fun bare length asked => ?_⟩
    cases operation with
    | read offset n =>
      cases asked
      simpa using checked.2
    | withFlags operation flags => cases bare
    | _ => cases asked
  · obtain ⟨result, operation⟩ := pair
    obtain ⟨code, data⟩ := h mem
    rw [Bool.and_eq_true, beq_iff_eq]
    refine ⟨code, ?_⟩
    cases operation with
    | read offset n => simpa using data rfl n rfl
    | _ => rfl

/-! ## What fits -/

/-- No result of an accepted reply has more data than there is room for. -/
theorem decodeReply_fits {message : Message} {limits : MessageLimits} {reply : Reply}
    (h : decodeReply message limits = .ok reply) :
    reply.operations.length ≤ limits.maxOperations
      ∧ ∀ result ∈ reply.operations,
        result.data.length ≤ replyRoom limits reply.operations.length := by
  obtain ⟨total, lengths, shape, few, sizes, data⟩ := front_of_decodeReply h
  have count : reply.operations.length = lengths.length := by rw [← sizes, List.length_map]
  refine ⟨count ▸ few, fun result mem => ?_⟩
  have piece : result.data.length ≤ message.data.length := by
    rw [← data, List.flatMap_def]
    exact (List.sublist_flatten_of_mem (List.mem_map_of_mem mem)).length_le
  have front := shape.length_le
  rw [count]
  unfold replyRoom
  omega

theorem Operation.code_lt (operation : Operation) : operation.code < 2 ^ 16 := by
  induction operation with
  | withFlags operation flags ih => exact ih
  | _ => simp [code]

/-! ## Reads with flags -/

/-- Empty results for the operations but one, which gets `data`. -/
def resultsWith (before after : List Operation) (operation : Operation) (data : List UInt8) :
    List (Nat × List UInt8) :=
  (before.map fun other => (other.code, [])) ++ (operation.code, data) ::
    after.map fun other => (other.code, [])

section Flagged

variable {before after : List Operation} {operation : Operation} {data : List UInt8}
  {limits : MessageLimits}

theorem length_resultsWith :
    (resultsWith before after operation data).length = (before ++ operation :: after).length := by
  simp [resultsWith]

theorem data_resultsWith : (resultsWith before after operation data).flatMap (·.2) = data := by
  have empty : ∀ others : List Operation,
      (others.map fun other => (other.code, ([] : List UInt8))).flatMap (·.2) = [] := by
    intro others
    simp
  rw [resultsWith, List.flatMap_append, List.flatMap_cons, empty, empty, List.nil_append,
    List.append_nil]

theorem mem_resultsWith {result : Nat × List UInt8}
    (mem : result ∈ resultsWith before after operation data) :
    result.1 < 2 ^ 16 ∧ result.2.length ≤ data.length := by
  have plain : ∀ others : List Operation, result ∈ others.map (fun other => (other.code, [])) →
      result.1 < 2 ^ 16 ∧ result.2.length ≤ data.length := by
    intro others mem
    obtain ⟨other, -, rfl⟩ := List.mem_map.mp mem
    exact ⟨other.code_lt, Nat.zero_le _⟩
  rcases List.mem_append.mp mem with mem | mem
  · exact plain before mem
  cases mem with
  | head => exact ⟨operation.code_lt, Nat.le_refl _⟩
  | tail _ mem => exact plain after mem

/-- Whatever fits into a reply is accepted as the data of an operation with flags. -/
theorem flagged_accepted (flagged : operation.flagged = true) (width : limits.maxBytes ≤ u32Max)
    (count : (before ++ operation :: after).length ≤ limits.maxOperations)
    (room : replyFront (before ++ operation :: after).length + data.length ≤ limits.maxBytes) :
    ∃ message reply, decodeReply message limits = .ok reply
      ∧ validateOperations reply (before ++ operation :: after) = true
      ∧ reply.operations = (resultsWith before after operation data).map
          fun result => ⟨result.1, 0, result.2⟩ := by
  have fits : (before ++ operation :: after).length ≤ u32Max := by
    unfold replyFront at room
    omega
  have nonempty : resultsWith before after operation data ≠ [] := by simp [resultsWith]
  obtain ⟨reply, decoded, results⟩ := decodeReply_replyMessage nonempty
    (by rw [length_resultsWith]; exact Nat.le_min.mpr ⟨count, fits⟩)
    (fun result mem => (mem_resultsWith mem).1)
    (fun result mem => by have := (mem_resultsWith mem).2; omega)
    (by rw [length_resultsWith, data_resultsWith]; exact room)
  refine ⟨_, reply, decoded, validateOperations_iff.mpr ?_, results⟩
  have plain : ∀ others : List Operation, List.Forall₂ Matched
      ((others.map fun other => (other.code, ([] : List UInt8))).map
        fun result => (⟨result.1, 0, result.2⟩ : OperationResult)) others := by
    intro others
    rw [List.map_map, List.forall₂_map_left_iff, List.forall₂_same]
    exact fun other _ => ⟨rfl, fun _ length _ => Nat.zero_le length⟩
  rw [results, resultsWith, List.map_append, List.map_cons]
  refine List.rel_append (plain before) (.cons ⟨rfl, fun bare => ?_⟩ (plain after))
  rw [flagged] at bare
  cases bare

end Flagged

/-- The reads of a request are answered with no more than they asked for, whatever the reply,
if and only if each read with flags asks for all that a reply can carry. -/
theorem reads_answered_iff (operations : List Operation) (limits : MessageLimits)
    (width : limits.maxBytes ≤ u32Max) :
    (∀ message reply, decodeReply message limits = .ok reply →
        validateOperations reply operations = true → Answered reply operations)
      ↔ (operations.length ≤ limits.maxOperations → ∀ operation ∈ operations,
          operation.flagged = true → ∀ length ∈ operation.requested,
            replyRoom limits operations.length ≤ length) := by
  constructor
  · intro answered count operation mem flagged length asked
    -- otherwise a reply with one byte more than asked for would be accepted
    by_contra short
    rw [Nat.not_le] at short
    obtain ⟨before, after, rfl⟩ := List.append_of_mem mem
    have room : replyFront (before ++ operation :: after).length + (zeros (length + 1)).length
        ≤ limits.maxBytes := by
      unfold replyRoom at short
      rw [zeros, List.length_replicate]
      omega
    obtain ⟨message, reply, decoded, valid, results⟩ :=
      flagged_accepted flagged width count room
    have all := answered message reply decoded valid
    unfold Answered at all
    rw [results, resultsWith, List.map_append, List.map_cons] at all
    have here := List.forall₂_drop before.length all
    rw [List.drop_left' (by simp), List.drop_left' rfl] at here
    cases here with
    | cons head _ =>
      have data := head.2 length asked
      rw [zeros, List.length_replicate] at data
      omega
  · intro roomy message reply decoded valid
    obtain ⟨count, fits⟩ := decodeReply_fits decoded
    have matched := validateOperations_iff.mp valid
    have same := matched.length_eq
    rw [List.forall₂_iff_zip] at matched
    refine List.forall₂_iff_zip.mpr ⟨same, fun {result operation} mem => ?_⟩
    obtain ⟨code, data⟩ := matched.2 mem
    obtain ⟨result_mem, operation_mem⟩ := List.of_mem_zip mem
    refine ⟨code, fun length asked => ?_⟩
    cases flagged : operation.flagged with
    | false => exact data flagged length asked
    | true =>
      rw [same] at count fits
      exact (fits result result_mem).trans (roomy count operation operation_mem flagged length asked)

/-- A read with flags that asks for a whole message. -/
theorem reads_answered_whole :
    4096 ≤ u32Max ∧ ∀ message reply, decodeReply message ⟨4096, 16⟩ = .ok reply →
      validateOperations reply [.read 0 1, .withFlags (.read 0 4096) opFlagFailOk] = true →
        Answered reply [.read 0 1, .withFlags (.read 0 4096) opFlagFailOk] :=
  ⟨by decide, (reads_answered_iff [.read 0 1, .withFlags (.read 0 4096) opFlagFailOk] ⟨4096, 16⟩
    (by decide)).mpr fun _ => by decide⟩

set_option maxRecDepth 1000

/-- A compound read of one byte that may fail is answered with two bytes. -/
theorem not_answered_flagged :
    ∃ operations message reply,
      (do
        let op ← ReadOp.new.read 0 1
        let op ← op.setFlags 0 opFlagFailOk
        op.intoOperations) = .ok operations
        ∧ decodeReply message ⟨4096, 16⟩ = .ok reply
        ∧ validateOperations reply operations = true
        ∧ ¬ Answered reply operations := by
  refine ⟨[.withFlags (.read 0 1) opFlagFailOk], replyMessage [(0x1201, [1, 2])],
    { object := [], pg := ⟨0, 0, 0⟩, flags := 0, result := 0, mapEpoch := 0, retry := 0
      version := 0, redirect := none, operations := [⟨0x1201, 0, [1, 2]⟩] },
    rfl, by decide, by decide, ?_⟩
  intro answered
  cases answered with
  | cons head _ => exact absurd (head.2 1 rfl) (by decide)

end RadosRs.Osd
