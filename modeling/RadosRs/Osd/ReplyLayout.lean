import RadosRs.Osd.Message
import RadosRs.Wire.Reading
import RadosRs.Lib.Fallible

/-!
# The layout of a reply

`decodeReply` reads the front of a reply field by field and deals out the data
part by the lengths it found there.  It is cut into three stages here, each of
which hands what it read to the next (`decodeReply_eq`).

* `replyHead`: the object, the placement group and how many results there are.
* `replyTables`: a descriptor and a result code for each operation.
* `replyRest`: the redirect, and the pieces of the data.

`replyMessage` is the shortest message with given results
(`decodeReply_replyMessage`).
-/

namespace RadosRs.Osd

open Bytes Fixed Fallible Wire Msgr

/-! ## Stages -/

section Stages

variable {R : Type}

/-- The fields in front of the descriptors. -/
def replyHead (decoder : Decoder)
    (next : List UInt8 → Maps.Pg → Int → Int → Nat → Nat → Decoder → Except MessageError R) :
    Except MessageError R := do
  let (object, decoder) := decoder.blob
  let (pg, decoder) ← decodePg decoder
  let (flags, decoder) := decoder.i64
  let (result, decoder) := decoder.i32
  let (_, decoder) := decoder.raw 12
  let (mapEpoch, decoder) := decoder.u32
  let (count, decoder) := decoder.u32
  finish decoder
  next object pg flags result mapEpoch count decoder

/-- The descriptors, the result codes and the version. -/
def replyTables (count : Nat) (decoder : Decoder)
    (next : List (Nat × Nat) → Int → List Int → Nat → Decoder → Except MessageError R) :
    Except MessageError R :=
  let (descriptors, decoder) := decodeDescriptors count decoder
  let (retry, decoder) := decoder.i32
  let (codes, decoder) := decodeCodes count decoder
  let (_, decoder) := decoder.raw 12
  let (version, decoder) := decoder.u64
  next descriptors retry codes version decoder

/-- The redirect, the rest of the front and the data. -/
def replyRest (message : Message) (lengths : List Nat) (decoder : Decoder)
    (assemble : Option Redirect → List (List UInt8) → R) : Except MessageError R := do
  let (redirected, decoder) := if message.header.version ≥ 7 then decoder.bool else (false, decoder)
  let (redirect, decoder) ←
    if redirected then do
      let (redirect, decoder) ← decodeRedirect decoder
      pure (some redirect, decoder)
    else pure (none, decoder)
  let decoder := if message.header.version ≥ 8 then (decoder.raw 24).2 else decoder
  finish decoder
  if decoder.remaining != 0 then throw .malformed
  let pieces ← splitData message.data 0 lengths
  return assemble redirect pieces

end Stages

theorem decodeReply_eq (message : Message) (limits : MessageLimits) :
    decodeReply message limits =
      if limits.maxBytes == 0 || limits.maxOperations == 0
          || message.header.messageType != messageOsdOpReply || message.header.version < 4
          || message.header.compatVersion > 8
          || message.front.length + message.middle.length + message.data.length > limits.maxBytes
      then throw .malformed
      else
        replyHead (Decoder.new message.front limits.maxBytes)
          fun object pg flags result mapEpoch count decoder =>
        if count > limits.maxOperations || count * operationDescriptorSize > decoder.remaining then
          throw (.wire .limitExceeded)
        else
          replyTables count decoder fun descriptors retry codes version decoder =>
          if message.header.version == 6 then throw .unsupportedVersion
          else
            replyRest message (descriptors.map (·.2)) decoder fun redirect pieces =>
              { object, pg, flags, result, mapEpoch, retry, version, redirect
                operations := ((descriptors.zip codes).zip pieces).map
                  fun ((descriptor, code), data) => ⟨descriptor.1, code, data⟩ } := by
  rfl

/-! ## What was read -/

/-- The length of the shortest front of a reply with `count` results. -/
def replyFront (count : Nat) : Nat := 77 + 42 * count

theorem finish_eq_ok {decoder : Decoder} {u : Unit} (h : finish decoder = .ok u) :
    decoder.error = none := by
  unfold finish Decoder.finish at h
  split at h
  · cases h
  next ok => exact ok

variable (count : Nat)

theorem length_decodeCodes (decoder : Decoder) : (decodeCodes count decoder).1.length = count := by
  induction count generalizing decoder with
  | zero => rfl
  | succ count ih => simp only [decodeCodes, List.length_cons, ih]

variable {pieces : List (List UInt8)}

/-- The pieces have the declared lengths and make up the data from the offset on. -/
theorem splitData_pieces {data : List UInt8} {offset : Nat} {lengths : List Nat}
    (h : splitData data offset lengths = .ok pieces) :
    pieces.map List.length = lengths ∧ pieces.flatten = data.drop offset := by
  induction lengths generalizing offset pieces with
  | nil =>
    unfold splitData at h
    split at h
    · cases h
    rename_i whole
    cases h
    rw [bne_iff_ne, not_not] at whole
    rw [whole, List.drop_length]
    exact ⟨rfl, rfl⟩
  | cons length lengths ih =>
    unfold splitData at h
    obtain ⟨room, h⟩ := check_eq_ok.mp h
    obtain ⟨rest, later, h⟩ := bind_eq_ok.mp h
    obtain ⟨counts, together⟩ := ih later
    cases h
    refine ⟨?_, ?_⟩
    · rw [List.map_cons, counts, List.length_take, List.length_drop, Nat.min_eq_left (by omega)]
    · rw [List.flatten_cons, together, ← List.drop_drop, List.take_append_drop]

/-! ## The shortest reply -/

/-- The fields in front of the descriptors, all zero but the version of the group. -/
def headBytes (count : Nat) : List UInt8 :=
  leBytes 4 0 ++ (leBytes 1 1 ++ (leBytes 8 0 ++ (leBytes 4 0 ++ (leBytes 4 0 ++ (leBytes 8 0 ++
    (leBytes 4 0 ++ (zeros 12 ++ (leBytes 4 0 ++ leBytes 4 count))))))))

def descriptorBytes (result : Nat × List UInt8) : List UInt8 :=
  leBytes 2 result.1 ++ (zeros 32 ++ leBytes 4 result.2.length)

/-- The descriptors, and zero for the codes and the other fields. -/
def tableBytes (results : List (Nat × List UInt8)) : List UInt8 :=
  results.flatMap descriptorBytes ++ (leBytes 4 0 ++ (results.flatMap (fun _ => leBytes 4 0) ++
    (zeros 12 ++ leBytes 8 0)))

/-- The shortest reply with the given results: the code and the data of each operation. -/
def replyMessage (results : List (Nat × List UInt8)) : Message :=
  { header := { messageType := messageOsdOpReply, version := 4 }
    front := headBytes results.length ++ tableBytes results
    data := results.flatMap (·.2) }

section Shortest

variable {R : Type} (used rest : List UInt8) (maxBytes : Nat) (results : List (Nat × List UInt8))

theorem raw_zeros_between :
    (Decoder.between used (zeros count ++ rest) maxBytes).raw count
      = (zeros count, .between (used ++ zeros count) rest maxBytes) :=
  Decoder.raw_between used rest maxBytes (zeros count) List.length_replicate

theorem decodePg_between :
    decodePg (.between used
        (leBytes 1 1 ++ (leBytes 8 0 ++ (leBytes 4 0 ++ (leBytes 4 0 ++ rest)))) maxBytes)
      = .ok (⟨0, 0, 0⟩,
          .between (used ++ (leBytes 1 1 ++ (leBytes 8 0 ++ (leBytes 4 0 ++ leBytes 4 0)))) rest
            maxBytes) := by
  simp only [decodePg, Decoder.u8, Decoder.u64, Decoder.u32, Decoder.i32, Decoder.uint_between,
    Decoder.sint_between, List.append_assoc]
  rfl

theorem replyHead_between {count : Nat} (fits : count ≤ u32Max)
    (next : List UInt8 → Maps.Pg → Int → Int → Nat → Nat → Decoder → Except MessageError R) :
    replyHead (.between used (headBytes count ++ rest) maxBytes) next
      = next [] ⟨0, 0, 0⟩ 0 0 0 count (.between (used ++ headBytes count) rest maxBytes) := by
  have width : count % 256 ^ 4 = count := Nat.mod_eq_of_lt (by unfold u32Max at fits; omega)
  have empty := fun rest => Decoder.blob_between used rest maxBytes [] (Nat.zero_le _)
    (Nat.zero_le _)
  simp only [List.length_nil, List.nil_append, List.append_nil] at empty
  simp only [replyHead, headBytes, List.append_assoc, empty, decodePg_between, bind, Except.bind,
    Decoder.u32, Decoder.i32, Decoder.i64, Decoder.uint_between, Decoder.sint_between,
    raw_zeros_between, width]
  rfl

theorem decodeDescriptors_between (codes : ∀ result ∈ results, result.1 < 2 ^ 16)
    (lengths : ∀ result ∈ results, result.2.length ≤ u32Max) :
    decodeDescriptors results.length
        (.between used (results.flatMap descriptorBytes ++ rest) maxBytes)
      = (results.map fun result => (result.1, result.2.length),
          .between (used ++ results.flatMap descriptorBytes) rest maxBytes) := by
  induction results generalizing used with
  | nil => simp [decodeDescriptors]
  | cons result results ih =>
    have code : result.1 % 256 ^ 2 = result.1 := Nat.mod_eq_of_lt (codes result (.head _))
    have length : result.2.length % 256 ^ 4 = result.2.length := by
      have := lengths result (.head _)
      exact Nat.mod_eq_of_lt (by unfold u32Max at this; omega)
    have later := ih (used ++ descriptorBytes result) (fun r mem => codes r (.tail _ mem))
      (fun r mem => lengths r (.tail _ mem))
    simp only [descriptorBytes, List.append_assoc] at later
    simp only [List.length_cons, decodeDescriptors, List.flatMap_cons, descriptorBytes,
      List.append_assoc, Decoder.u16, Decoder.u32, Decoder.uint_between,
      raw_zeros_between, code, length, later, List.map_cons]

theorem decodeCodes_between :
    decodeCodes results.length
        (.between used (results.flatMap (fun _ => leBytes 4 0) ++ rest) maxBytes)
      = (results.map fun _ => 0,
          .between (used ++ results.flatMap (fun _ => leBytes 4 0)) rest maxBytes) := by
  induction results generalizing used with
  | nil => simp [decodeCodes]
  | cons result results ih =>
    have later := ih (used ++ leBytes 4 0)
    simp only [List.append_assoc] at later
    simp only [List.length_cons, decodeCodes, List.flatMap_cons, List.append_assoc, Decoder.i32,
      Decoder.sint_between, later, List.map_cons]
    rfl

/-- Dealing out what was put together gives the pieces back. -/
theorem splitData_flatten (pieces : List (List UInt8)) :
    splitData (used ++ pieces.flatten) used.length (pieces.map List.length) = .ok pieces := by
  induction pieces generalizing used with
  | nil => simp [splitData, pure, Except.pure]
  | cons piece pieces ih =>
    have later := ih (used ++ piece)
    rw [List.length_append, List.append_assoc] at later
    have room : ¬ used.length + piece.length > (used ++ (piece ++ pieces.flatten)).length := by
      simp only [List.length_append]
      omega
    simp only [List.map_cons, List.flatten_cons, splitData, room, if_false, later]
    simp [bind, Except.bind, pure, Except.pure]

theorem replyTables_between (codes : ∀ result ∈ results, result.1 < 2 ^ 16)
    (lengths : ∀ result ∈ results, result.2.length ≤ u32Max)
    (next : List (Nat × Nat) → Int → List Int → Nat → Decoder → Except MessageError R) :
    replyTables results.length (.between used (tableBytes results ++ rest) maxBytes) next
      = next (results.map fun result => (result.1, result.2.length)) 0 (results.map fun _ => 0) 0
          (.between (used ++ tableBytes results) rest maxBytes) := by
  simp only [replyTables, tableBytes, List.append_assoc,
    decodeDescriptors_between _ _ _ _ codes lengths, decodeCodes_between, Decoder.i32,
    Decoder.u64, Decoder.sint_between, Decoder.uint_between, raw_zeros_between]
  rfl

theorem replyRest_between {message : Message} (version : message.header.version < 7)
    (data : message.data = pieces.flatten) (assemble : Option Redirect → List (List UInt8) → R) :
    replyRest message (pieces.map List.length) (.between used [] maxBytes) assemble
      = .ok (assemble none pieces) := by
  have before : ¬ message.header.version ≥ 7 := Nat.not_le.mpr version
  have before' : ¬ message.header.version ≥ 8 := by omega
  have dealt := splitData_flatten [] pieces
  rw [List.nil_append, List.length_nil, ← data] at dealt
  simp [replyRest, before, before', finish, dealt, bind, Except.bind, pure, Except.pure,
    Except.mapError]

end Shortest

theorem length_headBytes : (headBytes count).length = 53 := by
  simp [headBytes, zeros]

theorem length_tableBytes (results : List (Nat × List UInt8)) :
    (tableBytes results).length = 24 + 42 * results.length := by
  simp [tableBytes, descriptorBytes, zeros]
  omega

/-- The shortest reply is accepted if it fits, with the results it was made of. -/
theorem decodeReply_replyMessage {results : List (Nat × List UInt8)} {limits : MessageLimits}
    (nonempty : results ≠ []) (count : results.length ≤ min limits.maxOperations u32Max)
    (codes : ∀ result ∈ results, result.1 < 2 ^ 16)
    (lengths : ∀ result ∈ results, result.2.length ≤ u32Max)
    (room : replyFront results.length + (results.flatMap (·.2)).length ≤ limits.maxBytes) :
    ∃ reply, decodeReply (replyMessage results) limits = .ok reply
      ∧ reply.operations = results.map fun result => ⟨result.1, 0, result.2⟩ := by
  obtain ⟨most, fits⟩ := Nat.le_min.mp count
  have pos : 0 < results.length := List.length_pos_iff.mpr nonempty
  have front : (replyMessage results).front.length = replyFront results.length := by
    simp only [replyMessage, List.length_append, length_headBytes, length_tableBytes, replyFront]
    omega
  have total : ¬ (replyMessage results).front.length + (replyMessage results).middle.length
      + (replyMessage results).data.length > limits.maxBytes := by
    rw [front]
    simp only [replyMessage, List.length_nil]
    omega
  have limited : (limits.maxBytes == 0) = false ∧ (limits.maxOperations == 0) = false := by
    unfold replyFront at room
    simp only [beq_eq_false_iff_ne]
    omega
  have counted : ¬ results.length > limits.maxOperations := Nat.not_lt.mpr most
  have described : ¬ results.length * operationDescriptorSize > (tableBytes results).length := by
    rw [length_tableBytes]
    unfold operationDescriptorSize
    omega
  have tables := replyTables_between (R := Reply) (headBytes results.length) [] limits.maxBytes
    results codes lengths
  rw [List.append_nil] at tables
  have pieces : (results.map fun result => (result.1, result.2.length)).map (·.2)
      = (results.map (·.2)).map List.length := by
    simp
  rw [decodeReply_eq]
  simp only [total, limited]
  simp only [replyMessage, Decoder.new_eq_between, replyHead_between _ _ _ fits, List.nil_append,
    Decoder.remaining_between, counted, described, tables, pieces]
  rw [if_neg (by simp), if_neg (by simp), if_neg (by decide)]
  have version : 4 < 7 := by decide
  refine ⟨_, replyRest_between _ _ version List.flatMap_def _, ?_⟩
  simp only [List.zip_map', List.map_map]
  rfl

end RadosRs.Osd
