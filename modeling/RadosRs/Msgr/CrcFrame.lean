import Mathlib.Tactic.IntervalCases
import RadosRs.Lib.Bytes
import RadosRs.Lib.Fallible
import RadosRs.Lib.Stateful
import RadosRs.Msgr.Frame
import RadosRs.Wire.Crc

/-!
# Frames on the plain transport

A frame is written as a preamble of 32 bytes, its segments, four bytes after a
nonempty first segment, and an epilogue of 13 bytes if there is more than one
segment.  The reader gets the lengths from the preamble and computes everything
else again.

Each part has a writer and a reader, and one lemma says that the reader takes
exactly what the writer put there.  `crc_frames_read_back` puts them together.
-/

namespace RadosRs.Msgr

open Bytes Fixed Fallible Stateful Wire

/-! ## The preamble -/

def lateStatusAborted : UInt8 := 0x01
def lateStatusComplete : UInt8 := 0x0e

def Tag.ofByte (value : UInt8) : Except FrameError Tag :=
  match value.toNat with
  | 1 => .ok .hello
  | 2 => .ok .authRequest
  | 3 => .ok .authBadMethod
  | 4 => .ok .authReplyMore
  | 5 => .ok .authRequestMore
  | 6 => .ok .authDone
  | 7 => .ok .authSignature
  | 8 => .ok .clientIdent
  | 9 => .ok .serverIdent
  | 10 => .ok .identMissingFeatures
  | 11 => .ok .sessionReconnect
  | 12 => .ok .sessionReset
  | 13 => .ok .sessionRetry
  | 14 => .ok .sessionRetryGlobal
  | 15 => .ok .sessionReconnectOk
  | 16 => .ok .wait
  | 17 => .ok .message
  | 18 => .ok .keepalive2
  | 19 => .ok .keepalive2Ack
  | 20 => .ok .ack
  | 21 => .ok .compressionRequest
  | 22 => .ok .compressionDone
  | _ => .error .malformed

def Descriptor.bytes (descriptor : Descriptor) : List UInt8 :=
  leBytes 4 descriptor.length ++ leBytes 2 descriptor.alignment

/-- The descriptors in the four places there are for them.  The others stay zero. -/
def preambleSlots (descriptors : List Descriptor) : List Descriptor :=
  descriptors ++ List.replicate (maxSegments - descriptors.length) ⟨0, 0⟩

/-- The part of the preamble under its checksum. -/
def preambleHead (tag : Tag) (descriptors : List Descriptor) : List UInt8 :=
  UInt8.ofNat tag.byte :: UInt8.ofNat descriptors.length ::
    (preambleSlots descriptors).flatMap Descriptor.bytes ++ [0, 0]

def encodePreamble (tag : Tag) (descriptors : List Descriptor) : List UInt8 :=
  let head := preambleHead tag descriptors
  head ++ leBytes 4 (crc32c 0 head).toNat

/-- The descriptor in a place of the preamble. -/
def preambleDescriptor (preamble : List UInt8) (index : Nat) : Descriptor :=
  let offset := 2 + index * 6
  { length := ofLeBytes ((preamble.drop offset).take 4)
    alignment := ofLeBytes ((preamble.drop (offset + 4)).take 2) }

/-- One turn of the loop over the places: the first `count` hold descriptors, the others have
to be empty. -/
def collectDescriptor (preamble : List UInt8) (count : Nat) (descriptors : List Descriptor)
    (index : Nat) : Except FrameError (List Descriptor) :=
  let descriptor := preambleDescriptor preamble index
  if index < count then .ok (descriptors ++ [descriptor])
  else if descriptor.length != 0 || descriptor.alignment != 0 then .error .malformed
  else .ok descriptors

def preambleDescriptors (preamble : List UInt8) (count : Nat) :
    Except FrameError (List Descriptor) :=
  (List.range maxSegments).foldlM (collectDescriptor preamble count) []

def decodePreamble (preamble : List UInt8) : Except FrameError (Tag × List Descriptor) := do
  if (crc32c 0 (preamble.take 28)).toNat != ofLeBytes (preamble.drop 28) then throw .integrity
  let tag ← Tag.ofByte (preamble.getD 0 0)
  if tag.byte > Tag.ack.byte then throw .malformed
  let count := (preamble.getD 1 0).toNat
  if count < 1 || maxSegments < count || preamble.getD 26 0 != 0 || preamble.getD 27 0 != 0 then
    throw .malformed
  let descriptors ← preambleDescriptors preamble count
  if count > 1 && (descriptors[count - 1]?).any (·.length == 0) then throw .malformed
  pure (tag, descriptors)

/-- A descriptor that fits its place in the preamble. -/
structure Descriptor.Fits (descriptor : Descriptor) : Prop where
  length : descriptor.length ≤ u32Max
  alignment : descriptor.alignment < 2 ^ 16

theorem Descriptor.Fits.zero : Descriptor.Fits ⟨0, 0⟩ := ⟨Nat.zero_le _, Nat.zero_lt_succ _⟩

variable (tag : Tag)

theorem Tag.ofByte_byte : Tag.ofByte (UInt8.ofNat tag.byte) = .ok tag := by
  cases tag <;> rfl

variable {descriptors : List Descriptor}

theorem length_preambleSlots (few : descriptors.length ≤ maxSegments) :
    (preambleSlots descriptors).length = 4 := by
  rw [preambleSlots, List.length_append, List.length_replicate]
  exact Nat.add_sub_cancel' few

/-- A list of four. -/
theorem exists_four {α : Type} {l : List α} (h : l.length = 4) : ∃ a b c d, l = [a, b, c, d] := by
  match l, h with
  | [a, b, c, d], _ => exact ⟨a, b, c, d, rfl⟩

theorem length_preambleHead (few : descriptors.length ≤ maxSegments) :
    (preambleHead tag descriptors).length = 28 := by
  obtain ⟨a, b, c, d, slots⟩ := exists_four (length_preambleSlots few)
  rw [preambleHead, slots]
  rfl

theorem length_encodePreamble (few : descriptors.length ≤ maxSegments) :
    (encodePreamble tag descriptors).length = preambleSize := by
  rw [encodePreamble, List.length_append, length_preambleHead tag few, length_leBytes]
  rfl

/-- Every place of the preamble is read back. -/
theorem preambleDescriptor_encodePreamble (few : descriptors.length ≤ maxSegments)
    (fits : ∀ d ∈ descriptors, d.Fits) {index : Nat} (h : index < 4) :
    some (preambleDescriptor (encodePreamble tag descriptors) index)
      = (preambleSlots descriptors)[index]? := by
  have all : ∀ d ∈ preambleSlots descriptors, d.Fits := by
    intro d mem
    rcases List.mem_append.mp mem with mem | mem
    · exact fits d mem
    · rw [(List.mem_replicate.mp mem).2]
      exact .zero
  have read (d : Descriptor) (mem : d ∈ preambleSlots descriptors) :
      (⟨ofLeBytes (leBytes 4 d.length), ofLeBytes (leBytes 2 d.alignment)⟩ : Descriptor) = d := by
    obtain ⟨length, alignment⟩ := all d mem
    have length : d.length < 256 ^ 4 := Nat.lt_succ_of_le length
    have alignment : d.alignment < 256 ^ 2 := alignment
    rw [ofLeBytes_leBytes_of_lt length, ofLeBytes_leBytes_of_lt alignment]
  obtain ⟨a, b, c, d, slots⟩ := exists_four (length_preambleSlots few)
  rw [encodePreamble, preambleHead]
  rw [slots] at read ⊢
  interval_cases index
  · exact congrArg some (read a (by simp))
  · exact congrArg some (read b (by simp))
  · exact congrArg some (read c (by simp))
  · exact congrArg some (read d (by simp))

/-- The places after the last descriptor are empty, and those before it are read in order. -/
theorem preambleDescriptors_encodePreamble (few : descriptors.length ≤ maxSegments)
    (fits : ∀ d ∈ descriptors, d.Fits) :
    preambleDescriptors (encodePreamble tag descriptors) descriptors.length = .ok descriptors := by
  have upTo (count : Nat) (h : count ≤ 4) :
      (List.range count).foldlM
        (collectDescriptor (encodePreamble tag descriptors) descriptors.length) []
        = .ok (descriptors.take count) := by
    induction count with
    | zero => rfl
    | succ count ih =>
      have slot := preambleDescriptor_encodePreamble tag few fits h
      rw [List.range_succ, List.foldlM_append, ih (Nat.le_of_succ_le h)]
      refine bind_eq_ok.mpr ⟨_, rfl, bind_eq_ok.mpr ⟨_, ?_, rfl⟩⟩
      unfold collectDescriptor
      by_cases inside : count < descriptors.length
      · rw [preambleSlots, List.getElem?_append_left inside] at slot
        rw [if_pos inside, List.take_add_one, ← slot]
        rfl
      have beyond := Nat.le_of_not_lt inside
      have empty : preambleDescriptor (encodePreamble tag descriptors) count = ⟨0, 0⟩ := by
        rw [preambleSlots, List.getElem?_append_right beyond,
          List.getElem?_replicate_of_lt (by simp only [maxSegments]; omega)] at slot
        exact Option.some.inj slot
      rw [if_neg inside, empty, List.take_of_length_le beyond,
        List.take_of_length_le (Nat.le_succ_of_le beyond)]
      rfl
  have all := upTo maxSegments le_rfl
  rwa [List.take_of_length_le few] at all

/-- What the writer puts into the preamble, the reader gets out of it. -/
theorem decodePreamble_encodePreamble {tag : Tag} (known : tag.byte ≤ Tag.ack.byte)
    (one : 1 ≤ descriptors.length) (few : descriptors.length ≤ maxSegments)
    (fits : ∀ d ∈ descriptors, d.Fits)
    (last : 1 < descriptors.length → ∀ d, descriptors[descriptors.length - 1]? = some d →
      d.length ≠ 0) : decodePreamble (encodePreamble tag descriptors) = .ok (tag, descriptors) := by
  have size := length_preambleHead tag few
  have head : (encodePreamble tag descriptors).take 28 = preambleHead tag descriptors :=
    List.take_left' size
  have checksum : ofLeBytes ((encodePreamble tag descriptors).drop 28)
      = (crc32c 0 (preambleHead tag descriptors)).toNat := by
    rw [encodePreamble, List.drop_left' size]
    exact ofLeBytes_leBytes_of_lt (UInt32.toNat_lt _)
  have count : ((encodePreamble tag descriptors).getD 1 0).toNat = descriptors.length := by
    have small : descriptors.length < 256 := Nat.lt_of_le_of_lt few (by decide)
    exact Nat.mod_eq_of_lt small
  obtain ⟨pad, pad'⟩ : (encodePreamble tag descriptors).getD 26 0 = 0
      ∧ (encodePreamble tag descriptors).getD 27 0 = 0 := by
    obtain ⟨a, b, c, d, slots⟩ := exists_four (length_preambleSlots few)
    rw [encodePreamble, preambleHead, slots]
    exact ⟨rfl, rfl⟩
  have first : (encodePreamble tag descriptors).getD 0 0 = UInt8.ofNat tag.byte := rfl
  have filled : ¬ (1 < descriptors.length
      ∧ (descriptors[descriptors.length - 1]?).any (·.length == 0) = true) := by
    rintro ⟨several, empty⟩
    obtain ⟨d, here⟩ : ∃ d, descriptors[descriptors.length - 1]? = some d :=
      ⟨_, List.getElem?_eq_getElem (Nat.sub_one_lt_of_lt one)⟩
    rw [here] at empty
    exact last several d here (by simpa using empty)
  unfold decodePreamble
  rw [head, checksum, count, first, pad, pad', Tag.ofByte_byte]
  dsimp only
  refine check_eq_ok.mpr ⟨by simp, bind_eq_ok.mpr ⟨tag, rfl, ?_⟩⟩
  refine check_eq_ok.mpr ⟨not_lt.mpr known, check_eq_ok.mpr ⟨?_, ?_⟩⟩
  · simpa using ⟨List.ne_nil_of_length_pos one, few⟩
  · refine bind_eq_ok.mpr ⟨descriptors, preambleDescriptors_encodePreamble tag few fits, ?_⟩
    exact check_eq_ok.mpr ⟨by simpa using filled, rfl⟩

/-! ## The codec -/

structure CrcCodec where
  withDataCrc : Bool
  deriving DecidableEq, Repr

namespace CrcCodec

/-- The checksum of a segment, zero if there is none. -/
def checksum (codec : CrcCodec) (data : List UInt8) : Nat :=
  if codec.withDataCrc then (crc32c 0xffffffff data).toNat else 0

/-- A segment as it is written, with its place. -/
def segmentBytes (codec : CrcCodec) (entry : Segment × Nat) : List UInt8 :=
  entry.1.data ++
    if entry.2 == 0 && !entry.1.data.isEmpty then leBytes 4 (codec.checksum entry.1.data) else []

/-- The checksum of a segment in the epilogue, zero where there is no segment. -/
def epilogueChecksum (codec : CrcCodec) (segments : List Segment) (index : Nat) : Nat :=
  ((segments[index]?).map fun segment => codec.checksum segment.data).getD 0

def epilogue (codec : CrcCodec) (segments : List Segment) : List UInt8 :=
  if segments.length > 1 then
    lateStatusComplete ::
      [1, 2, 3].flatMap fun index => leBytes 4 (codec.epilogueChecksum segments index)
  else []

def encode (codec : CrcCodec) (frame : Frame) (limits : Limits) :
    Except FrameError (List UInt8) := do
  let segments ← normalizedSegments frame.segments
  if frame.tag.byte > Tag.ack.byte then throw .malformed
  let (descriptors, _) ← descriptorsAndCrcSize segments limits
  pure (encodePreamble frame.tag descriptors ++ segments.zipIdx.flatMap codec.segmentBytes
    ++ codec.epilogue segments)

def readSegment (codec : CrcCodec) (entry : Descriptor × Nat) :
    Action (List UInt8) FrameError Segment := do
  let data ← exact .malformed entry.1.length
  if entry.2 == 0 && entry.1.length > 0 then
    let encoded ← exact .malformed 4
    if codec.withDataCrc && (crc32c 0xffffffff data).toNat != ofLeBytes encoded then
      throw .integrity
  pure ⟨entry.1.alignment, data⟩

/-- The checks on the epilogue of a frame whose segments have been read. -/
def checkEpilogue (codec : CrcCodec) (segments : List Segment) (epilogue : List UInt8) :
    Except FrameError Unit := do
  let status := epilogue.getD 0 0 &&& 0x0f
  if status == lateStatusComplete then pure ()
  else if status == lateStatusAborted then throw .aborted
  else throw .malformed
  (segments.zipIdx.drop 1).forM fun (segment, index) => do
    let offset := 1 + (index - 1) * 4
    let encoded := ofLeBytes ((epilogue.drop offset).take 4)
    if codec.withDataCrc && (crc32c 0xffffffff segment.data).toNat != encoded then
      throw .integrity

/-- Reads a frame, once `reserve` has granted room for it. -/
def readReserved (codec : CrcCodec) (limits : Limits)
    (reserve : Tag → Nat → Except FrameError Unit) : Action (List UInt8) FrameError Frame := do
  let preamble ← exact .malformed preambleSize
  let (tag, descriptors) ← ofExcept (decodePreamble preamble)
  let wireBytes ← ofExcept (descriptorsAndCrcSizeFromDescriptors descriptors limits)
  ofExcept (reserve tag wireBytes)
  let segments ← descriptors.zipIdx.mapM codec.readSegment
  if descriptors.length > 1 then
    let epilogue ← exact .malformed 13
    ofExcept (codec.checkEpilogue segments epilogue)
  pure ⟨tag, segments⟩

/-- The source writes the body of `readReserved` out once more, for a reader that blocks. -/
def read (codec : CrcCodec) (limits : Limits) : Action (List UInt8) FrameError Frame :=
  codec.readReserved limits fun _ _ => .ok ()

variable {codec : CrcCodec} {limits : Limits}

/-- A frame is written exactly if it passes the checks. -/
theorem isOk_encode (frame : Frame) :
    (codec.encode frame limits).isOk = (prepare frame limits).isOk := by
  unfold encode prepare
  cases normalizedSegments frame.segments with
  | error => rfl
  | ok segments =>
    show (if frame.tag.byte > Tag.ack.byte then _ else _ : Except _ _).isOk
      = (if frame.tag.byte > Tag.ack.byte then _ else _ : Except _ _).isOk
    split
    · rfl
    · cases descriptorsAndCrcSize segments limits <;> rfl

/-! ### Reading is local -/

theorem local_readSegment (entry : Descriptor × Nat) : Local (codec.readSegment entry) := by
  refine (Local.exact _ _).bind fun data => ?_
  refine .ite ?_ (.pure _)
  refine (Local.exact _ _).bind fun encoded => ?_
  exact .ite ((Local.throw _).bind fun _ => .pure _) (.pure _)

theorem local_readReserved (reserve : Tag → Nat → Except FrameError Unit) :
    Local (codec.readReserved limits reserve) := by
  refine (Local.exact _ _).bind fun preamble => ?_
  refine (Local.ofExcept _).bind fun decoded => ?_
  refine (Local.ofExcept _).bind fun wireBytes => ?_
  refine (Local.ofExcept _).bind fun _ => ?_
  refine (Local.mapM local_readSegment _).bind fun segments => ?_
  refine .ite ?_ (.pure _)
  refine (Local.exact _ _).bind fun epilogue => ?_
  exact (Local.ofExcept _).bind fun _ => .pure _

end CrcCodec

/-! ## Frames without their empty tail -/

/-- The segments without the empty ones after the first at the end. -/
def trimmedSegments : List Segment → List Segment
  | [] => []
  | first :: rest => first :: rest.rdropWhile (·.data.isEmpty)

def Frame.trimmed (frame : Frame) : Frame := { frame with segments := trimmedSegments frame.segments }

/-- The alignments of a frame are 16-bit values, as they are in the source. -/
def Frame.Typed (frame : Frame) : Prop := ∀ segment ∈ frame.segments, segment.alignment < 2 ^ 16

instance (frame : Frame) : Decidable frame.Typed :=
  inferInstanceAs (Decidable (∀ segment ∈ frame.segments, segment.alignment < 2 ^ 16))

def Segment.descriptor (segment : Segment) : Descriptor := ⟨segment.data.length, segment.alignment⟩

variable {segments : List Segment}

/-- The preamble of a frame whose segments have been checked. -/
theorem decodePreamble_descriptors {tag : Tag} (known : tag.byte ≤ Tag.ack.byte)
    (one : 1 ≤ segments.length) (few : segments.length ≤ maxSegments)
    (last : 1 < segments.length → ∀ s, segments[segments.length - 1]? = some s → s.data ≠ [])
    (small : ∀ s ∈ segments, s.data.length ≤ u32Max)
    (typed : ∀ s ∈ segments, s.alignment < 2 ^ 16) :
    decodePreamble (encodePreamble tag (segments.map Segment.descriptor))
      = .ok (tag, segments.map Segment.descriptor) := by
  refine decodePreamble_encodePreamble known (by simpa using one) (by simpa using few) ?_ ?_
  · rw [List.forall_mem_map]
    exact fun s mem => ⟨small s mem, typed s mem⟩
  intro several d here
  rw [List.length_map] at several
  rw [List.length_map, List.getElem?_map, Option.map_eq_some_iff] at here
  obtain ⟨s, here, rfl⟩ := here
  exact fun zero => last several s here (List.length_eq_zero_iff.mp zero)

theorem trimmedSegments_subset (segments : List Segment) : trimmedSegments segments ⊆ segments := by
  cases segments with
  | nil => exact List.Subset.refl _
  | cons first rest => exact List.cons_subset_cons _ (List.rdropWhile_prefix _ _).subset

theorem normalizedSegments_eq_ok {trimmed : List Segment}
    (h : normalizedSegments segments = .ok trimmed) :
    trimmed = trimmedSegments segments ∧ 1 ≤ trimmed.length ∧ trimmed.length ≤ maxSegments
      ∧ (1 < trimmed.length → ∀ s, trimmed[trimmed.length - 1]? = some s → s.data ≠ []) := by
  unfold normalizedSegments at h
  split at h
  · cases h
  rename_i first rest
  split at h
  · cases h
  rename_i few
  obtain rfl := Except.ok.inj h
  have tail := List.rdropWhile_prefix (fun s : Segment => s.data.isEmpty) (l := rest)
  have short := tail.length_le
  simp only [List.length_cons, not_lt] at few
  refine ⟨rfl, by simp, by simp only [List.length_cons]; omega, fun several s last => ?_⟩
  -- What is left of the tail does not end in an empty segment.
  have some : rest.rdropWhile (·.data.isEmpty) ≠ [] := fun none => by simp [none] at several
  have filled := List.rdropWhile_last_not (fun s : Segment => s.data.isEmpty) rest some
  have here : s = (rest.rdropWhile (·.data.isEmpty)).getLast some := by
    rw [List.length_cons, Nat.add_sub_cancel, List.getElem?_cons,
      if_neg (List.length_pos_of_ne_nil some).ne', ← List.getLast?_eq_getElem?,
      List.getLast?_eq_some_getLast some] at last
    exact (Option.some.inj last).symm
  rw [here]
  simpa using filled

theorem descriptor_eq_ok {s : Segment} {d : Descriptor}
    (h : (okOr FrameError.limitExceeded (tryFrom u32Max s.data.length) >>= fun length =>
      pure (⟨length, s.alignment⟩ : Descriptor)) = .ok d) :
    d = s.descriptor ∧ s.data.length ≤ u32Max := by
  obtain ⟨length, fits, h⟩ := bind_eq_ok.mp h
  cases h
  cases found : tryFrom u32Max s.data.length with
  | none =>
    rw [found] at fits
    cases fits
  | some n =>
    rw [found] at fits
    obtain ⟨rfl, small⟩ := tryFrom_eq_some found
    cases fits
    exact ⟨rfl, small⟩

theorem descriptorsAndCrcSize_eq_ok {limits : Limits} {total : Nat}
    (h : descriptorsAndCrcSize segments limits = .ok (descriptors, total)) :
    descriptors = segments.map Segment.descriptor ∧ (∀ s ∈ segments, s.data.length ≤ u32Max)
      ∧ descriptorsAndCrcSizeFromDescriptors descriptors limits = .ok total := by
  unfold descriptorsAndCrcSize at h
  obtain ⟨ds, lengths, h⟩ := bind_eq_ok.mp h
  obtain ⟨size, sized, h⟩ := bind_eq_ok.mp h
  cases h
  obtain ⟨rfl, small⟩ := map_of_mapM (fun _ _ => descriptor_eq_ok) lengths
  exact ⟨rfl, small, sized⟩

namespace CrcCodec

variable {codec : CrcCodec} {limits : Limits}

/-! ## Each part is read back -/

theorem checksum_lt (codec : CrcCodec) (data : List UInt8) : codec.checksum data < 256 ^ 4 := by
  unfold checksum
  split
  · exact UInt32.toNat_lt _
  · exact Nat.zero_lt_succ _

/-- A checksum that was written passes the check. -/
theorem checksum_accepted (codec : CrcCodec) (data : List UInt8) :
    ¬ (codec.withDataCrc && (crc32c 0xffffffff data).toNat
      != ofLeBytes (leBytes 4 (codec.checksum data))) = true := by
  rw [ofLeBytes_leBytes_of_lt (codec.checksum_lt data), checksum]
  cases codec.withDataCrc <;> simp

theorem reads_segment (segment : Segment) (index : Nat) :
    Reads (codec.readSegment (segment.descriptor, index)) (codec.segmentBytes (segment, index))
      segment := by
  unfold readSegment segmentBytes
  refine (Reads.exact _ segment.data).bind ?_
  have nonempty : (index == 0 && !segment.data.isEmpty)
      = (index == 0 && decide (segment.data.length > 0)) := by
    cases segment.data <;> simp
  rw [nonempty]
  show Reads (if (index == 0 && decide (segment.data.length > 0)) = true then _ else _) _ _
  split
  next first =>
    have read := Reads.exact FrameError.malformed (leBytes 4 (codec.checksum segment.data))
    rw [length_leBytes] at read
    refine read.bind_end ?_
    rw [if_neg (codec.checksum_accepted segment.data)]
    exact .pure segment
  · exact .pure segment

theorem length_epilogue (several : 1 < segments.length) :
    (codec.epilogue segments).length = 13 := by
  rw [epilogue, if_pos several]
  rfl

/-- The checksums in the epilogue are found where the reader looks for them. -/
theorem checkEpilogue_epilogue (several : 1 < segments.length)
    (few : segments.length ≤ maxSegments) :
    codec.checkEpilogue segments (codec.epilogue segments) = .ok () := by
  have slot {index : Nat} (low : 1 ≤ index) (high : index < 4) :
      ((codec.epilogue segments).drop (1 + (index - 1) * 4)).take 4
        = leBytes 4 (codec.epilogueChecksum segments index) := by
    rw [epilogue, if_pos several]
    interval_cases index <;> rfl
  have status : (codec.epilogue segments).getD 0 0 &&& 0x0f = lateStatusComplete := by
    rw [epilogue, if_pos several]
    show lateStatusComplete &&& 0x0f = lateStatusComplete
    decide
  unfold checkEpilogue
  rw [status]
  refine forM_eq_ok fun entry mem => ?_
  obtain ⟨segment, index⟩ := entry
  obtain ⟨low, high, here⟩ : 1 ≤ index ∧ index < segments.length
      ∧ segments[index]? = some segment := by
    have here := List.mem_zipIdx_iff_getElem?.mp (List.mem_of_mem_drop mem)
    refine ⟨?_, (List.getElem?_eq_some_iff.mp here).1, here⟩
    cases segments with
    | nil => cases mem
    | cons first rest => exact (List.mem_zipIdx mem).1
  have sum : codec.epilogueChecksum segments index = codec.checksum segment.data := by
    rw [epilogueChecksum, here]
    rfl
  dsimp only
  rw [slot low (high.trans_le few), sum]
  rw [if_neg (codec.checksum_accepted segment.data)]
  rfl

/-- What has been checked of a frame that is written. -/
structure Written (codec : CrcCodec) (limits : Limits) (tag : Tag) (segments : List Segment)
    (total : Nat) (bytes : List UInt8) : Prop where
  known : tag.byte ≤ Tag.ack.byte
  one : 1 ≤ segments.length
  few : segments.length ≤ maxSegments
  last : 1 < segments.length → ∀ s, segments[segments.length - 1]? = some s → s.data ≠ []
  small : ∀ s ∈ segments, s.data.length ≤ u32Max
  sized : descriptorsAndCrcSizeFromDescriptors (segments.map Segment.descriptor) limits = .ok total
  bytes : bytes = encodePreamble tag (segments.map Segment.descriptor)
    ++ (segments.zipIdx.flatMap codec.segmentBytes ++ codec.epilogue segments)

variable {bytes : List UInt8}

theorem encode_eq_ok {frame : Frame} (h : codec.encode frame limits = .ok bytes) :
    ∃ total, Written codec limits frame.tag frame.trimmed.segments total bytes := by
  unfold encode at h
  obtain ⟨segments, normalized, h⟩ := bind_eq_ok.mp h
  obtain ⟨known, h⟩ := check_eq_ok.mp h
  obtain ⟨⟨descriptors, total⟩, sized, h⟩ := bind_eq_ok.mp h
  obtain rfl := Except.ok.inj h
  obtain ⟨rfl, one, few, last⟩ := normalizedSegments_eq_ok normalized
  obtain ⟨rfl, small, sized⟩ := descriptorsAndCrcSize_eq_ok sized
  exact ⟨total, not_lt.mp known, one, few, last, small, sized, List.append_assoc _ _ _⟩

theorem reads_segments (segments : List Segment) :
    Reads ((segments.map Segment.descriptor).zipIdx.mapM codec.readSegment)
      (segments.zipIdx.flatMap codec.segmentBytes) segments := by
  have each : ∀ entry ∈ segments.zipIdx, Reads ((codec.readSegment ∘ Prod.map Segment.descriptor id)
      entry) (codec.segmentBytes entry) entry.1 :=
    fun entry _ => reads_segment entry.1 entry.2
  have all := Reads.mapM each
  rwa [List.zipIdx_map_fst, ← List.mapM_map, ← List.zipIdx_map] at all

/-- A frame that was written is read back, and nothing after it is touched. -/
theorem Written.reads {tag : Tag} {total : Nat}
    (h : Written codec limits tag segments total bytes)
    (typed : ∀ s ∈ segments, s.alignment < 2 ^ 16) {reserve : Tag → Nat → Except FrameError Unit}
    (reserved : reserve tag total = .ok ()) :
    Reads (codec.readReserved limits reserve) bytes ⟨tag, segments⟩ := by
  obtain ⟨known, one, few, last, small, sized, rfl⟩ := h
  have few' : (segments.map Segment.descriptor).length ≤ maxSegments := by simpa using few
  have decoded := decodePreamble_descriptors known one few last small typed
  have preamble := Reads.exact FrameError.malformed
    (encodePreamble tag (segments.map Segment.descriptor))
  rw [length_encodePreamble _ few'] at preamble
  refine preamble.bind (.bind_nil (.ofExcept decoded) (.bind_nil (.ofExcept sized) ?_))
  refine .bind_nil (.ofExcept reserved) ((reads_segments segments).bind ?_)
  rw [List.length_map]
  split
  next several =>
    have tail := Reads.exact FrameError.malformed (codec.epilogue segments)
    rw [length_epilogue several] at tail
    have checked := codec.checkEpilogue_epilogue several few
    exact tail.bind_end (.bind_nil (.ofExcept checked) (.pure _))
  rename_i single
  rw [epilogue, if_neg single]
  exact .pure _

end CrcCodec

/-- The codec reads back what it wrote, frame after frame and to the last byte, without the
empty segments at the end of a frame.  Part of a frame is not accepted. -/
theorem crc_frames_read_back (codec : CrcCodec) (limits : Limits) :
    (∀ (frames : List Frame) (encodings : List (List UInt8)), (∀ frame ∈ frames, frame.Typed) →
      frames.mapM (codec.encode · limits) = .ok encodings →
      (times (codec.read limits) frames.length).on encodings.flatten
        = (.ok (frames.map Frame.trimmed), []))
      ∧ ∀ (frame : Frame) (bytes part : List UInt8), frame.Typed →
        codec.encode frame limits = .ok bytes → part <+: bytes → part ≠ bytes →
        ∃ error, ((codec.read limits).on part).1 = .error error := by
  have one {frame : Frame} {bytes : List UInt8} (typed : frame.Typed)
      (h : codec.encode frame limits = .ok bytes) :
      Reads (codec.read limits) bytes frame.trimmed := by
    obtain ⟨total, written⟩ := CrcCodec.encode_eq_ok h
    exact written.reads (fun s mem => typed s (trimmedSegments_subset _ mem)) rfl
  refine ⟨fun frames encodings typed h => ?_, fun frame bytes part typed h within less => ?_⟩
  · have each := (List.forall₂_and_left _ _).mpr ⟨typed, forall₂_of_mapM h⟩
    have reads : List.Forall₂ (Reads (codec.read limits)) encodings (frames.map Frame.trimmed) :=
      List.forall₂_map_right_iff.mpr (each.imp fun _ _ h => one h.1 h.2).flip
    have all := Reads.times reads []
    rwa [List.append_nil, List.length_map] at all
  · exact exists_error fun a t => (one typed h).not_gives (CrcCodec.local_readReserved _) within less

/-- Two frames, the first of which ends in an empty segment. -/
theorem crc_frames_read_back_two :
    let codec : CrcCodec := ⟨true⟩
    let limits : Limits := ⟨4096, 8192, 64, 4096⟩
    let frames : List Frame := [⟨.message, [⟨8, [1, 2]⟩, ⟨8, [3]⟩, ⟨8, []⟩]⟩, ⟨.ack, [⟨8, []⟩]⟩]
    ∃ encodings, frames.mapM (codec.encode · limits) = .ok encodings
      ∧ (times (codec.read limits) 2).on encodings.flatten
        = (.ok [⟨.message, [⟨8, [1, 2]⟩, ⟨8, [3]⟩]⟩, ⟨.ack, [⟨8, []⟩]⟩], []) := by
  intro codec limits frames
  have accepted : ((frames.mapM (codec.encode · limits)).isOk) = true := by decide
  obtain ⟨encodings, encoded⟩ := exists_of_isOk accepted
  refine ⟨encodings, encoded, ?_⟩
  exact (crc_frames_read_back codec limits).1 frames encodings (by decide) encoded

end RadosRs.Msgr
