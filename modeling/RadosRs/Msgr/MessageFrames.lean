import RadosRs.Msgr.CrcFrame
import RadosRs.Msgr.Message
import RadosRs.Wire.Takes

/-!
# Messages as frames

A message is encoded as a frame of four segments.  The plain transport leaves the
empty ones at the end out, and decoding takes a segment that is not there as
empty, so the message is the same (`Frame.part_trimmed`).

Encoding and decoding make the same checks (`Message.Fits`), on the lengths of
the parts and their sum.  The transport checks the size of the frame, which is
larger: a message of nearly the largest size can be encoded as a frame that the
transport does not take (`Message.wireSize`).
-/

namespace RadosRs.Msgr

open Bytes Fallible Fixed Wire Wire.Reader

/-! ## The header -/

/-- The values are within the widths of their fields. -/
structure MessageHeader.Typed (h : MessageHeader) : Prop where
  sequence : h.sequence < 2 ^ 64
  transactionId : h.transactionId < 2 ^ 64
  messageType : h.messageType < 2 ^ 16
  priority : h.priority < 2 ^ 16
  version : h.version < 2 ^ 16
  dataPrePaddingLength : h.dataPrePaddingLength < 2 ^ 32
  dataOffset : h.dataOffset < 2 ^ 16
  ackSequence : h.ackSequence < 2 ^ 64
  flags : h.flags < 2 ^ 8
  compatVersion : h.compatVersion < 2 ^ 16
  reserved : h.reserved < 2 ^ 16

def MessageHeader.bytes (h : MessageHeader) : List UInt8 :=
  leBytes 8 h.sequence ++ (leBytes 8 h.transactionId ++ (leBytes 2 h.messageType ++
    (leBytes 2 h.priority ++ (leBytes 2 h.version ++ (leBytes 4 h.dataPrePaddingLength ++
      (leBytes 2 h.dataOffset ++ (leBytes 8 h.ackSequence ++ (leBytes 1 h.flags ++
        (leBytes 2 h.compatVersion ++ (leBytes 2 h.reserved ++ []))))))))))

theorem MessageHeader.length_bytes (h : MessageHeader) : h.bytes.length = messageHeaderSize := by
  simp [bytes, messageHeaderSize]

theorem MessageHeader.encode_eq (h : MessageHeader) : h.encode = .ok h.bytes := by
  unfold encode Encoder.new messageHeaderSize
  simp only [Encoder.u64, Encoder.u32, Encoder.u16, Encoder.u8, Encoder.uint]
  iterate 11 rw [Encoder.raw_fits _ _ _ (by simp)]
  simp [Encoder.finish, bytes]

variable {h : MessageHeader}

theorem MessageHeader.takes_decodeFields (typed : h.Typed) :
    TakesAll messageHeaderSize decodeFields h.bytes h := by
  refine (Takes.u64 typed.sequence).bindAll ((Takes.u64 typed.transactionId).bindAll ?_)
  refine (Takes.u16 typed.messageType).bindAll ((Takes.u16 typed.priority).bindAll ?_)
  refine (Takes.u16 typed.version).bindAll ((Takes.u32 typed.dataPrePaddingLength).bindAll ?_)
  refine (Takes.u16 typed.dataOffset).bindAll ((Takes.u64 typed.ackSequence).bindAll ?_)
  refine (Takes.u8 typed.flags).bindAll ((Takes.u16 typed.compatVersion).bindAll ?_)
  refine (Takes.u16 typed.reserved).bindAll (Takes.finish.skipAll (.remaining ?_))
  exact (Takes.rejectIf (by simp)).skipAll (Takes.pure h).all

theorem MessageHeader.decode_bytes (typed : h.Typed) : MessageHeader.decode h.bytes = .ok h := by
  rw [decode, if_neg (not_not.mpr h.length_bytes)]
  exact bind_eq_ok.mpr ⟨_, (takes_decodeFields typed).run, rfl⟩

theorem MessageHeader.gives_decodeFields : Gives decodeFields MessageHeader.Typed := by
  refine .bind (gives_read_uint 8) fun _ sequence => .bind (gives_read_uint 8) fun _ transaction => ?_
  refine .bind (gives_read_uint 2) fun _ type => .bind (gives_read_uint 2) fun _ priority => ?_
  refine .bind (gives_read_uint 2) fun _ version => .bind (gives_read_uint 4) fun _ padding => ?_
  refine .bind (gives_read_uint 2) fun _ offset => .bind (gives_read_uint 8) fun _ ack => ?_
  refine .bind (gives_read_uint 1) fun _ flags => .bind (gives_read_uint 2) fun _ compat => ?_
  refine .bind (gives_read_uint 2) fun _ reserved => .skip fun _ => .skip fun _ => .skip fun _ => ?_
  exact .pure ⟨sequence, transaction, type, priority, version, padding, offset, ack, flags, compat,
    reserved⟩

theorem MessageHeader.decode_eq_ok {data : List UInt8}
    (decoded : MessageHeader.decode data = .ok h) : data.length = messageHeaderSize ∧ h.Typed := by
  unfold decode at decoded
  split at decoded
  · cases decoded
  rename_i size
  obtain ⟨⟨_, _⟩, read, rest⟩ := bind_eq_ok.mp decoded
  cases rest
  exact ⟨not_not.mp size, gives_decodeFields _ _ _ read⟩

/-! ## The segments -/

/-- The lengths of all segments. -/
def segmentsTotal (segments : List Segment) : Nat :=
  (segments.map fun segment => segment.data.length).sum

/-- One turn of the loop of `validateSegments`. -/
def validateSegment (limits : Limits) (total : Nat) (entry : Segment × Nat) :
    Except FrameError Nat := do
  if entry.1.alignment != entry.2 then throw .malformed
  if entry.1.data.length > limits.maxSegmentBytes then throw .limitExceeded
  okOr .limitExceeded (checkedAdd u64Max total entry.1.data.length)

theorem okOr_checkedAdd_eq_ok {bound a b sum : Nat} :
    okOr FrameError.limitExceeded (checkedAdd bound a b) = .ok sum ↔ sum = a + b ∧ sum ≤ bound := by
  rw [okOr_eq_ok, checkedAdd]
  split
  next fits =>
    rw [Option.some.injEq]
    constructor
    · rintro rfl
      exact ⟨rfl, fits⟩
    · rintro ⟨rfl, _⟩
      rfl
  next full =>
    constructor
    · nofun
    · rintro ⟨rfl, fits⟩
      exact absurd fits full

variable {limits : Limits}

theorem validateSegment_eq_ok {total total' : Nat} {entry : Segment × Nat} :
    validateSegment limits total entry = .ok total' ↔
      (entry.1.alignment = entry.2 ∧ entry.1.data.length ≤ limits.maxSegmentBytes) ∧
        total' = total + entry.1.data.length ∧ total' ≤ u64Max := by
  unfold validateSegment
  rw [check_eq_ok, check_eq_ok, okOr_checkedAdd_eq_ok, bne_iff_ne, not_not, Nat.not_lt, and_assoc]

theorem validateSegments_eq_ok {segments : List Segment}
    (few : segments.length ≤ messageAlignments.length) :
    validateSegments segments limits = .ok () ↔
      (∀ entry ∈ segments.zip messageAlignments,
        entry.1.alignment = entry.2 ∧ entry.1.data.length ≤ limits.maxSegmentBytes) ∧
        segmentsTotal segments ≤ u64Max ∧ segmentsTotal segments ≤ limits.maxFrameBytes := by
  have sizes : ((segments.zip messageAlignments).map fun entry => entry.1.data.length).sum
      = segmentsTotal segments := by
    rw [← Function.comp_def (fun segment : Segment => segment.data.length) Prod.fst,
      ← List.map_map, List.map_fst_zip few, segmentsTotal]
  have turn := fun total entry total' => @validateSegment_eq_ok limits total total' entry
  have loop : validateSegments segments limits =
      (segments.zip messageAlignments).foldlM (validateSegment limits) 0 >>= fun total =>
        if total > limits.maxFrameBytes then throw .limitExceeded else pure () := rfl
  rw [loop, bind_eq_ok]
  constructor
  · rintro ⟨total, fold, rest⟩
    obtain ⟨all, rfl, small⟩ := (foldlM_sum_eq_ok turn (Nat.zero_le _)).mp fold
    rw [sizes, Nat.zero_add] at small rest
    split at rest
    · cases rest
    next fits => exact ⟨all, small, Nat.not_lt.mp fits⟩
  · rintro ⟨all, small, fits⟩
    refine ⟨segmentsTotal segments,
      (foldlM_sum_eq_ok turn (Nat.zero_le _)).mpr ⟨all, ?_, small⟩, ?_⟩
    · rw [sizes, Nat.zero_add]
    · rw [if_neg (Nat.not_lt.mpr fits)]
      rfl

theorem Frame.length_part_le (frame : Frame)
    (few : frame.segments.length ≤ messageAlignments.length)
    (valid : validateSegments frame.segments limits = .ok ()) (index : Nat) :
    (frame.part index).length ≤ limits.maxSegmentBytes := by
  unfold part
  cases here : frame.segments[index]? with
  | none => exact Nat.zero_le _
  | some segment =>
    have known := List.mem_of_getElem? here
    rw [← List.map_fst_zip few] at known
    obtain ⟨entry, mem, rfl⟩ := List.mem_map.mp known
    exact (((validateSegments_eq_ok few).mp valid).1 entry mem).2

theorem Frame.segmentsTotal_eq (frame : Frame)
    (few : frame.segments.length ≤ messageAlignments.length) :
    segmentsTotal frame.segments = (frame.part 0).length + (frame.part 1).length
      + (frame.part 2).length + (frame.part 3).length := by
  unfold part
  match frame.segments, few with
  | [], _ => rfl
  | [_], _ => simp [segmentsTotal]
  | [_, _], _ => simp [segmentsTotal]
  | [_, _, _], _ => simp [segmentsTotal, Nat.add_assoc]
  | [_, _, _, _], _ => simp [segmentsTotal, Nat.add_assoc]

/-! ### Without the empty tail -/

variable (segments : List Segment)

theorem eq_trimmedSegments_append :
    ∃ empty, segments = trimmedSegments segments ++ empty ∧ ∀ segment ∈ empty, segment.data = [] := by
  cases segments with
  | nil => exact ⟨[], rfl, nofun⟩
  | cons first rest =>
    refine ⟨rest.rtakeWhile (·.data.isEmpty), ?_, fun segment mem => ?_⟩
    · rw [trimmedSegments, List.cons_append, List.rdropWhile_append_rtakeWhile]
    · have blank := List.mem_rtakeWhile_imp (p := fun segment : Segment => segment.data.isEmpty) mem
      exact List.isEmpty_iff.mp blank

theorem segmentsTotal_trimmed :
    segmentsTotal (trimmedSegments segments) = segmentsTotal segments := by
  obtain ⟨empty, eq, none⟩ := eq_trimmedSegments_append segments
  have zero : segmentsTotal empty = 0 := by
    refine List.sum_eq_zero_iff_forall_eq_nat.mpr (List.forall_mem_map.mpr fun segment mem => ?_)
    rw [none segment mem, List.length_nil]
  conv_rhs => rw [eq, segmentsTotal, List.map_append, List.sum_append]
  rw [← segmentsTotal, ← segmentsTotal, zero, Nat.add_zero]

/-- A part that was left out is empty. -/
theorem Frame.part_trimmed (frame : Frame) (index : Nat) :
    frame.trimmed.part index = frame.part index := by
  obtain ⟨empty, eq, none⟩ := eq_trimmedSegments_append frame.segments
  unfold part trimmed
  conv_rhs => rw [eq, List.getElem?_append]
  split
  · rfl
  rename_i outside
  rw [List.getElem?_eq_none (Nat.not_lt.mp outside)]
  cases here : empty[index - (trimmedSegments frame.segments).length]? with
  | none => rfl
  | some segment => exact (none segment (List.mem_of_getElem? here)).symm

theorem length_trimmedSegments_le : (trimmedSegments segments).length ≤ segments.length := by
  obtain ⟨empty, eq, _⟩ := eq_trimmedSegments_append segments
  conv_rhs => rw [eq, List.length_append]
  exact Nat.le_add_right _ _

theorem validateSegments_trimmed {segments : List Segment}
    (few : segments.length ≤ messageAlignments.length)
    (valid : validateSegments segments limits = .ok ()) :
    validateSegments (trimmedSegments segments) limits = .ok () := by
  obtain ⟨each, small, fits⟩ := (validateSegments_eq_ok few).mp valid
  refine (validateSegments_eq_ok ((length_trimmedSegments_le segments).trans few)).mpr ⟨?_, ?_⟩
  · obtain ⟨empty, eq, _⟩ := eq_trimmedSegments_append segments
    intro entry mem
    obtain ⟨index, here⟩ := List.mem_iff_getElem?.mp mem
    obtain ⟨segment, alignment⟩ := List.getElem?_zip_eq_some.mp here
    refine each entry (List.mem_of_getElem? (List.getElem?_zip_eq_some.mpr ⟨?_, alignment⟩))
    rw [eq, List.getElem?_append_left (List.getElem?_eq_some_iff.mp segment).1, segment]
  · rw [segmentsTotal_trimmed]
    exact ⟨small, fits⟩

/-! ## Encoding -/

namespace Message

/-- The four segments of a message. -/
def frame (message : Message) : Frame :=
  ⟨.message, [⟨defaultAlignment, message.header.bytes⟩, ⟨defaultAlignment, message.front⟩,
    ⟨defaultAlignment, message.middle⟩, ⟨pageAlignment, message.data⟩]⟩

/-- The bytes of all parts. -/
def total (message : Message) : Nat :=
  messageHeaderSize + message.front.length + message.middle.length + message.data.length

/-- What encoding checks of a message. -/
structure Fits (message : Message) (limits : Limits) : Prop where
  lengths : message.lengths = ⟨message.front.length, message.middle.length, message.data.length⟩
  padding : message.header.dataPrePaddingLength ≤ message.data.length
  front : message.front.length ≤ u32Max
  middle : message.middle.length ≤ u32Max
  data : message.data.length ≤ u32Max
  segments : ∀ segment ∈ message.frame.segments, segment.data.length ≤ limits.maxSegmentBytes
  total : message.total ≤ limits.maxFrameBytes

theorem segmentsTotal_frame (message : Message) :
    segmentsTotal message.frame.segments = message.total := by
  simp only [segmentsTotal, frame, List.map_cons, List.map_nil, List.sum_cons, List.sum_nil, total,
    message.header.length_bytes]
  omega

theorem validateSegments_frame {message : Message} (front : message.front.length ≤ u32Max)
    (middle : message.middle.length ≤ u32Max) (data : message.data.length ≤ u32Max) :
    validateSegments message.frame.segments limits = .ok () ↔
      (∀ segment ∈ message.frame.segments, segment.data.length ≤ limits.maxSegmentBytes) ∧
        message.total ≤ limits.maxFrameBytes := by
  have small : message.total ≤ u64Max := by
    unfold total messageHeaderSize u64Max
    unfold u32Max at front middle data
    omega
  rw [validateSegments_eq_ok (by exact Nat.le_refl 4), segmentsTotal_frame]
  simp only [frame, messageAlignments, List.zip_cons_cons, List.zip_nil_right, List.forall_mem_cons,
    List.not_mem_nil, IsEmpty.forall_iff, implies_true, and_true, true_and, small]

theorem checkedLength_eq_ok {length checked : Nat} :
    checkedLength length = .ok checked ↔ length ≤ u32Max ∧ checked = length := by
  rw [checkedLength, okOr_eq_ok, tryFrom]
  split
  next fits => simp [fits, eq_comm]
  next full => simp [full]

theorem encode_eq_ok {message : Message} {encoded : Frame} :
    message.encode limits = .ok encoded ↔ message.Fits limits ∧ encoded = message.frame := by
  unfold encode
  constructor
  · intro h
    obtain ⟨_, length, h⟩ := bind_eq_ok.mp h
    obtain ⟨front, rfl⟩ := checkedLength_eq_ok.mp length
    obtain ⟨_, length, h⟩ := bind_eq_ok.mp h
    obtain ⟨middle, rfl⟩ := checkedLength_eq_ok.mp length
    obtain ⟨_, length, h⟩ := bind_eq_ok.mp h
    obtain ⟨data, rfl⟩ := checkedLength_eq_ok.mp length
    obtain ⟨checked, h⟩ := check_eq_ok.mp h
    obtain ⟨_, header, h⟩ := bind_eq_ok.mp h
    rw [message.header.encode_eq] at header
    cases header
    obtain ⟨_, valid, h⟩ := bind_eq_ok.mp h
    cases h
    simp only [Bool.or_eq_true, bne_iff_ne, decide_eq_true_eq, not_or, not_not, Nat.not_lt]
      at checked
    obtain ⟨segments, total⟩ := (validateSegments_frame front middle data).mp valid
    exact ⟨⟨checked.1, checked.2, front, middle, data, segments, total⟩, rfl⟩
  · rintro ⟨fits, rfl⟩
    refine bind_eq_ok.mpr ⟨_, checkedLength_eq_ok.mpr ⟨fits.front, rfl⟩, ?_⟩
    refine bind_eq_ok.mpr ⟨_, checkedLength_eq_ok.mpr ⟨fits.middle, rfl⟩, ?_⟩
    refine bind_eq_ok.mpr ⟨_, checkedLength_eq_ok.mpr ⟨fits.data, rfl⟩, ?_⟩
    refine check_eq_ok.mpr ⟨?_, ?_⟩
    · simp [fits.lengths, fits.padding]
    refine bind_eq_ok.mpr ⟨message.header.bytes, by rw [message.header.encode_eq]; rfl, ?_⟩
    exact bind_eq_ok.mpr ⟨(), (validateSegments_frame fits.front fits.middle fits.data).mpr
      ⟨fits.segments, fits.total⟩, rfl⟩

end Message

/-! ## Decoding -/

variable {message : Message}

/-- Decoding looks at the parts only. -/
theorem Message.decode_of_parts {frame : Frame} (typed : message.header.Typed)
    (fits : message.Fits limits) (tag : frame.tag = .message) (one : 1 ≤ frame.segments.length)
    (few : frame.segments.length ≤ 4) (valid : validateSegments frame.segments limits = .ok ())
    (parts : ∀ index, frame.part index = message.frame.part index) :
    Message.decode frame limits = .ok message := by
  have first := List.getElem?_eq_getElem (l := frame.segments) one
  have header : frame.segments[0].data = message.header.bytes := by
    have same := parts 0
    rw [Frame.part, first] at same
    exact same
  have front : frame.part 1 = message.front := parts 1
  have middle : frame.part 2 = message.middle := parts 2
  have data : frame.part 3 = message.data := parts 3
  unfold Message.decode
  rw [if_neg (by rintro (other | none | many) <;> [exact other tag; omega; exact few.not_gt many])]
  refine bind_eq_ok.mpr ⟨(), Run.ofResult_eq_ok.mpr valid, ?_⟩
  refine bind_eq_ok.mpr ⟨_, expect_eq_ok.mpr first, ?_⟩
  refine bind_eq_ok.mpr ⟨message.header, header ▸ MessageHeader.decode_bytes typed, ?_⟩
  rw [front, middle, data, if_neg (Nat.not_lt.mpr fits.padding)]
  refine bind_eq_ok.mpr ⟨_, Run.ofResult_eq_ok.mpr (checkedLength_eq_ok.mpr ⟨fits.front, rfl⟩), ?_⟩
  refine bind_eq_ok.mpr ⟨_, Run.ofResult_eq_ok.mpr (checkedLength_eq_ok.mpr ⟨fits.middle, rfl⟩), ?_⟩
  refine bind_eq_ok.mpr ⟨_, Run.ofResult_eq_ok.mpr (checkedLength_eq_ok.mpr ⟨fits.data, rfl⟩), ?_⟩
  rw [← fits.lengths]
  rfl

/-- What is known of a message that was decoded. -/
theorem Message.decode_eq_ok {frame : Frame} (h : Message.decode frame limits = .ok message) :
    message.header.Typed ∧ message.Fits limits := by
  unfold Message.decode at h
  split at h
  · cases h
  rename_i shape
  obtain ⟨_, valid, h⟩ := bind_eq_ok.mp h
  obtain ⟨first, here, h⟩ := bind_eq_ok.mp h
  obtain ⟨header, decoded, h⟩ := bind_eq_ok.mp h
  split at h
  · cases h
  rename_i padding
  obtain ⟨_, length, h⟩ := bind_eq_ok.mp h
  obtain ⟨front, rfl⟩ := checkedLength_eq_ok.mp (Run.ofResult_eq_ok.mp length)
  obtain ⟨_, length, h⟩ := bind_eq_ok.mp h
  obtain ⟨middle, rfl⟩ := checkedLength_eq_ok.mp (Run.ofResult_eq_ok.mp length)
  obtain ⟨_, length, h⟩ := bind_eq_ok.mp h
  obtain ⟨data, rfl⟩ := checkedLength_eq_ok.mp (Run.ofResult_eq_ok.mp length)
  cases h
  obtain ⟨size, typed⟩ := MessageHeader.decode_eq_ok decoded
  have few : frame.segments.length ≤ messageAlignments.length := by
    by_contra many
    exact shape (.inr (.inr (Nat.not_le.mp many)))
  have valid := Run.ofResult_eq_ok.mp valid
  have first : (frame.part 0).length = messageHeaderSize := by
    rw [Frame.part, expect_eq_ok.mp here, ← size]
    rfl
  refine ⟨typed, rfl, Nat.not_lt.mp padding, front, middle, data, ?_, ?_⟩
  · have short := frame.length_part_le few valid
    rw [Message.frame, List.forall_mem_cons, header.length_bytes, ← first]
    simp only [List.forall_mem_cons, List.not_mem_nil, IsEmpty.forall_iff, implies_true, and_true]
    exact ⟨short 0, short 1, short 2, short 3⟩
  · rw [Message.total, ← first, ← frame.segmentsTotal_eq few]
    exact ((validateSegments_eq_ok few).mp valid).2.2

/-! ## The size on the wire -/

/-- What a segment takes on the wire, with the checksum after a nonempty first one. -/
def Descriptor.crcSize (entry : Descriptor × Nat) : Nat :=
  entry.1.length + if entry.2 == 0 && entry.1.length > 0 then 4 else 0

/-- One turn of the loop of `descriptorsAndCrcSizeFromDescriptors`. -/
def addDescriptor (limits : Limits) (total : Nat) (entry : Descriptor × Nat) :
    Except FrameError Nat := do
  if entry.1.length > limits.maxSegmentBytes then throw .limitExceeded
  if !validAlignment entry.1.alignment then throw .malformed
  let crc := if entry.2 == 0 && entry.1.length > 0 then 4 else 0
  let total ← okOr .limitExceeded (checkedAdd u64Max total entry.1.length)
  okOr .limitExceeded (checkedAdd u64Max total crc)

theorem addDescriptor_eq_ok {total total' : Nat} {entry : Descriptor × Nat} :
    addDescriptor limits total entry = .ok total' ↔
      (entry.1.length ≤ limits.maxSegmentBytes ∧ validAlignment entry.1.alignment = true) ∧
        total' = total + Descriptor.crcSize entry ∧ total' ≤ u64Max := by
  unfold addDescriptor Descriptor.crcSize
  rw [check_eq_ok, check_eq_ok, Nat.not_lt, and_assoc, Bool.not_eq_true', Bool.not_eq_false]
  dsimp only
  rw [bind_eq_ok]
  simp only [okOr_checkedAdd_eq_ok]
  constructor
  · rintro ⟨short, aligned, _, ⟨rfl, _⟩, rfl, fits⟩
    exact ⟨short, aligned, Nat.add_assoc _ _ _, fits⟩
  · rintro ⟨short, aligned, rfl, fits⟩
    exact ⟨short, aligned, _, ⟨rfl, by omega⟩, (Nat.add_assoc _ _ _).symm, fits⟩

/-- The size of the frame, checked at the end of `descriptorsAndCrcSizeFromDescriptors`. -/
def withinFrame (limits : Limits) (total : Nat) : Except FrameError Nat := do
  if total > limits.maxFrameBytes then throw .limitExceeded
  pure total

theorem withinFrame_eq_ok {total total' : Nat} :
    withinFrame limits total = .ok total' ↔ total' = total ∧ total' ≤ limits.maxFrameBytes := by
  unfold withinFrame
  rw [check_eq_ok, Nat.not_lt]
  constructor
  · rintro ⟨room, ⟨⟩⟩
    exact ⟨rfl, room⟩
  · rintro ⟨rfl, room⟩
    exact ⟨room, rfl⟩

/-- The size of a frame with these descriptors. -/
def crcFrameSize (descriptors : List Descriptor) : Nat :=
  preambleSize + (descriptors.zipIdx.map Descriptor.crcSize).sum
    + if descriptors.length > 1 then 13 else 0

theorem descriptorsAndCrcSizeFromDescriptors_eq_ok {descriptors : List Descriptor} {total : Nat} :
    descriptorsAndCrcSizeFromDescriptors descriptors limits = .ok total ↔
      (∀ d ∈ descriptors, d.length ≤ limits.maxSegmentBytes ∧ validAlignment d.alignment = true) ∧
        total = crcFrameSize descriptors ∧ total ≤ u64Max ∧ total ≤ limits.maxFrameBytes := by
  have turn := fun total entry total' => @addDescriptor_eq_ok limits total total' entry
  have each : (∀ entry ∈ descriptors.zipIdx,
      entry.1.length ≤ limits.maxSegmentBytes ∧ validAlignment entry.1.alignment = true) ↔
      ∀ d ∈ descriptors, d.length ≤ limits.maxSegmentBytes ∧ validAlignment d.alignment = true := by
    conv_rhs => rw [← List.zipIdx_map_fst 0 descriptors]
    rw [List.forall_mem_map]
  have loop : descriptorsAndCrcSizeFromDescriptors descriptors limits =
      descriptors.zipIdx.foldlM (addDescriptor limits) preambleSize >>= fun total =>
        if descriptors.length > 1 then
          okOr .limitExceeded (checkedAdd u64Max total 13) >>= withinFrame limits
        else withinFrame limits total := rfl
  have small : preambleSize ≤ u64Max := by decide
  rw [loop, bind_eq_ok, crcFrameSize]
  simp only [foldlM_sum_eq_ok turn small, each]
  split
  · simp only [bind_eq_ok, okOr_checkedAdd_eq_ok, withinFrame_eq_ok]
    constructor
    · rintro ⟨_, ⟨all, rfl, _⟩, _, ⟨rfl, fits⟩, rfl, room⟩
      exact ⟨all, rfl, fits, room⟩
    · rintro ⟨all, rfl, fits, room⟩
      exact ⟨_, ⟨all, rfl, by omega⟩, _, ⟨rfl, fits⟩, rfl, room⟩
  · simp only [withinFrame_eq_ok]
    constructor
    · rintro ⟨_, ⟨all, rfl, fits⟩, rfl, room⟩
      exact ⟨all, rfl, fits, room⟩
    · rintro ⟨all, rfl, fits, room⟩
      exact ⟨_, ⟨all, rfl, fits⟩, rfl, room⟩

theorem sum_crcSize (descriptors : List Descriptor) {first : Nat} (later : 0 < first) :
    ((descriptors.zipIdx first).map Descriptor.crcSize).sum
      = (descriptors.map Descriptor.length).sum := by
  conv_rhs => rw [← List.zipIdx_map_fst first descriptors, List.map_map]
  congr 1
  refine List.map_congr_left fun entry mem => ?_
  have place := List.le_snd_of_mem_zipIdx mem
  have other : (entry.2 == 0) = false := by
    rw [beq_eq_false_iff_ne]
    omega
  rw [Descriptor.crcSize, other]
  rfl

/-- A message on the plain transport.  Its header is never empty. -/
def Message.wireSize (message : Message) : Nat :=
  preambleSize + message.total + 4
    + if message.front = [] ∧ message.middle = [] ∧ message.data = [] then 0 else 13

theorem Message.length_trimmed (message : Message) :
    1 < message.frame.trimmed.segments.length ↔
      ¬ (message.front = [] ∧ message.middle = [] ∧ message.data = []) := by
  show 1 < (List.rdropWhile _ _).length + 1 ↔ _
  rw [Nat.lt_add_left_iff_pos, List.length_pos_iff, Ne, List.rdropWhile_eq_nil_iff]
  simp only [List.forall_mem_cons, List.not_mem_nil, IsEmpty.forall_iff, implies_true, and_true,
    List.isEmpty_iff]

theorem Message.crcFrameSize_eq (message : Message) :
    crcFrameSize (message.frame.trimmed.segments.map Segment.descriptor) = message.wireSize := by
  have total := (segmentsTotal_trimmed message.frame.segments).trans message.segmentsTotal_frame
  have several : (message.frame.trimmed.segments.map Segment.descriptor).length > 1 ↔
      ¬ (message.front = [] ∧ message.middle = [] ∧ message.data = []) := by
    rw [List.length_map]
    exact message.length_trimmed
  have sizes : ((message.frame.trimmed.segments.map Segment.descriptor).zipIdx.map
      Descriptor.crcSize).sum = message.total + 4 := by
    rw [← total]
    show (((Segment.descriptor _ :: _).zipIdx).map _).sum = segmentsTotal (_ :: _) + 4
    rw [List.zipIdx_cons, List.map_cons, List.sum_cons, sum_crcSize _ (Nat.zero_lt_succ 0),
      segmentsTotal, List.map_cons, List.sum_cons, List.map_map]
    have first : Descriptor.crcSize
        ((⟨defaultAlignment, message.header.bytes⟩ : Segment).descriptor, 0)
          = message.header.bytes.length + 4 := by
      simp [Descriptor.crcSize, Segment.descriptor, message.header.length_bytes, messageHeaderSize]
    rw [first, Nat.add_right_comm]
    rfl
  rw [crcFrameSize, sizes, wireSize, ← Nat.add_assoc]
  congr 1
  split
  next more => rw [if_neg (several.mp more)]
  next only => rw [if_pos (not_not.mp fun more => only (several.mpr more))]

theorem Message.wireSize_le (message : Message) (fits : message.Fits limits) :
    message.wireSize ≤ u64Max := by
  have front := fits.front
  have middle := fits.middle
  have data := fits.data
  unfold wireSize total messageHeaderSize preambleSize u64Max
  unfold u32Max at front middle data
  split <;> omega

/-- The transport takes the frame of a message if the frame fits as a whole. -/
theorem Message.isOk_codec_encode (fits : message.Fits limits) (codec : CrcCodec) :
    (codec.encode message.frame limits).isOk = true ↔ message.wireSize ≤ limits.maxFrameBytes := by
  constructor
  · intro accepted
    obtain ⟨bytes, encoded⟩ := exists_of_isOk accepted
    obtain ⟨total, written⟩ := CrcCodec.encode_eq_ok encoded
    obtain ⟨_, rfl, _, room⟩ := descriptorsAndCrcSizeFromDescriptors_eq_ok.mp written.sized
    rwa [message.crcFrameSize_eq] at room
  intro room
  have members : ∀ segment ∈ message.frame.trimmed.segments,
      segment ∈ message.frame.segments :=
    fun segment mem => trimmedSegments_subset _ mem
  have small : ∀ segment ∈ message.frame.segments, segment.data.length ≤ u32Max := by
    simp only [frame, List.forall_mem_cons, List.not_mem_nil, IsEmpty.forall_iff, implies_true,
      and_true, message.header.length_bytes]
    exact ⟨by decide, fits.front, fits.middle, fits.data⟩
  have aligned : ∀ segment ∈ message.frame.segments,
      validAlignment segment.alignment = true := by
    simp only [frame, List.forall_mem_cons, List.not_mem_nil, IsEmpty.forall_iff, implies_true,
      and_true]
    decide
  have descriptors : message.frame.trimmed.segments.mapM (fun segment => do
      let length ← okOr FrameError.limitExceeded (tryFrom u32Max segment.data.length)
      pure (⟨length, segment.alignment⟩ : Descriptor))
        = .ok (message.frame.trimmed.segments.map Segment.descriptor) := by
    refine mapM_eq_map fun segment mem => ?_
    rw [tryFrom, if_pos (small segment (members segment mem))]
    rfl
  have sized : descriptorsAndCrcSizeFromDescriptors
      (message.frame.trimmed.segments.map Segment.descriptor) limits = .ok message.wireSize := by
    refine descriptorsAndCrcSizeFromDescriptors_eq_ok.mpr
      ⟨?_, message.crcFrameSize_eq.symm, message.wireSize_le fits, room⟩
    rw [List.forall_mem_map]
    exact fun segment mem => ⟨fits.segments segment (members segment mem),
      aligned segment (members segment mem)⟩
  have prepared : CrcCodec.prepare message.frame limits
      = .ok (message.frame.trimmed.segments.map Segment.descriptor, message.wireSize) := by
    unfold CrcCodec.prepare
    refine bind_eq_ok.mpr ⟨message.frame.trimmed.segments, rfl, ?_⟩
    refine check_eq_ok.mpr ⟨Nat.not_lt.mpr (by show (17 : Nat) ≤ 20; decide), ?_⟩
    unfold descriptorsAndCrcSize
    exact bind_eq_ok.mpr ⟨_, descriptors, bind_eq_ok.mpr ⟨_, sized, rfl⟩⟩
  rw [CrcCodec.isOk_encode, prepared]
  rfl

/-! ## There and back -/

/-- The frame that the transport reads is decoded as the message. -/
theorem Message.decode_trimmed (typed : message.header.Typed) (fits : message.Fits limits) :
    Message.decode message.frame.trimmed limits = .ok message := by
  have few : message.frame.segments.length ≤ messageAlignments.length := Nat.le_refl 4
  have valid := (validateSegments_frame fits.front fits.middle fits.data).mpr
    ⟨fits.segments, fits.total⟩
  refine decode_of_parts typed fits rfl (Nat.succ_pos _) ?_ (validateSegments_trimmed few valid)
    message.frame.part_trimmed
  exact length_trimmedSegments_le message.frame.segments

theorem Message.decode_frame (typed : message.header.Typed) (fits : message.Fits limits) :
    Message.decode message.frame limits = .ok message := by
  have valid := (validateSegments_frame fits.front fits.middle fits.data).mpr
    ⟨fits.segments, fits.total⟩
  exact decode_of_parts typed fits rfl (Nat.succ_pos _) (Nat.le_refl 4) valid fun _ => rfl

theorem Message.reads_frame {codec : CrcCodec} {bytes : List UInt8}
    (h : codec.encode message.frame limits = .ok bytes) :
    (codec.read limits).on bytes = (.ok message.frame.trimmed, []) := by
  obtain ⟨total, written⟩ := CrcCodec.encode_eq_ok h
  have typed : message.frame.Typed := by
    simp only [Frame.Typed, frame, List.forall_mem_cons, List.not_mem_nil, IsEmpty.forall_iff,
      implies_true, and_true]
    decide
  have reads : Stateful.Reads (codec.read limits) bytes message.frame.trimmed :=
    written.reads (fun s mem => typed s (trimmedSegments_subset _ mem)) rfl
  have all := reads []
  rwa [List.append_nil] at all

/-- A message that was encoded is put on the plain transport if its whole frame is within the
limit, and what is then read from there is decoded as the same message.  What was decoded is
encoded again, and decoded as the same message. -/
theorem messages_round_trip (limits : Limits) :
    (∀ (message : Message) (frame : Frame), message.header.Typed →
      message.encode limits = .ok frame → ∀ codec : CrcCodec,
        ((codec.encode frame limits).isOk = true ↔ message.wireSize ≤ limits.maxFrameBytes) ∧
        ∀ bytes, codec.encode frame limits = .ok bytes →
          ∃ read, (codec.read limits).on bytes = (.ok read, []) ∧
            Message.decode read limits = .ok message) ∧
      ∀ (message : Message) (frame : Frame), Message.decode frame limits = .ok message →
        ∃ again, message.encode limits = .ok again ∧ Message.decode again limits = .ok message := by
  constructor
  · intro message frame typed encoded codec
    obtain ⟨fits, rfl⟩ := Message.encode_eq_ok.mp encoded
    exact ⟨Message.isOk_codec_encode fits codec, fun bytes written =>
      ⟨_, Message.reads_frame written, Message.decode_trimmed typed fits⟩⟩
  intro message frame decoded
  obtain ⟨typed, fits⟩ := Message.decode_eq_ok decoded
  exact ⟨message.frame, Message.encode_eq_ok.mpr ⟨fits, rfl⟩, Message.decode_frame typed fits⟩

/-- A header alone, in a limit that it just meets: the transport has no room for the frame. -/
theorem message_without_transport :
    let limits : Limits := ⟨4096, 41, 64, 4096⟩
    ∃ frame, Message.encode {} limits = .ok frame ∧
      ∀ codec : CrcCodec, codec.encode frame limits = .error .limitExceeded := by
  intro limits
  refine ⟨Message.frame {}, by decide, ?_⟩
  rintro ⟨_ | _⟩
  · decide
  · decide

/-- A message with a front and data, and no middle. -/
theorem messages_round_trip_data :
    let limits : Limits := ⟨4096, 8192, 64, 4096⟩
    let message : Message :=
      { header := { sequence := 7, messageType := 42, dataPrePaddingLength := 1 }
        lengths := ⟨2, 0, 3⟩, front := [1, 2], data := [3, 4, 5] }
    ∃ bytes read, (⟨true⟩ : CrcCodec).encode message.frame limits = .ok bytes ∧
      ((⟨true⟩ : CrcCodec).read limits).on bytes = (.ok read, []) ∧
      Message.decode read limits = .ok message ∧
      ∃ again, message.encode limits = .ok again ∧ Message.decode again limits = .ok message := by
  intro limits message
  have typed : message.header.Typed := by constructor <;> decide
  have encoded : message.encode limits = .ok message.frame := by decide
  obtain ⟨room, back⟩ := (messages_round_trip limits).1 message message.frame typed encoded ⟨true⟩
  obtain ⟨bytes, written⟩ := exists_of_isOk (room.mpr (by decide))
  obtain ⟨read, reads, decoded⟩ := back bytes written
  exact ⟨bytes, read, written, reads, decoded,
    (messages_round_trip limits).2 message read decoded⟩

end RadosRs.Msgr
