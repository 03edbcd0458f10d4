import RadosRs.Msgr.Frame
import RadosRs.Wire.Reader

/-!
# Messages

A message is a header and three byte strings.  On the wire it is a frame of four
segments whose alignments are fixed.  The memory charge that a received message
carries does not take part in comparing messages and is left out.
-/

namespace RadosRs.Msgr

open Fallible Fixed Wire Wire.Reader

instance : OfWire FrameError where
  ofWire
    | .limitExceeded => .limitExceeded
    | .malformed => .malformed
    | .unsupportedVersion _ _ => .malformed

def messageHeaderSize : Nat := 41

def messageAlignments : List Nat :=
  [defaultAlignment, defaultAlignment, defaultAlignment, pageAlignment]

structure MessageHeader where
  sequence : Nat := 0
  transactionId : Nat := 0
  messageType : Nat := 0
  priority : Nat := 0
  version : Nat := 0
  dataPrePaddingLength : Nat := 0
  dataOffset : Nat := 0
  ackSequence : Nat := 0
  flags : Nat := 0
  compatVersion : Nat := 0
  reserved : Nat := 0
  deriving DecidableEq, Repr

structure MessageLengths where
  front : Nat := 0
  middle : Nat := 0
  data : Nat := 0
  deriving DecidableEq, Repr

structure Message where
  header : MessageHeader := {}
  lengths : MessageLengths := {}
  front : List UInt8 := []
  middle : List UInt8 := []
  data : List UInt8 := []
  deriving DecidableEq, Repr

/-- The header's 41 bytes. -/
def MessageHeader.encode (h : MessageHeader) : Except WireError (List UInt8) :=
  let encoder := Encoder.new messageHeaderSize
  let encoder := encoder.u64 h.sequence
  let encoder := encoder.u64 h.transactionId
  let encoder := encoder.u16 h.messageType
  let encoder := encoder.u16 h.priority
  let encoder := encoder.u16 h.version
  let encoder := encoder.u32 h.dataPrePaddingLength
  let encoder := encoder.u16 h.dataOffset
  let encoder := encoder.u64 h.ackSequence
  let encoder := encoder.u8 h.flags
  let encoder := encoder.u16 h.compatVersion
  let encoder := encoder.u16 h.reserved
  encoder.finish

def checkedLength (length : Nat) : Except FrameError Nat :=
  okOr .limitExceeded (tryFrom u32Max length)

/-- Every segment has its own alignment and fits, and so do all of them together. -/
def validateSegments (segments : List Segment) (limits : Limits) : Except FrameError Unit := do
  let total ← (segments.zip messageAlignments).foldlM
    (fun total (segment, alignment) => do
      if segment.alignment != alignment then throw .malformed
      if segment.data.length > limits.maxSegmentBytes then throw .limitExceeded
      okOr .limitExceeded (checkedAdd u64Max total segment.data.length))
    0
  if total > limits.maxFrameBytes then throw .limitExceeded

def Message.encode (message : Message) (limits : Limits) : Except FrameError Frame := do
  let actual : MessageLengths :=
    { front := ← checkedLength message.front.length
      middle := ← checkedLength message.middle.length
      data := ← checkedLength message.data.length }
  if message.lengths != actual || message.header.dataPrePaddingLength > actual.data then
    throw .malformed
  -- The source expects the fixed header to fit; it does, by `MessageHeader.encode_eq`.
  let header ← message.header.encode.mapError fun _ => FrameError.malformed
  let segments : List Segment :=
    [⟨defaultAlignment, header⟩, ⟨defaultAlignment, message.front⟩,
      ⟨defaultAlignment, message.middle⟩, ⟨pageAlignment, message.data⟩]
  validateSegments segments limits
  pure ⟨.message, segments⟩

/-- The fields of a header and nothing after them. -/
def MessageHeader.decodeFields : Reader FrameError MessageHeader := do
  let sequence ← u64
  let transactionId ← u64
  let messageType ← u16
  let priority ← u16
  let version ← u16
  let dataPrePaddingLength ← u32
  let dataOffset ← u16
  let ackSequence ← u64
  let flags ← u8
  let compatVersion ← u16
  let reserved ← u16
  finish
  let left ← remaining
  rejectIf (left ≠ 0) .malformed
  return {
    sequence, transactionId, messageType, priority, version, dataPrePaddingLength, dataOffset
    ackSequence, flags, compatVersion, reserved }

def MessageHeader.decode (data : List UInt8) : Run FrameError MessageHeader := do
  if data.length ≠ messageHeaderSize then fail .malformed
  else
    let (header, _) ← decodeFields (.new data messageHeaderSize)
    return header

/-- The bytes of a segment, none where there is no segment. -/
def Frame.part (frame : Frame) (index : Nat) : List UInt8 :=
  ((frame.segments[index]?).map Segment.data).getD []

def Message.decode (frame : Frame) (limits : Limits) : Run FrameError Message := do
  if frame.tag ≠ .message ∨ frame.segments.length < 1
      ∨ messageAlignments.length < frame.segments.length then fail .malformed
  else
    Run.ofResult (validateSegments frame.segments limits)
    let first ← index frame.segments 0
    let header ← MessageHeader.decode first.data
    if header.dataPrePaddingLength > (frame.part 3).length then fail .malformed
    else
      let front ← Run.ofResult (checkedLength (frame.part 1).length)
      let middle ← Run.ofResult (checkedLength (frame.part 2).length)
      let data ← Run.ofResult (checkedLength (frame.part 3).length)
      return {
        header
        lengths := { front, middle, data }
        front := frame.part 1
        middle := frame.part 2
        data := frame.part 3 }

end RadosRs.Msgr
