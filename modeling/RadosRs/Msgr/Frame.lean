import Mathlib.Data.List.DropRight
import RadosRs.Lib.Fixed

/-!
# Frames

A frame is a tag and one to four segments.  `CrcCodec.prepare` and
`PreparedFrame.new` are the checks that the plain and the encrypting transport
make before they write a frame: the segment lengths, their alignments and the
size on the wire.  Everything after these checks (the preamble, the checksums,
the encryption) cannot fail, so a frame is accepted by a transport exactly when
they pass.
-/

namespace RadosRs.Msgr

open Fixed

/-- The frame tags of the protocol, in wire order from one. -/
inductive Tag where
  | hello
  | authRequest
  | authBadMethod
  | authReplyMore
  | authRequestMore
  | authDone
  | authSignature
  | clientIdent
  | serverIdent
  | identMissingFeatures
  | sessionReconnect
  | sessionReset
  | sessionRetry
  | sessionRetryGlobal
  | sessionReconnectOk
  | wait
  | message
  | keepalive2
  | keepalive2Ack
  | ack
  | compressionRequest
  | compressionDone
  deriving DecidableEq, Repr

/-- The tag as it stands on the wire. -/
def Tag.byte (tag : Tag) : Nat := tag.ctorIdx + 1

structure Limits where
  maxSegmentBytes : Nat
  maxFrameBytes : Nat
  maxAddresses : Nat
  maxAuthBytes : Nat
  deriving DecidableEq, Repr

structure Segment where
  alignment : Nat
  data : List UInt8
  deriving DecidableEq, Repr

structure Frame where
  tag : Tag
  segments : List Segment
  deriving DecidableEq, Repr

inductive FrameError where
  | aborted
  | counterExhausted
  | integrity
  | invalidSecret
  | limitExceeded
  | malformed
  | unsupportedFeature
  | unsupportedPayload
  deriving DecidableEq, Repr

structure Descriptor where
  length : Nat
  alignment : Nat
  deriving DecidableEq, Repr

def preambleSize : Nat := 32
def maxSegments : Nat := 4
def defaultAlignment : Nat := 8
def pageAlignment : Nat := 4096

/-- A value that a failed check turns into an error. -/
def okOr {ε α : Type} (error : ε) : Option α → Except ε α
  | some a => .ok a
  | none => .error error

theorem okOr_eq_ok {ε α : Type} {error : ε} {a : α} {found : Option α} :
    okOr error found = .ok a ↔ found = some a := by
  cases found <;> simp [okOr]

/-- The segments without the empty ones at the end; the first always stays. -/
def normalizedSegments (segments : List Segment) : Except FrameError (List Segment) :=
  match segments with
  | [] => .error .malformed
  | first :: rest =>
    if segments.length > maxSegments then .error .malformed
    else .ok (first :: rest.rdropWhile (·.data.isEmpty))

/-- Nonzero powers of two. -/
def validAlignment (alignment : Nat) : Bool :=
  alignment != 0 && alignment &&& (alignment - 1) == 0

/-! ## The plain transport -/

/-- The size of a frame with checksums: the preamble, the segments, four bytes after a
nonempty first one, and an epilogue when there is more than one. -/
def descriptorsAndCrcSizeFromDescriptors (descriptors : List Descriptor) (limits : Limits) :
    Except FrameError Nat := do
  let total ← descriptors.zipIdx.foldlM
    (fun total (descriptor, index) => do
      if descriptor.length > limits.maxSegmentBytes then throw .limitExceeded
      if !validAlignment descriptor.alignment then throw .malformed
      let crc := if index == 0 && descriptor.length > 0 then 4 else 0
      let total ← okOr .limitExceeded (checkedAdd u64Max total descriptor.length)
      okOr .limitExceeded (checkedAdd u64Max total crc))
    preambleSize
  let total ←
    if descriptors.length > 1 then okOr .limitExceeded (checkedAdd u64Max total 13)
    else pure total
  if total > limits.maxFrameBytes then throw .limitExceeded
  pure total

def descriptorsAndCrcSize (segments : List Segment) (limits : Limits) :
    Except FrameError (List Descriptor × Nat) := do
  let descriptors ← segments.mapM fun segment => do
    let length ← okOr .limitExceeded (tryFrom u32Max segment.data.length)
    pure (⟨length, segment.alignment⟩ : Descriptor)
  let total ← descriptorsAndCrcSizeFromDescriptors descriptors limits
  pure (descriptors, total)

/-- What `CrcCodec::encode` checks, and the descriptors and size it writes with. -/
def CrcCodec.prepare (frame : Frame) (limits : Limits) :
    Except FrameError (List Descriptor × Nat) := do
  let segments ← normalizedSegments frame.segments
  if frame.tag.byte > Tag.ack.byte then throw .malformed
  descriptorsAndCrcSize segments limits

/-! ## The encrypting transport -/

def tagSize : Nat := 16
def blockSize : Nat := 16
def inlineSize : Nat := 48
def securePreambleSize : Nat := preambleSize + inlineSize + tagSize

/-- Up to the next block boundary. -/
def paddedLength (length : Nat) : Except FrameError Nat := do
  let value ← okOr .limitExceeded (checkedAdd u64Max length (blockSize - 1))
  pure (value - value % blockSize)

/-- The size on the wire and the number of encrypted records. -/
def validateDescriptors (descriptors : List Descriptor) (limits : Limits) :
    Except FrameError (Nat × Nat) := do
  for descriptor in descriptors do
    if !validAlignment descriptor.alignment then throw .malformed
    if descriptor.length > limits.maxSegmentBytes then throw .limitExceeded
  match descriptors with
  | [] => throw .malformed
  | first :: rest =>
    let firstPadded ← paddedLength first.length
    let (wireSize, records) ←
      if firstPadded > inlineSize then do
        let wireSize ← okOr .limitExceeded
          (checkedAdd u64Max securePreambleSize (firstPadded - inlineSize + tagSize))
        pure (wireSize, 2)
      else pure (securePreambleSize, 1)
    let (wireSize, records) ←
      if rest.isEmpty then pure (wireSize, records)
      else do
        let wireSize ← okOr .limitExceeded (checkedAdd u64Max wireSize (blockSize + tagSize))
        let wireSize ← rest.foldlM
          (fun wireSize descriptor => do
            let padded ← paddedLength descriptor.length
            okOr .limitExceeded (checkedAdd u64Max wireSize padded))
          wireSize
        pure (wireSize, records + 1)
    if wireSize > limits.maxFrameBytes then throw .limitExceeded
    pure (wireSize, records)

structure PreparedFrame where
  descriptors : List Descriptor
  segments : List Segment
  wireSize : Nat
  records : Nat
  deriving DecidableEq, Repr

def PreparedFrame.new (frame : Frame) (limits : Limits) : Except FrameError PreparedFrame := do
  let segments ← normalizedSegments frame.segments
  if frame.tag.byte > Tag.ack.byte then throw .malformed
  let descriptors ← segments.mapM fun segment => do
    if !validAlignment segment.alignment then throw .malformed
    let length ← okOr .limitExceeded (tryFrom u32Max segment.data.length)
    pure (⟨length, segment.alignment⟩ : Descriptor)
  let (wireSize, records) ← validateDescriptors descriptors limits
  pure ⟨descriptors, segments, wireSize, records⟩

def validateFrameSize (frame : Frame) (limits : Limits) : Except FrameError Unit := do
  let _ ← PreparedFrame.new frame limits
  pure ()

end RadosRs.Msgr
