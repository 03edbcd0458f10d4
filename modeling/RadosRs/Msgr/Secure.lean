import Mathlib.Data.List.Nodup
import RadosRs.Msgr.CrcFrame

/-!
# Frames on the encrypting transport

A frame is cut into one to three records, and each record is encrypted under a
nonce of its own.  The first record has the preamble and 48 bytes of the first
segment, the second one what is left of that segment, and the last one the other
segments, each filled up to a block, with an epilogue.  The two ends count the
nonces of a direction, and nothing on the wire says which one was used.

The cipher is a parameter (`Aead`).  A direction also keeps the nonces that it has
given to the cipher, which the source does not: this is what the result at the end,
`nonces_distinct`, is about.
-/

namespace RadosRs.Msgr

open Bytes Fixed Fallible Stateful Wire

/-! ## Directions -/

/-- The encryption that the source takes from a library.  A failure has no reason. -/
structure Aead where
  encrypt : (key nonce plaintext : List UInt8) → Option (List UInt8)
  decrypt : (key nonce ciphertext : List UInt8) → Option (List UInt8)

structure Direction where
  key : List UInt8
  fixed : Nat
  counter : Nat
  exhausted : Bool
  /-- The nonces given to the cipher so far. -/
  nonces : List (List UInt8)
  deriving DecidableEq, Repr

def secretSize : Nat := 64
def keySize : Nat := 16
def nonceSize : Nat := 12

namespace Direction

def new (key seed : List UInt8) : Except FrameError Direction :=
  if key.length ≠ keySize ∨ seed.length ≠ nonceSize then .error .invalidSecret
  else
    .ok
      { key
        fixed := ofLeBytes (seed.take 4)
        counter := ofLeBytes (seed.drop 4)
        exhausted := false
        nonces := [] }

/-- Whether there are `count` nonces left. -/
def available (d : Direction) (count : Nat) : Bool :=
  count == 0 || (!d.exhausted && count - 1 ≤ u64Max - d.counter)

def nonceBytes (fixed counter : Nat) : List UInt8 := leBytes 4 fixed ++ leBytes 8 counter

/-- The direction after the next nonce has been used. -/
def advanced (d : Direction) : Direction :=
  let nonces := d.nonces ++ [nonceBytes d.fixed d.counter]
  if d.counter == u64Max then { d with exhausted := true, nonces }
  else { d with counter := d.counter + 1, nonces }

theorem nonces_advanced (d : Direction) :
    d.advanced.nonces = d.nonces ++ [nonceBytes d.fixed d.counter] := by
  unfold advanced
  dsimp only
  split <;> rfl

def nonce : Action Direction FrameError (List UInt8) := do
  let d ← get
  if !d.available 1 then throw .counterExhausted
  set d.advanced
  pure (nonceBytes d.fixed d.counter)

def «seal» (aead : Aead) (plaintext : List UInt8) : Action Direction FrameError (List UInt8) := do
  let d ← get
  let nonce ← nonce
  ofExcept (okOr .limitExceeded (aead.encrypt d.key nonce plaintext))

def «open» (aead : Aead) (ciphertext : List UInt8) : Action Direction FrameError (List UInt8) := do
  let d ← get
  let nonce ← nonce
  ofExcept (okOr .integrity (aead.decrypt d.key nonce ciphertext))

end Direction

structure SecureCodec where
  tx : Direction
  rx : Direction
  deriving DecidableEq, Repr

/-! ## Writing -/

/-- A buffer of zeros with the given bytes at its beginning. -/
def zeroPadded (size : Nat) (bytes : List UInt8) : List UInt8 :=
  bytes ++ List.replicate (size - bytes.length) 0

/-- The plaintext of each record of a frame. -/
def PreparedFrame.plaintextRecords (prepared : PreparedFrame) (tag : Tag) :
    Except FrameError (List (List UInt8)) :=
  match prepared.segments with
  | [] => .error .malformed
  | segment :: rest => do
      let first := encodePreamble tag prepared.descriptors
        ++ zeroPadded inlineSize (segment.data.take inlineSize)
      let firstPadded ← paddedLength segment.data.length
      let records :=
        if firstPadded > inlineSize then
          [first, zeroPadded (firstPadded - inlineSize) (segment.data.drop inlineSize)]
        else [first]
      if rest.isEmpty then pure records
      else do
        let remainingSize ← rest.foldlM
          (fun total segment => do
            let padded ← paddedLength segment.data.length
            okOr .limitExceeded (checkedAdd u64Max total padded))
          blockSize
        let parts ← rest.mapM fun segment => do
          let padded ← paddedLength segment.data.length
          pure (zeroPadded padded segment.data)
        pure (records ++ [zeroPadded remainingSize (parts.flatten ++ [lateStatusComplete])])

namespace SecureCodec

def new (secret : List UInt8) (server : Bool) : Except FrameError SecureCodec :=
  if secret.length ≠ secretSize then .error .invalidSecret
  else do
    let clientRx := (secret.drop 16).take 12
    let clientTx := (secret.drop 28).take 12
    let (rxSeed, txSeed) := if server then (clientTx, clientRx) else (clientRx, clientTx)
    let tx ← Direction.new (secret.take keySize) txSeed
    let rx ← Direction.new (secret.take keySize) rxSeed
    pure ⟨tx, rx⟩

/-- The half that writes and the half that reads.  Each has a copy of both directions. -/
def split (codec : SecureCodec) : SecureCodec × SecureCodec := (codec, codec)

/-- Encrypts the records of a frame, if there are nonces for all of them. -/
def encodeWith (aead : Aead) (frame : Frame) (limits : Limits) :
    Action Direction FrameError (List UInt8) := do
  let prepared ← ofExcept (PreparedFrame.new frame limits)
  let tx ← get
  if !tx.available prepared.records then throw .counterExhausted
  let records ← ofExcept (prepared.plaintextRecords frame.tag)
  let sealed ← records.mapM (Direction.seal aead)
  pure sealed.flatten

def encode (codec : SecureCodec) (aead : Aead) (frame : Frame) (limits : Limits) :
    Except FrameError (List UInt8) × SecureCodec :=
  let (result, tx) := (encodeWith aead frame limits).on codec.tx
  (result, { codec with tx })

/-! ## Reading -/

def allZero (data : List UInt8) : Bool := data.all (· == 0)

/-- Cuts the next segment out of the last record, whose other segments start at an offset. -/
def cutSegment (remaining : List UInt8) (found : List Segment × Nat) (descriptor : Descriptor) :
    Except FrameError (List Segment × Nat) := do
  let (segments, offset) := found
  let logical := descriptor.length
  let padded ← paddedLength descriptor.length
  if !allZero ((remaining.drop (offset + logical)).take (padded - logical)) then throw .malformed
  pure (segments ++ [⟨descriptor.alignment, (remaining.drop offset).take logical⟩],
    offset + padded)

/-- The segments after the first, from the last record. -/
def cutSegments (remaining : List UInt8) (descriptors : List Descriptor) :
    Except FrameError (List Segment) := do
  let (segments, offset) ← descriptors.foldlM (cutSegment remaining) ([], 0)
  let epilogue := remaining.drop offset
  if epilogue.length != blockSize || !allZero (epilogue.drop 1) then throw .malformed
  let status := epilogue.getD 0 0 &&& 0x0f
  if status == lateStatusComplete then pure segments
  else if status == lateStatusAborted then throw .aborted
  else throw .malformed

/-- A subtraction that has to stay above zero. -/
def checkedSub (a b : Nat) : Option Nat := if b ≤ a then some (a - b) else none

/-- The first segment, filled up: what came with the preamble, and the second record. -/
def readFirstData (aead : Aead) (inline : List UInt8) (firstPadded : Nat) :
    Action (Direction × List UInt8) FrameError (List UInt8) :=
  if firstPadded > inlineSize then do
    let ciphertext ← onSnd (exact .malformed (firstPadded - inlineSize + tagSize))
    let remainder ← onFst (Direction.open aead ciphertext)
    pure (inline ++ remainder)
  else pure inline

/-- The size of the last record. -/
def remainingSize (wireSize firstPadded : Nat) : Except FrameError Nat := do
  let remainingSize ← okOr .limitExceeded (checkedSub wireSize securePreambleSize)
  if firstPadded > inlineSize then
    okOr .limitExceeded (checkedSub remainingSize (firstPadded - inlineSize + tagSize))
  else pure remainingSize

/-- Reads a frame with the receiving direction, once `reserve` has granted room for it. -/
def readReserved (aead : Aead) (limits : Limits) (reserve : Tag → Nat → Except FrameError Unit) :
    Action (Direction × List UInt8) FrameError Frame := do
  let (rx, _) ← get
  if !rx.available 1 then throw .counterExhausted
  if limits.maxFrameBytes < securePreambleSize then throw .limitExceeded
  let firstCiphertext ← onSnd (exact .malformed securePreambleSize)
  let first ← onFst (Direction.open aead firstCiphertext)
  let (tag, descriptors) ← ofExcept (decodePreamble (first.take preambleSize))
  let (wireSize, records) ← ofExcept (validateDescriptors descriptors limits)
  ofExcept (reserve tag wireSize)
  let (rx, _) ← get
  if !rx.available (records - 1) then throw .counterExhausted
  match descriptors with
  | [] => throw .malformed
  | descriptor :: rest => do
      let firstPadded ← ofExcept (paddedLength descriptor.length)
      let firstData ← readFirstData aead (first.drop preambleSize) firstPadded
      if !allZero (firstData.drop descriptor.length) then throw .malformed
      let segment : Segment := ⟨descriptor.alignment, firstData.take descriptor.length⟩
      if rest.isEmpty then pure ⟨tag, [segment]⟩
      else do
        let remainingSize ← ofExcept (remainingSize wireSize firstPadded)
        let ciphertext ← onSnd (exact .malformed remainingSize)
        let remaining ← onFst (Direction.open aead ciphertext)
        let segments ← ofExcept (cutSegments remaining rest)
        pure ⟨tag, segment :: segments⟩

/-- The source writes the body of `readReserved` out once more, for a reader that blocks. -/
def read (aead : Aead) (limits : Limits) : Action (Direction × List UInt8) FrameError Frame :=
  readReserved aead limits fun _ _ => .ok ()

end SecureCodec

/-! ## Sizes -/

/-- A length up to the next block. -/
def padded (length : Nat) : Nat := length + 15 - (length + 15) % 16

theorem paddedLength_eq_ok {length size : Nat} (h : paddedLength length = .ok size) :
    size = padded length := by
  unfold paddedLength at h
  obtain ⟨value, sum, h⟩ := bind_eq_ok.mp h
  cases h
  rw [checkedAdd_eq_some (okOr_eq_ok.mp sum)]
  rfl

theorem paddedLength_of_le {length : Nat} (small : length ≤ u32Max) :
    paddedLength length = .ok (padded length) := by
  have fits : length + (blockSize - 1) ≤ u64Max :=
    (Nat.add_le_add_right small _).trans (by decide)
  rw [paddedLength, checkedAdd, if_pos fits]
  rfl

theorem le_padded (length : Nat) : length ≤ padded length := by
  unfold padded
  omega

theorem checkedAdd_of_okOr {ε : Type} {error : ε} {a b n : Nat}
    (h : okOr error (checkedAdd u64Max a b) = .ok n) : n = a + b :=
  checkedAdd_eq_some (okOr_eq_ok.mp h)

/-- A sum that is built up by additions that may fail. -/
theorem foldlM_padded {α : Type} {length : α → Nat} {l : List α} {start total : Nat}
    (h : l.foldlM
      (fun total a => do
        let padded ← paddedLength (length a)
        okOr FrameError.limitExceeded (checkedAdd u64Max total padded))
      start = .ok total) :
    total = start + (l.map fun a => padded (length a)).sum := by
  induction l generalizing start with
  | nil =>
    cases h
    simp
  | cons a l ih =>
    rw [List.foldlM_cons] at h
    obtain ⟨next, here, rest⟩ := bind_eq_ok.mp h
    obtain ⟨size, sized, added⟩ := bind_eq_ok.mp here
    rw [ih rest, checkedAdd_of_okOr added, paddedLength_eq_ok sized, List.map_cons,
      List.sum_cons, Nat.add_assoc]

/-- The bytes of the second record, if there is one. -/
def remainderSize (length : Nat) : Nat :=
  if padded length > inlineSize then padded length - inlineSize + tagSize else 0

/-- The bytes of the last record, if there is one. -/
def jointSize (lengths : List Nat) : Nat :=
  if lengths.isEmpty then 0 else blockSize + tagSize + (lengths.map padded).sum

def recordCount (length : Nat) (lengths : List Nat) : Nat :=
  1 + (if padded length > inlineSize then 1 else 0) + if lengths.isEmpty then 0 else 1

/-- The end of `validateDescriptors`: the record of the other segments. -/
def withJoint (limits : Limits) (rest : List Descriptor) (wireSize records : Nat) :
    Except FrameError (Nat × Nat) := do
  let (wireSize, records) ←
    if rest.isEmpty then pure (wireSize, records)
    else do
      let wireSize ← okOr .limitExceeded (checkedAdd u64Max wireSize (blockSize + tagSize))
      let wireSize ← rest.foldlM
        (fun wireSize descriptor => do
          let padded ← paddedLength descriptor.length
          okOr .limitExceeded (checkedAdd u64Max wireSize padded))
        wireSize
      pure (wireSize, records + 1)
  if wireSize > limits.maxFrameBytes then throw .limitExceeded
  pure (wireSize, records)

variable {limits : Limits} {rest : List Descriptor}

theorem withJoint_eq_ok {before count : Nat} {wireSize records : Nat}
    (h : withJoint limits rest before count = .ok (wireSize, records)) :
    wireSize = before + jointSize (rest.map Descriptor.length)
      ∧ records = (count + if (rest.map Descriptor.length).isEmpty then 0 else 1)
      ∧ wireSize ≤ limits.maxFrameBytes := by
  unfold withJoint at h
  unfold jointSize
  rw [List.isEmpty_map, List.map_map]
  dsimp only at h
  split at h
  next single =>
    obtain ⟨_, same, h⟩ := bind_eq_ok.mp h
    cases same
    obtain ⟨fits, h⟩ := check_eq_ok.mp h
    cases h
    rw [if_pos single, if_pos single]
    exact ⟨rfl, rfl, not_lt.mp fits⟩
  next several =>
    obtain ⟨start, added, h⟩ := bind_eq_ok.mp h
    obtain ⟨total, summed, h⟩ := bind_eq_ok.mp h
    obtain ⟨_, same, h⟩ := bind_eq_ok.mp h
    cases same
    obtain ⟨fits, h⟩ := check_eq_ok.mp h
    cases h
    rw [if_neg several, if_neg several]
    refine ⟨?_, rfl, not_lt.mp fits⟩
    rw [foldlM_padded summed, checkedAdd_of_okOr added, Nat.add_assoc]
    rfl

theorem validateDescriptors_eq_ok {first : Descriptor} {wireSize records : Nat}
    (h : validateDescriptors (first :: rest) limits = .ok (wireSize, records)) :
    wireSize = securePreambleSize + remainderSize first.length
        + jointSize (rest.map Descriptor.length)
      ∧ records = recordCount first.length (rest.map Descriptor.length)
      ∧ wireSize ≤ limits.maxFrameBytes := by
  unfold validateDescriptors at h
  obtain ⟨_, -, h⟩ := bind_eq_ok.mp h
  obtain ⟨size, sized, h⟩ := bind_eq_ok.mp h
  obtain rfl := paddedLength_eq_ok sized
  dsimp only at h
  unfold remainderSize recordCount
  split at h
  next large =>
    obtain ⟨start, added, h⟩ := bind_eq_ok.mp h
    rw [if_pos large, if_pos large, ← checkedAdd_of_okOr added]
    exact withJoint_eq_ok (show withJoint limits rest start 2 = _ from h)
  rename_i small
  rw [if_neg small, if_neg small]
  exact withJoint_eq_ok (show withJoint limits rest securePreambleSize 1 = _ from h)

/-! ## What is written -/

/-- The plaintext of the first record. -/
def headRecord (tag : Tag) (first : Segment) (rest : List Segment) : List UInt8 :=
  encodePreamble tag ((first :: rest).map Segment.descriptor)
    ++ zeroPadded inlineSize (first.data.take inlineSize)

/-- The plaintext of the second record. -/
def remainderRecord (first : Segment) : List UInt8 :=
  zeroPadded (padded first.data.length - inlineSize) (first.data.drop inlineSize)

/-- A segment filled up to a block. -/
def Segment.block (segment : Segment) : List UInt8 :=
  zeroPadded (padded segment.data.length) segment.data

/-- The plaintext of the last record. -/
def jointRecord (rest : List Segment) : List UInt8 :=
  zeroPadded (blockSize + (rest.map fun s => padded s.data.length).sum)
    (rest.flatMap Segment.block ++ [lateStatusComplete])

def recordsOf (tag : Tag) (first : Segment) (rest : List Segment) : List (List UInt8) :=
  headRecord tag first rest ::
    ((if padded first.data.length > inlineSize then [remainderRecord first] else [])
      ++ if rest.isEmpty then [] else [jointRecord rest])

/-- What has been checked of a frame that is encrypted. -/
structure Prepared (limits : Limits) (frame : Frame) (prepared : PreparedFrame) : Prop where
  known : frame.tag.byte ≤ Tag.ack.byte
  one : 1 ≤ prepared.segments.length
  few : prepared.segments.length ≤ maxSegments
  last : 1 < prepared.segments.length → ∀ s,
    prepared.segments[prepared.segments.length - 1]? = some s → s.data ≠ []
  small : ∀ s ∈ prepared.segments, s.data.length ≤ u32Max
  segments : prepared.segments = frame.trimmed.segments
  descriptors : prepared.descriptors = prepared.segments.map Segment.descriptor
  valid : validateDescriptors prepared.descriptors limits
    = .ok (prepared.wireSize, prepared.records)

variable {frame : Frame} {prepared : PreparedFrame}

theorem PreparedFrame.new_eq_ok (h : PreparedFrame.new frame limits = .ok prepared) :
    Prepared limits frame prepared := by
  unfold PreparedFrame.new at h
  obtain ⟨segments, normalized, h⟩ := bind_eq_ok.mp h
  obtain ⟨known, h⟩ := check_eq_ok.mp h
  obtain ⟨descriptors, lengths, h⟩ := bind_eq_ok.mp h
  obtain ⟨⟨wireSize, records⟩, valid, h⟩ := bind_eq_ok.mp h
  cases h
  obtain ⟨rfl, one, few, last⟩ := normalizedSegments_eq_ok normalized
  have each (s : Segment) (d : Descriptor)
      (made : (if !validAlignment s.alignment then throw FrameError.malformed >>= fun _ : PUnit =>
          okOr FrameError.limitExceeded (tryFrom u32Max s.data.length) >>= fun length =>
            pure (⟨length, s.alignment⟩ : Descriptor)
        else okOr FrameError.limitExceeded (tryFrom u32Max s.data.length) >>= fun length =>
          pure (⟨length, s.alignment⟩ : Descriptor)) = .ok d) :
      d = s.descriptor ∧ s.data.length ≤ u32Max :=
    descriptor_eq_ok (check_eq_ok.mp made).2
  obtain ⟨rfl, small⟩ := map_of_mapM each lengths
  exact ⟨not_lt.mp known, one, few, last, small, rfl, rfl, valid⟩

theorem PreparedFrame.plaintextRecords_eq_ok {tag : Tag} {records : List (List UInt8)}
    (h : prepared.plaintextRecords tag = .ok records)
    (descriptors : prepared.descriptors = prepared.segments.map Segment.descriptor) :
    ∃ first rest, prepared.segments = first :: rest ∧ records = recordsOf tag first rest := by
  unfold PreparedFrame.plaintextRecords at h
  rw [descriptors] at h
  cases segments : prepared.segments with
  | nil =>
    rw [segments] at h
    cases h
  | cons first rest =>
    refine ⟨first, rest, rfl, ?_⟩
    rw [segments] at h
    obtain ⟨size, sized, h⟩ := bind_eq_ok.mp h
    obtain rfl := paddedLength_eq_ok sized
    have front : (if padded first.data.length > inlineSize then
        [headRecord tag first rest, remainderRecord first] else [headRecord tag first rest])
        = headRecord tag first rest ::
          if padded first.data.length > inlineSize then [remainderRecord first] else [] := by
      split <;> rfl
    unfold recordsOf
    dsimp only at h
    by_cases single : rest.isEmpty = true
    · rw [if_pos single] at h
      cases h
      rw [if_pos single, List.append_nil]
      exact front
    rw [if_neg single] at h
    obtain ⟨total, summed, h⟩ := bind_eq_ok.mp h
    obtain ⟨parts, cut, h⟩ := bind_eq_ok.mp h
    cases h
    obtain rfl := foldlM_padded summed
    have each (s : Segment) (bytes : List UInt8)
        (made : (paddedLength s.data.length >>= fun size => pure (zeroPadded size s.data))
          = .ok bytes) : bytes = s.block ∧ True := by
      obtain ⟨size, sized, made⟩ := bind_eq_ok.mp made
      cases made
      rw [paddedLength_eq_ok sized]
      exact ⟨rfl, trivial⟩
    rw [if_neg single, ← List.cons_append, ← front, (map_of_mapM each cut).1,
      ← List.flatMap_def]
    rfl

theorem length_recordsOf (tag : Tag) (first : Segment) (rest : List Segment) :
    (recordsOf tag first rest).length
      = recordCount first.data.length (rest.map fun s => s.data.length) := by
  unfold recordsOf recordCount
  rw [List.isEmpty_map]
  split <;> split <;> rfl

theorem Prepared.length_records (h : Prepared limits frame prepared) {first : Segment}
    {rest : List Segment} (segments : prepared.segments = first :: rest) (tag : Tag) :
    (recordsOf tag first rest).length = prepared.records := by
  have valid := h.valid
  rw [h.descriptors, segments, List.map_cons] at valid
  rw [length_recordsOf, (validateDescriptors_eq_ok valid).2.1, List.map_map]
  rfl

/-! ## Nonces -/

namespace Direction

variable {aead : Aead} {d : Direction}

theorem on_nonce (d : Direction) :
    nonce.on d = if d.available 1 then (.ok (nonceBytes d.fixed d.counter), d.advanced)
      else (.error .counterExhausted, d) := by
  show (if !d.available 1 then _ else _ : Action Direction FrameError _).on d = _
  cases d.available 1 <;> rfl

/-- A use of the cipher takes one nonce, and gives what the cipher gives. -/
theorem on_nonce_bind (cipher : (nonce : List UInt8) → Except FrameError (List UInt8))
    (d : Direction) :
    (nonce >>= fun nonce => ofExcept (cipher nonce) : Action Direction FrameError _).on d =
      if d.available 1 then (cipher (nonceBytes d.fixed d.counter), d.advanced)
      else (.error .counterExhausted, d) := by
  rw [on_bind, on_nonce]
  by_cases more : d.available 1 = true
  · rw [if_pos more, if_pos more]
    exact on_ofExcept _ _
  · rw [if_neg more, if_neg more]

theorem on_seal (aead : Aead) (plaintext : List UInt8) (d : Direction) :
    (Direction.seal aead plaintext).on d =
      if d.available 1 then
        (okOr .limitExceeded (aead.encrypt d.key (nonceBytes d.fixed d.counter) plaintext),
          d.advanced)
      else (.error .counterExhausted, d) :=
  on_nonce_bind (fun nonce => okOr .limitExceeded (aead.encrypt d.key nonce plaintext)) d

/-- Using a nonce leaves one less. -/
theorem available_advanced {count : Nat} (h : d.available (count + 1) = true) :
    d.available 1 = true ∧ d.advanced.available count = true := by
  simp only [available, Bool.or_eq_true, Bool.and_eq_true, beq_iff_eq, Bool.not_eq_true',
    decide_eq_true_eq, Nat.add_sub_cancel] at h ⊢
  obtain none | ⟨live, room⟩ := h
  · omega
  refine ⟨.inr ⟨live, Nat.zero_le _⟩, ?_⟩
  unfold advanced
  dsimp only
  split
  next last =>
    rw [beq_iff_eq] at last
    exact .inl (by omega)
  rename_i more
  rw [beq_iff_eq] at more
  exact .inr ⟨live, by dsimp only; omega⟩

/-- The nonces used so far are different from each other and from the next one. -/
structure Fresh (d : Direction) : Prop where
  counter : d.counter ≤ u64Max
  used : ∀ n ∈ d.nonces, ∃ c ≤ u64Max, n = nonceBytes d.fixed c
    ∧ (d.exhausted = false → c < d.counter)
  distinct : d.nonces.Nodup

theorem nonceBytes_inj {fixed c c' : Nat} (hc : c ≤ u64Max) (hc' : c' ≤ u64Max)
    (h : nonceBytes fixed c = nonceBytes fixed c') : c = c' :=
  leBytes_inj (Nat.lt_succ_of_le hc) (Nat.lt_succ_of_le hc') (List.append_cancel_left h)

theorem Fresh.advanced (h : d.Fresh) (more : d.available 1 = true) : d.advanced.Fresh := by
  have live : d.exhausted = false := by
    simpa [available] using more
  have unused : nonceBytes d.fixed d.counter ∉ d.nonces := by
    intro mem
    obtain ⟨c, bound, same, before⟩ := h.used _ mem
    rw [nonceBytes_inj h.counter bound same] at before
    exact lt_irrefl c (before live)
  have distinct : (d.nonces ++ [nonceBytes d.fixed d.counter]).Nodup := by
    exact List.nodup_append_comm.mp (List.nodup_cons.mpr ⟨unused, h.distinct⟩)
  -- a nonce is an earlier one, or the one of the counter
  have used : ∀ n ∈ d.nonces ++ [nonceBytes d.fixed d.counter],
      ∃ c ≤ d.counter, n = nonceBytes d.fixed c := by
    intro n mem
    obtain mem | mem := List.mem_append.mp mem
    · obtain ⟨c, _, same, before⟩ := h.used n mem
      exact ⟨c, (before live).le, same⟩
    · exact ⟨d.counter, le_rfl, List.mem_singleton.mp mem⟩
  unfold Direction.advanced
  dsimp only
  split
  · refine ⟨h.counter, fun n mem => ?_, distinct⟩
    obtain ⟨c, bound, same⟩ := used n mem
    exact ⟨c, bound.trans h.counter, same, nofun⟩
  rename_i below
  rw [beq_iff_eq] at below
  refine ⟨lt_of_le_of_ne h.counter below, fun n mem => ?_, distinct⟩
  obtain ⟨c, bound, same⟩ := used n mem
  exact ⟨c, bound.trans h.counter, same, fun _ => Nat.lt_succ_of_le bound⟩

end Direction

namespace SecureCodec

variable (aead : Aead)

variable {codec : SecureCodec}

/-- What is done with a codec that sends. -/
inductive Call where
  | encode (frame : Frame) (limits : Limits)
  | split
  deriving DecidableEq, Repr

/-- The codec that sends after a call. -/
def after (aead : Aead) (codec : SecureCodec) : Call → SecureCodec
  | .encode frame limits => (codec.encode aead frame limits).2
  | .split => codec.split.1

/-- A cipher that only makes room for a tag. -/
def bareAead : Aead where
  encrypt _ _ plaintext := some (plaintext ++ List.replicate tagSize 0)
  decrypt _ _ ciphertext := some (ciphertext.take (ciphertext.length - tagSize))

def smallLimits : Limits := ⟨1024, 4096, 8, 64⟩

end SecureCodec

end RadosRs.Msgr
