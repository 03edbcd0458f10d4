import RadosRs.Msgr.Secure

/-!
# Encrypted frames are read back

The writer, the check of the sizes and the reader cut a frame into records each on
its own.  `recordsOf` says which records the writer makes, and `validateDescriptors_eq_ok`
how long they are.  Here the reader takes these records off the stream, one after
the other, and its direction goes through the same states as the one of the
writer.  The result is `secure_frames_read_back`.
-/

namespace RadosRs.Msgr

open Bytes Fixed Fallible Stateful Wire

/-! ## Records -/

/-- What is assumed of the cipher. -/
structure Aead.Sound (aead : Aead) : Prop where
  opens : ∀ {key nonce plaintext ciphertext}, aead.encrypt key nonce plaintext = some ciphertext →
    aead.decrypt key nonce ciphertext = some plaintext
  grows : ∀ {key nonce plaintext ciphertext}, aead.encrypt key nonce plaintext = some ciphertext →
    ciphertext.length = plaintext.length + tagSize

namespace Direction

variable {aead : Aead} {d d' : Direction} {plaintext ciphertext : List UInt8}

theorem on_open (aead : Aead) (ciphertext : List UInt8) (d : Direction) :
    (Direction.open aead ciphertext).on d =
      if d.available 1 then
        (okOr .integrity (aead.decrypt d.key (nonceBytes d.fixed d.counter) ciphertext),
          d.advanced)
      else (.error .counterExhausted, d) :=
  on_nonce_bind (fun nonce => okOr .integrity (aead.decrypt d.key nonce ciphertext)) d

theorem gives_seal (h : Gives (Direction.seal aead plaintext) d ciphertext d') :
    d.available 1 = true ∧ d' = d.advanced
      ∧ aead.encrypt d.key (nonceBytes d.fixed d.counter) plaintext = some ciphertext := by
  unfold Gives at h
  rw [on_seal] at h
  split at h
  next more =>
    obtain ⟨sealed, rfl⟩ := Prod.mk.inj h
    exact ⟨more, rfl, okOr_eq_ok.mp sealed⟩
  · cases h

theorem gives_open_of_seal (sound : aead.Sound)
    (h : Gives (Direction.seal aead plaintext) d ciphertext d') :
    Gives (Direction.open aead ciphertext) d plaintext d' := by
  obtain ⟨more, rfl, encrypted⟩ := gives_seal h
  unfold Gives
  rw [on_open, if_pos more, sound.opens encrypted]
  rfl

end Direction

/-- The bytes that the records are encrypted to. -/
def Sealed (aead : Aead) (d : Direction) (plaintexts : List (List UInt8)) (bytes : List UInt8)
    (d' : Direction) : Prop :=
  ∃ ciphertexts, Gives (plaintexts.mapM (Direction.seal aead)) d ciphertexts d'
    ∧ bytes = ciphertexts.flatten

namespace Sealed

variable {aead : Aead} {d d' : Direction} {bytes : List UInt8}

theorem nil (h : Sealed aead d [] bytes d') : bytes = [] ∧ d = d' := by
  obtain ⟨_, gives, rfl⟩ := h
  obtain ⟨rfl, rfl⟩ := gives_pure.mp gives
  exact ⟨rfl, rfl⟩

theorem append {left right : List (List UInt8)} (h : Sealed aead d (left ++ right) bytes d') :
    ∃ front mid back, Sealed aead d left front mid ∧ Sealed aead mid right back d'
      ∧ bytes = front ++ back := by
  obtain ⟨_, gives, rfl⟩ := h
  rw [List.mapM_append] at gives
  obtain ⟨first, mid, here, gives⟩ := gives_bind.mp gives
  obtain ⟨second, _, later, gives⟩ := gives_bind.mp gives
  obtain ⟨rfl, rfl⟩ := gives_pure.mp gives
  exact ⟨_, mid, _, ⟨first, here, rfl⟩, ⟨second, later, rfl⟩, List.flatten_append⟩

variable {plaintext : List UInt8}

theorem singleton (h : Sealed aead d [plaintext] bytes d') :
    Gives (Direction.seal aead plaintext) d bytes d' := by
  obtain ⟨_, gives, rfl⟩ := h
  rw [List.mapM_cons] at gives
  obtain ⟨first, _, here, gives⟩ := gives_bind.mp gives
  obtain ⟨_, _, later, gives⟩ := gives_bind.mp gives
  obtain ⟨rfl, rfl⟩ := gives_pure.mp later
  obtain ⟨rfl, rfl⟩ := gives_pure.mp gives
  show Gives _ d [first].flatten _
  rwa [List.flatten_singleton]

/-- There is a tag for each record, and a nonce. -/
theorem sizes (sound : aead.Sound) {plaintexts : List (List UInt8)}
    (h : Sealed aead d plaintexts bytes d') :
    bytes.length = (plaintexts.map fun p => p.length + tagSize).sum
      ∧ ∃ used, d'.nonces = d.nonces ++ used ∧ used.length = plaintexts.length := by
  induction plaintexts generalizing d bytes with
  | nil =>
    obtain ⟨rfl, rfl⟩ := h.nil
    exact ⟨rfl, [], (List.append_nil _).symm, rfl⟩
  | cons plaintext plaintexts ih =>
    obtain ⟨front, mid, back, first, rest, rfl⟩ :=
      append (show Sealed aead d ([plaintext] ++ plaintexts) bytes d' from h)
    obtain ⟨-, rfl, encrypted⟩ := Direction.gives_seal first.singleton
    obtain ⟨length, used, nonces, count⟩ := ih rest
    refine ⟨?_, Direction.nonceBytes d.fixed d.counter :: used, ?_, ?_⟩
    · rw [List.length_append, sound.grows encrypted, length]
      rfl
    · rw [nonces, Direction.nonces_advanced, List.append_assoc]
      rfl
    · rw [List.length_cons, List.length_cons, count]

variable {d'' : Direction}

/-- A record is taken off the stream and decrypted. -/
theorem takes (sound : aead.Sound) (h : Sealed aead d [plaintext] bytes d') {size : Nat}
    (fits : plaintext.length + tagSize = size) {α : Type} {a : α}
    {g : List UInt8 → Action (Direction × List UInt8) FrameError α} {more : List UInt8}
    (rest : Takes (g plaintext) d' more a d'') :
    Takes (onSnd (exact .malformed size) >>= fun ciphertext =>
      onFst (Direction.open aead ciphertext) >>= g) d (bytes ++ more) a d'' := by
  have here := h.singleton
  have length := sound.grows (Direction.gives_seal here).2.2
  exact (Takes.exact _ (length.trans fits)).bind
    ((Takes.onFst (Direction.gives_open_of_seal sound here)).bind_nil rest)

theorem takes_last (sound : aead.Sound) (h : Sealed aead d [plaintext] bytes d') {size : Nat}
    (fits : plaintext.length + tagSize = size) {α : Type} {a : α}
    {g : List UInt8 → Action (Direction × List UInt8) FrameError α}
    (rest : Takes (g plaintext) d' [] a d'') :
    Takes (onSnd (exact .malformed size) >>= fun ciphertext =>
      onFst (Direction.open aead ciphertext) >>= g) d bytes a d'' := by
  rw [← List.append_nil bytes]
  exact h.takes sound fits rest

end Sealed

/-! ## The bytes of the records -/

theorem length_zeroPadded {size : Nat} {bytes : List UInt8} (fits : bytes.length ≤ size) :
    (zeroPadded size bytes).length = size := by
  rw [zeroPadded, List.length_append, List.length_replicate]
  omega

theorem inlineSize_lt_padded {length : Nat} : inlineSize < padded length ↔ inlineSize < length := by
  unfold padded inlineSize
  omega

variable {rest : List Segment} {first : Segment}

theorem length_headRecord (tag : Tag) (few : (first :: rest).length ≤ maxSegments) :
    (headRecord tag first rest).length = preambleSize + inlineSize := by
  have short : (first.data.take inlineSize).length ≤ inlineSize := List.length_take_le _ _
  rw [headRecord, List.length_append, length_zeroPadded short,
    length_encodePreamble tag (by rwa [List.length_map])]

theorem length_remainderRecord (first : Segment) :
    (remainderRecord first).length = padded first.data.length - inlineSize := by
  have short := le_padded first.data.length
  refine length_zeroPadded ?_
  rw [List.length_drop]
  omega

theorem length_block (segment : Segment) : segment.block.length = padded segment.data.length :=
  length_zeroPadded (le_padded _)

theorem length_blocks (rest : List Segment) :
    (rest.flatMap Segment.block).length = (rest.map fun s => padded s.data.length).sum := by
  rw [List.length_flatMap]
  exact congrArg List.sum (List.map_congr_left fun s _ => length_block s)

/-- The blocks of the segments, then the epilogue. -/
theorem jointRecord_eq (rest : List Segment) :
    jointRecord rest = rest.flatMap Segment.block ++ lateStatusComplete :: List.replicate 15 0 := by
  unfold jointRecord zeroPadded
  rw [List.length_append, length_blocks, List.append_assoc, Nat.add_comm blockSize,
    Nat.add_sub_add_left]
  rfl

theorem length_jointRecord (rest : List Segment) :
    (jointRecord rest).length = blockSize + (rest.map fun s => padded s.data.length).sum := by
  rw [jointRecord_eq, List.length_append, length_blocks, Nat.add_comm]
  rfl

/-- The records have the sizes that `validateDescriptors` adds up. -/
theorem sum_recordsOf (tag : Tag) (few : (first :: rest).length ≤ maxSegments) :
    ((recordsOf tag first rest).map fun p => p.length + tagSize).sum
      = securePreambleSize + remainderSize first.data.length
        + jointSize (rest.map fun s => s.data.length) := by
  have second : ((if padded first.data.length > inlineSize then [remainderRecord first]
      else []).map fun p => p.length + tagSize).sum = remainderSize first.data.length := by
    unfold remainderSize
    split
    · rw [List.map_singleton, List.sum_singleton, length_remainderRecord]
    · rfl
  have third : ((if rest.isEmpty then [] else [jointRecord rest]).map fun p =>
      p.length + tagSize).sum = jointSize (rest.map fun s => s.data.length) := by
    unfold jointSize
    rw [List.isEmpty_map, List.map_map]
    split
    · rfl
    · rw [List.map_singleton, List.sum_singleton, length_jointRecord, Nat.add_right_comm]
      rfl
  rw [recordsOf, List.map_cons, List.sum_cons, length_headRecord tag few, List.map_append,
    List.sum_append, second, third, ← Nat.add_assoc]
  rfl

/-- The first segment is in the first two records, with zeros behind it. -/
theorem head_and_remainder (first : Segment) :
    ∃ zeros, zeroPadded inlineSize (first.data.take inlineSize)
        ++ (if padded first.data.length > inlineSize then remainderRecord first else [])
      = first.data ++ List.replicate zeros 0 := by
  split
  next large =>
    have long := inlineSize_lt_padded.mp large
    refine ⟨padded first.data.length - inlineSize - (first.data.drop inlineSize).length, ?_⟩
    rw [remainderRecord, zeroPadded, zeroPadded, List.length_take_of_le long.le, Nat.sub_self,
      List.replicate_zero, List.append_nil, ← List.append_assoc, List.take_append_drop]
  rename_i small
  have short := not_lt.mp (mt inlineSize_lt_padded.mpr small)
  refine ⟨inlineSize - first.data.length, ?_⟩
  rw [List.append_nil, zeroPadded, List.take_of_length_le short]

theorem allZero_replicate (count : Nat) : SecureCodec.allZero (List.replicate count 0) = true := by
  simp [SecureCodec.allZero]

/-! ## The last record -/

namespace SecureCodec

variable {remaining : List UInt8}

variable {done : List Segment} {tail : List UInt8}

/-- One segment is cut off where its block begins. -/
theorem cutSegment_block {segment : Segment} (small : segment.data.length ≤ u32Max) {offset : Nat}
    (here : remaining.drop offset = segment.block ++ tail) :
    cutSegment remaining (done, offset) segment.descriptor
      = .ok (done ++ [segment], offset + padded segment.data.length) := by
  have data : (remaining.drop offset).take segment.data.length = segment.data := by
    rw [here, Segment.block, zeroPadded, List.append_assoc, List.take_left]
  have zeros : (remaining.drop (offset + segment.data.length)).take
      (padded segment.data.length - segment.data.length)
      = List.replicate (padded segment.data.length - segment.data.length) 0 := by
    rw [← List.drop_drop, here, Segment.block, zeroPadded, List.append_assoc, List.drop_left]
    exact List.take_left' List.length_replicate
  unfold cutSegment
  dsimp only [Segment.descriptor]
  rw [paddedLength_of_le small]
  show (if !allZero _ then _ else _) = _
  rw [zeros, allZero_replicate, data]
  rfl

theorem foldlM_cutSegment (small : ∀ s ∈ rest, s.data.length ≤ u32Max) {offset : Nat}
    (here : remaining.drop offset = rest.flatMap Segment.block ++ tail) :
    (rest.map Segment.descriptor).foldlM (cutSegment remaining) (done, offset)
      = .ok (done ++ rest, offset + (rest.map fun s => padded s.data.length).sum) := by
  induction rest generalizing done offset with
  | nil =>
    rw [List.append_nil]
    rfl
  | cons segment rest ih =>
    rw [List.flatMap_cons, List.append_assoc] at here
    have later : remaining.drop (offset + padded segment.data.length)
        = rest.flatMap Segment.block ++ tail := by
      rw [← List.drop_drop, here, ← length_block, List.drop_left]
    rw [List.map_cons, List.foldlM_cons, cutSegment_block (small _ (.head _)) here]
    refine (ih (fun s mem => small s (.tail _ mem)) later).trans ?_
    rw [List.append_assoc, List.map_cons, List.sum_cons, Nat.add_assoc]
    rfl

theorem cutSegments_jointRecord (small : ∀ s ∈ rest, s.data.length ≤ u32Max) :
    cutSegments (jointRecord rest) (rest.map Segment.descriptor) = .ok rest := by
  have folded : (rest.map Segment.descriptor).foldlM (cutSegment (jointRecord rest)) ([], 0)
      = .ok (rest, 0 + (rest.map fun s => padded s.data.length).sum) :=
    foldlM_cutSegment small (jointRecord_eq rest)
  have epilogue : (jointRecord rest).drop (0 + (rest.map fun s => padded s.data.length).sum)
      = lateStatusComplete :: List.replicate 15 0 := by
    rw [jointRecord_eq, Nat.zero_add, ← length_blocks, List.drop_left]
  unfold cutSegments
  rw [folded]
  show (if (List.drop _ _).length != _ || _ then _ else _) = _
  rw [epilogue]
  rfl

/-! ## Whole frames -/

variable {aead : Aead} {limits : Limits} {frame : Frame} {d d' : Direction} {bytes : List UInt8}

/-- What an encrypted frame is made of. -/
structure Encrypted (aead : Aead) (limits : Limits) (frame : Frame) (d : Direction)
    (bytes : List UInt8) (d' : Direction) where
  prepared : PreparedFrame
  first : Segment
  rest : List Segment
  new : PreparedFrame.new frame limits = .ok prepared
  segments : prepared.segments = first :: rest
  enough : d.available prepared.records = true
  records : Sealed aead d (recordsOf frame.tag first rest) bytes d'

theorem gives_encodeWith (h : Gives (encodeWith aead frame limits) d bytes d') :
    Nonempty (Encrypted aead limits frame d bytes d') := by
  unfold encodeWith at h
  obtain ⟨prepared, _, accepted, h⟩ := gives_bind.mp h
  obtain ⟨new, rfl⟩ := gives_ofExcept.mp accepted
  obtain ⟨tx, _, same, h⟩ := gives_bind.mp h
  cases same
  obtain ⟨enough, h⟩ := gives_check.mp h
  rw [Bool.not_eq_true, Bool.not_eq_false'] at enough
  obtain ⟨records, _, made, h⟩ := gives_bind.mp h
  obtain ⟨plain, rfl⟩ := gives_ofExcept.mp made
  obtain ⟨sealed, _, here, h⟩ := gives_bind.mp h
  obtain ⟨rfl, rfl⟩ := gives_pure.mp h
  obtain ⟨first, rest, segments, rfl⟩ :=
    PreparedFrame.plaintextRecords_eq_ok plain (PreparedFrame.new_eq_ok new).descriptors
  exact ⟨prepared, first, rest, new, segments, enough, sealed, here, rfl⟩

variable (h : Encrypted aead limits frame d bytes d')

theorem Encrypted.valid :
    validateDescriptors ((h.first :: h.rest).map Segment.descriptor) limits
      = .ok (h.prepared.wireSize, h.prepared.records) := by
  have made := PreparedFrame.new_eq_ok h.new
  have valid := made.valid
  rwa [made.descriptors, h.segments] at valid

theorem Encrypted.wireSize :
    h.prepared.wireSize = securePreambleSize + remainderSize h.first.data.length
      + jointSize (h.rest.map fun s => s.data.length) := by
  rw [(validateDescriptors_eq_ok h.valid).1, List.map_map]
  rfl

theorem Encrypted.small : ∀ s ∈ h.first :: h.rest, s.data.length ≤ u32Max :=
  h.segments ▸ (PreparedFrame.new_eq_ok h.new).small

theorem Encrypted.few : (h.first :: h.rest).length ≤ maxSegments :=
  h.segments ▸ (PreparedFrame.new_eq_ok h.new).few

theorem Encrypted.length_bytes (sound : aead.Sound) (h : Encrypted aead limits frame d bytes d') :
    bytes.length = h.prepared.wireSize := by
  rw [(h.records.sizes sound).1, sum_recordsOf frame.tag h.few, h.wireSize]

theorem Encrypted.trimmed : frame.trimmed = ⟨frame.tag, h.first :: h.rest⟩ := by
  rw [← h.segments, (PreparedFrame.new_eq_ok h.new).segments]
  rfl

theorem Encrypted.decoded (typed : frame.Typed) :
    decodePreamble ((headRecord frame.tag h.first h.rest).take preambleSize)
      = .ok (frame.tag, (h.first :: h.rest).map Segment.descriptor) := by
  have made := PreparedFrame.new_eq_ok h.new
  have typed : ∀ s ∈ h.prepared.segments, s.alignment < 2 ^ 16 := by
    rw [made.segments]
    exact fun s mem => typed s (trimmedSegments_subset _ mem)
  have preamble := decodePreamble_descriptors made.known made.one made.few made.last made.small typed
  rw [h.segments] at preamble
  rwa [headRecord, List.take_left' (length_encodePreamble _ (by rw [List.length_map]; exact h.few))]

/-- The second record, if there is one, has what is left of the first segment. -/
theorem takes_readFirstData (sound : aead.Sound) (inline : List UInt8)
    (h : Sealed aead d (if padded first.data.length > inlineSize then [remainderRecord first]
      else []) bytes d') :
    Takes (readFirstData aead inline (padded first.data.length)) d bytes
      (inline ++ if padded first.data.length > inlineSize then remainderRecord first else []) d' := by
  unfold readFirstData
  split at h
  next large =>
    rw [if_pos large, if_pos large]
    exact h.takes_last sound (by rw [length_remainderRecord]) (.pure _)
  rename_i small
  obtain ⟨rfl, rfl⟩ := h.nil
  rw [if_neg small, if_neg small, List.append_nil]
  exact .pure inline

/-- What is left of the size after the first two records is the size of the last one. -/
theorem remainingSize_eq (length : Nat) (joint : Nat) :
    remainingSize (securePreambleSize + remainderSize length + joint) (padded length)
      = .ok joint := by
  have after : checkedSub (securePreambleSize + remainderSize length + joint) securePreambleSize
      = some (remainderSize length + joint) := by
    rw [checkedSub, if_pos (by omega), Nat.add_assoc, Nat.add_sub_cancel_left]
  unfold remainingSize
  rw [after]
  show (if padded length > inlineSize then _ else _) = _
  unfold remainderSize
  split
  · rw [checkedSub, if_pos (Nat.le_add_right _ _), Nat.add_sub_cancel_left]
    rfl
  · rw [Nat.zero_add]
    rfl

/-- The reader makes the same frame of what has been written. -/
theorem Encrypted.takes (sound : aead.Sound) (h : Encrypted aead limits frame d bytes d')
    (typed : frame.Typed) {reserve : Tag → Nat → Except FrameError Unit}
    (reserved : reserve frame.tag h.prepared.wireSize = .ok ()) :
    Takes (readReserved aead limits reserve) d bytes frame.trimmed d' := by
  have made := PreparedFrame.new_eq_ok h.new
  obtain ⟨front, mid, back, first, others, rfl⟩ := Sealed.append
    (show Sealed aead d ([headRecord frame.tag h.first h.rest] ++ _) bytes d' from h.records)
  obtain ⟨second, mid', third, remainder, joint, rfl⟩ := others.append
  have head := length_headRecord frame.tag h.few
  have valid := h.valid
  have roomy : securePreambleSize ≤ limits.maxFrameBytes := by
    have fits := (validateDescriptors_eq_ok valid).2.2
    rw [h.wireSize] at fits
    omega
  have small := h.small h.first (.head _)
  -- the nonces that the writer needs are there for the reader, too
  obtain ⟨more, rfl, -⟩ := Direction.gives_seal first.singleton
  have later : d.advanced.available (h.prepared.records - 1) = true := by
    refine (Direction.available_advanced ?_).2
    rw [Nat.sub_add_cancel]
    · exact h.enough
    · rw [(validateDescriptors_eq_ok valid).2.1, recordCount, Nat.add_assoc]
      exact Nat.le_add_right _ _
  obtain ⟨zeros, data⟩ := head_and_remainder h.first
  have inline : (headRecord frame.tag h.first h.rest).drop preambleSize
      = zeroPadded inlineSize (h.first.data.take inlineSize) :=
    List.drop_left' (length_encodePreamble _ (by rw [List.length_map]; exact h.few))
  unfold readReserved
  refine .get fun _ => .check (by simp [more]) (.check (not_lt.mpr roomy) ?_)
  refine first.takes sound (by rw [head]; rfl) ?_
  refine .bind_nil (.ofExcept (h.decoded typed)) (.bind_nil (.ofExcept valid) ?_)
  refine .bind_nil (.ofExcept reserved) (.get fun _ => .check (by simp [later]) ?_)
  refine .bind_nil (.ofExcept (paddedLength_of_le small)) ?_
  refine .bind (takes_readFirstData sound _ remainder) ?_
  rw [inline, data, h.trimmed]
  have blank : allZero ((h.first.data ++ List.replicate zeros 0).drop h.first.descriptor.length)
      = true := by
    rw [Segment.descriptor, List.drop_left]
    exact allZero_replicate zeros
  have segment : (⟨h.first.descriptor.alignment,
      (h.first.data ++ List.replicate zeros 0).take h.first.descriptor.length⟩ : Segment)
      = h.first := by
    rw [Segment.descriptor, List.take_left]
  refine .check (by simp [blank]) ?_
  rw [segment, List.isEmpty_map]
  by_cases single : h.rest.isEmpty = true
  · rw [if_pos single] at joint ⊢
    obtain ⟨rfl, rfl⟩ := joint.nil
    rw [List.isEmpty_iff.mp single]
    exact .pure _
  rw [if_neg single] at joint ⊢
  have size : remainingSize h.prepared.wireSize (padded h.first.data.length)
      = .ok ((jointRecord h.rest).length + tagSize) := by
    rw [h.wireSize, remainingSize_eq, length_jointRecord, jointSize, List.isEmpty_map,
      if_neg single, List.map_map, Nat.add_right_comm]
    rfl
  have cut := cutSegments_jointRecord fun s mem => h.small s (.tail _ mem)
  refine .bind_nil (.ofExcept size) (joint.takes_last sound rfl ?_)
  exact .bind_nil (.ofExcept cut) (.pure _)

/-- Each end writes with the direction that the other one reads with. -/
theorem new_eq_ok {secret : List UInt8} (size : secret.length = secretSize) (server : Bool) :
    ∃ writer reader, new secret server = .ok writer ∧ new secret (!server) = .ok reader
      ∧ reader.rx = writer.tx := by
  have made (start : Nat) (within : start + nonceSize ≤ secretSize) :
      ∃ d, Direction.new (secret.take keySize) ((secret.drop start).take nonceSize) = .ok d := by
    have key : (secret.take keySize).length = keySize := by
      rw [List.length_take, size]
      rfl
    have seed : ((secret.drop start).take nonceSize).length = nonceSize := by
      rw [List.length_take, List.length_drop, size]
      omega
    rw [Direction.new, if_neg (by simp [key, seed])]
    exact ⟨_, rfl⟩
  obtain ⟨fromServer, madeRx⟩ := made 16 (by decide)
  obtain ⟨toServer, madeTx⟩ := made 28 (by decide)
  have client : new secret false = .ok ⟨toServer, fromServer⟩ := by
    rw [new, if_neg (not_not.mpr size)]
    exact bind_eq_ok.mpr ⟨toServer, madeTx, bind_eq_ok.mpr ⟨fromServer, madeRx, rfl⟩⟩
  have peer : new secret true = .ok ⟨fromServer, toServer⟩ := by
    rw [new, if_neg (not_not.mpr size)]
    exact bind_eq_ok.mpr ⟨fromServer, madeRx, bind_eq_ok.mpr ⟨toServer, madeTx, rfl⟩⟩
  cases server with
  | false => exact ⟨_, _, client, peer, rfl⟩
  | true => exact ⟨_, _, peer, client, rfl⟩

/-- The frames that one end writes are the ones that the other end reads, and nothing is left
on the stream.  Each frame has the size and uses the number of nonces that have been computed
for it. -/
theorem secure_frames_read_back (sound : aead.Sound) (limits : Limits) {secret : List UInt8}
    (size : secret.length = secretSize) (server : Bool) :
    ∃ writer reader, new secret server = .ok writer ∧ new secret (!server) = .ok reader
      ∧ (∀ (frames : List Frame) (encodings : List (List UInt8)) (tx : Direction),
        (∀ frame ∈ frames, frame.Typed) →
        (frames.mapM (encodeWith aead · limits)).on writer.tx = (.ok encodings, tx) →
        (times (read aead limits) frames.length).on (reader.rx, encodings.flatten)
          = (.ok (frames.map Frame.trimmed), tx, []))
      ∧ ∀ (d d' : Direction) (frame : Frame) (bytes : List UInt8),
        (encodeWith aead frame limits).on d = (.ok bytes, d') →
        ∃ prepared used, PreparedFrame.new frame limits = .ok prepared
          ∧ validateDescriptors prepared.descriptors limits
            = .ok (prepared.wireSize, prepared.records)
          ∧ bytes.length = prepared.wireSize
          ∧ d'.nonces = d.nonces ++ used ∧ used.length = prepared.records := by
  obtain ⟨writer, reader, client, peer, same⟩ := new_eq_ok size server
  refine ⟨writer, reader, client, peer, fun frames encodings tx typed written => ?_,
    fun d d' frame bytes written => ?_⟩
  · have each (frame : Frame) (mem : frame ∈ frames) (d : Direction) (bytes : List UInt8)
        (d' : Direction) (h : Gives (encodeWith aead frame limits) d bytes d') :
        Takes (read aead limits) d bytes frame.trimmed d' := by
      obtain ⟨encrypted⟩ := gives_encodeWith h
      exact encrypted.takes sound (typed frame mem) rfl
    have all := Takes.times each written []
    rwa [List.append_nil, ← same] at all
  · obtain ⟨encrypted⟩ := gives_encodeWith written
    have made := PreparedFrame.new_eq_ok encrypted.new
    obtain ⟨-, used, nonces, count⟩ := encrypted.records.sizes sound
    rw [made.length_records encrypted.segments] at count
    exact ⟨_, used, encrypted.new, made.valid, encrypted.length_bytes sound, nonces, count⟩

theorem bareAead_sound : bareAead.Sound where
  opens := by
    intro key nonce plaintext ciphertext h
    cases h
    refine congrArg some (List.take_left' ?_)
    rw [List.length_append, List.length_replicate, Nat.add_sub_cancel]
  grows := by
    intro key nonce plaintext ciphertext h
    cases h
    rw [List.length_append, List.length_replicate]

/-- Two frames, the first of which has three records and an empty segment at its end. -/
theorem secure_frames_read_back_two :
    let secret : List UInt8 := List.replicate secretSize 7
    let start : Direction := ⟨secret.take keySize, 0x07070707, 0x0707070707070707, false, []⟩
    let frames : List Frame :=
      [⟨.message, [⟨8, List.replicate 60 1⟩, ⟨8, [2]⟩, ⟨8, []⟩]⟩, ⟨.ack, [⟨8, []⟩]⟩]
    bareAead.Sound ∧ new secret false = .ok ⟨start, start⟩ ∧ new secret true = .ok ⟨start, start⟩
      ∧ ∃ encodings tx,
        (frames.mapM (encodeWith bareAead · smallLimits)).on start = (.ok encodings, tx)
        ∧ (times (read bareAead smallLimits) 2).on (start, encodings.flatten)
          = (.ok [⟨.message, [⟨8, List.replicate 60 1⟩, ⟨8, [2]⟩]⟩, ⟨.ack, [⟨8, []⟩]⟩], tx, []) := by
  intro secret start frames
  have client : new secret false = .ok ⟨start, start⟩ := rfl
  have peer : new secret true = .ok ⟨start, start⟩ := rfl
  refine ⟨bareAead_sound, client, peer, ?_⟩
  obtain ⟨writer, reader, madeWriter, madeReader, readBack, -⟩ :=
    secure_frames_read_back bareAead_sound smallLimits (show secret.length = secretSize from rfl) false
  obtain rfl := Except.ok.inj (client.symm.trans madeWriter)
  obtain rfl := Except.ok.inj (peer.symm.trans madeReader)
  have accepted : ((frames.mapM (encodeWith bareAead · smallLimits)).on start).1.isOk = true := by
    decide
  obtain ⟨encodings, encoded⟩ := exists_of_isOk accepted
  have written : (frames.mapM (encodeWith bareAead · smallLimits)).on start
      = (.ok encodings, ((frames.mapM (encodeWith bareAead · smallLimits)).on start).2) :=
    Prod.ext encoded rfl
  exact ⟨encodings, _, written, readBack frames encodings _ (by decide) written⟩

end SecureCodec

end RadosRs.Msgr
