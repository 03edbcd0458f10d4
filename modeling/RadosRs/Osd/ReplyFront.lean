import RadosRs.Osd.ReplyLayout

/-!
# The front of a reply, to the last byte

`ReplyFront` says what the front of a reply looks like: an object name, fields of
fixed widths, a descriptor and a result code for each operation, and from some
header versions on a redirect and further fields.  The declared data lengths are
in the descriptors.

`decodeReply` accepts nothing else (`front_of_decodeReply`).  And no front goes on
as another (`ReplyFront.unique`), so a front with something missing or with
something after it is none, and is rejected (`decodeReply_consumes`).
-/

namespace RadosRs.Osd

open Bytes Fixed Fallible Wire Msgr

/-! ## What a front looks like -/

/-- A record with its version, the oldest version that can read it, and its length. -/
def recordBytes (version compatible : Nat) (body : List UInt8) : List UInt8 :=
  leBytes 1 version ++ leBytes 1 compatible ++ leBytes 4 body.length ++ body

/-- The body of a redirect: a locator, the name of an object, and bytes of an old format. -/
inductive RedirectBody : List UInt8 → Prop
  | mk (version compatible : Nat) (pool key nameSpace hash object legacy : List UInt8)
      (known : 3 ≤ version) (readable : compatible ≤ 6) (poolSize : pool.length = 12)
      (hashSize : hash.length = if 6 ≤ version then 8 else 0)
      (keySize : key.length < 256 ^ 4) (nameSpaceSize : nameSpace.length < 256 ^ 4)
      (objectSize : object.length < 256 ^ 4) (legacySize : legacy.length < 256 ^ 4) :
      RedirectBody (recordBytes version compatible
        (pool ++ blobBytes key ++ blobBytes nameSpace ++ hash)
          ++ blobBytes object ++ blobBytes legacy)

/-- The end of a front.  The header version decides how much of it there is. -/
inductive ReplyTail (version : Nat) : List UInt8 → Prop
  | early (before : version < 7) : ReplyTail version []
  | plain (features : List UInt8) (reached : 7 ≤ version)
      (size : features.length = if 8 ≤ version then 24 else 0) :
      ReplyTail version (leBytes 1 0 ++ features)
  | redirected (flag compatible : Nat) (body features : List UInt8) (reached : 7 ≤ version)
      (set : flag ≠ 0) (byte : flag < 256) (readable : compatible ≤ 1)
      (short : body.length < 256 ^ 4) (redirect : RedirectBody body)
      (size : features.length = if 8 ≤ version then 24 else 0) :
      ReplyTail version (leBytes 1 flag ++ recordBytes 1 compatible body ++ features)

/-- A descriptor: 34 bytes and the length of the data. -/
def descriptorField (descriptor : List UInt8 × Nat) : List UInt8 :=
  descriptor.1 ++ leBytes 4 descriptor.2

/-- A front with the declared data lengths.  The 44 bytes after the name are the placement
group, the flags, the result, a version and the epoch of the map.  Around the result codes
are the retry and two versions. -/
inductive ReplyFront (version : Nat) : List Nat → List UInt8 → Prop
  | mk (object fixed : List UInt8) (descriptors : List (List UInt8 × Nat))
      (codes tail : List UInt8) (objectSize : object.length < 256 ^ 4)
      (fixedSize : fixed.length = 44) (count : descriptors.length < 256 ^ 4)
      (each : ∀ d ∈ descriptors, d.1.length = 34 ∧ d.2 < 256 ^ 4)
      (codesSize : codes.length = 24 + 4 * descriptors.length) (ends : ReplyTail version tail) :
      ReplyFront version (descriptors.map (·.2))
        (blobBytes object ++ (leBytes 1 1 ++ (fixed ++ (leBytes 4 descriptors.length ++
          (descriptors.flatMap descriptorField ++ (codes ++ tail))))))

/-! ## No front goes on as another -/

theorem eq_nil_of_length {α : Type} {a b extra : List α} (eq : b = a ++ extra)
    (same : a.length = b.length) : extra = [] := by
  have lengths := congrArg List.length eq
  rw [List.length_append] at lengths
  exact List.length_eq_zero_iff.mp (by omega)

theorem length_recordBytes (version compatible : Nat) (body : List UInt8) :
    (recordBytes version compatible body).length = 6 + body.length := by
  simp only [recordBytes, List.length_append, length_leBytes]

variable {version : Nat}

/-- The length of a record can be told from its start. -/
theorem recordBytes_length_inj {version' compatible compatible' : Nat}
    {body body' rest rest' : List UInt8} (short : body.length < 256 ^ 4)
    (short' : body'.length < 256 ^ 4) (eq : recordBytes version compatible body ++ rest
      = recordBytes version' compatible' body' ++ rest') : body.length = body'.length := by
  simp only [recordBytes, List.append_assoc] at eq
  obtain ⟨-, eq⟩ := List.append_inj eq (by simp)
  obtain ⟨-, eq⟩ := List.append_inj eq (by simp)
  exact leBytes_inj short short' (List.append_inj eq (by simp)).1

theorem ReplyTail.unique {a b extra : List UInt8} (h : ReplyTail version a)
    (k : ReplyTail version b) (eq : b = a ++ extra) : extra = [] := by
  cases h with
  | early before =>
    cases k with
    | early => exact eq.symm
    | plain _ reached => omega
    | redirected _ _ _ _ reached => omega
  | plain features reached size =>
    cases k with
    | early before => omega
    | plain features' _ size' =>
      refine eq_nil_of_length eq ?_
      rw [List.length_append, List.length_append, size, size']
    | redirected flag _ _ _ _ set byte =>
      rw [List.append_assoc, List.append_assoc] at eq
      have flags := (List.append_inj eq (by simp)).1
      exact absurd (leBytes_inj byte (by decide) flags) set
  | redirected flag compatible body features reached set byte readable short redirect size =>
    cases k with
    | early before => omega
    | plain features' =>
      rw [List.append_assoc, List.append_assoc] at eq
      have flags := (List.append_inj eq (by simp)).1
      exact absurd (leBytes_inj (by decide) byte flags).symm set
    | redirected flag' compatible' body' features' _ _ _ _ short' _ size' =>
      refine eq_nil_of_length eq ?_
      rw [List.append_assoc, List.append_assoc, List.append_assoc] at eq
      have records := (List.append_inj eq (by simp)).2
      have same := recordBytes_length_inj short' short records
      simp only [List.length_append, length_recordBytes, length_leBytes, size, size', same]

variable {descriptors : List (List UInt8 × Nat)}

theorem length_descriptorFields (each : ∀ d ∈ descriptors, d.1.length = 34 ∧ d.2 < 256 ^ 4) :
    (descriptors.flatMap descriptorField).length = 38 * descriptors.length := by
  induction descriptors with
  | nil => rfl
  | cons d descriptors ih =>
    rw [List.forall_mem_cons] at each
    rw [List.flatMap_cons, List.length_append, ih each.2, descriptorField, List.length_append,
      each.1.1, length_leBytes, List.length_cons]
    omega

/-- Descriptors of the same number can be told from their bytes. -/
theorem lengths_of_descriptorFields {descriptors' : List (List UInt8 × Nat)}
    (each : ∀ d ∈ descriptors, d.1.length = 34 ∧ d.2 < 256 ^ 4)
    (each' : ∀ d ∈ descriptors', d.1.length = 34 ∧ d.2 < 256 ^ 4)
    (same : descriptors.length = descriptors'.length)
    (eq : descriptors.flatMap descriptorField = descriptors'.flatMap descriptorField) :
    descriptors.map (·.2) = descriptors'.map (·.2) := by
  induction descriptors generalizing descriptors' with
  | nil =>
    rw [List.length_eq_zero_iff.mp same.symm]
  | cons d descriptors ih =>
    cases descriptors' with
    | nil => cases same
    | cons d' descriptors' =>
      rw [List.forall_mem_cons] at each each'
      simp only [List.flatMap_cons, descriptorField, List.append_assoc] at eq
      obtain ⟨-, eq⟩ := List.append_inj eq (each.1.1.trans each'.1.1.symm)
      obtain ⟨length, eq⟩ := List.append_inj eq (by simp)
      rw [List.map_cons, List.map_cons, leBytes_inj each.1.2 each'.1.2 length,
        ih each.2 each'.2 (Nat.succ.inj same) eq]

variable {lengths : List Nat}

theorem ReplyFront.unique {lengths' : List Nat} {a b extra : List UInt8}
    (h : ReplyFront version lengths a) (k : ReplyFront version lengths' b) (eq : b = a ++ extra) :
    extra = [] ∧ lengths' = lengths := by
  obtain ⟨object, fixed, descriptors, codes, tail, objectSize, fixedSize, count, each, codesSize,
    ends⟩ := h
  obtain ⟨object', fixed', descriptors', codes', tail', objectSize', fixedSize', count', each',
    codesSize', ends'⟩ := k
  simp only [blobBytes, List.append_assoc] at eq
  obtain ⟨length, eq⟩ := List.append_inj eq (by simp)
  obtain ⟨-, eq⟩ := List.append_inj eq (leBytes_inj objectSize' objectSize length)
  obtain ⟨-, eq⟩ := List.append_inj eq (by simp)
  obtain ⟨-, eq⟩ := List.append_inj eq (fixedSize'.trans fixedSize.symm)
  obtain ⟨number, eq⟩ := List.append_inj eq (by simp)
  have same := leBytes_inj count' count number
  obtain ⟨fields, eq⟩ := List.append_inj eq (by
    rw [length_descriptorFields each', length_descriptorFields each, same])
  obtain ⟨-, eq⟩ := List.append_inj eq (by rw [codesSize', codesSize, same])
  exact ⟨ends.unique ends' eq, lengths_of_descriptorFields each' each same fields⟩

theorem ReplyFront.length_le {front : List UInt8} (h : ReplyFront version lengths front) :
    replyFront lengths.length ≤ front.length := by
  obtain ⟨object, fixed, descriptors, codes, tail, -, fixedSize, -, each, codesSize, -⟩ := h
  simp only [blobBytes, List.length_append, length_leBytes, length_descriptorFields each, fixedSize,
    codesSize, List.length_map, replyFront]
  omega

/-! ## What is accepted is a front -/

open Decoder

variable {d : Decoder}

theorem length_blob_lt (ok : d.blob.2.error = none) : d.blob.1.length < 256 ^ 4 := by
  have width : d.u32.1 < 256 ^ 4 := Decoder.uint_lt d 4
  unfold Decoder.blob at ok ⊢
  dsimp only at ok ⊢
  split_ifs at ok ⊢
  · exact Nat.two_pow_pos 32
  · rw [show (d.u32.2.raw d.u32.1).1.length = d.u32.1 from length_take ok]
    exact width

/-- The descriptors that were read, and the bytes they were read from. -/
theorem took_decodeDescriptors (count : Nat) (d : Decoder) :
    ∃ descriptors : List (List UInt8 × Nat), descriptors.length = count ∧
      (decodeDescriptors count d).1.map (·.2) = descriptors.map (·.2) ∧
      Took d (decodeDescriptors count d).2 (descriptors.flatMap descriptorField) ∧
      ((decodeDescriptors count d).2.error = none →
        ∀ x ∈ descriptors, x.1.length = 34 ∧ x.2 < 256 ^ 4) := by
  induction count generalizing d with
  | zero => exact ⟨[], rfl, rfl, .refl d, fun _ => nofun⟩
  | succ count ih =>
    obtain ⟨descriptors, length, lengths, took, each⟩ := ih ((d.u16.2.raw 32).2.u32.2)
    refine ⟨(leBytes 2 d.u16.1 ++ (d.u16.2.raw 32).1, (d.u16.2.raw 32).2.u32.1) :: descriptors,
      congrArg (· + 1) length, congrArg _ lengths, ?_, fun ok => ?_⟩
    · have one := ((Took.uint d 2).trans (.raw _ 32)).trans (.uint _ 4)
      exact one.trans took
    have word := (Took.uint (d.u16.2.raw 32).2 4).unfailed (took.unfailed ok)
    refine List.forall_mem_cons.mpr ⟨⟨?_, Decoder.uint_lt _ 4⟩, each ok⟩
    rw [List.length_append, length_leBytes, show (d.u16.2.raw 32).1.length = 32 from
      length_take word]

theorem took_decodeCodes (count : Nat) (d : Decoder) :
    ∃ codes : List UInt8, codes.length = 4 * count ∧ Took d (decodeCodes count d).2 codes := by
  induction count generalizing d with
  | zero => exact ⟨[], rfl, .refl d⟩
  | succ count ih =>
    obtain ⟨codes, length, took⟩ := ih d.i32.2
    refine ⟨leBytes 4 (d.uint 4).1 ++ codes, ?_, (Took.sint d 4).trans took⟩
    rw [List.length_append, length_leBytes, length]
    omega

theorem took_decodePg {rest : Decoder} {pg : Maps.Pg} (h : decodePg d = .ok (pg, rest)) :
    ∃ fields, fields.length = 16 ∧ Took d rest (leBytes 1 1 ++ fields) := by
  unfold decodePg at h
  obtain ⟨checked, h⟩ := check_eq_ok.mp h
  obtain ⟨_, -, h⟩ := bind_eq_ok.mp h
  cases h
  have version : ¬ ((d.uint 1).1 != 1) = true := checked
  have first := Took.uint d 1
  rw [bne_iff_ne, not_not] at version
  rw [version] at first
  refine ⟨_, ?_, first.trans (((Took.uint _ 8).trans (.uint _ 4)).trans (.sint _ 4))⟩
  simp only [List.length_append, length_leBytes]

section Stages

variable {R : Type} {d : Decoder} {r : R}

theorem took_replyHead
    {next : List UInt8 → Maps.Pg → Int → Int → Nat → Nat → Decoder → Except MessageError R}
    (h : replyHead d next = .ok r) :
    ∃ object pg flags result mapEpoch count rest fixed,
      object.length < 256 ^ 4 ∧ fixed.length = 44 ∧ count < 256 ^ 4 ∧
      Took d rest (blobBytes object ++ leBytes 1 1 ++ fixed ++ leBytes 4 count) ∧
      next object pg flags result mapEpoch count rest = .ok r := by
  unfold replyHead at h
  obtain ⟨⟨pg, placed⟩, decoded, h⟩ := bind_eq_ok.mp h
  obtain ⟨_, finished, h⟩ := bind_eq_ok.mp h
  obtain ⟨fields, length, group⟩ := took_decodePg decoded
  have ok : ((placed.i64.2.i32.2.raw 12).2.u32.2.u32.2).error = none := finish_eq_ok finished
  have read := (Took.uint (placed.i64.2.i32.2.raw 12).2.u32.2 4).unfailed ok
  have skipped := (Took.uint (placed.i64.2.i32.2.raw 12).2 4).unfailed read
  have after := (((Took.sint placed 8).trans (.sint _ 4)).trans (.raw _ 12)).trans (.uint _ 4)
  have all := ((Took.blob d).trans group |>.trans after).trans (.uint _ 4)
  refine ⟨d.blob.1, pg, _, _, _, (placed.i64.2.i32.2.raw 12).2.u32.2.u32.1, _,
    fields ++ (leBytes 8 (placed.uint 8).1 ++ leBytes 4 (placed.i64.2.uint 4).1
      ++ (placed.i64.2.i32.2.raw 12).1 ++ leBytes 4 (placed.i64.2.i32.2.raw 12).2.u32.1),
    length_blob_lt (group.unfailed (after.unfailed read)), ?_, Decoder.uint_lt _ 4, ?_, h⟩
  · simp only [List.length_append, length_leBytes, length]
    rw [show (placed.i64.2.i32.2.raw 12).1.length = 12 from length_take skipped]
  · simp only [blobBytes, List.append_assoc] at all ⊢
    exact all

theorem took_replyTables {count : Nat}
    {next : List (Nat × Nat) → Int → List Int → Nat → Decoder → Except MessageError R}
    (h : replyTables count d next = .ok r) :
    ∃ found retry codes version rest, ∃ descriptors : List (List UInt8 × Nat), ∃ fields,
      descriptors.length = count ∧ found.map (·.2) = descriptors.map (·.2) ∧
      codes.length = count ∧ Took d rest (descriptors.flatMap descriptorField ++ fields) ∧
      (rest.error = none → (∀ x ∈ descriptors, x.1.length = 34 ∧ x.2 < 256 ^ 4) ∧
        fields.length = 24 + 4 * count) ∧
      next found retry codes version rest = .ok r := by
  obtain ⟨descriptors, length, lengths, took, each⟩ := took_decodeDescriptors count d
  obtain ⟨codes, size, coded⟩ := took_decodeCodes count (decodeDescriptors count d).2.i32.2
  have retry := Took.sint (decodeDescriptors count d).2 4
  have skipped := Took.raw (decodeCodes count (decodeDescriptors count d).2.i32.2).2 12
  have after := ((retry.trans coded).trans skipped).trans (.uint _ 8)
  refine ⟨_, _, _, _, _, descriptors, _, length, lengths, length_decodeCodes count _,
    took.trans after, fun ok => ⟨each (after.unfailed ok), ?_⟩, h⟩
  simp only [List.length_append, length_leBytes, size]
  rw [show (Decoder.raw _ 12).1.length = 12 from length_take ((Took.uint _ 8).unfailed ok)]
  omega

end Stages

/-- A record that was read, with its version and a decoder of its body. -/
theorem took_record {payload rest : Decoder} {localVersion : Nat}
    (h : d.versioned localVersion = ((version, payload), rest)) (ok : rest.error = none) :
    ∃ compatible body limit, compatible ≤ localVersion ∧ body.length < 256 ^ 4 ∧
      payload = new body limit ∧ Took d rest (recordBytes version compatible body) := by
  have fine : (d.versioned localVersion).2.error = none := by rwa [h]
  obtain ⟨compatible, body, limit, readable, short, record, took⟩ :=
    Took.versioned d localVersion fine
  rw [h] at record took
  obtain ⟨rfl, rfl⟩ := Prod.mk.inj record
  exact ⟨compatible, body, limit, readable, short, rfl, took⟩

/-- Bytes that are there from some version on. -/
theorem took_since (d : Decoder) (read : Decoder → Decoder) {since size : Nat}
    {bytes : List UInt8} (took : Took d (read d) bytes)
    (length : (read d).error = none → bytes.length = size)
    (ok : (if version ≥ since then read d else d).error = none) :
    ∃ fields : List UInt8, fields.length = (if since ≤ version then size else 0) ∧
      Took d (if version ≥ since then read d else d) fields := by
  by_cases reached : since ≤ version
  · simp only [ge_iff_le, if_pos reached] at ok ⊢
    exact ⟨bytes, length ok, took⟩
  · simp only [ge_iff_le, if_neg reached]
    exact ⟨[], rfl, .refl d⟩

/-- The locator of a redirect is a pool, two names and perhaps a hash. -/
theorem took_locator {place : List UInt8} {limit : Nat} {located : Decoder}
    (h : located = if version ≥ 6 then (new place limit).i64.2.i32.2.blob.2.blob.2.i64.2
      else (new place limit).i64.2.i32.2.blob.2.blob.2) (ok : located.error = none)
    (ended : located.remaining = 0) :
    ∃ pool key nameSpace hash : List UInt8, pool.length = 12 ∧ key.length < 256 ^ 4 ∧
      nameSpace.length < 256 ^ 4 ∧ hash.length = (if 6 ≤ version then 8 else 0) ∧
      place = pool ++ blobBytes key ++ blobBytes nameSpace ++ hash := by
  subst h
  have pool := (Took.sint (new place limit) 8).trans (.sint _ 4)
  have key := Took.blob (new place limit).i64.2.i32.2
  have nameSpace := Took.blob (new place limit).i64.2.i32.2.blob.2
  obtain ⟨hash, size, took⟩ := took_since (new place limit).i64.2.i32.2.blob.2.blob.2
    (fun d => d.i64.2) (.sint _ 8) (fun _ => length_leBytes 8 _) ok
  have all := ((pool.trans key).trans nameSpace).trans took
  have named := took.unfailed ok
  refine ⟨_, _, _, hash, ?_, length_blob_lt (nameSpace.unfailed named), length_blob_lt named, size,
    all.whole ok ended⟩
  simp only [List.length_append, length_leBytes]

theorem took_decodeRedirect {rest : Decoder} {redirect : Redirect}
    (h : decodeRedirect d = .ok (redirect, rest)) :
    ∃ compatible body, compatible ≤ 1 ∧ body.length < 256 ^ 4 ∧ RedirectBody body ∧
      Took d rest (recordBytes 1 compatible body) := by
  unfold decodeRedirect at h
  rcases outer : d.versioned 1 with ⟨⟨version, payload⟩, d₁⟩
  rw [outer] at h
  obtain ⟨_, finished, h⟩ := bind_eq_ok.mp h
  obtain ⟨compatible, body, limit, readable, short, rfl, took⟩ :=
    took_record outer (finish_eq_ok finished)
  obtain ⟨first, h⟩ := check_eq_ok.mp h
  rcases inner : (new body limit).versioned 6 with ⟨⟨locatorVersion, locator⟩, p₁⟩
  rw [inner] at h
  obtain ⟨_, located, h⟩ := bind_eq_ok.mp h
  obtain ⟨older, place, room, known, -, rfl, record⟩ :=
    took_record inner (finish_eq_ok located)
  obtain ⟨since, h⟩ := check_eq_ok.mp h
  dsimp only at h
  obtain ⟨_, placed, h⟩ := bind_eq_ok.mp h
  obtain ⟨ended, h⟩ := check_eq_ok.mp h
  obtain ⟨-, h⟩ := check_eq_ok.mp h
  obtain ⟨_, named, h⟩ := bind_eq_ok.mp h
  obtain ⟨emptied, h⟩ := check_eq_ok.mp h
  cases h
  rw [bne_iff_ne, not_not] at first ended emptied
  subst first
  obtain ⟨pool, key, nameSpace, hash, poolSize, keySize, nameSpaceSize, hashSize, rfl⟩ :=
    took_locator rfl (finish_eq_ok placed) ended
  have ok := finish_eq_ok named
  have legacySize : (p₁.blob.2.u32.2.raw p₁.blob.2.u32.1).1.length = p₁.blob.2.u32.1 :=
    length_take ok
  have legacy : Took p₁.blob.2 (p₁.blob.2.u32.2.raw p₁.blob.2.u32.1).2
      (blobBytes (p₁.blob.2.u32.2.raw p₁.blob.2.u32.1).1) := by
    unfold blobBytes
    rw [legacySize]
    exact (Took.uint p₁.blob.2 4).trans (.raw _ _)
  have whole := ((record.trans (Took.blob p₁)).trans legacy).whole ok emptied
  refine ⟨compatible, body, readable, short, whole ▸ ?_, took⟩
  exact .mk locatorVersion older pool key nameSpace hash p₁.blob.1 _ (Nat.not_lt.mp since) known
    poolSize hashSize keySize nameSpaceSize (length_blob_lt (legacy.unfailed ok))
    (legacySize.trans_lt (Decoder.uint_lt _ 4))

variable {message : Message}

theorem took_replyRest {R : Type} {r : R} {assemble : Option Redirect → List (List UInt8) → R}
    (h : replyRest message lengths d assemble = .ok r) :
    ∃ redirect pieces last tail, Took d last tail ∧ ReplyTail message.header.version tail ∧
      last.error = none ∧ last.remaining = 0 ∧
      splitData message.data 0 lengths = .ok pieces ∧ assemble redirect pieces = r := by
  -- after the redirect the same is left to do with and without one
  have after : ∀ {redirect : Option Redirect} {d₂ : Decoder}, (do
      let decoder := if message.header.version ≥ 8 then (d₂.raw 24).2 else d₂
      finish decoder
      if decoder.remaining != 0 then throw .malformed
      let pieces ← splitData message.data 0 lengths
      return assemble redirect pieces) = Except.ok r →
      ∃ pieces last features, Took d₂ last features ∧
        features.length = (if 8 ≤ message.header.version then 24 else 0) ∧ last.error = none ∧
        last.remaining = 0 ∧ splitData message.data 0 lengths = .ok pieces ∧
        assemble redirect pieces = r := by
    intro redirect d₂ h
    obtain ⟨_, finished, h⟩ := bind_eq_ok.mp h
    obtain ⟨all, h⟩ := check_eq_ok.mp h
    obtain ⟨pieces, split, h⟩ := bind_eq_ok.mp h
    have ok := finish_eq_ok finished
    rw [bne_iff_ne, not_not] at all
    obtain ⟨features, size, took⟩ := took_since d₂ (fun d => (d.raw 24).2) (.raw d₂ 24)
      (fun ok => length_take ok) ok
    exact ⟨pieces, _, features, took, size, ok, all, split, Except.ok.inj h⟩
  unfold replyRest at h
  by_cases reached : message.header.version ≥ 7
  · rw [if_pos reached] at h
    have flag := Took.uint d 1
    by_cases set : (d.uint 1).1 = 0
    · have unset : d.bool = (false, d.u8.2) := by simp [Decoder.bool, Decoder.u8, set]
      rw [unset] at h
      obtain ⟨pieces, last, features, took, size, ok, done, split, assembled⟩ := after h
      rw [set] at flag
      exact ⟨none, pieces, last, _, flag.trans took, .plain features reached size, ok, done, split,
        assembled⟩
    · have raised : d.bool = (true, d.u8.2) := by simp [Decoder.bool, Decoder.u8, set]
      rw [raised] at h
      obtain ⟨⟨redirect, d₂⟩, decoded, h⟩ := bind_eq_ok.mp h
      obtain ⟨compatible, body, readable, short, formed, record⟩ := took_decodeRedirect decoded
      obtain ⟨pieces, last, features, took, size, ok, done, split, assembled⟩ := after h
      exact ⟨some redirect, pieces, last, _, (flag.trans record).trans took,
        .redirected _ compatible body features reached set (Decoder.uint_lt d 1) readable short
          formed size, ok, done, split, assembled⟩
  · rw [if_neg reached] at h
    obtain ⟨pieces, last, features, took, size, ok, done, split, assembled⟩ := after h
    rw [if_neg (by omega)] at size
    obtain rfl := List.length_eq_zero_iff.mp size
    exact ⟨none, pieces, last, [], took, .early (Nat.not_le.mp reached), ok, done, split,
      assembled⟩

/-- What is accepted is a front, and the data is as it declares. -/
theorem front_of_decodeReply {limits : MessageLimits} {reply : Reply}
    (h : decodeReply message limits = .ok reply) :
    message.front.length + message.middle.length + message.data.length ≤ limits.maxBytes ∧
    ∃ lengths, ReplyFront message.header.version lengths message.front ∧
      lengths.length ≤ limits.maxOperations ∧
      reply.operations.map (·.data.length) = lengths ∧
      reply.operations.flatMap (·.data) = message.data := by
  rw [decodeReply_eq] at h
  split at h
  · cases h
  rename_i checks
  obtain ⟨object, pg, flags, result, mapEpoch, count, d₁, fixed, objectSize, fixedSize, few,
    head, h⟩ := took_replyHead h
  split at h
  · cases h
  rename_i counted
  obtain ⟨found, retry, codes, version, d₂, descriptors, fields, number, lengths, coded, tables,
    sizes, h⟩ := took_replyTables h
  split at h
  · cases h
  obtain ⟨redirect, pieces, last, tail, rest, ends, ok, done, dealt, rfl⟩ := took_replyRest h
  simp only [Bool.or_eq_true, decide_eq_true_eq, not_or, Nat.not_lt] at checks counted
  obtain ⟨each, fieldsSize⟩ := sizes (rest.unfailed ok)
  obtain ⟨sized, together⟩ := splitData_pieces dealt
  subst number
  have front := ((head.trans tables).trans rest).whole ok done
  have all : pieces.length ≤ (found.zip codes).length := by
    have counts := congrArg List.length lengths
    have sizes := congrArg List.length sized
    simp only [List.length_map] at counts sizes
    rw [List.length_zip]
    omega
  have same : (((found.zip codes).zip pieces).map fun entry =>
      (⟨entry.1.1.1, entry.1.2, entry.2⟩ : OperationResult)).map (·.data) = pieces := by
    rw [List.map_map]
    exact List.map_snd_zip all
  refine ⟨checks.2, descriptors.map (·.2), ?_, ?_, ?_, ?_⟩
  · rw [front]
    simp only [List.append_assoc]
    exact .mk object fixed descriptors fields tail objectSize fixedSize few each fieldsSize
      ends
  · rw [List.length_map]
    exact counted.1
  · have measured := congrArg (List.map List.length) same
    rw [List.map_map] at measured
    exact measured.trans (sized.trans lengths)
  · rw [List.flatMap_def, same, together, List.drop_zero]

/-- An accepted reply deals out its data as its front declares, and the front is a front to the
last byte.  A reply is rejected if the declared lengths do not add up to the data, or if its front
goes on after a front or ends before one. -/
theorem decodeReply_consumes (message : Message) (limits : MessageLimits) :
    (∀ reply, decodeReply message limits = .ok reply →
      ∃ lengths, ReplyFront message.header.version lengths message.front ∧
        reply.operations.length = lengths.length ∧ lengths.length ≤ limits.maxOperations ∧
        reply.operations.map (·.data.length) = lengths ∧
        reply.operations.flatMap (·.data) = message.data) ∧
    ∀ lengths front, ReplyFront message.header.version lengths front →
      (message.front = front → lengths.sum ≠ message.data.length →
        ∃ error, decodeReply message limits = .error error) ∧
      (∀ extra, extra ≠ [] → message.front = front ++ extra →
        ∃ error, decodeReply message limits = .error error) ∧
      ∀ missing, missing ≠ [] → front = message.front ++ missing →
        ∃ error, decodeReply message limits = .error error := by
  have rejected : (∀ reply, decodeReply message limits ≠ .ok reply) →
      ∃ error, decodeReply message limits = .error error := by
    intro never
    cases decoded : decodeReply message limits with
    | ok reply => exact absurd decoded (never reply)
    | error error => exact ⟨error, rfl⟩
  refine ⟨fun reply accepted => ?_, fun lengths front shape => ⟨?_, ?_, ?_⟩⟩
  · obtain ⟨-, lengths, shape, few, sizes, data⟩ := front_of_decodeReply accepted
    refine ⟨lengths, shape, ?_, few, sizes, data⟩
    rw [← sizes, List.length_map]
  · intro same wrong
    refine rejected fun reply accepted => wrong ?_
    obtain ⟨-, lengths', shape', -, sizes, data⟩ := front_of_decodeReply accepted
    obtain ⟨-, rfl⟩ := shape.unique shape' (same.trans (List.append_nil _).symm)
    rw [← data, ← sizes, List.length_flatMap]
  · intro extra nonempty longer
    refine rejected fun reply accepted => nonempty ?_
    obtain ⟨-, lengths', shape', -⟩ := front_of_decodeReply accepted
    exact (shape.unique shape' longer).1
  intro missing nonempty shorter
  refine rejected fun reply accepted => nonempty ?_
  obtain ⟨-, lengths', shape', -⟩ := front_of_decodeReply accepted
  exact (shape'.unique shape shorter).1

theorem decodeReply_consumes_byte :
    let message := replyMessage [(1, [7])]
    let limits : MessageLimits := ⟨1000, 10⟩
    ∃ reply lengths, decodeReply message limits = .ok reply ∧
      ReplyFront 4 lengths message.front ∧ reply.operations.length = lengths.length ∧
      reply.operations.flatMap (·.data) = [7] ∧
      ∃ error, decodeReply { message with front := message.front ++ [0] } limits = .error error := by
  intro message limits
  obtain ⟨reply, accepted, -⟩ := @decodeReply_replyMessage [(1, [7])] limits (by decide)
    (by decide) (by decide) (by decide) (by decide)
  obtain ⟨lengths, shape, count, -, -, data⟩ :=
    (decodeReply_consumes message limits).1 reply accepted
  have longer := ((decodeReply_consumes { message with front := message.front ++ [0] } limits).2
    lengths message.front shape).2.1 [0] (by decide) rfl
  exact ⟨reply, lengths, accepted, shape, count, data, longer⟩

end RadosRs.Osd
