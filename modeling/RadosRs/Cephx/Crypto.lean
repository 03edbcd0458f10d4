import RadosRs.Cephx.Keyring
import RadosRs.Lib.Chaining

/-!
# Encryption of authentication payloads

There are two types of keys.  With the older one a payload is padded and encrypted
in a chain of blocks.  With the newer one the payload follows a random block, the
chain goes over the bytes without padding by ciphertext stealing, and a checksum
stands at the end.  The ciphers themselves and the checksum are not part of the
repository, and `Primitives` has them as functions.

Ciphertext stealing exchanges the last two blocks and cuts off the end of what then
is the last one.  `Stolen` says what a ciphertext of more than one block looks like.
The bytes that are cut off show up again when the block before is decrypted, since
the plaintext was filled up with zeros there.
-/

namespace RadosRs.Cephx

open Bytes Chaining Fallible

abbrev aesBlockSize : Nat := 16
abbrev rfc8009ChecksumSize : Nat := 24
def cephAesIv : List UInt8 := "cephsageyudagreg".toList.map fun c => UInt8.ofNat c.toNat
def authEncMagic : Nat := 0xff009cad8826aa55

structure Limits where
  maxAuthBytes : Nat := 1048576
  maxTicketBlobBytes : Nat := 1048576
  maxDecryptBytes : Nat := 1048576
  maxEncryptBytes : Nat := 1048576
  maxConnectionSecretBytes : Nat := 64
  maxTickets : Nat := 64
  deriving DecidableEq, Repr

/-- The number of bytes after padding, which is never empty. -/
def paddedLength (plaintext : List UInt8) : Nat :=
  plaintext.length + (aesBlockSize - plaintext.length % aesBlockSize)

/-- The functions of the cryptographic libraries. -/
structure Primitives where
  /-- AES with a key of 32 bytes. -/
  encryptBlock : (key : List UInt8) → Block 16 → Block 16
  decryptBlock : (key : List UInt8) → Block 16 → Block 16
  /-- AES with a key of 16 bytes, chained, with padding, into a buffer of the given size. -/
  encryptPadded : (key iv plaintext : List UInt8) → (size : Nat) → Option (Vector UInt8 size)
  decryptPadded : (key iv ciphertext : List UInt8) → Option (List UInt8)
  hmacSha384 : (key message : List UInt8) → Vector UInt8 48
  verifyTruncatedLeft : (key message tag : List UInt8) → Bool

/-- What is assumed of the libraries. -/
structure Primitives.Sound (prims : Primitives) : Prop where
  block : ∀ key b, prims.decryptBlock key (prims.encryptBlock key b) = b
  padded : ∀ key iv plaintext out,
    prims.encryptPadded key iv plaintext (paddedLength plaintext) = some out →
      prims.decryptPadded key iv out.toList = some plaintext
  tag : ∀ key message,
    prims.verifyTruncatedLeft key message
      ((prims.hmacSha384 key message).toList.take rfc8009ChecksumSize) = true

section Source

variable (prims : Primitives)

/-! ## Ciphertext stealing -/

/-- Exchanges the last two blocks. -/
def swapLast (blocks : List UInt8) : List UInt8 :=
  let penultimate := blocks.length - 2 * aesBlockSize
  blocks.take penultimate ++ blocks.drop (penultimate + aesBlockSize)
    ++ (blocks.drop penultimate).take aesBlockSize

/-- Zeros up to the end of a block. -/
def padToBlock (plaintext : List UInt8) : List UInt8 :=
  let remainder := plaintext.length % aesBlockSize
  if remainder ≠ 0 then plaintext ++ List.replicate (aesBlockSize - remainder) 0 else plaintext

def ctsEncrypt (key plaintext : List UInt8) : Except Error (List UInt8) :=
  if plaintext.length < aesBlockSize then .error .malformedPayload
  else if key.length ≠ aes256KeySize then .error .unsupportedType
  else
    let padded := padToBlock plaintext
    let encrypted := join (chain (prims.encryptBlock key) Block.zero (blocks 16 padded))
    let swapped := if encrypted.length > aesBlockSize then swapLast encrypted else encrypted
    .ok (swapped.take plaintext.length)

def cbcDecryptNoPadding (key ciphertext : List UInt8) (iv : Block 16) :
    Except Error (List UInt8) :=
  if ciphertext.length % aesBlockSize ≠ 0 then .error .malformedPayload
  else .ok (join (unchain (prims.decryptBlock key) iv (blocks 16 ciphertext)))

/-- A block from a slice of its size. -/
def blockFrom (bytes : List UInt8) : Except Error (Block 16) :=
  if bytes.length = aesBlockSize then .ok (Block.ofBytes bytes) else .error .malformedPayload

/-- The block before the last two. -/
def previousBlock (front : List UInt8) : Except Error (Block 16) :=
  if front.isEmpty then .ok Block.zero else blockFrom (front.drop (front.length - aesBlockSize))

/-- A ciphertext that does not end with a whole block. -/
def ctsDecryptUnaligned (key ciphertext : List UInt8) : Except Error (List UInt8) := do
  let remainder := ciphertext.length % aesBlockSize
  let tailStart := ciphertext.length - remainder - aesBlockSize
  let front := ciphertext.take tailStart
  let penultimate := (ciphertext.drop tailStart).take aesBlockSize
  let lastPartial := (ciphertext.drop tailStart).drop aesBlockSize
  let plaintext ← cbcDecryptNoPadding prims key front Block.zero
  let previous ← previousBlock front
  let penultimate ← blockFrom penultimate
  let intermediate := prims.decryptBlock key penultimate
  let reconstructedLast := Block.ofBytes (lastPartial ++ intermediate.toList.drop remainder)
  let lastPlain := (prims.decryptBlock key reconstructedLast).xor previous
  let penultimatePlain := (prims.decryptBlock key penultimate).xor reconstructedLast
  .ok (plaintext ++ lastPlain.toList ++ penultimatePlain.toList.take remainder)

def ctsDecrypt (key ciphertext : List UInt8) : Except Error (List UInt8) :=
  if ciphertext.length < aesBlockSize then .error .malformedPayload
  else if key.length ≠ aes256KeySize then .error .unsupportedType
  else if ciphertext.length % aesBlockSize = 0 then
    let swapped := if ciphertext.length > aesBlockSize then swapLast ciphertext else ciphertext
    cbcDecryptNoPadding prims key swapped Block.zero
  else ctsDecryptUnaligned prims key ciphertext

/-! ## Payloads -/

/-- A number of four bytes, the highest first. -/
def beBytes4 (n : Nat) : List UInt8 := (leBytes 4 n).reverse

def rfc8009DeriveKey (key : List UInt8) (usage : Nat) (constant : UInt8) (bits : Nat) :
    List UInt8 :=
  (prims.hmacSha384 key (beBytes4 1 ++ beBytes4 usage ++ [constant, 0] ++ beBytes4 bits)).toList.take
    (bits / 8)

/-- What the checksum is over. -/
def checksummed (ciphertext : List UInt8) : List UInt8 :=
  List.replicate aesBlockSize 0 ++ ciphertext

def encryptRfc8009WithConfounder (secret : CryptoKey) (plaintext : List UInt8) (usage : Nat)
    (confounder : Block 16) (limits : Limits) : Except Error (List UInt8) :=
  if secret.typeId ≠ cryptoAes256Krb5 ∨ secret.secret.length ≠ aes256KeySize then
    .error .unsupportedType
  else if plaintext.length > limits.maxEncryptBytes then .error .limitExceeded
  else do
    let data := confounder.toList ++ plaintext
    let ciphertext ← ctsEncrypt prims (rfc8009DeriveKey prims secret.secret usage 0xaa 256) data
    let integrityKey := rfc8009DeriveKey prims secret.secret usage 0x55 192
    let tag := prims.hmacSha384 integrityKey (checksummed ciphertext)
    .ok (ciphertext ++ tag.toList.take rfc8009ChecksumSize)

def decryptRfc8009 (secret : CryptoKey) (ciphertext : List UInt8) (usage : Nat)
    (limits : Limits) : Except Error (List UInt8) :=
  if secret.secret.length ≠ aes256KeySize then .error .unsupportedType
  else if ciphertext.length < aesBlockSize + rfc8009ChecksumSize then .error .malformedPayload
  else if ciphertext.length > limits.maxDecryptBytes + (aesBlockSize + rfc8009ChecksumSize) then
    .error .limitExceeded
  else
    let split := ciphertext.length - rfc8009ChecksumSize
    let encrypted := ciphertext.take split
    let integrityKey := rfc8009DeriveKey prims secret.secret usage 0x55 192
    if !prims.verifyTruncatedLeft integrityKey (checksummed encrypted) (ciphertext.drop split) then
      .error .malformedPayload
    else do
      let plaintext ←
        ctsDecrypt prims (rfc8009DeriveKey prims secret.secret usage 0xaa 256) encrypted
      .ok (plaintext.drop aesBlockSize)

def encryptCbc (secret : CryptoKey) (plaintext : List UInt8) (limits : Limits) :
    Except Error (List UInt8) :=
  if secret.typeId ≠ cryptoAes ∨ secret.secret.length ≠ aesBlockSize then .error .unsupportedType
  else if plaintext.length > limits.maxEncryptBytes then .error .limitExceeded
  else if paddedLength plaintext > limits.maxEncryptBytes + aesBlockSize then .error .limitExceeded
  else
    match prims.encryptPadded secret.secret cephAesIv plaintext (paddedLength plaintext) with
    | none => .error .malformedPayload
    | some output => .ok output.toList

def decryptCbc (secret : CryptoKey) (ciphertext : List UInt8) (limits : Limits) :
    Except Error (List UInt8) :=
  if secret.typeId ≠ cryptoAes ∨ secret.secret.length ≠ aesBlockSize then .error .unsupportedType
  else if ciphertext.length < aesBlockSize ∨ ciphertext.length % aesBlockSize ≠ 0 then
    .error .malformedPayload
  else if ciphertext.length > limits.maxDecryptBytes + aesBlockSize then .error .limitExceeded
  else
    match prims.decryptPadded secret.secret cephAesIv ciphertext with
    | none => .error .malformedPayload
    | some plaintext => .ok plaintext

def encryptPayload (secret : CryptoKey) (plaintext : List UInt8) (_usage : Nat) (limits : Limits) :
    Except Error (List UInt8) :=
  if plaintext.length > limits.maxEncryptBytes then .error .limitExceeded
  else if secret.typeId = cryptoAes then encryptCbc prims secret plaintext limits
  else if secret.typeId = cryptoAes256Krb5 then .error .malformedPayload
  else .error .unsupportedType

def decryptPayload (secret : CryptoKey) (ciphertext : List UInt8) (usage : Nat)
    (limits : Limits) : Except Error (List UInt8) :=
  if secret.typeId = cryptoAes then decryptCbc prims secret ciphertext limits
  else if secret.typeId = cryptoAes256Krb5 then decryptRfc8009 prims secret ciphertext usage limits
  else .error .unsupportedType

/-- The payload behind a version and a number that is known to both sides. -/
def withMagic (payload : List UInt8) : List UInt8 := 1 :: leBytes 8 authEncMagic ++ payload

def encryptWithMagic (secret : CryptoKey) (payload : List UInt8) (usage : Nat)
    (confounder : Option (Block 16)) (limits : Limits) : Except Error (List UInt8) :=
  if secret.typeId = cryptoAes then encryptPayload prims secret (withMagic payload) usage limits
  else if secret.typeId = cryptoAes256Krb5 then
    match confounder with
    | none => .error .malformedPayload
    | some confounder =>
      encryptRfc8009WithConfounder prims secret (withMagic payload) usage confounder limits
  else .error .unsupportedType

/-- The payload, after the checks of what stands before it. -/
def withoutMagic (plaintext : List UInt8) : Except Error (List UInt8) :=
  if plaintext.length < 9 then .error .malformedPayload
  else if plaintext.head? ≠ some 1 then .error .invalidVersion
  else if ofLeBytes ((plaintext.drop 1).take 8) ≠ authEncMagic then .error .invalidMagic
  else .ok (plaintext.drop 9)

def decryptWithMagic (secret : CryptoKey) (ciphertext : List UInt8) (usage : Nat)
    (limits : Limits) : Except Error (List UInt8) := do
  let plaintext ← decryptPayload prims secret ciphertext usage limits
  withoutMagic plaintext

end Source

/-! ## Stolen bytes -/

/-- The blocks of a plaintext of more than one block.  Some bytes of the last one are kept, and
the others are zero. -/
structure Parts (plaintext : List UInt8) where
  front : List (Block 16)
  penultimate : Block 16
  last : Block 16
  kept : Nat
  pos : 0 < kept
  le : kept ≤ 16
  whole : plaintext = join front ++ penultimate.toList ++ last.toList.take kept
  zeros : last.toList.drop kept = List.replicate (16 - kept) 0

variable {plaintext : List UInt8}

theorem padToBlock_eq (nonempty : plaintext ≠ []) :
    ∃ kept count, 0 < kept ∧ kept ≤ 16 ∧ plaintext.length = 16 * count + kept
      ∧ padToBlock plaintext = plaintext ++ List.replicate (16 - kept) 0 := by
  have pos := List.length_pos_iff.mpr nonempty
  unfold padToBlock aesBlockSize
  dsimp only
  split
  next partly =>
    exact ⟨plaintext.length % 16, plaintext.length / 16, by omega, by omega, by omega, rfl⟩
  rename_i full
  rw [not_not] at full
  exact ⟨16, plaintext.length / 16 - 1, by omega, by omega, by omega, (List.append_nil _).symm⟩

theorem exists_parts (long : 16 < plaintext.length) :
    ∃ parts : Parts plaintext,
      padToBlock plaintext = join (parts.front ++ [parts.penultimate, parts.last]) := by
  obtain ⟨kept, count, pos, le, length, padded⟩ :=
    padToBlock_eq (List.ne_nil_of_length_pos (Nat.zero_lt_of_lt long))
  obtain ⟨bs, size, joined⟩ := exists_join (n := 16) (count + 1) (padToBlock plaintext)
    (by rw [padded, List.length_append, List.length_replicate]; omega)
  obtain ⟨front, penultimate, last, rfl⟩ : ∃ front x y, bs = front ++ [x, y] := by
    obtain rfl | ⟨bs, y, rfl⟩ := List.eq_nil_or_concat bs
    · cases size
    obtain rfl | ⟨front, x, rfl⟩ := List.eq_nil_or_concat bs
    · simp at size
      omega
    · exact ⟨front, x, y, by simp⟩
  have split : join front ++ penultimate.toList ++ last.toList.take kept ++ last.toList.drop kept
      = plaintext ++ List.replicate (16 - kept) 0 := by
    rw [← padded, ← joined, List.append_assoc _ (List.take _ _), List.take_append_drop]
    simp
  obtain ⟨whole, zeros⟩ := List.append_inj' split (by simp)
  exact ⟨⟨front, penultimate, last, kept, pos, le, whole.symm, zeros⟩, joined.symm⟩

theorem swapLast_append {front a b : List UInt8} (ha : a.length = 16) (hb : b.length = 16) :
    swapLast (front ++ a ++ b) = front ++ b ++ a := by
  have start : (front ++ a ++ b).length - 2 * aesBlockSize = front.length := by
    simp [ha, hb, aesBlockSize]
  have past : front.length + aesBlockSize = (front ++ a).length := by
    rw [List.length_append, ha]
  unfold swapLast
  dsimp only
  rw [start, past, List.drop_left, List.append_assoc front a b, List.take_left, List.drop_left,
    List.take_left' ha]

section RoundTrip

variable {prims : Primitives} {key : List UInt8}

theorem cbcDecryptNoPadding_join (bs : List (Block 16)) (iv : Block 16) :
    cbcDecryptNoPadding prims key (join bs) iv
      = .ok (join (unchain (prims.decryptBlock key) iv bs)) := by
  have aligned : ¬ (join bs).length % aesBlockSize ≠ 0 := by
    rw [length_join, not_not]
    exact Nat.mul_mod_right 16 bs.length
  rw [cbcDecryptNoPadding, if_neg aligned, blocks_join (by decide)]

theorem blockFrom_toList (b : Block 16) : blockFrom b.toList = .ok b := by
  have size : b.toList.length = aesBlockSize := Vector.length_toList
  rw [blockFrom, if_pos size, Block.ofBytes_toList]

theorem previousBlock_join (bs : List (Block 16)) :
    previousBlock (join bs) = .ok (bs.getLastD Block.zero) := by
  unfold previousBlock
  obtain rfl | ⟨bs, b, rfl⟩ := List.eq_nil_or_concat bs
  · rfl
  have start : (join bs ++ b.toList).length - aesBlockSize = (join bs).length := by simp
  have nonempty : ¬ (join bs ++ b.toList).isEmpty = true := by
    rw [List.isEmpty_iff_length_eq_zero]
    simp
  rw [List.concat_eq_append, join_append, join_cons, join_nil, List.append_nil, if_neg nonempty,
    start, List.drop_left, blockFrom_toList, List.getLastD_concat]

namespace Parts

variable {plaintext : List UInt8} (parts : Parts plaintext)

variable (prims key) in
/-- The encrypted blocks before the last two. -/
def frontCipher : List (Block 16) := chain (prims.encryptBlock key) Block.zero parts.front

variable (prims key) in
def penultimateCipher : Block 16 :=
  prims.encryptBlock key
    (parts.penultimate.xor ((parts.frontCipher prims key).getLastD Block.zero))

variable (prims key) in
def lastCipher : Block 16 :=
  prims.encryptBlock key (parts.last.xor (parts.penultimateCipher prims key))

variable (prims key) in
/-- What the encryption makes of the plaintext. -/
def ciphertext : List UInt8 :=
  join (parts.frontCipher prims key) ++ (parts.lastCipher prims key).toList
    ++ (parts.penultimateCipher prims key).toList.take parts.kept

theorem chain_eq :
    chain (prims.encryptBlock key) Block.zero (parts.front ++ [parts.penultimate, parts.last])
      = parts.frontCipher prims key
        ++ [parts.penultimateCipher prims key, parts.lastCipher prims key] := by
  rw [chain_append]
  rfl

variable (prims key) in
theorem length_ciphertext :
    (parts.ciphertext prims key).length = 16 * parts.front.length + 16 + parts.kept := by
  have le := parts.le
  simp [ciphertext, frontCipher, le, Nat.add_assoc]

theorem length_plaintext : plaintext.length = 16 * parts.front.length + 16 + parts.kept := by
  have le := parts.le
  refine (congrArg List.length parts.whole).trans ?_
  simp [le, Nat.add_assoc]

theorem ctsEncrypt_eq (hkey : key.length = 32)
    (padded : padToBlock plaintext = join (parts.front ++ [parts.penultimate, parts.last])) :
    ctsEncrypt prims key plaintext = .ok (parts.ciphertext prims key) := by
  have length := parts.length_plaintext
  have pos := parts.pos
  have encrypted : join (chain (prims.encryptBlock key) Block.zero (blocks 16 (padToBlock plaintext)))
      = join (parts.frontCipher prims key) ++ (parts.penultimateCipher prims key).toList
        ++ (parts.lastCipher prims key).toList := by
    rw [padded, blocks_join (by decide), chain_eq]
    simp
  unfold ctsEncrypt aesBlockSize
  dsimp only
  rw [if_neg (by omega), if_neg (by rw [hkey, not_not]; rfl), encrypted, if_pos (by simp),
    swapLast_append Vector.length_toList Vector.length_toList]
  refine congrArg Except.ok ?_
  have size : plaintext.length = (join (parts.frontCipher prims key)
      ++ (parts.lastCipher prims key).toList).length + parts.kept := by
    simp [length, frontCipher]
  rw [size, List.take_length_add_append]
  rfl

/-- With all the bytes, the blocks are exchanged again. -/
theorem ctsDecrypt_full (sound : prims.Sound) (hkey : key.length = 32) (full : parts.kept = 16) :
    ctsDecrypt prims key (parts.ciphertext prims key) = .ok plaintext := by
  have length := parts.length_ciphertext prims key
  have uncut (b : Block 16) : b.toList.take parts.kept = b.toList := by
    rw [full]
    exact List.take_of_length_le (le_of_eq Vector.length_toList)
  have swapped : swapLast (parts.ciphertext prims key)
      = join (chain (prims.encryptBlock key) Block.zero
        (parts.front ++ [parts.penultimate, parts.last])) := by
    rw [ciphertext, uncut, swapLast_append Vector.length_toList Vector.length_toList, chain_eq]
    simp
  unfold ctsDecrypt aesBlockSize
  dsimp only
  rw [if_neg (by omega), if_neg (by rw [hkey, not_not]; rfl), if_pos (by omega),
    if_pos (by omega), swapped, cbcDecryptNoPadding_join, unchain_chain (sound.block key)]
  refine congrArg Except.ok ?_
  refine Eq.trans ?_ parts.whole.symm
  rw [uncut]
  simp

/-- What is cut off is the end of the block before, seen through the zeros. -/
theorem reconstructed (sound : prims.Sound) :
    (parts.penultimateCipher prims key).toList.take parts.kept
        ++ (prims.decryptBlock key (parts.lastCipher prims key)).toList.drop parts.kept
      = (parts.penultimateCipher prims key).toList := by
  rw [lastCipher, sound.block, Block.drop_xor parts.zeros, List.take_append_drop]

theorem ctsDecrypt_partly (sound : prims.Sound) (hkey : key.length = 32) (partly : parts.kept < 16) :
    ctsDecrypt prims key (parts.ciphertext prims key) = .ok plaintext := by
  have length := parts.length_ciphertext prims key
  have pos := parts.pos
  have remainder : (parts.ciphertext prims key).length % 16 = parts.kept := by omega
  have start : (parts.ciphertext prims key).length - parts.kept - 16
      = (join (parts.frontCipher prims key)).length := by
    rw [length, length_join, frontCipher, length_chain]
    omega
  have front : (parts.ciphertext prims key).take (join (parts.frontCipher prims key)).length
      = join (parts.frontCipher prims key) := by
    rw [ciphertext, List.append_assoc, List.take_left]
  have tail : (parts.ciphertext prims key).drop (join (parts.frontCipher prims key)).length
      = (parts.lastCipher prims key).toList
        ++ (parts.penultimateCipher prims key).toList.take parts.kept := by
    rw [ciphertext, List.append_assoc, List.drop_left]
  unfold ctsDecrypt ctsDecryptUnaligned aesBlockSize
  dsimp only
  rw [if_neg (by omega), if_neg (by rw [hkey, not_not]; rfl), if_neg (by omega), remainder, start,
    front, tail, List.take_left' Vector.length_toList, List.drop_left' Vector.length_toList,
    cbcDecryptNoPadding_join, previousBlock_join, blockFrom_toList]
  refine congrArg Except.ok (Eq.trans ?_ parts.whole.symm)
  rw [parts.reconstructed sound, Block.ofBytes_toList, lastCipher, sound.block, Block.xor_cancel,
    penultimateCipher, sound.block, Block.xor_cancel, frontCipher, unchain_chain (sound.block key)]

end Parts

/-- A single block is not touched by the stealing. -/
theorem cts_single (sound : prims.Sound) (hkey : key.length = 32) (b : Block 16) :
    ∃ c : Block 16, ctsEncrypt prims key b.toList = .ok c.toList
      ∧ ctsDecrypt prims key c.toList = .ok b.toList := by
  have single : b.toList = join [b] := by simp
  have padded : padToBlock b.toList = join [b] := by
    rw [← single, padToBlock, Vector.length_toList]
    rfl
  refine ⟨prims.encryptBlock key (b.xor Block.zero), ?_, ?_⟩
  · unfold ctsEncrypt aesBlockSize
    dsimp only
    rw [Vector.length_toList, if_neg (by decide), if_neg (by rw [hkey, not_not]; rfl), padded,
      blocks_join (by decide), if_neg (by simp [chain])]
    refine congrArg Except.ok ?_
    rw [chain, chain, join_cons, join_nil, List.append_nil]
    exact List.take_of_length_le (le_of_eq Vector.length_toList)
  · have chained : (prims.encryptBlock key (b.xor Block.zero)).toList
        = join (chain (prims.encryptBlock key) Block.zero [b]) := by simp [chain]
    unfold ctsDecrypt aesBlockSize
    dsimp only
    rw [Vector.length_toList, if_neg (by decide), if_neg (by rw [hkey, not_not]; rfl),
      if_pos (by decide), if_neg (by decide), chained, cbcDecryptNoPadding_join,
      unchain_chain (sound.block key), single]

theorem ctsDecrypt_ctsEncrypt (sound : prims.Sound) (hkey : key.length = 32)
    (plaintext : List UInt8) (long : 16 ≤ plaintext.length) :
    ∃ c, ctsEncrypt prims key plaintext = .ok c ∧ c.length = plaintext.length
      ∧ ctsDecrypt prims key c = .ok plaintext := by
  obtain same | more := Nat.eq_or_lt_of_le long
  · obtain ⟨b, rfl⟩ : ∃ b : Block 16, b.toList = plaintext :=
      ⟨Block.ofBytes plaintext, by rw [Block.toList_ofBytes long, same, List.take_length]⟩
    obtain ⟨c, encrypted, decrypted⟩ := cts_single sound hkey b
    exact ⟨c.toList, encrypted, by simp, decrypted⟩
  obtain ⟨parts, padded⟩ := exists_parts more
  refine ⟨parts.ciphertext prims key, parts.ctsEncrypt_eq hkey padded, ?_, ?_⟩
  · rw [parts.length_ciphertext prims key, ← parts.length_plaintext]
  obtain full | partly := Nat.eq_or_lt_of_le parts.le
  · exact parts.ctsDecrypt_full sound hkey full
  · exact parts.ctsDecrypt_partly sound hkey partly

/-! ## Payloads that come back -/

variable {secret : CryptoKey} {plaintext payload c : List UInt8} {usage : Nat} {limits : Limits}

theorem length_rfc8009DeriveKey (key : List UInt8) (usage : Nat) (constant : UInt8) :
    (rfc8009DeriveKey prims key usage constant 256).length = 32 := by
  simp [rfc8009DeriveKey]

theorem decryptRfc8009_encrypt (sound : prims.Sound) {confounder : Block 16}
    (le : limits.maxEncryptBytes ≤ limits.maxDecryptBytes)
    (h : encryptRfc8009WithConfounder prims secret plaintext usage confounder limits = .ok c) :
    decryptRfc8009 prims secret c usage limits = .ok plaintext := by
  unfold encryptRfc8009WithConfounder at h
  split at h
  · cases h
  rename_i typed
  split at h
  · cases h
  rename_i small
  obtain ⟨ciphertext, encrypted, h⟩ := bind_eq_ok.mp h
  cases h
  obtain ⟨ciphertext', same, length, decrypted⟩ :=
    ctsDecrypt_ctsEncrypt sound (length_rfc8009DeriveKey secret.secret usage 0xaa)
      (confounder.toList ++ plaintext) (by simp)
  cases encrypted.symm.trans same
  rw [not_or, not_not, not_not] at typed
  rw [List.length_append, Vector.length_toList] at length
  generalize tagged : (prims.hmacSha384 (rfc8009DeriveKey prims secret.secret usage 0x55 192)
    (checksummed ciphertext)).toList.take rfc8009ChecksumSize = tag
  have size : (ciphertext ++ tag).length = 40 + plaintext.length := by
    rw [List.length_append, length, ← tagged, List.length_take, Vector.length_toList]
    unfold rfc8009ChecksumSize
    omega
  have split : 40 + plaintext.length - 24 = ciphertext.length := by omega
  unfold decryptRfc8009 aesBlockSize rfc8009ChecksumSize
  dsimp only
  rw [if_neg (not_not.mpr typed.2), size, if_neg (by omega), if_neg (by omega), split,
    List.take_left, List.drop_left, ← tagged, sound.tag, decrypted]
  exact congrArg Except.ok (List.drop_left' Vector.length_toList)

theorem decryptCbc_encrypt (sound : prims.Sound)
    (le : limits.maxEncryptBytes ≤ limits.maxDecryptBytes)
    (h : encryptCbc prims secret plaintext limits = .ok c) :
    decryptCbc prims secret c limits = .ok plaintext := by
  unfold encryptCbc at h
  split at h
  · cases h
  rename_i typed
  split at h
  · cases h
  split at h
  · cases h
  rename_i small
  split at h
  · cases h
  rename_i output encrypted
  cases h
  have length : output.toList.length = paddedLength plaintext := Vector.length_toList
  have decrypted := sound.padded _ _ _ _ encrypted
  generalize output.toList = bytes at length decrypted ⊢
  unfold paddedLength aesBlockSize at small length
  unfold decryptCbc aesBlockSize
  rw [if_neg typed, if_neg (by omega), if_neg (by omega), decrypted]

theorem withoutMagic_withMagic (payload : List UInt8) :
    withoutMagic (withMagic payload) = .ok payload := by
  have length : (withMagic payload).length = 9 + payload.length := by
    simp [withMagic]
    omega
  have magic : ((withMagic payload).drop 1).take 8 = leBytes 8 authEncMagic :=
    List.take_left' (length_leBytes 8 authEncMagic)
  have rest : (withMagic payload).drop 9 = payload :=
    List.drop_left' (congrArg (· + 1) (length_leBytes 8 authEncMagic))
  rw [withoutMagic, if_neg (by omega), if_neg (by rw [not_not]; rfl), magic,
    ofLeBytes_leBytes_of_lt (by decide), if_neg (not_not.mpr rfl), rest]

theorem decryptWithMagic_encrypt (sound : prims.Sound) {confounder : Option (Block 16)}
    (le : limits.maxEncryptBytes ≤ limits.maxDecryptBytes)
    (h : encryptWithMagic prims secret payload usage confounder limits = .ok c) :
    decryptWithMagic prims secret c usage limits = .ok payload := by
  suffices decrypted : decryptPayload prims secret c usage limits = .ok (withMagic payload) from
    bind_eq_ok.mpr ⟨withMagic payload, decrypted, withoutMagic_withMagic payload⟩
  unfold encryptWithMagic at h
  unfold decryptPayload
  split at h
  next old =>
    rw [if_pos old]
    unfold encryptPayload at h
    split at h
    · cases h
    · exact decryptCbc_encrypt sound le h
  next other =>
    split at h
    next new =>
      rw [if_neg other, if_pos new]
      split at h
      · cases h
      · exact decryptRfc8009_encrypt sound le h
    · cases h

end RoundTrip

/-- Under the assumptions on the libraries, what is encrypted by stealing ciphertext is decrypted
again, and so is every payload for both types of keys. -/
theorem decrypts_what_was_encrypted {prims : Primitives} (sound : prims.Sound) :
    (∀ key plaintext : List UInt8, key.length = aes256KeySize → 16 ≤ plaintext.length →
      (ctsEncrypt prims key plaintext).bind (ctsDecrypt prims key) = .ok plaintext)
      ∧ ∀ (secret : CryptoKey) (payload : List UInt8) (usage : Nat)
        (confounder : Option (Block 16)) (limits : Limits) (c : List UInt8),
        limits.maxEncryptBytes ≤ limits.maxDecryptBytes →
        encryptWithMagic prims secret payload usage confounder limits = .ok c →
        decryptWithMagic prims secret c usage limits = .ok payload := by
  refine ⟨fun key plaintext hkey long => ?_, fun _ _ _ _ _ _ le h => ?_⟩
  · obtain ⟨c, encrypted, -, decrypted⟩ := ctsDecrypt_ctsEncrypt sound hkey plaintext long
    rw [encrypted]
    exact decrypted
  · exact decryptWithMagic_encrypt sound le h

/-- Padding by the number of bytes that are added. -/
def padPkcs7 (plaintext : List UInt8) : List UInt8 :=
  plaintext ++ List.replicate (16 - plaintext.length % 16)
    (UInt8.ofNat (16 - plaintext.length % 16))

def unpadPkcs7 (padded : List UInt8) : Option (List UInt8) :=
  padded.getLast?.map fun count => padded.take (padded.length - count.toNat)

theorem unpadPkcs7_padPkcs7 (plaintext : List UInt8) :
    unpadPkcs7 (padPkcs7 plaintext) = some plaintext := by
  obtain ⟨count, hcount⟩ : ∃ count, 16 - plaintext.length % 16 = count + 1 :=
    ⟨15 - plaintext.length % 16, by omega⟩
  have value : (UInt8.ofNat (count + 1)).toNat = count + 1 := UInt8.toNat_ofNat_of_lt' (by
    show count + 1 < 256
    omega)
  have last : (padPkcs7 plaintext).getLast? = some (UInt8.ofNat (count + 1)) := by
    rw [padPkcs7, hcount, List.replicate_succ', ← List.append_assoc, List.getLast?_concat]
  have length : (padPkcs7 plaintext).length - (count + 1) = plaintext.length := by
    rw [padPkcs7, hcount, List.length_append, List.length_replicate, Nat.add_sub_cancel]
  rw [unpadPkcs7, last, Option.map_some, value, length, padPkcs7, List.take_left]

/-- Functions that satisfy the assumptions: blocks are combined with the key, and the checksum
counts bytes. -/
def xorPrimitives : Primitives where
  encryptBlock key b := b.xor (Block.ofBytes key)
  decryptBlock key b := b.xor (Block.ofBytes key)
  encryptPadded _ _ plaintext size :=
    if h : (padPkcs7 plaintext).length = size then some ⟨(padPkcs7 plaintext).toArray, h⟩ else none
  decryptPadded _ _ ciphertext := unpadPkcs7 ciphertext
  hmacSha384 key message := Vector.replicate 48 (UInt8.ofNat (key.length + message.length))
  verifyTruncatedLeft key message tag :=
    tag == List.replicate tag.length (UInt8.ofNat (key.length + message.length))

theorem xorPrimitives_sound : xorPrimitives.Sound where
  block key b := Block.xor_cancel b (Block.ofBytes key)
  padded key iv plaintext out h := by
    unfold xorPrimitives at h
    dsimp only at h
    split at h
    · cases h
      exact unpadPkcs7_padPkcs7 plaintext
    · cases h
  tag key message := by
    simp [xorPrimitives]

def bytesUpTo (n : Nat) : List UInt8 := (List.range n).map UInt8.ofNat

theorem decrypts_what_was_encrypted_xor :
    xorPrimitives.Sound
      ∧ (ctsEncrypt xorPrimitives (bytesUpTo 32) (bytesUpTo 37)).bind
          (ctsDecrypt xorPrimitives (bytesUpTo 32)) = .ok (bytesUpTo 37)
      ∧ (∃ c, encryptWithMagic xorPrimitives ⟨1, bytesUpTo 16⟩ [1, 2, 3] 0 none {} = .ok c
        ∧ decryptWithMagic xorPrimitives ⟨1, bytesUpTo 16⟩ c 0 {} = .ok [1, 2, 3])
      ∧ ∃ c, encryptWithMagic xorPrimitives ⟨2, bytesUpTo 32⟩ [1, 2, 3] 4 (some Block.zero) {}
          = .ok c
        ∧ decryptWithMagic xorPrimitives ⟨2, bytesUpTo 32⟩ c 4 {} = .ok [1, 2, 3] := by
  obtain ⟨stolen, payloads⟩ := decrypts_what_was_encrypted xorPrimitives_sound
  obtain ⟨old, hold⟩ := exists_of_isOk (x := encryptWithMagic xorPrimitives ⟨1, bytesUpTo 16⟩
    [1, 2, 3] 0 none {}) (by decide)
  obtain ⟨new, hnew⟩ := exists_of_isOk (x := encryptWithMagic xorPrimitives ⟨2, bytesUpTo 32⟩
    [1, 2, 3] 4 (some Block.zero) {}) (by decide)
  refine ⟨xorPrimitives_sound, stolen _ _ rfl (by decide), ⟨old, hold, ?_⟩, ⟨new, hnew, ?_⟩⟩
  · exact payloads _ _ _ _ _ _ (le_refl _) hold
  · exact payloads _ _ _ _ _ _ (le_refl _) hnew

end RadosRs.Cephx
