import Mathlib.Algebra.BigOperators.Group.List.Basic
import RadosRs.Lib.IpText
import RadosRs.Msgr.Control
import RadosRs.Wire.Format
import RadosRs.Wire.Sent

/-!
# Addresses on the wire

An address is encoded in one of two ways, which its first byte tells apart: as a
fixed record with a socket address of 128 bytes, or as a versioned record.  A list
of addresses has a marker of its own, and where that marker is missing a single
address follows.

The features of the peer decide how an address is written.  The versioned record
is read back as the address it was written for (`takes_decodeEntityAddr`), and so
is a list of them (`sent_entityAddrVec`).
-/

namespace RadosRs.Protocol

open Bytes Fallible Fixed Wire Wire.Reader Msgr

variable {ε : Type} [OfWire ε]

def afInet : Nat := 2
def afInet6 : Nat := 10

def addressTypeNone : Nat := 0
def addressTypeLegacy : Nat := 1

def addressTypeV2 : Nat := 2
def addressTypeAny : Nat := 3

def legacySockaddrSize : Nat := 128

def ipv4V2 (endpoint : IpText.SocketAddr) : Except WireError EntityAddr :=
  match endpoint.ip with
  | .v6 _ => .error .malformed
  | .v4 bits =>
    .ok
      { addressType := addressTypeV2
        nonce := 0
        family := afInet
        socketData := (leBytes 2 endpoint.port).reverse
          ++ (leBytes 4 bits.toNat).reverse ++ List.replicate 8 0 }

/-- The socket of an address, which has as many bytes as its family asks for. -/
def endpoint (address : EntityAddr) : Option IpText.SocketAddr :=
  let data := address.socketData
  let port := ofLeBytes (data.take 2).reverse
  if data.length < 2 then none
  else if address.family = afInet then
    some { ip := .v4 (.ofNat 32 (ofLeBytes ((data.drop 2).take 4).reverse)), port }
  else if address.family = afInet6 ∧ 22 ≤ data.length then
    some { ip := .v6 (.ofNat 128 (ofLeBytes ((data.drop 6).take 16).reverse)), port }
  else none

def socketDataLength (family : Nat) : Reader ε Nat :=
  if family = afInet then return 14
  else if family = afUnspec ∨ family = afInet6 then return 26
  else fail (OfWire.ofWire .malformed)

def decodeLegacyAddr : Reader ε EntityAddr := do
  let _ ← raw 3
  let nonce ← u32
  let socket ← raw legacySockaddrSize
  finish
  let family := (socket.getD 0 0).toNat * 256 + (socket.getD 1 0).toNat
  let length ← socketDataLength family
  let addressType := if family = afUnspec then addressTypeNone else addressTypeLegacy
  return { addressType, nonce, family, socketData := (socket.drop 2).take length }

/-- The body of an address in the versioned encoding. -/
def decodeAddrBody : Reader ε EntityAddr := do
  let addressType ← u32
  let nonce ← u32
  let encodedLength ← u32
  if encodedLength = 0 then
    finish
    return { addressType, nonce, family := afUnspec, socketData := List.replicate 26 0 }
  else
    rejectIf (encodedLength < 2) (OfWire.ofWire .malformed)
    let family ← u16
    let maximum ← socketDataLength family
    rejectIf (encodedLength - 2 > maximum) (OfWire.ofWire .malformed)
    let encoded ← raw (encodedLength - 2)
    finish
    let socketData := encoded ++ List.replicate (maximum - encoded.length) 0
    return { addressType, nonce, family, socketData }

def decodeAfterMarker (marker : Nat) : Reader ε EntityAddr := do
  if marker = 0 then decodeLegacyAddr
  else if marker = 1 then
    let (_, payload) ← versioned 1
    let address ← inside payload decodeAddrBody
    finish
    return address
  else fail (OfWire.ofWire .malformed)

def decodeEntityAddr : Reader ε EntityAddr := do
  let marker ← u8
  finish
  decodeAfterMarker marker

def decodeEntityAddrVec (maxAddresses : Nat) : Reader ε (List EntityAddr) := do
  let marker ← u8
  finish
  if marker < 2 then return [← decodeAfterMarker marker]
  else
    rejectIf (marker ≠ 2) (OfWire.ofWire .malformed)
    let count ← u32
    rejectIf (count > maxAddresses) (OfWire.ofWire .limitExceeded)
    let left ← remaining
    rejectIf (count > left) (OfWire.ofWire .malformed)
    let addresses ← times count decodeEntityAddr
    finish
    return addresses

/-! ## Writing -/

/-- A set of features, a bit for each. -/
structure GlobalFeatures where
  bits : UInt64
  deriving DecidableEq, Repr

namespace GlobalFeatures

def serverNautilus : GlobalFeatures := ⟨(1 : UInt64) <<< 2⟩
def serverMimicIncarnation : GlobalFeatures := ⟨((1 : UInt64) <<< 57) ||| ((1 : UInt64) <<< 28)⟩
def serverNautilusMask : GlobalFeatures := ⟨serverNautilus.bits ||| serverMimicIncarnation.bits⟩
def messageAddressV2 : GlobalFeatures := ⟨(1 : UInt64) <<< 59⟩

def contains (features mask : GlobalFeatures) : Bool := features.bits &&& mask.bits == mask.bits

end GlobalFeatures

/-- The source's `socket_data_length` where there is no decoder. -/
def socketDataSize (family : Nat) : Except ε Nat :=
  if family = afInet then .ok 14
  else if family = afUnspec ∨ family = afInet6 then .ok 26
  else .error (OfWire.ofWire .malformed)

/-- The fixed record. -/
def encodeLegacyAddr (address : EntityAddr) (encoder : Encoder) : Encoder :=
  let encoder := encoder.u32 0
  let encoder := encoder.u32 address.nonce
  encoder.raw ((leBytes 2 address.family).reverse ++ address.socketData
    ++ List.replicate (legacySockaddrSize - 2 - address.socketData.length) 0)

/-- The body of the versioned record.  The length is that of a socket address, which fits. -/
def encodeAddrBody (address : EntityAddr) (addressType : Nat) (payload : Encoder) : Encoder :=
  let payload := payload.u32 addressType
  let payload := payload.u32 address.nonce
  let payload := payload.u32 (2 + address.socketData.length)
  let payload := payload.u16 address.family
  payload.raw address.socketData

def encodeEntityAddr (address : EntityAddr) (features : GlobalFeatures) (encoder : Encoder) :
    Except ε Encoder := do
  let length ← socketDataSize address.family
  if address.socketData.length ≠ length then throw (OfWire.ofWire .malformed)
  else if !features.contains .messageAddressV2 then return encodeLegacyAddr address encoder
  else
    let addressType :=
      if address.addressType = addressTypeAny ∧ !features.contains .serverNautilusMask then
        addressTypeLegacy
      else address.addressType
    return (encoder.u8 1).versioned 1 1 (encodeAddrBody address addressType)

def encodeEntityAddrVec (addresses : List EntityAddr) (features : GlobalFeatures)
    (encoder : Encoder) : Except ε Encoder :=
  if !features.contains .messageAddressV2 then
    match addresses.find? (·.addressType = addressTypeLegacy) with
    | some address => encodeEntityAddr address ⟨0⟩ encoder
    | none => encodeEntityAddr ⟨addressTypeNone, 0, afUnspec, List.replicate 26 0⟩ ⟨0⟩ encoder
  else do
    let encoder := encoder.u8 2
    let count ← okOr (OfWire.ofWire .limitExceeded) (tryFrom u32Max addresses.length)
    let encoder := encoder.u32 count
    addresses.foldlM (fun encoder address => encodeEntityAddr address features encoder) encoder

/-! ## The versioned record is read back -/

/-- The values are within the widths of their fields. -/
structure EntityAddr.Typed (address : EntityAddr) : Prop where
  addressType : address.addressType < 2 ^ 32
  nonce : address.nonce < 2 ^ 32

/-- A family that is known, with a socket address of its size. -/
inductive EntityAddr.Known (address : EntityAddr) : Prop where
  | inet (family : address.family = afInet) (length : address.socketData.length = 14)
  | other (family : address.family = afUnspec ∨ address.family = afInet6)
      (length : address.socketData.length = 26)

namespace EntityAddr.Known

variable {address : EntityAddr}

theorem of_size (h : (socketDataSize address.family : Except ε Nat) = .ok address.socketData.length) :
    EntityAddr.Known address := by
  unfold socketDataSize at h
  split at h
  next family => exact .inet family (Except.ok.inj h).symm
  split at h
  next family => exact .other family (Except.ok.inj h).symm
  · cases h

theorem length_le (known : EntityAddr.Known address) : address.socketData.length ≤ 26 := by
  cases known with
  | inet _ length => omega
  | other _ length => omega

theorem family_lt (known : EntityAddr.Known address) : address.family < 2 ^ 16 := by
  cases known with
  | inet family _ =>
    rw [family]
    decide
  | other family _ =>
    rcases family with family | family <;>
    · rw [family]
      decide

theorem takes_length (known : EntityAddr.Known address) (maxBytes : Nat) :
    Takes maxBytes (socketDataLength address.family : Reader ε Nat) []
      address.socketData.length := by
  unfold socketDataLength
  cases known with
  | inet family length =>
    rw [if_pos family, length]
    exact .pure 14
  | other family length =>
    have others : address.family ≠ afInet := by
      rcases family with family | family <;>
      · rw [family]
        decide
    rw [if_neg others, if_pos family, length]
    exact .pure 26

end EntityAddr.Known

/-- The body of the versioned record. -/
def addrBody (address : EntityAddr) : List UInt8 :=
  leBytes 4 address.addressType ++ (leBytes 4 address.nonce ++
    (leBytes 4 (2 + address.socketData.length) ++ (leBytes 2 address.family ++ address.socketData)))

def addrBytes (address : EntityAddr) : List UInt8 :=
  leBytes 1 1 ++ (leBytes 1 1 ++ leBytes 1 1 ++ leBytes 4 (addrBody address).length
    ++ addrBody address)

theorem length_addrBody (address : EntityAddr) :
    (addrBody address).length = 14 + address.socketData.length := by
  simp only [addrBody, List.length_append, length_leBytes]
  omega

variable {address : EntityAddr}

theorem takes_decodeAddrBody (typed : EntityAddr.Typed address) (known : EntityAddr.Known address)
    (maxBytes : Nat) :
    Takes maxBytes (decodeAddrBody : Reader ε EntityAddr) (addrBody address) address := by
  have short := known.length_le
  refine (Takes.u32 typed.addressType).bind ((Takes.u32 typed.nonce).bind ?_)
  refine (Takes.u32 (by omega)).bind ?_
  rw [if_neg (by omega)]
  refine (Takes.rejectIf (by omega)).skip ((Takes.u16 known.family_lt).bind ?_)
  refine (known.takes_length maxBytes).skip ((Takes.rejectIf (by omega)).skip ?_)
  refine (Takes.raw address.socketData (by omega)).andThen (Takes.finish.skip ?_)
  rw [Nat.sub_self, List.replicate_zero, List.append_nil]
  exact .pure address

variable {maxBytes : Nat}

theorem takes_decodeEntityAddr (typed : EntityAddr.Typed address)
    (known : EntityAddr.Known address) (room : (addrBody address).length ≤ maxBytes) :
    Takes maxBytes (decodeEntityAddr : Reader ε EntityAddr) (addrBytes address) address := by
  have fits : (addrBody address).length ≤ u32Max := by
    have short := known.length_le
    rw [length_addrBody, u32Max]
    omega
  refine (Takes.u8 (by decide)).bind (Takes.finish.skip ?_)
  rw [decodeAfterMarker, if_neg (by decide), if_pos rfl]
  refine (Takes.versioned (addrBody address) (by decide) (by decide) (by decide) fits room).andThen ?_
  exact (takes_decodeAddrBody typed known maxBytes).inside.skip (Takes.finish.skip (.pure address))

section Sent

variable {features : GlobalFeatures} (modern : features.contains .messageAddressV2 = true)
  (nautilus : features.contains .serverNautilusMask = true)

include modern nautilus

theorem encodeEntityAddr_eq_ok {e e' : Encoder}
    (h : encodeEntityAddr address features e = (.ok e' : Except ε Encoder)) :
    EntityAddr.Known address ∧ Encoder.Adds e e' (addrBytes address) := by
  unfold encodeEntityAddr at h
  obtain ⟨length, size, h⟩ := bind_eq_ok.mp h
  rw [modern, nautilus] at h
  split at h
  · cases h
  rename_i same
  have kept : ¬ (address.addressType = addressTypeAny ∧ (!true) = true) := fun any => nomatch any.2
  dsimp only at h
  rw [← not_not.mp same] at size
  rw [if_neg kept] at h
  cases h
  have body : Encoder.Appends (encodeAddrBody address address.addressType) (addrBody address) := by
    have parts := ((((Encoder.Appends.nothing.uint 4 address.addressType).uint 4
      address.nonce).uint 4 (2 + address.socketData.length)).uint 2 address.family).raw
        address.socketData
    rw [addrBody, ← List.append_assoc, ← List.append_assoc, ← List.append_assoc]
    exact parts
  refine ⟨.of_size size, ?_⟩
  exact (Encoder.Adds.uint e 1 1).trans (Encoder.Adds.versioned _ 1 1 body)

theorem sent_entityAddrVec {addresses : List EntityAddr} {e e' : Encoder} {maxAddresses : Nat}
    (typed : ∀ address ∈ addresses, EntityAddr.Typed address)
    (few : addresses.length ≤ maxAddresses)
    (h : encodeEntityAddrVec addresses features e = (.ok e' : Except ε Encoder)) :
    Sent maxBytes e e' (decodeEntityAddrVec maxAddresses : Reader ε (List EntityAddr))
      addresses := by
  rw [encodeEntityAddrVec, modern] at h
  obtain ⟨count, counted, h⟩ := bind_eq_ok.mp h
  obtain ⟨rfl, fits⟩ := tryFrom_eq_some (okOr_eq_ok.mp counted)
  have each {e address e'} (mem : address ∈ addresses)
      (written : encodeEntityAddr address features e = (.ok e' : Except ε Encoder)) :=
    encodeEntityAddr_eq_ok modern nautilus written
  have all := Encoder.Adds.foldlM (fun _ _ _ mem written => (each mem written).2) h
  have known : ∀ address ∈ addresses, EntityAddr.Known address := by
    have start : ∀ address ∈ ([] : List EntityAddr), EntityAddr.Known address := nofun
    have collected := foldlM_collects (fun done _ => ∀ address ∈ done, EntityAddr.Known address)
      (fun address => [address]) (fun done _ address _ mem before written => ?_) start h
    · rwa [List.nil_append, List.flatMap_singleton'] at collected
    · rw [List.forall_mem_append, List.forall_mem_singleton]
      exact ⟨before, (each mem written).1⟩
  have adds := ((Encoder.Adds.uint e 1 2).trans (.uint _ 4 addresses.length)).trans all
  rw [List.append_assoc] at adds
  refine .of adds fun _ short => ?_
  have parts : List.Forall₂ (Takes maxBytes (decodeEntityAddr : Reader ε EntityAddr))
      (addresses.map addrBytes) addresses := by
    refine List.forall₂_map_left_iff.mpr (List.forall₂_same.mpr fun address mem => ?_)
    refine takes_decodeEntityAddr (typed address mem) (known address mem) ?_
    have part := (List.sublist_flatten_of_mem (List.mem_map_of_mem (f := addrBytes) mem)).length_le
    rw [← List.flatMap_def] at part
    rw [List.length_append, List.length_append] at short
    rw [addrBytes, List.length_append, List.length_append] at part
    omega
  have small : addresses.length < 2 ^ 32 := Nat.lt_succ_of_le fits
  refine (Takes.u8 (by decide)).bind (Takes.finish.skip ?_)
  rw [if_neg (by decide)]
  refine (Takes.rejectIf (by decide)).skip ((Takes.u32 small).bind ?_)
  refine (Takes.rejectIf (Nat.not_lt.mpr few)).skip (.remaining fun left enough => ?_)
  refine (Takes.rejectIf (Nat.not_lt.mpr (le_trans ?_ enough))).skip ?_
  · -- an address takes at least its marker
    rw [List.length_flatMap, ← List.length_map (fun address => (addrBytes address).length)]
    refine List.length_le_sum_of_one_le _ (List.forall_mem_map.mpr fun address _ => ?_)
    rw [addrBytes, List.length_append, length_leBytes]
    exact Nat.le_add_right 1 _
  · rw [List.flatMap_def]
    exact (Takes.times parts).andThen (Takes.finish.skip (.pure addresses))

/-- A list of addresses that was written for a peer with the features is read back as it was. -/
theorem addresses_read_back {addresses : List EntityAddr} {maxAddresses limit : Nat}
    {e : Encoder} {bytes : List UInt8} (typed : ∀ address ∈ addresses, EntityAddr.Typed address)
    (few : addresses.length ≤ maxAddresses)
    (written : encodeEntityAddrVec addresses features (.new limit) = (.ok e : Except ε Encoder))
    (finished : e.finish = .ok bytes) :
    bytes.length ≤ limit ∧ (decodeEntityAddrVec maxAddresses : Reader ε (List EntityAddr))
      (.new bytes limit) = .ok (addresses, .between bytes [] limit) :=
  (sent_entityAddrVec modern nautilus typed few written).run finished

end Sent

/-- An IPv4 and an IPv6 socket. -/
theorem addresses_read_back_two :
    let addresses : List EntityAddr := [⟨addressTypeV2, 7, afInet, List.replicate 14 1⟩,
      ⟨addressTypeV2, 0, afInet6, List.replicate 26 2⟩]
    ∃ e bytes, encodeEntityAddrVec addresses ⟨-1⟩ (.new 128) = (.ok e : Except WireError Encoder)
      ∧ e.finish = .ok bytes ∧ bytes.length ≤ 128
      ∧ (decodeEntityAddrVec 2 : Reader WireError (List EntityAddr)) (.new bytes 128)
        = .ok (addresses, .between bytes [] 128) := by
  have modern : GlobalFeatures.contains ⟨-1⟩ .messageAddressV2 = true := rfl
  refine ⟨_, _, rfl, rfl, addresses_read_back modern rfl ?_ (by decide) rfl rfl⟩
  simp only [List.forall_mem_cons]
  exact ⟨⟨by decide, by decide⟩, ⟨by decide, by decide⟩, List.forall_mem_nil _⟩

/-- The body of the versioned encoding of an IPv6 socket. -/
def modernBody (data : List UInt8) : List UInt8 :=
  leBytes 4 addressTypeV2 ++ (leBytes 4 0 ++ (leBytes 4 28 ++ (leBytes 2 afInet6 ++ (data ++ []))))

def modernAddr (data : List UInt8) : List UInt8 :=
  leBytes 1 1 ++ (leBytes 1 1 ++ (leBytes 1 1 ++ (leBytes 4 (modernBody data).length ++
    (modernBody data ++ []))))

variable {data : List UInt8}

theorem length_modernBody (size : data.length = 26) : (modernBody data).length = 40 := by
  simp [modernBody, length_leBytes, size]

theorem modernAddr_eq (size : data.length = 26) :
    modernAddr data = addrBytes ⟨addressTypeV2, 0, afInet6, data⟩ := by
  have body : modernBody data = addrBody ⟨addressTypeV2, 0, afInet6, data⟩ := by
    rw [modernBody, addrBody, List.append_nil, size]
  simp only [modernAddr, addrBytes, body, List.append_assoc, List.append_nil]

theorem decodeEntityAddr_modernAddr (size : data.length = 26) (room : 40 ≤ maxBytes) :
    ∃ after, (decodeEntityAddr : Reader ε EntityAddr) (.new (modernAddr data) maxBytes)
      = .ok (⟨addressTypeV2, 0, afInet6, data⟩, after) := by
  have taken : Takes maxBytes (decodeEntityAddr : Reader ε EntityAddr)
      (addrBytes ⟨addressTypeV2, 0, afInet6, data⟩) ⟨addressTypeV2, 0, afInet6, data⟩ := by
    have small : addressTypeV2 < 2 ^ 32 := by decide
    refine takes_decodeEntityAddr ⟨small, Nat.two_pow_pos 32⟩ (.other (.inr rfl) size) ?_
    rw [length_addrBody, size]
    exact room
  rw [modernAddr_eq size]
  exact ⟨_, taken.all.run⟩

end RadosRs.Protocol
