import Mathlib.Data.List.Nodup
import RadosRs.Protocol.Address
import RadosRs.Wire.Writing

/-!
# Where the monitors are

The configuration names monitors by seeds.  A seed is an address, a host or a
domain with service records, and a resolver finds the addresses of hosts and
domains.  `resolveSeeds` goes through the seeds in order and collects endpoints.

An endpoint can come from an address in the seed, from a host in the seed and from
a service record.  `offers` says which addresses a seed brings, and the result has
each of them once, in the order in which they appear first.  The three ways do not
check the same things: a port of zero is refused in a seed and not in a service
record, and an address that stands for no host in particular is left out of an
answer and not if it is in the seed itself, or if it is written as an IPv4 address
within an IPv6 one.  `resolved_endpoints` has the condition under which all
endpoints can be connected to.
-/

namespace RadosRs.Mon

open Bytes Fallible IpText Protocol Text Wire

/-- The cause of a lookup error is left out. -/
inductive SeedError where
  | limitExceeded
  | malformed (detail : String)
  | unsupportedVersion
  | lookup (operation : String) (name : List Char)
  deriving DecidableEq, Repr

def mapWireError : WireError → SeedError
  | .limitExceeded => .limitExceeded
  | _ => .malformed "invalid monitor IP"

instance : OfWire SeedError := ⟨mapWireError⟩

structure Endpoint where
  address : SocketAddr
  entityAddress : Msgr.EntityAddr
  priority : Nat
  weight : Nat
  deriving DecidableEq, Repr

structure SrvRecord where
  target : List Char
  port : Nat
  priority : Nat
  weight : Nat
  deriving DecidableEq, Repr

/-- The answers of a resolver.  It may answer a question differently each time, so an answer
also depends on which seed, and which record of that seed, it is asked for. -/
structure Resolver where
  lookupIp : (seed record : Nat) → (host : List Char) → (maximum : Nat) →
    Run SeedError (List IpAddr)
  lookupSrv : (seed : Nat) → (service protocol : String) → (name : List Char) →
    (maximum : Nat) → Run SeedError (List SrvRecord)

structure SeedLimits where
  maxSeeds : Nat
  maxAddresses : Nat
  deriving DecidableEq, Repr

def defaultMonitorV2Port : Nat := 3300

/-! ## One seed -/

def portOf (text : List Char) : Run SeedError Nat :=
  match (parseUnsigned 65535 text).filter (· ≠ 0) with
  | some port => .ok port
  | none => fail (.malformed "invalid monitor port")

/-- The seed without its nonce. -/
def withoutNonce (seed : List Char) : Run SeedError (List Char) :=
  match rsplitOnce '/' seed with
  | none => .ok seed
  | some (endpoint, nonce) =>
    if nonce.isEmpty || (parseUnsigned 4294967295 nonce).isNone then
      fail (.malformed "invalid monitor nonce")
    else .ok endpoint

/-- The host and the port of a seed that has neither a prefix nor a nonce. -/
def parseEndpoint (seed : List Char) : Run SeedError (List Char × Nat) :=
  match parseIp seed with
  | some address => .ok (address.text, defaultMonitorV2Port)
  | none =>
    if seed.head? = some '[' then
      match parseSocketAddr seed with
      | none => fail (.malformed "invalid monitor seed")
      | some endpoint =>
        if endpoint.port = 0 then fail (.malformed "invalid monitor port")
        else .ok (endpoint.ip.text, endpoint.port)
    else
      match rsplitOnce ':' seed with
      | some (host, port) =>
        if host.isEmpty || host.contains ':' then fail (.malformed "invalid monitor seed")
        else do
          let port ← portOf port
          return (host, port)
      | none =>
        if seed.isEmpty then fail (.malformed "invalid monitor seed")
        else .ok (seed, defaultMonitorV2Port)

def parseSeed (seed : List Char) : Run SeedError (List Char × Nat) :=
  let seed := trim seed
  match afterLead "v2:".toList seed with
  | some value => withoutNonce value >>= parseEndpoint
  | none =>
    if "v1:".toList.isPrefixOf seed then fail .unsupportedVersion
    else withoutNonce seed >>= parseEndpoint

/-! ## Endpoints -/

def normalizeIp : IpAddr → IpAddr
  | .v6 bits =>
    match IpAddr.toIpv4Mapped bits with
    | some bits => .v4 bits
    | none => .v6 bits
  | .v4 bits => .v4 bits

def ofWireResult {α : Type} : Except WireError α → Run SeedError α
  | .ok a => .ok a
  | .error error => fail (mapWireError error)

def entityAddress (endpoint : SocketAddr) : Run SeedError Msgr.EntityAddr :=
  match endpoint.ip with
  | .v4 _ => ofWireResult (ipv4V2 endpoint)
  | .v6 bits =>
    if endpoint.scopeId ≠ 0 then fail (.malformed "zoned monitor IPv6 is unsupported")
    else do
      let socketData := (leBytes 2 endpoint.port).reverse ++ List.replicate 4 0
        ++ (leBytes 16 bits.toNat).reverse ++ List.replicate 4 0
      let encoder := ((Encoder.new 64).u8 1).versioned 1 1 fun payload =>
        ((((payload.u32 2).u32 0).u32 28).u16 10).raw socketData
      let bytes ← ofWireResult encoder.finish
      let (address, _) ← decodeEntityAddr (Decoder.new bytes bytes.length)
      return address

/-- What the walk over the seeds has found so far. -/
structure Found where
  endpoints : List Endpoint := []
  seen : List SocketAddr := []
  lastLookupError : Option SeedError := none
  deriving DecidableEq, Repr

def appendEndpoint (address : SocketAddr) (metadata : Nat × Nat) (maximum : Nat) (found : Found) :
    Run SeedError Found :=
  if found.seen.contains address then .ok found
  else if found.endpoints.length ≥ maximum then fail .limitExceeded
  else do
    let entityAddress ← entityAddress address
    return { found with
      endpoints := found.endpoints ++ [⟨address, entityAddress, metadata.1, metadata.2⟩]
      seen := found.seen ++ [address] }

def resolveHost (answer : Run SeedError (List IpAddr)) (port : Nat) (metadata : Nat × Nat)
    (maximum : Nat) (found : Found) : Run SeedError Found := do
  let addresses ← answer
  if addresses.length > maximum then fail .limitExceeded
  else
    addresses.foldlM
      (fun found address =>
        if address.isUnspecified then .ok found
        else appendEndpoint ⟨normalizeIp address, port, 0⟩ metadata maximum found)
      found

/-- A lookup that fails does not end the walk.  It comes before the first endpoint is added, so
that nothing is left behind by it. -/
def keepLookupError (found : Found) : Run SeedError Found → Run SeedError Found
  | .error (.error (.lookup operation name)) =>
    .ok { found with lastLookupError := some (.lookup operation name) }
  | result => result

/-- A name without the dot at its end. -/
def relative (name : List Char) : List Char := (beforeLast '.' name).getD name

def resolveRecords (resolver : Resolver) (limits : SeedLimits) (index : Nat)
    (records : List SrvRecord) (found : Found) : Run SeedError Found :=
  records.zipIdx.foldlM
    (fun found (record, j) =>
      let answer := resolver.lookupIp index j (relative record.target) limits.maxAddresses
      keepLookupError found
        (resolveHost answer record.port (record.priority, record.weight) limits.maxAddresses found))
    found

def resolveSeed (resolver : Resolver) (limits : SeedLimits) (index : Nat) (seed : List Char)
    (found : Found) : Run SeedError Found :=
  let seed := trim seed
  if "v1:".toList.isPrefixOf seed then .ok found
  else
    match afterLead "dns-srv:".toList seed with
    | some name =>
      if (relative name).isEmpty then fail (.malformed "empty monitor SRV name")
      else
        match resolver.lookupSrv index "ceph-mon" "tcp" (relative name) limits.maxAddresses with
        | .ok records =>
          if records.length > limits.maxAddresses then fail .limitExceeded
          else resolveRecords resolver limits index records found
        | .error error => keepLookupError found (.error error)
    | none => do
        let (host, port) ← parseSeed seed
        match parseIp host with
        | some address =>
          appendEndpoint ⟨normalizeIp address, port, 0⟩ (0, 0) limits.maxAddresses found
        | none =>
          let answer := resolver.lookupIp index 0 host limits.maxAddresses
          keepLookupError found (resolveHost answer port (0, 0) limits.maxAddresses found)

/-- `system` is the resolver of the system, if there is one; it is used where none is given. -/
def resolveSeeds (seeds : List (List Char)) (resolver : Option Resolver) (limits : SeedLimits)
    (system : Run SeedError Resolver) : Run SeedError (List Endpoint) :=
  if seeds.isEmpty || limits.maxSeeds = 0 || limits.maxAddresses = 0
      || seeds.length > limits.maxSeeds then
    fail .limitExceeded
  else if seeds.all fun seed => "v1:".toList.isPrefixOf (trim seed) then fail .unsupportedVersion
  else do
    let resolver ← resolver.elim system .ok
    let found ← seeds.zipIdx.foldlM
      (fun found (seed, i) => resolveSeed resolver limits i seed found) {}
    if found.endpoints.isEmpty then
      fail (found.lastLookupError.getD (.malformed "monitor seeds resolved to no addresses"))
    else return found.endpoints

/-! ## Errors -/

/-- The address of an endpoint can always be encoded. -/
theorem entityAddress_eq_ok (ip : IpAddr) (port : Nat) :
    ∃ address, entityAddress ⟨ip, port, 0⟩ = .ok address := by
  cases ip with
  | v4 bits => exact ⟨_, rfl⟩
  | v6 bits =>
    let data := (leBytes 2 port).reverse ++ List.replicate 4 0
      ++ (leBytes 16 bits.toNat).reverse ++ List.replicate 4 0
    have size : data.length = 26 := by simp [data, length_leBytes]
    have body := ((((Encoder.Writes.ofUint 64 4 2).comp (.ofUint 64 4 0)).comp
      (.ofUint 64 4 28)).comp (.ofUint 64 2 10)).comp (.ofRaw 64 data)
    have whole := (Encoder.Writes.ofUint 64 1 1).comp (.ofVersioned 1 1 body)
    have bytes : modernAddr data = leBytes 1 1 ++ (leBytes 1 1 ++ leBytes 1 1
        ++ leBytes 4 (leBytes 4 2 ++ leBytes 4 0 ++ leBytes 4 28 ++ leBytes 2 10 ++ data).length
        ++ (leBytes 4 2 ++ leBytes 4 0 ++ leBytes 4 28 ++ leBytes 2 10 ++ data)) := by
      simp only [modernAddr, modernBody, List.append_assoc, List.append_nil]
      rfl
    have length : (modernAddr data).length = 47 := by
      simp [modernAddr, length_leBytes, length_modernBody size]
    rw [← bytes] at whole
    have written := whole.finish_eq_ok.mpr
      ⟨rfl, by simp [size, Fixed.u32Max, length_leBytes], by rw [length]; decide⟩
    obtain ⟨after, read⟩ := decodeEntityAddr_modernAddr (ε := SeedError) size
      (show 40 ≤ (modernAddr data).length by rw [length]; decide)
    exact ⟨⟨addressTypeV2, 0, afInet6, data⟩, bind_eq_ok.mpr ⟨modernAddr data,
      congrArg ofWireResult written, bind_eq_ok.mpr ⟨_, read, rfl⟩⟩⟩

variable {port : Nat} {metadata : Nat × Nat} {ip : IpAddr} {error : Fault SeedError}

theorem appendEndpoint_error {maximum : Nat} {found : Found}
    (h : appendEndpoint ⟨ip, port, 0⟩ metadata maximum found = .error error) :
    error = .error .limitExceeded := by
  obtain ⟨address, encoded⟩ := entityAddress_eq_ok ip port
  unfold appendEndpoint at h
  rw [encoded] at h
  split at h
  · cases h
  split at h
  · cases h
    rfl
  · cases h

/-- Where the resolver has an answer, the lookup does not fail. -/
theorem resolveHost_error {addresses : List IpAddr} {maximum : Nat} {found : Found}
    (h : resolveHost (.ok addresses) port metadata maximum found = .error error) :
    error = .error .limitExceeded := by
  change (if addresses.length > maximum then _ else _) = _ at h
  split at h
  · cases h
    rfl
  refine foldlM_error (· = .error .limitExceeded) (fun s address error step => ?_) h
  split at step
  · cases step
  · exact appendEndpoint_error step

/-! ## What a seed brings -/

/-- The addresses of an answer, without the ones that stand for no host in particular. -/
def hostOffers (answer : Run SeedError (List IpAddr)) (port : Nat) : List SocketAddr :=
  match answer with
  | .error _ => []
  | .ok addresses =>
    (addresses.filter (!·.isUnspecified)).map fun address => ⟨normalizeIp address, port, 0⟩

def recordOffers (resolver : Resolver) (limits : SeedLimits) (index : Nat) :
    SrvRecord × Nat → List SocketAddr
  | (record, j) =>
    hostOffers (resolver.lookupIp index j (relative record.target) limits.maxAddresses)
      record.port

/-- The addresses that a seed brings, in the order in which they are found. -/
def offers (resolver : Resolver) (limits : SeedLimits) (index : Nat) (seed : List Char) :
    List SocketAddr :=
  let seed := trim seed
  if "v1:".toList.isPrefixOf seed then []
  else
    match afterLead "dns-srv:".toList seed with
    | some name =>
      match resolver.lookupSrv index "ceph-mon" "tcp" (relative name) limits.maxAddresses with
      | .ok records => records.zipIdx.flatMap (recordOffers resolver limits index)
      | .error _ => []
    | none =>
      match parseSeed seed with
      | .error _ => []
      | .ok (host, port) =>
        match parseIp host with
        | some address => [⟨normalizeIp address, port, 0⟩]
        | none => hostOffers (resolver.lookupIp index 0 host limits.maxAddresses) port

/-- The endpoints are the addresses offered so far, each of them once. -/
structure Collected (maximum : Nat) (offered : List SocketAddr) (found : Found) : Prop where
  seen : found.seen = found.endpoints.map Endpoint.address
  addresses : found.endpoints.map Endpoint.address = offered.eraseDups
  distinct : (found.endpoints.map Endpoint.address).Nodup
  bound : found.endpoints.length ≤ maximum

namespace Collected

variable {maximum : Nat} {offered : List SocketAddr} {found found' : Found}

theorem start (maximum : Nat) : Collected maximum [] {} :=
  ⟨rfl, rfl, .nil, Nat.zero_le _⟩

theorem appendEndpoint (h : Collected maximum offered found) {address : SocketAddr}
    (ok : appendEndpoint address metadata maximum found = .ok found') :
    Collected maximum (offered ++ [address]) found' := by
  have known : address ∈ found.endpoints.map Endpoint.address ↔ address ∈ offered := by
    rw [h.addresses, List.mem_eraseDups]
  unfold Mon.appendEndpoint at ok
  rw [h.seen] at ok
  split at ok
  next old =>
    cases ok
    rw [List.contains_iff_mem, known] at old
    refine ⟨h.seen, ?_, h.distinct, h.bound⟩
    rw [h.addresses, List.eraseDups_append]
    simp [List.removeAll, old]
  next new =>
    rw [List.contains_iff_mem] at new
    split at ok
    · cases ok
    rename_i room
    obtain ⟨entity, -, ok⟩ := bind_eq_ok.mp ok
    cases ok
    refine ⟨?_, ?_, ?_, ?_⟩
    · simp
    · rw [List.map_append, h.addresses, List.eraseDups_append]
      simp [List.removeAll, mt known.mpr new, List.eraseDups_cons]
    · rw [List.map_append]
      exact List.nodup_append_comm.mp (List.nodup_cons.mpr ⟨new, h.distinct⟩)
    · rw [List.length_append]
      exact Nat.lt_of_not_ge room

theorem hostOffers_ok (addresses : List IpAddr) (port : Nat) :
    hostOffers (.ok addresses) port = addresses.flatMap fun address =>
      if address.isUnspecified then [] else [⟨normalizeIp address, port, 0⟩] := by
  induction addresses with
  | nil => rfl
  | cons address addresses ih =>
    rw [List.flatMap_cons, ← ih]
    show List.map _ (List.filter _ (address :: addresses)) = _
    rw [List.filter_cons]
    cases address.isUnspecified <;> rfl

variable {answer : Run SeedError (List IpAddr)}

theorem resolveHost (h : Collected maximum offered found)
    (ok : resolveHost answer port metadata maximum found = .ok found') :
    Collected maximum (offered ++ hostOffers answer port) found' := by
  unfold Mon.resolveHost at ok
  obtain ⟨addresses, answered, ok⟩ := bind_eq_ok.mp ok
  rw [answered, hostOffers_ok]
  split at ok
  · cases ok
  refine foldlM_collects (Collected maximum) _ (fun done s address s' _ inv step => ?_) h ok
  split at step
  next skipped =>
    cases step
    rwa [if_pos skipped, List.append_nil]
  rename_i added
  rw [if_neg added]
  exact inv.appendEndpoint step

/-- A lookup that fails brings nothing, and nothing is lost. -/
theorem lookupFailed (h : Collected maximum offered found) (error : Option SeedError) :
    Collected maximum offered { found with lastLookupError := error } :=
  ⟨h.seen, h.addresses, h.distinct, h.bound⟩

theorem keepLookupError (h : Collected maximum offered found)
    (ok : keepLookupError found (Mon.resolveHost answer port metadata maximum found)
      = .ok found') : Collected maximum (offered ++ hostOffers answer port) found' := by
  unfold Mon.keepLookupError at ok
  split at ok
  next operation name failed =>
    cases ok
    cases answer with
    | error error =>
      rw [hostOffers, List.append_nil]
      exact h.lookupFailed _
    | ok addresses => cases resolveHost_error failed
  · exact h.resolveHost ok

variable {resolver : Resolver}

theorem resolveRecords (h : Collected maximum offered found) {limits : SeedLimits}
    (same : limits.maxAddresses = maximum) {index : Nat} {records : List SrvRecord}
    (ok : resolveRecords resolver limits index records found = .ok found') :
    Collected maximum (offered ++ records.zipIdx.flatMap (recordOffers resolver limits index))
      found' := by
  subst same
  exact foldlM_collects (Collected limits.maxAddresses) _
    (fun _ _ _ _ _ inv step => inv.keepLookupError step) h ok

theorem resolveSeed {limits : SeedLimits} {index : Nat} {seed : List Char}
    (h : Collected limits.maxAddresses offered found)
    (ok : resolveSeed resolver limits index seed found = .ok found') :
    Collected limits.maxAddresses (offered ++ offers resolver limits index seed) found' := by
  unfold Mon.resolveSeed at ok
  unfold offers
  dsimp only at ok ⊢
  split at ok
  next old =>
    cases ok
    rwa [if_pos old, List.append_nil]
  rename_i new
  rw [if_neg new]
  cases domain : afterLead "dns-srv:".toList (trim seed) with
  | some name =>
    rw [domain] at ok
    dsimp only at ok ⊢
    split at ok
    · cases ok
    cases answer : resolver.lookupSrv index "ceph-mon" "tcp" (relative name)
        limits.maxAddresses with
    | ok records =>
      rw [answer] at ok
      dsimp only at ok ⊢
      split at ok
      · cases ok
      · exact h.resolveRecords rfl ok
    | error error =>
      rw [answer] at ok
      dsimp only at ok ⊢
      rw [List.append_nil]
      unfold Mon.keepLookupError at ok
      split at ok
      · cases ok
        exact h.lookupFailed _
      · cases ok
  | none =>
    rw [domain] at ok
    dsimp only at ok ⊢
    obtain ⟨⟨host, port⟩, parsed, ok⟩ := bind_eq_ok.mp ok
    rw [parsed]
    dsimp only at ok ⊢
    cases literal : parseIp host with
    | some address =>
      rw [literal] at ok
      exact h.appendEndpoint ok
    | none =>
      rw [literal] at ok
      exact h.keepLookupError ok

end Collected

/-- The addresses that all seeds bring, in order. -/
def allOffers (resolver : Resolver) (limits : SeedLimits) (seeds : List (List Char)) :
    List SocketAddr :=
  seeds.zipIdx.flatMap fun (seed, i) => offers resolver limits i seed

variable {limits : SeedLimits}

theorem resolveSeeds_eq_ok {seeds : List (List Char)} {resolver : Option Resolver}
    {system : Run SeedError Resolver} {endpoints : List Endpoint}
    (h : resolveSeeds seeds resolver limits system = .ok endpoints) :
    ∃ used, resolver.elim system .ok = .ok used ∧ endpoints ≠ []
      ∧ endpoints.length ≤ limits.maxAddresses
      ∧ (endpoints.map Endpoint.address).Nodup
      ∧ endpoints.map Endpoint.address = (allOffers used limits seeds).eraseDups := by
  unfold resolveSeeds at h
  split at h
  · cases h
  split at h
  · cases h
  obtain ⟨used, chosen, h⟩ := bind_eq_ok.mp h
  obtain ⟨found, walked, h⟩ := bind_eq_ok.mp h
  split at h
  · cases h
  rename_i nonempty
  cases h
  have collected := foldlM_collects (Collected limits.maxAddresses)
    (fun (seed, i) => offers used limits i seed) (fun _ _ _ _ _ inv step => inv.resolveSeed step)
    (Collected.start limits.maxAddresses) walked
  rw [List.nil_append] at collected
  refine ⟨used, chosen, ?_, collected.bound, collected.distinct, collected.addresses⟩
  intro empty
  rw [empty] at nonempty
  exact nonempty rfl

/-! ## Endpoints that can be connected to -/

/-- The port is not zero, and the address stands for one host and is an IPv4 address where it
could be written as one. -/
structure Connectable (address : SocketAddr) : Prop where
  port : address.port ≠ 0
  specified : address.ip.isUnspecified = false
  unmapped : ∀ bits, address.ip = .v6 bits → IpAddr.toIpv4Mapped bits = none

/-- The address `::ffff:0.0.0.0`. -/
def mappedUnspecified : IpAddr := .v6 0xffff00000000

variable {bits : BitVec 128}

theorem normalizeIp_unmapped (h : normalizeIp ip = .v6 bits) : IpAddr.toIpv4Mapped bits = none := by
  unfold normalizeIp at h
  split at h
  next inner =>
    split at h
    · cases h
    rename_i unmapped
    cases h
    exact unmapped
  · cases h

theorem toIpv4Mapped_eq_zero : IpAddr.toIpv4Mapped bits = some 0 ↔ bits = 0xffff00000000 := by
  unfold IpAddr.toIpv4Mapped
  constructor
  · intro h
    split at h
    next high =>
      have low := Option.some.inj h
      bv_omega
    · cases h
  · rintro rfl
    rfl

/-- Only one address becomes unspecified when it is normalized. -/
theorem isUnspecified_normalizeIp (specified : ip.isUnspecified = false) :
    (normalizeIp ip).isUnspecified = true ↔ ip = mappedUnspecified := by
  cases ip with
  | v4 bits =>
    refine iff_of_false ?_ nofun
    rw [normalizeIp, specified]
    exact Bool.false_ne_true
  | v6 bits =>
    rw [mappedUnspecified, IpAddr.v6.injEq, ← toIpv4Mapped_eq_zero, normalizeIp]
    cases mapped : IpAddr.toIpv4Mapped bits with
    | none =>
      refine iff_of_false ?_ nofun
      rw [specified]
      exact Bool.false_ne_true
    | some inner => simp [IpAddr.isUnspecified]

variable {seed : List Char}

theorem parseEndpoint_port {host : List Char} (h : parseEndpoint seed = .ok (host, port)) :
    port ≠ 0 := by
  unfold parseEndpoint at h
  split at h
  · cases h
    decide
  split at h
  · split at h
    · cases h
    split at h
    · cases h
    rename_i nonzero
    cases h
    exact nonzero
  split at h
  · split at h
    · cases h
    obtain ⟨value, read, h⟩ := bind_eq_ok.mp h
    cases h
    unfold portOf at read
    split at read
    next found =>
      cases read
      simpa using (Option.filter_eq_some_iff.mp found).2
    · cases read
  · split at h
    · cases h
    · cases h
      decide

theorem parseSeed_port {host : List Char} (h : parseSeed seed = .ok (host, port)) : port ≠ 0 := by
  unfold parseSeed at h
  dsimp only at h
  split at h
  · obtain ⟨_, _, h⟩ := bind_eq_ok.mp h
    exact parseEndpoint_port h
  split at h
  · cases h
  · obtain ⟨_, _, h⟩ := bind_eq_ok.mp h
    exact parseEndpoint_port h

/-- An answer brings no endpoint that cannot be connected to. -/
def cleanAnswer (answer : Run SeedError (List IpAddr)) (port : Nat) : Bool :=
  match answer with
  | .error _ => true
  | .ok addresses =>
    !addresses.contains mappedUnspecified && (port != 0 || addresses.all (·.isUnspecified))

/-- An address in the seed is specified; an answer has no `::ffff:0.0.0.0`; and a service record
with the port zero is for a host without an address. -/
def cleanSeed (resolver : Resolver) (limits : SeedLimits) (index : Nat) (seed : List Char) : Bool :=
  let seed := trim seed
  "v1:".toList.isPrefixOf seed ||
    match afterLead "dns-srv:".toList seed with
    | some name =>
      match resolver.lookupSrv index "ceph-mon" "tcp" (relative name) limits.maxAddresses with
      | .error _ => true
      | .ok records => records.zipIdx.all fun (record, j) =>
        cleanAnswer
          (resolver.lookupIp index j (relative record.target) limits.maxAddresses) record.port
    | none =>
      match parseSeed seed with
      | .error _ => true
      | .ok (host, port) =>
        match parseIp host with
        | some address => !(normalizeIp address).isUnspecified
        | none => cleanAnswer (resolver.lookupIp index 0 host limits.maxAddresses) port

theorem connectable_normalizeIp :
    Connectable ⟨normalizeIp ip, port, 0⟩ ↔ port ≠ 0 ∧ (normalizeIp ip).isUnspecified = false :=
  ⟨fun h => ⟨h.port, h.specified⟩, fun h => ⟨h.1, h.2, fun _ => normalizeIp_unmapped⟩⟩

theorem connectable_hostOffers {answer : Run SeedError (List IpAddr)} :
    (∀ address ∈ hostOffers answer port, Connectable address) ↔ cleanAnswer answer port = true := by
  cases answer with
  | error error => simp [hostOffers, cleanAnswer]
  | ok addresses =>
    simp only [hostOffers, cleanAnswer, List.forall_mem_map, List.mem_filter,
      Bool.not_eq_true', Bool.and_eq_true, Bool.or_eq_true, bne_iff_ne, List.all_eq_true,
      connectable_normalizeIp]
    constructor
    · intro h
      constructor
      · rw [← Bool.not_eq_true, List.contains_iff_mem]
        intro mem
        cases (h mappedUnspecified ⟨mem, rfl⟩).2
      refine or_iff_not_imp_left.mpr fun zero ip mem => ?_
      by_contra specified
      exact zero (h ip ⟨mem, Bool.eq_false_iff.mpr specified⟩).1
    · rintro ⟨free, ports⟩ ip ⟨mem, specified⟩
      rw [← Bool.not_eq_true, List.contains_iff_mem] at free
      constructor
      · refine ports.resolve_right fun all => ?_
        rw [all ip mem] at specified
        cases specified
      rw [← Bool.not_eq_true, isUnspecified_normalizeIp specified]
      rintro rfl
      exact free mem

theorem connectable_offers {resolver : Resolver} {index : Nat} :
    (∀ address ∈ offers resolver limits index seed, Connectable address)
      ↔ cleanSeed resolver limits index seed = true := by
  unfold offers cleanSeed
  dsimp only
  split
  next old =>
    rw [old]
    exact iff_of_true nofun rfl
  rename_i new
  rw [Bool.or_eq_true, or_iff_right new]
  cases afterLead "dns-srv:".toList (trim seed) with
  | some name =>
    dsimp only
    cases resolver.lookupSrv index "ceph-mon" "tcp" (relative name) limits.maxAddresses with
    | error error => simp
    | ok records =>
      dsimp only
      rw [List.all_eq_true]
      simp only [List.mem_flatMap, ← connectable_hostOffers]
      exact ⟨fun h record mem address here => h address ⟨record, mem, here⟩,
        fun h address ⟨record, mem, here⟩ => h record mem address here⟩
  | none =>
    dsimp only
    cases parsed : parseSeed (trim seed) with
    | error error => simp
    | ok result =>
      obtain ⟨host, port⟩ := result
      dsimp only
      cases parseIp host with
      | some address => simp [connectable_normalizeIp, parseSeed_port parsed]
      | none => exact connectable_hostOffers

/-- What is expected of the endpoints. -/
structure Resolved (limits : SeedLimits) (offered : List SocketAddr) (endpoints : List Endpoint) :
    Prop where
  nonempty : endpoints ≠ []
  bound : endpoints.length ≤ limits.maxAddresses
  distinct : (endpoints.map Endpoint.address).Nodup
  order : endpoints.map Endpoint.address = offered.eraseDups
  connectable : ∀ endpoint ∈ endpoints, Connectable endpoint.address

/-- The endpoints are as expected if and only if no seed brings a port of zero or an address
that is unspecified. -/
theorem resolved_endpoints {seeds : List (List Char)} {resolver : Option Resolver}
    {limits : SeedLimits} {system : Run SeedError Resolver} {endpoints : List Endpoint}
    (h : resolveSeeds seeds resolver limits system = .ok endpoints) :
    ∃ used, resolver.elim system .ok = .ok used
      ∧ (Resolved limits (allOffers used limits seeds) endpoints
        ↔ ∀ entry ∈ seeds.zipIdx, cleanSeed used limits entry.2 entry.1 = true) := by
  obtain ⟨used, chosen, nonempty, bound, distinct, order⟩ := resolveSeeds_eq_ok h
  have all : (∀ endpoint ∈ endpoints, Connectable endpoint.address)
      ↔ ∀ entry ∈ seeds.zipIdx, cleanSeed used limits entry.2 entry.1 = true := by
    rw [← List.forall_mem_map (f := Endpoint.address) (P := Connectable), order]
    simp only [List.mem_eraseDups, allOffers, List.mem_flatMap, ← connectable_offers]
    exact ⟨fun h entry mem address here => h address ⟨entry, mem, here⟩,
      fun h address ⟨entry, mem, here⟩ => h entry mem address here⟩
  exact ⟨used, chosen, fun h => all.mp h.connectable,
    fun clean => ⟨nonempty, bound, distinct, order, all.mpr clean⟩⟩

/-- A resolver that knows one service record and the addresses of its host. -/
def oneRecord (port : Nat) (addresses : List IpAddr) : Resolver where
  lookupIp _ _ _ _ := .ok addresses
  lookupSrv _ _ _ _ _ := .ok [⟨"mon.example.".toList, port, 0, 0⟩]

/-- An address in a seed, and a service record for a host that has the same address. -/
theorem resolved_endpoints_record :
    let resolver := oneRecord 3300 [.v6 0xffffc0000201, .v4 0xc0000202]
    let seeds := ["v2:192.0.2.1:3300/7".toList, "dns-srv:example.".toList]
    ∃ endpoints, resolveSeeds seeds (some resolver) ⟨4, 4⟩ (fail .limitExceeded) = .ok endpoints
      ∧ endpoints.length = 2 ∧ Resolved ⟨4, 4⟩ (allOffers resolver ⟨4, 4⟩ seeds) endpoints := by
  intro resolver seeds
  have accepted : (resolveSeeds seeds (some resolver) ⟨4, 4⟩ (fail .limitExceeded)).isOk = true := by
    decide
  obtain ⟨endpoints, ok⟩ := exists_of_isOk accepted
  obtain ⟨used, chosen, resolved⟩ := resolved_endpoints ok
  cases chosen
  have count : (resolveSeeds seeds (some resolver) ⟨4, 4⟩ (fail .limitExceeded)).toOption.map
      List.length = some 2 := by
    decide
  rw [ok] at count
  exact ⟨endpoints, ok, Option.some.inj count, resolved.mpr (by decide)⟩

/-- A service record with the port zero, an address in a seed that is unspecified, and an
unspecified address that the resolver writes as an IPv6 address. -/
theorem not_resolved_endpoints :
    (resolveSeeds ["dns-srv:example".toList] (some (oneRecord 0 [.v4 0xc0000201])) ⟨1, 4⟩
        (fail .limitExceeded)).toOption.map (List.map Endpoint.address)
      = some [⟨.v4 0xc0000201, 0, 0⟩]
    ∧ (resolveSeeds ["0.0.0.0".toList] (some (oneRecord 3300 [])) ⟨1, 4⟩
        (fail .limitExceeded)).toOption.map (List.map Endpoint.address)
      = some [⟨.v4 0, 3300, 0⟩]
    ∧ (resolveSeeds ["mon.example".toList] (some (oneRecord 3300 [mappedUnspecified])) ⟨1, 4⟩
        (fail .limitExceeded)).toOption.map (List.map Endpoint.address)
      = some [⟨.v4 0, 3300, 0⟩] := by
  decide

end RadosRs.Mon
