import RadosRs.Cephx.Crypto
import RadosRs.Lib.Table
import RadosRs.Wire.Reader

/-!
# Tickets

A server that accepts a client answers with a list of tickets, one for each service.
The session key and the validity of a ticket are encrypted for the client.  After
the list there may be a secret for the connection and a second list, both encrypted
with the session key of the first list's ticket for the server itself.

`Holds` is what is kept from ticket to ticket: a ticket is stored under the service
it is for, and its times follow from the validity that was read.
-/

namespace RadosRs.Cephx

open Bytes Fallible Fixed Wire Wire.Reader

abbrev connectionModeCrc : Nat := 1
abbrev connectionModeSecure : Nat := 2
abbrev connectionSecretSizeSecure : Nat := 64
abbrev serviceAuth : Nat := 0x20
abbrev getAuthSessionKey : Nat := 0x0100
abbrev keyUsageAuthConnectionSecret : Nat := 0x03
abbrev keyUsageTicketSessionKey : Nat := 0x04
abbrev keyUsageTicketBlob : Nat := 0x05

abbrev nanosPerSecond : Nat := 1000000000

/-- The longest duration, in nanoseconds. -/
def durationMax : Nat := 2 ^ 64 * nanosPerSecond - 1

instance : OfWire Error where
  ofWire
    | .limitExceeded => .limitExceeded
    | .malformed => .malformedPayload
    | .unsupportedVersion _ _ => .malformedPayload

structure TicketBlob where
  secretId : Nat
  blob : List UInt8
  deriving DecidableEq, Repr

/-- A ticket.  Its times are in nanoseconds. -/
structure ServiceTicket where
  serviceId : Nat
  ticket : TicketBlob
  sessionKey : CryptoKey
  expiresAt : Nat
  renewAfter : Nat
  deriving DecidableEq, Repr

/-- Tickets by service. -/
abbrev Tickets := Std.ExtTreeMap Nat ServiceTicket

structure AuthSessionReply where
  requestType : Nat
  authSessionKey : CryptoKey
  connectionSecret : List UInt8
  tickets : Tickets

/-! ## Reading -/

def finishExact : Reader Error Unit := do
  finish
  let left ← remaining
  rejectIf (left ≠ 0) .malformedPayload

/-- Reads a value from all of some bytes. -/
def whole {α : Type} (bytes : List UInt8) (maxBytes : Nat) (body : Reader Error α) :
    Reader Error α :=
  inside (Decoder.new bytes maxBytes) do
    let value ← body
    finishExact
    return value

def decodeUtime : Reader Error Nat := do
  let seconds ← u32
  let nanoseconds ← u32
  rejectIf (nanoseconds ≥ nanosPerSecond) .malformedPayload
  return seconds * nanosPerSecond + nanoseconds

def decodeSecretKey (limits : Limits) : Reader Error CryptoKey := do
  let typeId ← u16
  let _created ← decodeUtime
  let length ← u16
  rejectIf (¬ (typeId = cryptoAes ∧ length = 16 ∨ typeId = cryptoAes256Krb5 ∧ length = 32))
    .unsupportedType
  rejectIf (length > limits.maxDecryptBytes) .limitExceeded
  let secret ← raw length
  return ⟨typeId, secret⟩

def decodeTicketBlob (limits : Limits) : Reader Error TicketBlob := do
  let version ← u8
  let secretId ← u64
  let blob ← blob
  rejectIf (version ≠ 1) .invalidVersion
  rejectIf (blob.length > limits.maxTicketBlobBytes) .limitExceeded
  return ⟨secretId, blob⟩

/-- The session key and the validity of a ticket. -/
def servicePayload (limits : Limits) : Reader Error (CryptoKey × Nat) := do
  let version ← u8
  rejectIf (version ≠ 1) .invalidVersion
  let sessionKey ← decodeSecretKey limits
  let validity ← decodeUtime
  finishExact
  rejectIf (validity = 0) .expiredTicket
  return (sessionKey, validity)

section Encrypted

variable (prims : Primitives)

def decodeEnvelope (key : CryptoKey) (usage : Nat) (limits : Limits) :
    Reader Error (List UInt8) := do
  let encrypted ← blob
  finish
  liftM (Run.ofResult (decryptWithMagic prims key encrypted usage limits))

def decryptEnvelope (key : CryptoKey) (encoded : List UInt8) (usage : Nat) (limits : Limits) :
    Reader Error (List UInt8) :=
  whole encoded limits.maxAuthBytes (decodeEnvelope prims key usage limits)

/-- What the ticket is in, which may be encrypted with the key of an earlier session. -/
def ticketPayload (existingAuthKey : Option CryptoKey) (limits : Limits) :
    Reader Error (List UInt8) := do
  let encrypted ← u8
  if encrypted = 0 then blob
  else if encrypted = 1 then do
    let key ← okOr existingAuthKey .missingTicket
    let payload ← decodeEnvelope prims key keyUsageTicketBlob limits
    whole payload limits.maxAuthBytes blob
  else fail .malformedPayload

/-- A turn of the loop over the tickets. -/
def readTicket (decryptKey : CryptoKey) (existingAuthKey : Option CryptoKey) (now : Nat)
    (limits : Limits) (tickets : Tickets) : Reader Error Tickets := do
  let serviceId ← u32
  rejectIf (serviceId ∈ tickets) .malformedPayload
  let version ← u8
  rejectIf (version ≠ 1) .invalidVersion
  let payload ← decodeEnvelope prims decryptKey keyUsageTicketSessionKey limits
  let (sessionKey, validity) ←
    inside (Decoder.new payload limits.maxAuthBytes) (servicePayload limits)
  let payload ← ticketPayload prims existingAuthKey limits
  let ticket ← whole payload limits.maxAuthBytes (decodeTicketBlob limits)
  let expiresAt ← okOr (checkedAdd durationMax now validity) .limitExceeded
  let renewAfter ← okOr (checkedSub expiresAt (validity / 4)) .malformedPayload
  return tickets.insert serviceId { serviceId, ticket, sessionKey, expiresAt, renewAfter }

def parseServiceTicketReply (decryptKey : CryptoKey) (existingAuthKey : Option CryptoKey)
    (now : Nat) (limits : Limits) (maxTickets : Nat) : Reader Error Tickets := do
  let version ← u8
  let count ← u32
  rejectIf (version ≠ 1) .invalidVersion
  rejectIf (count > maxTickets) .limitExceeded
  iterate (readTicket prims decryptKey existingAuthKey now limits) count ∅

/-- The secret of the connection, if there is one. -/
def readConnectionSecret (authSessionKey : CryptoKey) (connectionBlob : List UInt8)
    (connectionMode : Nat) (limits : Limits) : Reader Error (List UInt8) :=
  if connectionBlob.isEmpty then return []
  else do
    rejectIf (connectionMode ≠ connectionModeSecure) .invalidMode
    let plaintext ←
      decryptEnvelope prims authSessionKey connectionBlob keyUsageAuthConnectionSecret limits
    let secret ← whole plaintext limits.maxConnectionSecretBytes blob
    rejectIf (secret.length ≠ connectionSecretSizeSecure) .malformedPayload
    return secret

/-- Takes over a ticket of the second list. -/
def addTicket (tickets : Tickets) (entry : Nat × ServiceTicket) : Reader Error Tickets := do
  rejectIf (entry.1 ∈ tickets) .malformedPayload
  return tickets.insert entry.1 entry.2

/-- The tickets with those of the second list, if there is one. -/
def readExtraTickets (authSessionKey : CryptoKey) (extraTicketsBlob : List UInt8) (now : Nat)
    (limits : Limits) (tickets : Tickets) : Reader Error Tickets :=
  if extraTicketsBlob.isEmpty then return tickets
  else do
    let extra ← whole extraTicketsBlob limits.maxAuthBytes
      (parseServiceTicketReply prims authSessionKey none now limits
        (limits.maxTickets - tickets.size))
    extra.toList.foldlM addTicket tickets

/-- What comes after the first list. -/
def readExtras (authSessionKey : CryptoKey) (connectionMode now : Nat) (limits : Limits)
    (tickets : Tickets) : Reader Error (List UInt8 × Tickets) := do
  let left ← remaining
  if left = 0 then return ([], tickets)
  else do
    let connectionBlob ← blob
    let extraTicketsBlob ← blob
    finishExact
    let connectionSecret ←
      readConnectionSecret prims authSessionKey connectionBlob connectionMode limits
    let tickets ← readExtraTickets prims authSessionKey extraTicketsBlob now limits tickets
    return (connectionSecret, tickets)

def readAuthSessionReply (principalSecret : CryptoKey) (existingAuthKey : Option CryptoKey)
    (connectionMode now : Nat) (limits : Limits) : Reader Error AuthSessionReply := do
  let requestType ← u16
  let status ← i32
  finish
  rejectIf (status ≠ 0) .invalidStatus
  rejectIf (requestType ≠ getAuthSessionKey) .unsupportedType
  let tickets ←
    parseServiceTicketReply prims principalSecret existingAuthKey now limits limits.maxTickets
  let auth ← okOr tickets[serviceAuth]? .missingTicket
  let (connectionSecret, tickets) ←
    readExtras prims auth.sessionKey connectionMode now limits tickets
  return { requestType, authSessionKey := auth.sessionKey, connectionSecret, tickets }

def parseAuthSessionReply (payload : List UInt8) (principalSecret : CryptoKey)
    (existingAuthKey : Option CryptoKey) (connectionMode now : Nat) (limits : Limits) :
    Run Error AuthSessionReply :=
  if connectionMode ≠ connectionModeCrc ∧ connectionMode ≠ connectionModeSecure then
    Fallible.fail .invalidMode
  else if payload.length > limits.maxAuthBytes then Fallible.fail .limitExceeded
  else do
    let (reply, _) ← readAuthSessionReply prims principalSecret existingAuthKey connectionMode now
      limits (Decoder.new payload limits.maxAuthBytes)
    return reply

end Encrypted

/-! ## What is kept -/

section Kept

variable {prims : Primitives} {now : Nat} {limits : Limits}

variable (prims now limits) in
/-- The ticket was issued by someone with the key, for a time that starts now. -/
structure Issued (key : CryptoKey) (ticket : ServiceTicket) (validity : Nat) : Prop where
  /-- The session key and the validity were read from something encrypted with the key. -/
  decrypted : ∃ encrypted payload rest,
    decryptWithMagic prims key encrypted keyUsageTicketSessionKey limits = .ok payload ∧
      servicePayload limits (Decoder.new payload limits.maxAuthBytes)
        = .ok ((ticket.sessionKey, validity), rest)
  expires : ticket.expiresAt = now + validity
  later : now < ticket.renewAfter
  inTime : ticket.renewAfter ≤ ticket.expiresAt

variable (prims now limits) in
/-- Each ticket is stored under the service it is for, and was issued with one of the keys. -/
def Holds (keys : List CryptoKey) (tickets : Tickets) : Prop :=
  ∀ (id : Nat) ticket, tickets[id]? = some ticket →
    ticket.serviceId = id ∧ ∃ key ∈ keys, ∃ validity, Issued prims now limits key ticket validity

theorem Holds.empty (keys : List CryptoKey) : Holds prims now limits keys ∅ := by
  intro id ticket found
  simp at found

variable {tickets : Tickets} {key : CryptoKey} {keys : List CryptoKey}

theorem Holds.insert {ticket : ServiceTicket} (h : Holds prims now limits keys tickets)
    {validity : Nat} (mem : key ∈ keys) (issued : Issued prims now limits key ticket validity) :
    Holds prims now limits keys (tickets.insert ticket.serviceId ticket) := by
  intro id found lookup
  rw [Table.lookup_insert] at lookup
  split at lookup
  next same =>
    cases lookup
    exact ⟨same, key, mem, validity, issued⟩
  · exact h id found lookup

theorem Holds.mono {keys' : List CryptoKey} (h : Holds prims now limits keys tickets)
    (sub : ∀ key ∈ keys, key ∈ keys') : Holds prims now limits keys' tickets := by
  intro id ticket found
  obtain ⟨same, key, mem, issued⟩ := h id ticket found
  exact ⟨same, key, sub key mem, issued⟩

theorem gives_whole {α : Type} {bytes : List UInt8} {maxBytes : Nat} {body : Reader Error α}
    {P : α → Prop} (h : Gives body P) : Gives (whole bytes maxBytes body) P :=
  .inside (.bind h fun _ known => .skip fun _ => .pure known)

theorem gives_decodeEnvelope (key : CryptoKey) (usage : Nat) :
    Gives (decodeEnvelope prims key usage limits) fun payload =>
      ∃ encrypted, decryptWithMagic prims key encrypted usage limits = .ok payload :=
  .skip fun encrypted => .skip fun _ => .run fun _ decrypted =>
    ⟨encrypted, Run.ofResult_eq_ok.mp decrypted⟩

theorem gives_servicePayload : Gives (servicePayload limits) fun value => 0 < value.2 :=
  .skip fun _ => .skip fun _ => .skip fun _ => .skip fun _ => .skip fun _ =>
    .bind .rejectIf fun _ nonzero => .pure (Nat.pos_of_ne_zero nonzero)

variable {existing : Option CryptoKey}

/-- A turn adds one ticket. -/
theorem gives_readTicket (holds : Holds prims now limits [key] tickets) :
    Gives (readTicket prims key existing now limits tickets) fun after =>
      after.size = tickets.size + 1 ∧ Holds prims now limits [key] after := by
  refine .skip fun serviceId => .bind .rejectIf fun _ fresh => .skip fun _ => .skip fun _ => ?_
  refine .bind (gives_decodeEnvelope key _) fun payload decrypted => ?_
  refine .bind (P := fun value => 0 < value.2 ∧ ∃ rest,
    servicePayload limits (Decoder.new payload limits.maxAuthBytes) = .ok (value, rest)) ?_ ?_
  · intro decoder value rest given
    obtain ⟨-, after, read⟩ := inside_eq_ok.mp given
    exact ⟨gives_servicePayload _ _ _ read, after, read⟩
  rintro ⟨sessionKey, validity⟩ ⟨positive, served⟩
  refine .skip fun _ => .skip fun ticket => ?_
  refine .bind (.okOr fun _ h => h) fun expiresAt added => ?_
  refine .bind (.okOr fun _ h => h) fun renewAfter subtracted => .pure ?_
  obtain rfl := checkedAdd_eq_some added
  obtain ⟨-, rfl⟩ := checkedSub_eq_some subtracted
  obtain ⟨encrypted, decrypted⟩ := decrypted
  obtain ⟨rest, read⟩ := served
  have later : now < now + validity - validity / 4 := by omega
  have issued : Issued prims now limits key
      ⟨serviceId, ticket, sessionKey, now + validity, now + validity - validity / 4⟩ validity :=
    ⟨⟨encrypted, payload, rest, decrypted, read⟩, rfl, later, Nat.sub_le _ _⟩
  refine ⟨?_, holds.insert (List.mem_singleton.mpr rfl) issued⟩
  exact Table.size_insert_fresh fresh

theorem gives_parseServiceTicketReply (key : CryptoKey) (existing : Option CryptoKey)
    (maxTickets : Nat) :
    Gives (parseServiceTicketReply prims key existing now limits maxTickets) fun tickets =>
      tickets.size ≤ maxTickets ∧ Holds prims now limits [key] tickets := by
  refine .skip fun _ => .skip fun count => .skip fun _ => .bind .rejectIf fun _ few => ?_
  refine .mono (.iterate (I := fun turns tickets =>
    tickets.size = turns ∧ Holds prims now limits [key] tickets) ?_ (k := 0) ⟨rfl, .empty _⟩) ?_
  · rintro turns tickets ⟨rfl, holds⟩
    exact gives_readTicket holds
  · rintro tickets ⟨size, holds⟩
    exact ⟨by omega, holds⟩

/-- The second list adds tickets and leaves the others as they are. -/
theorem gives_addTickets (entries : List (Nat × ServiceTicket)) (tickets : Tickets) :
    Gives (entries.foldlM addTicket tickets) fun after =>
      after.size = tickets.size + entries.length ∧
      (∀ (id : Nat) ticket, tickets[id]? = some ticket → after[id]? = some ticket) ∧
      ∀ (id : Nat) ticket, after[id]? = some ticket →
        tickets[id]? = some ticket ∨ (id, ticket) ∈ entries := by
  induction entries generalizing tickets with
  | nil => exact .pure ⟨rfl, fun _ _ found => found, fun _ _ found => .inl found⟩
  | cons entry entries ih =>
    rw [List.foldlM_cons]
    refine .bind (P := fun next => entry.1 ∉ tickets ∧ next = tickets.insert entry.1 entry.2)
      (.bind .rejectIf fun _ fresh => .pure ⟨fresh, rfl⟩) ?_
    rintro _ ⟨fresh, rfl⟩
    refine .mono (ih _) ?_
    rintro after ⟨size, kept, known⟩
    refine ⟨?_, fun id ticket found => kept id ticket ?_, fun id ticket found => ?_⟩
    · rw [size, Table.size_insert_fresh fresh, List.length_cons]
      omega
    · have other : entry.1 ≠ id := fun same =>
        fresh (Table.mem_iff.mpr ⟨ticket, same ▸ found⟩)
      rw [Table.lookup_insert, if_neg other, found]
    rcases known id ticket found with found | mem
    · rw [Table.lookup_insert] at found
      split at found
      next same =>
        cases found
        exact .inr (same ▸ .head _)
      · exact .inl found
    · exact .inr (.tail _ mem)

variable {principal : CryptoKey}

theorem gives_readExtraTickets {extra : List UInt8} (few : tickets.size ≤ limits.maxTickets)
    (holds : Holds prims now limits [principal] tickets) :
    Gives (readExtraTickets prims key extra now limits tickets) fun after =>
      after.size ≤ limits.maxTickets ∧ Holds prims now limits [principal, key] after ∧
        ∀ (id : Nat) ticket, tickets[id]? = some ticket → after[id]? = some ticket := by
  have wider : Holds prims now limits [principal, key] tickets := holds.mono (by simp)
  refine .ite (fun _ => .pure ⟨few, wider, fun _ _ found => found⟩) fun _ => ?_
  refine .bind (gives_whole (gives_parseServiceTicketReply key none _)) fun more known => ?_
  refine .mono (gives_addTickets more.toList tickets) ?_
  rintro after ⟨size, kept, read⟩
  rw [Std.ExtTreeMap.length_toList] at size
  refine ⟨by omega, fun id ticket found => ?_, kept⟩
  rcases read id ticket found with found | mem
  · exact wider id ticket found
  · exact known.2.mono (by simp) id ticket (Std.ExtTreeMap.mem_toList_iff_getElem?_eq_some.mp mem)

variable {mode : Nat}

theorem gives_readConnectionSecret {encrypted : List UInt8} :
    Gives (readConnectionSecret prims key encrypted mode limits) fun secret =>
      secret = [] ∨ secret.length = connectionSecretSizeSecure ∧ mode = connectionModeSecure := by
  refine .ite (fun _ => .pure (.inl rfl)) fun _ => .bind .rejectIf fun _ secure => ?_
  refine .skip fun _ => .skip fun _ => .bind .rejectIf fun _ size => .pure (.inr ?_)
  exact ⟨not_not.mp size, not_not.mp secure⟩

theorem gives_readExtras (few : tickets.size ≤ limits.maxTickets)
    (holds : Holds prims now limits [principal] tickets) :
    Gives (readExtras prims key mode now limits tickets) fun (secret, after) =>
      (secret = [] ∨ secret.length = connectionSecretSizeSecure ∧ mode = connectionModeSecure) ∧
      after.size ≤ limits.maxTickets ∧ Holds prims now limits [principal, key] after ∧
        ∀ (id : Nat) ticket, tickets[id]? = some ticket → after[id]? = some ticket := by
  refine .skip fun left => .ite (fun _ => .pure ?_) fun _ => ?_
  · exact ⟨.inl rfl, few, holds.mono (by simp), fun _ _ found => found⟩
  refine .skip fun _ => .skip fun _ => .skip fun _ => ?_
  exact .bind gives_readConnectionSecret fun secret size =>
    .bind (gives_readExtraTickets few holds) fun after known => .pure ⟨size, known⟩

/-- What an accepted reply is like. -/
theorem gives_readAuthSessionReply :
    Gives (readAuthSessionReply prims principal existing mode now limits) fun reply =>
      reply.tickets.size ≤ limits.maxTickets ∧
      Holds prims now limits [principal, reply.authSessionKey] reply.tickets ∧
      (∃ ticket, reply.tickets[serviceAuth]? = some ticket ∧
        ticket.sessionKey = reply.authSessionKey) ∧
      (reply.connectionSecret = [] ∨ reply.connectionSecret.length = connectionSecretSizeSecure ∧
        mode = connectionModeSecure) := by
  iterate 5 refine .skip fun _ => ?_
  refine .bind (gives_parseServiceTicketReply principal existing _) fun tickets known => ?_
  refine .bind (.okOr fun _ found => found) fun auth found => ?_
  refine .bind (gives_readExtras known.1 known.2) ?_
  rintro ⟨secret, after⟩ ⟨size, few, holds, kept⟩
  exact .pure ⟨few, holds, ⟨auth, kept _ _ found, rfl⟩, size⟩

theorem Holds.nodup (holds : Holds prims now limits keys tickets) :
    (tickets.toList.map (·.2.serviceId)).Nodup := by
  have ids : tickets.toList.map (·.2.serviceId) = tickets.keys := by
    rw [← Std.ExtTreeMap.map_fst_toList_eq_keys]
    refine List.map_congr_left fun entry mem => ?_
    exact (holds _ _ (Std.ExtTreeMap.mem_toList_iff_getElem?_eq_some.mp mem)).1
  rw [ids]
  exact Std.ExtTreeMap.nodup_keys

end Kept

/-- An accepted reply has few enough tickets, each under its own service and for a time that starts
now, the session key of the ticket for the server, and a secret only for a secure connection. -/
theorem parseAuthSessionReply_accepted (prims : Primitives) (payload : List UInt8)
    (principalSecret : CryptoKey) (existingAuthKey : Option CryptoKey) (connectionMode now : Nat)
    (limits : Limits) {reply : AuthSessionReply}
    (accepted : parseAuthSessionReply prims payload principalSecret existingAuthKey connectionMode
      now limits = .ok reply) :
    reply.tickets.size ≤ limits.maxTickets ∧
    (reply.tickets.toList.map (·.2.serviceId)).Nodup ∧
    (∀ (id : Nat) ticket, reply.tickets[id]? = some ticket →
      ticket.serviceId = id ∧ ∃ key ∈ [principalSecret, reply.authSessionKey], ∃ validity,
        Issued prims now limits key ticket validity) ∧
    (∃ ticket, reply.tickets[serviceAuth]? = some ticket ∧
      ticket.sessionKey = reply.authSessionKey) ∧
    (reply.connectionSecret = [] ∨
      reply.connectionSecret.length = connectionSecretSizeSecure ∧
        connectionMode = connectionModeSecure) := by
  unfold parseAuthSessionReply at accepted
  split at accepted
  · cases accepted
  split at accepted
  · cases accepted
  · obtain ⟨⟨reply, rest⟩, read, accepted⟩ := bind_eq_ok.mp accepted
    cases accepted
    obtain ⟨few, holds, auth, secret⟩ := gives_readAuthSessionReply _ _ _ read
    exact ⟨few, holds.nodup, holds, auth, secret⟩

/-- Ciphers that only pad. -/
def paddingOnly : Primitives where
  encryptBlock _ block := block
  decryptBlock _ block := block
  encryptPadded _ _ plaintext size :=
    some (Vector.ofFn fun i => plaintext.getD i (UInt8.ofNat (size - plaintext.length)))
  decryptPadded _ _ ciphertext :=
    some (ciphertext.take (ciphertext.length - (ciphertext.getLastD 0).toNat))
  hmacSha384 _ _ := Vector.replicate 48 0
  verifyTruncatedLeft _ _ _ := true

/-- What the server sends for some bytes, with these ciphers. -/
def envelope (payload : List UInt8) : List UInt8 :=
  let padding := 16 - (withMagic payload).length % 16
  blobBytes (withMagic payload ++ List.replicate padding (UInt8.ofNat padding))

/-- A reply with one ticket, for a minute, and a secret. -/
def minuteReply : List UInt8 :=
  let key := leBytes 2 cryptoAes ++ leBytes 8 0 ++ leBytes 2 16 ++ List.replicate 16 5
  let ticket := leBytes 4 serviceAuth ++ leBytes 1 1
    ++ envelope (leBytes 1 1 ++ key ++ leBytes 4 60 ++ leBytes 4 0)
    ++ leBytes 1 0 ++ blobBytes (leBytes 1 1 ++ leBytes 8 7 ++ blobBytes [9])
  leBytes 2 getAuthSessionKey ++ leBytes 4 0 ++ leBytes 1 1 ++ leBytes 4 1 ++ ticket
    ++ blobBytes (envelope (blobBytes (List.replicate 64 3))) ++ blobBytes []

theorem parseAuthSessionReply_accepted_minute :
    let principal : CryptoKey := ⟨cryptoAes, List.replicate 16 1⟩
    ∃ reply, parseAuthSessionReply paddingOnly minuteReply principal none connectionModeSecure 100 {}
        = .ok reply ∧
      reply.tickets.size ≤ 64 ∧ reply.connectionSecret = List.replicate 64 3 ∧
      ∃ ticket : ServiceTicket, reply.tickets[serviceAuth]? = some ticket ∧
        100 < ticket.renewAfter ∧ ticket.renewAfter ≤ ticket.expiresAt := by
  intro principal
  obtain ⟨reply, accepted⟩ := exists_of_isOk (x := parseAuthSessionReply paddingOnly minuteReply
    principal none connectionModeSecure 100 {}) (by decide +kernel)
  have known := parseAuthSessionReply_accepted _ _ _ _ _ _ _ accepted
  obtain ⟨few, -, holds, ⟨ticket, found, -⟩, -⟩ := known
  obtain ⟨-, _, -, _, issued⟩ := holds _ _ found
  refine ⟨reply, accepted, few, ?_, ticket, found, issued.later, issued.inTime⟩
  have secret : (parseAuthSessionReply paddingOnly minuteReply principal none connectionModeSecure
      100 {}).toOption.map (·.connectionSecret) = some (List.replicate 64 3) := by
    decide +kernel
  rw [accepted] at secret
  exact Option.some.inj secret

end RadosRs.Cephx
