import Mathlib.Data.List.Basic
import RadosRs.Msgr.Message
import RadosRs.Msgr.Control

/-!
# The state of a session

A session multiplexes requests over one connection that may break and come back.
`Machine` is its whole state, and the part of it that keeps account of requests
is set apart as `Ledger`: the pending requests, the transaction table, the list
of messages to replay, and the three counters that number what goes out, what
comes in and what is asked.

The operations of the ledger stand here.  They say nothing of connections; the
operations that do are in `RadosRs.Msgr.Session.Machine`.
-/

namespace RadosRs.Msgr.Session

open Fixed

def maxControlMessages : Nat := 16
def maxControlBytes : Nat := 1 <<< 20

inductive State where
  | disconnected
  | connecting
  | reconnecting
  | ready
  | wait
  | stopped
  deriving DecidableEq, Repr

inductive ReconnectPolicy where
  | failPending
  | replayPending
  deriving DecidableEq, Repr

inductive SessionError where
  | closed
  | disconnected
  | cancelled
  | queueSaturated
  | tooManyInFlight
  | transitionLimit
  | reconnectExhausted
  | outcomeUnknown
  | renewal
  | malformed
  | unsupportedFeature
  | unsupportedPayload
  | frame (error : FrameError)
  deriving DecidableEq, Repr

structure Config where
  limits : Limits
  maxQueuedMessages : Nat
  maxRetainedBytes : Nat
  maxInFlightTransactions : Nat
  maxReconnectAttempts : Nat
  maxHandshakeTransitions : Nat
  reconnectPolicy : ReconnectPolicy
  clientIdent : ClientIdent
  clientCookie : Nat
  serverCookie : Nat
  globalSequence : Nat
  connectSequence : Nat
  replacementCookies : List Nat
  deriving DecidableEq, Repr

/-- The digest that tells one credential from another. -/
abbrev Identity := Vector UInt8 32

/-- What happens to a session. -/
inductive Input where
  | start (ready : Bool)
  | initialConnection (authenticatedGlobalId : Option Nat) (credentialIdentity : Option Identity)
  | initialIdentity (generation : Nat) (authenticatedGlobalId : Option Nat)
      (credentialIdentity : Option Identity)
  | admitRequest (requestId : Nat) (message : Message) (oneWay : Bool)
  | admitControl (requestId : Nat) (message : Message) (generation : Nat)
  | cancel (requestId : Nat)
  | dispatch
  | writeComplete (generation : Nat) (requestId : Option Nat) (result : Except SessionError Unit)
  | connected (generation : Nat) (authenticatedGlobalId : Option Nat)
      (credentialIdentity : Option Identity)
  | connectFailed (generation : Nat)
  | control (generation : Nat) (control : Control)
  | message (generation : Nat) (message : Message)
  | fault (generation : Nat) (error : SessionError)
  | renewalDue (generation : Nat)
  | consumeIncoming
  | stop

inductive Event where
  | stateChanged (state : State)
  | sequenceGap (sequence expected : Nat)
  | duplicateDropped (sequence : Nat)
  | acknowledged (sequence : Nat)
  | keepaliveAck
  | transportFault (error : SessionError)
  | sessionReset (full : Bool)
  | retry (sequence : Nat)
  | retryGlobal (sequence : Nat)
  | wait
  | reconnectOk (sequence : Nat)
  | credentialRenewal
  | credentialRenewalCompleted
  deriving DecidableEq, Repr

/-- What a session does in return. -/
inductive Effect where
  | connect (generation : Nat)
  | closeTransport (generation : Nat)
  | sendControl (generation : Nat) (control : Control)
  | sendMessage (generation requestId : Nat) (message : Message)
  | admitted (requestId transactionId : Nat)
  | completed (requestId : Nat) (reply : Option Message)
  | failed (requestId : Nat) (error : SessionError)
  | incoming (message : Message)
  | event (event : Event)
  | terminal (error : SessionError)
  deriving DecidableEq, Repr

/-- A request that has been admitted and not yet resolved. -/
structure Pending where
  requestId : Nat
  message : Message
  bytes : Nat
  /-- The outbound sequence number, or zero before the first transmission. -/
  sequence : Nat
  /-- Handed to the current transport. -/
  sent : Bool
  /-- Handed to some transport. -/
  mayHaveExecuted : Bool
  oneWay : Bool
  /-- The control generation it was admitted in, for a reserved control message. -/
  control : Option Nat
  deriving DecidableEq, Repr

def Pending.transactionId (p : Pending) : Nat := p.message.header.transactionId

inductive RenewalState where
  | idle
  | draining
  | reconnecting
  deriving DecidableEq, Repr

inductive CredentialChange where
  | unknown
  | unchanged
  | changed
  deriving DecidableEq, Repr

/-- The account of requests. -/
structure Ledger where
  pending : List Pending
  byTransaction : Nat → Option Nat
  replay : List Nat
  retainedBytes : Nat
  controlMessages : Nat
  controlBytes : Nat
  /-- Nothing once every sequence number has been used. -/
  nextOutbound : Option Nat
  lastInbound : Nat
  /-- Nothing once every transaction id has been used. -/
  nextTransactionId : Option Nat

/-- The whole state of a session. -/
structure Machine extends Ledger where
  config : Config
  state : State
  generation : Nat
  controls : List Control
  controlGeneration : Nat
  incomingCount : Nat
  writeBusy : Bool
  clientCookie : Nat
  serverCookie : Nat
  serverGlobalId : Int
  serverAddresses : List EntityAddr
  serverFeatures : UInt64
  globalSequence : Nat
  connectSequence : Nat
  authenticatedGlobalId : Nat
  credentialIdentity : Option Identity
  candidateCredentialIdentity : Option Identity
  credentialChange : CredentialChange
  renewal : RenewalState
  renewalPending : Bool
  serverFlags : UInt64
  connectedOnce : Bool
  reconnectAttempts : Nat
  transitions : Nat
  connectPending : Bool
  terminalError : Option SessionError
  replacementCookies : List Nat

/-! ## Operations of the ledger -/

namespace Ledger

/-- The ledger of a new session. -/
def empty : Ledger where
  pending := []
  byTransaction := fun _ => none
  replay := []
  retainedBytes := 0
  controlMessages := 0
  controlBytes := 0
  nextOutbound := some 1
  lastInbound := 0
  nextTransactionId := some 1

/-- The pending request of an id.  The source calls it `pending`, like the list. -/
def find (l : Ledger) (requestId : Nat) : Option Pending :=
  l.pending.find? (·.requestId == requestId)

def removePending (l : Ledger) (requestId : Nat) : Ledger :=
  match l.find requestId with
  | none => l
  | some pending =>
    { l with
      pending := l.pending.eraseP (·.requestId == requestId)
      replay := l.replay.filter (· != requestId)
      byTransaction := Function.update l.byTransaction pending.transactionId none
      controlMessages :=
        if pending.control.isSome then l.controlMessages - 1 else l.controlMessages
      controlBytes :=
        if pending.control.isSome then l.controlBytes - pending.bytes else l.controlBytes
      retainedBytes :=
        if pending.control.isSome then l.retainedBytes else l.retainedBytes - pending.bytes }

/-- Everything forgotten but the counters, as `fail_all` leaves the ledger. -/
def cleared (l : Ledger) : Ledger :=
  { l with
    pending := []
    replay := []
    byTransaction := fun _ => none
    retainedBytes := 0
    controlMessages := 0
    controlBytes := 0 }

/-- The requests handed to the current transport, control messages apart. -/
def inFlightCount (l : Ledger) : Nat :=
  l.pending.countP fun p => p.sent && p.control.isNone

/-- The pending request of an id is no longer on a transport. -/
def unsend (requestId : Nat) : List Pending → List Pending
  | [] => []
  | p :: ps =>
    if p.requestId == requestId then { p with sent := false } :: ps
    else p :: unsend requestId ps

/-- Everything on the replay list is to be sent again. -/
def prepareReplay (l : Ledger) : Ledger :=
  { l with pending := l.replay.foldl (fun pending requestId => unsend requestId pending) l.pending }

/-- The sequence number of a request.  The source collects the pending requests into a
map, where the last one of an id counts. -/
def sequenceOf (l : Ledger) (requestId : Nat) : Option Nat :=
  (l.pending.reverse.find? (·.requestId == requestId)).map (·.sequence)

/-- What has been acknowledged up to `sequence` need not be replayed. -/
def trimReplay (l : Ledger) (sequence : Nat) : Ledger :=
  { l with
    replay := l.replay.filter fun requestId =>
      (l.sequenceOf requestId).any fun value => value > sequence }

/-- The next outbound sequence number, unless they are used up. -/
def allocateSequence (l : Ledger) : Option Nat × Ledger :=
  match l.nextOutbound with
  | none => (none, l)
  | some next =>
    let sequence := max next 1
    (some sequence,
      { l with nextOutbound := if sequence == u64Max then none else some (sequence + 1) })

/-- The request at `index` is on the transport now, and on the replay list. -/
def transmit (l : Ledger) (index : Nat) (pending : Pending) : Ledger :=
  { l with
    pending := l.pending.set index { pending with sent := true, mayHaveExecuted := true }
    replay :=
      if l.replay.contains pending.requestId then l.replay
      else l.replay ++ [pending.requestId] }

/-- The loop of `takeTransactionId`.  Every round moves the counter up. -/
def takeTransactionIdLoop : Nat → Ledger → Option Nat × Ledger
  | 0, l => (none, l)
  | fuel + 1, l =>
    match l.nextTransactionId with
    | none => (none, l)
    | some next =>
      let transactionId := max next 1
      let l :=
        { l with
          nextTransactionId :=
            if transactionId == u64Max then none else some (transactionId + 1) }
      if (l.byTransaction transactionId).isNone then (some transactionId, l)
      else takeTransactionIdLoop fuel l

/-- The next transaction id that no pending request uses, unless they are used up.  The
counter cannot move up more often than there are 64-bit values. -/
def takeTransactionId (l : Ledger) : Option Nat × Ledger :=
  takeTransactionIdLoop (u64Max + 1) l

/-- A new pending request. -/
def insert (l : Ledger) (pending : Pending) : Ledger :=
  { l with
    pending := l.pending ++ [pending]
    byTransaction := Function.update l.byTransaction pending.transactionId (some pending.requestId)
    controlMessages :=
      if pending.control.isSome then l.controlMessages + 1 else l.controlMessages
    controlBytes :=
      if pending.control.isSome then l.controlBytes + pending.bytes else l.controlBytes
    retainedBytes :=
      if pending.control.isSome then l.retainedBytes else l.retainedBytes + pending.bytes }

end Ledger

end RadosRs.Msgr.Session
