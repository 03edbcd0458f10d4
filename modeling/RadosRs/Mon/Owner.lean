import RadosRs.Lib.Retry
import RadosRs.Types
import RadosRs.Mon.Message
import RadosRs.Msgr.Session.State

/-!
# The owner of the monitor session

The owner takes requests from four queues and has at most one of each kind under
way.  A request that is sent waits in the slot of its kind for a reply with its
transaction id.  `Owner.step` is one turn of the session loop: it either goes on or
ends the session, and whoever still waits in a slot then is left without an
answer.  `runSession` is the loop.

A caller waits for an answer on a channel of its own.  The callers are numbered in
the order in which the owner takes their requests from the queues, and the event
log tells which requests were sent, and who was answered or left.  What the maps a
monitor sends do to the owner is read from `Handled`, and whether a message could
be sent from the answers in `Input`.
-/

namespace RadosRs.Mon

open Bytes Fixed Wire
open Msgr hiding Limits
open Maps (Fsid Limits MapError)
open Session (SessionError)

inductive MonitorError where
  | closed
  | invalidConfig
  | connectTimeout
  | attemptsExhausted
  | foreignCluster
  | identityUnavailable
  | mapGap
  | session (error : SessionError)
  | message (error : MessageError)
  | map (error : MapError)
  | wireErrno (code : Int)
  deriving DecidableEq, Repr

/-! ## Requests and answers -/

inductive Kind where
  | command
  | statFs
  | poolStats
  | poolOperation
  deriving DecidableEq, Repr

def Kind.all : List Kind := [.command, .statFs, .poolStats, .poolOperation]

inductive Request where
  | command (words : List (List UInt8)) (input : List UInt8)
  | statFs
  | poolStats (pools : List (List UInt8))
  | poolOperation (pool : Nat) (operation : PoolOperation) (snapshot : Nat) (name : List UInt8)
  deriving DecidableEq, Repr

def Request.kind : Request → Kind
  | .command .. => .command
  | .statFs => .statFs
  | .poolStats _ => .poolStats
  | .poolOperation .. => .poolOperation

def Request.encode (fsid : Fsid) (epoch maxBytes : Nat) : Request → Except MessageError Message
  | .command words input => encodeCommand fsid words input maxBytes
  | .statFs => encodeStatFs fsid epoch maxBytes
  | .poolStats pools => encodeGetPoolStats fsid epoch pools maxBytes
  | .poolOperation pool operation snapshot name =>
    encodePoolOperation fsid epoch pool operation snapshot name maxBytes

/-- What a caller gets.  The error next to a command's reply is the one that the monitor
reports in it. -/
inductive Answer where
  | command (reply : CommandReply) (error : Option MonitorError)
  | statFs (reply : StatFsReply)
  | poolStats (reply : PoolStatsReply)
  | poolOperation (reply : PoolOperationReply)
  deriving DecidableEq, Repr

def Kind.replyType : Kind → Nat
  | .command => messageMonCommandReply
  | .statFs => messageStatFsReply
  | .poolStats => messageGetPoolStatsReply
  | .poolOperation => messagePoolOperationReply

def Kind.uncorrelated : Kind → String
  | .command => "uncorrelated monitor command reply"
  | .statFs => "uncorrelated statfs reply"
  | .poolStats => "uncorrelated pool-stats reply"
  | .poolOperation => "uncorrelated pool operation reply"

def Kind.decode (limits : Limits) (message : Message) : Kind → Except MonitorError Answer
  | .command =>
    ((decodeCommandReply message limits).map fun reply =>
      .command reply (if reply.result ≠ 0 then some (.wireErrno reply.result) else none)).mapError
        .message
  | .statFs => ((decodeStatFsReply message limits.maxBytes).map .statFs).mapError .message
  | .poolStats => ((decodeGetPoolStatsReply message limits).map .poolStats).mapError .message
  | .poolOperation =>
    ((decodePoolOperationReply message limits.maxBytes).map .poolOperation).mapError .message

/-- The cluster that a reply comes from.  A reply to a command does not say. -/
def Answer.fsid : Answer → Option Fsid
  | .command .. => none
  | .statFs reply => some reply.fsid
  | .poolStats reply => some reply.fsid
  | .poolOperation reply => some reply.fsid

def Answer.foreign (pinned : Option Fsid) (answer : Answer) : Bool :=
  answer.fsid.any (some · != pinned)

/-- A pool operation that the monitor has refused is an error. -/
def Answer.settle : Answer → Except MonitorError Answer
  | .poolOperation reply =>
    if reply.result ≠ 0 then .error (.wireErrno reply.result) else .ok (.poolOperation reply)
  | answer => .ok answer

/-! ## The loop -/

/-- A request that was sent and not answered yet. -/
structure Pending where
  caller : Nat
  transactionId : Nat
  deriving DecidableEq, Repr

/-- Who waits for an answer, and how many requests have been taken from the queues. -/
structure Custody where
  slots : Kind → Option Pending
  arrivals : Nat

def Custody.put (c : Custody) (kind : Kind) (pending : Pending) : Custody :=
  { c with slots := Function.update c.slots kind (some pending) }

def Custody.take (c : Custody) (kind : Kind) : Custody :=
  { c with slots := Function.update c.slots kind none }

structure Owner extends Custody where
  nextTransactionId : Nat
  pinnedFsid : Option Fsid
  osdmapEpoch : Option Nat
  refreshEpoch : Option Nat

inductive Event where
  | received (message : Message)
  | sent (kind : Kind) (caller : Nat) (message : Message)
  | answered (caller : Nat) (result : Except MonitorError Answer)
  /-- The channel of the caller is closed without an answer. -/
  | dropped (caller : Nat)
  | reported (error : MonitorError)
  deriving DecidableEq

inductive SessionOutcome where
  | failover
  | foreignCluster
  | stop
  deriving DecidableEq, Repr

inductive MessageAction where
  | none
  | resubscribe
  deriving DecidableEq, Repr

/-- What handling a message with a map comes to, and what it leaves of the owner's state. -/
structure Handled where
  result : Except MonitorError MessageAction
  pinnedFsid : Option Fsid
  osdmapEpoch : Option Nat
  refreshEpoch : Option Nat
  /-- The result of subscribing after that, if it is done. -/
  subscribed : Except MonitorError Unit

/-- What the loop waits for, with the answers of the session. -/
inductive Input where
  | stop
  | incoming (message : Message) (handled : Handled)
  | incomingEnd
  | failure (error : SessionError)
  | subscribe (subscribed : Except MonitorError Unit)
  | refresh (epoch : Nat) (subscribed : Except MonitorError Unit)
  | request (request : Request) (options : OptionsView) (sent : Except SessionError Unit)
  | requestCheck (expired : Kind → Bool)

abbrev Next := Retry.Next Owner (Option SessionOutcome)

/-- The same happens to each caller that waits in one of these slots. -/
def Custody.each (c : Custody) (event : Nat → Event) (kinds : List Kind) : List Event :=
  kinds.flatMap fun kind => ((c.slots kind).map fun pending => event pending.caller).toList

/-- The callers in these slots are told that the outcome is unknown. -/
def Custody.failPending (c : Custody) (kinds : List Kind) : List Event :=
  c.each (.answered · (.error (.session .outcomeUnknown))) kinds

/-- The session ends, and the channels of the callers in these slots are closed. -/
def Custody.dropPending (c : Custody) (kinds : List Kind) : List Event := c.each .dropped kinds

def reportError : Except MonitorError Unit → List Event
  | .error error => [.reported error]
  | .ok () => []

/-- A reply to a request of the given kind. -/
def Owner.reply (limits : Limits) (s : Owner) (kind : Kind) (message : Message) :
    List Event × Next :=
  match s.slots kind with
  | none => ([.reported (.message (.malformed kind.uncorrelated))], .again s)
  | some pending =>
    if pending.transactionId ≠ message.header.transactionId then
      ([.reported (.message (.malformed kind.uncorrelated))], .again s)
    else
      let rest := { s with toCustody := s.take kind }
      match kind.decode limits message with
      | .error error => ([.answered pending.caller (.error error)], .again rest)
      | .ok answer =>
        if answer.foreign s.pinnedFsid then
          (.answered pending.caller (.error .foreignCluster) ::
            (rest.failPending Kind.all ++ [.reported .foreignCluster]),
            .done (some .foreignCluster))
        else ([.answered pending.caller answer.settle], .again rest)

/-- Any other message, once it is handled. -/
def Owner.handle (s : Owner) (handled : Handled) : List Event × Next :=
  let after := { s with
    pinnedFsid := handled.pinnedFsid
    osdmapEpoch := handled.osdmapEpoch
    refreshEpoch := handled.refreshEpoch }
  match handled.result with
  | .ok .none => ([], .again after)
  | .ok .resubscribe => (reportError handled.subscribed, .again after)
  | .error .mapGap =>
    if after.refreshEpoch.isSome then ([.reported .mapGap], .again after)
    else
      (.reported .mapGap :: reportError handled.subscribed,
        .again { after with
          refreshEpoch := some (after.osdmapEpoch.elim 1 fun epoch => min (epoch + 1) u32Max) })
  | .error .foreignCluster =>
    (s.failPending Kind.all ++ [.reported .foreignCluster], .done (some .foreignCluster))
  | .error error => (s.failPending Kind.all ++ [.reported error], .done (some .failover))

/-- What is checked before a request is sent. -/
def Owner.prepare (limits : Limits) (s : Owner) (request : Request) (options : OptionsView) :
    Except MonitorError Message :=
  if options.canceled then .error (.session .cancelled)
  else if options.expired then .error .connectTimeout
  else
    match s.pinnedFsid with
    | none => .error .identityUnavailable
    | some fsid =>
      match request.encode fsid (s.osdmapEpoch.getD 0) limits.maxBytes with
      | .error error => .error (.message error)
      | .ok message =>
        .ok { message with
          header := { message.header with transactionId := s.nextTransactionId } }

/-- The transaction id after this one.  Zero is not used. -/
def nextId (transactionId : Nat) : Nat :=
  if transactionId + 1 ≤ u64Max then transactionId + 1 else 1

/-- A request is taken from its queue, which is read only while the slot is free. -/
def Owner.request (limits : Limits) (s : Owner) (request : Request) (options : OptionsView)
    (sent : Except SessionError Unit) : List Event × Next :=
  match s.slots request.kind with
  | some _ => ([], .again s)
  | none =>
    let caller := s.arrivals
    let taken := { s with arrivals := s.arrivals + 1 }
    match s.prepare limits request options with
    | .error error => ([.answered caller (.error error)], .again taken)
    | .ok message =>
      match sent with
      | .error error =>
        (.answered caller (.error (.session error)) :: s.dropPending Kind.all,
          .done (some .failover))
      | .ok () =>
        ([.sent request.kind caller message],
          .again { taken with
            toCustody := taken.put request.kind ⟨caller, s.nextTransactionId⟩
            nextTransactionId := nextId s.nextTransactionId })

/-- The kind of request that a message of this type is a reply to. -/
def replyKind (messageType : Nat) : Option Kind := Kind.all.find? (·.replyType == messageType)

def Owner.step (limits : Limits) (s : Owner) : Input → List Event × Next
  | .stop => (s.dropPending Kind.all, .done (some .stop))
  | .incoming message handled =>
    let (log, next) :=
      match replyKind message.header.messageType with
      | some kind => s.reply limits kind message
      | none => s.handle handled
    (.received message :: log, next)
  | .incomingEnd => (s.failPending Kind.all, .done (some .failover))
  | .failure error => (s.failPending Kind.all ++ [.reported (.session error)], .done (some .failover))
  | .subscribe subscribed => (reportError subscribed, .again s)
  | .refresh epoch subscribed =>
    (reportError subscribed,
      .again { s with refreshEpoch := some (s.refreshEpoch.elim epoch fun e => max e epoch) })
  | .request request options sent => s.request limits request options sent
  | .requestCheck expired =>
    if Kind.all.any fun kind => (s.slots kind).isSome && expired kind then
      (s.failPending Kind.all, .done (some .failover))
    else ([], .again s)

/-- The loop with no request under way.  As long as no input ends the session there is no
outcome. -/
def runSession (limits : Limits) (s : Owner) (subscribed resubscribed : Except MonitorError Unit)
    (inputs : List Input) : List Event × Option SessionOutcome :=
  match subscribed with
  | .error error => ([.reported error], some .failover)
  | .ok () =>
    let first := if s.refreshEpoch.isSome then reportError resubscribed else []
    let (log, outcome) := Retry.run (Owner.step limits) (fun _ => none)
      { s with slots := fun _ => none } inputs
    (first ++ log, outcome)

/-! ## The callers -/

/-- What a caller hears on its channel. -/
inductive Heard where
  | answered (result : Except MonitorError Answer)
  | dropped
  deriving DecidableEq

def Event.heardBy (caller : Nat) : Event → Option Heard
  | .answered other result => if other = caller then some (.answered result) else none
  | .dropped other => if other = caller then some .dropped else none
  | _ => none

/-- The first that a caller hears. -/
def heard (caller : Nat) (log : List Event) : Option Heard := log.findSome? (Event.heardBy caller)

/-- The answer, or the error with which the owner has finished. -/
def receive (terminal : Option MonitorError) : Heard → Except MonitorError Answer
  | .answered result => result
  | .dropped => .error (terminal.getD .closed)

/-- One look at the published maps after a pool operation. -/
structure Look where
  options : OptionsView
  osdmapEpoch : Option Nat
  terminal : Option MonitorError
  /-- The owner is gone, and the error that it has left. -/
  gone : Option (Option MonitorError)

/-- Waits for the map in which a pool operation has been carried out. -/
def awaitMap (reply : PoolOperationReply) :
    List Look → Option (Except MonitorError PoolOperationReply)
  | [] => none
  | look :: looks =>
    if look.options.canceled then some (.error (.session .cancelled))
    else if look.options.expired then some (.error .connectTimeout)
    else if look.osdmapEpoch.any (reply.epoch ≤ ·) then some (.ok reply)
    else
      match look.terminal, look.gone with
      | some error, _ => some (.error error)
      | none, some error => some (.error (error.getD .closed))
      | none, none => awaitMap reply looks

/-- What the caller of `command` or `apply_pool_operation` has got, once it has got it. -/
def callerGets (kind : Kind) (terminal : Option MonitorError) (looks : List Look)
    (heard : Heard) : Option (Except MonitorError Answer) :=
  match kind, receive terminal heard with
  | .poolOperation, .ok (.poolOperation reply) =>
    (awaitMap reply looks).map (·.map .poolOperation)
  | _, result => some result

end RadosRs.Mon
