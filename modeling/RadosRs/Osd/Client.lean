import RadosRs.Lib.Retry
import RadosRs.Types
import RadosRs.Msgr.Session.State
import RadosRs.Osd.Message

/-!
# Executing operations on an OSD

`executeRouted` carries out a list of operations in at most four attempts.  An
attempt finds the primary OSD, looks up its session, encodes the request and
submits it; `submitRouted` goes around until the session has an answer, because
the OSD may block the object for a while.  What the surroundings decide (the
maps the monitor publishes, flags of other tasks, deadlines, and what the session
says) is read from the fields of `Attempt` and `Round`, in the order in which the
code asks for it.  An answer that is not asked for is not read.

A session that lost a request which it had sent reports that the outcome is
unknown.  For a mutation the caller is to be told so, and `priorUnknown` is where
an attempt leaves this for the next ones.  The event log tells which requests
were encoded, what the session reported of them, and which replies were valid.
-/

namespace RadosRs.Osd

open Bytes Fixed Wire Msgr
open Maps (Pg)
open Session (SessionError)

def maxAttempts : Nat := 4

inductive UnknownCause where
  | cancelled
  | timeout
  | transport
  deriving DecidableEq, Repr

inductive Error where
  | closed
  | notConnected
  | staleMap
  | noPrimary
  | limitExceeded
  | malformedReply
  | unsupported
  | timeout
  | cancelled
  | queueSaturated
  | recoveryExhausted
  | outcomeUnknown (cause : UnknownCause)
  | wireErrno (code : Int)
  deriving DecidableEq, Repr

def preserveUnknown (error : Error) : Option UnknownCause → Error
  | some cause => .outcomeUnknown cause
  | none => error

def mapSessionError : SessionError → Error
  | .closed => .closed
  | .cancelled => .cancelled
  | .queueSaturated | .tooManyInFlight => .queueSaturated
  | .unsupportedFeature | .unsupportedPayload => .unsupported
  | .disconnected | .transitionLimit | .reconnectExhausted | .outcomeUnknown | .renewal
  | .malformed | .frame _ => .notConnected

def mapMessageError : MessageError → Error
  | .wire .limitExceeded => .limitExceeded
  | .unsupportedVersion | .wire (.unsupportedVersion _ _) => .unsupported
  | .wire .malformed | .malformed => .malformedReply

def mapRequestError (error : SessionError) (mutation : Bool) : Error :=
  if mutation && error == .outcomeUnknown then .outcomeUnknown .transport
  else mapSessionError error

/-! ## Waiting -/

def checkOptions (options : OptionsView) : Except Error Unit :=
  if options.canceled then .error .cancelled
  else if options.expired then .error .timeout
  else .ok ()

/-- How a wait under the caller's options ends. -/
inductive Waited where
  | finished (result : Except SessionError Unit)
  | timeout
  | cancelled
  deriving DecidableEq, Repr

/-- A wait for something: the options before it, and how it ends. -/
structure Wait where
  options : OptionsView
  ends : Waited
  deriving DecidableEq, Repr

def waitFor (wait : Wait) : Except Error Unit := do
  checkOptions wait.options
  match wait.ends with
  | .finished result => result.mapError mapSessionError
  | .timeout => throw .timeout
  | .cancelled => throw .cancelled

/-- A wait that a change of the route cuts short. -/
inductive RoutedWait where
  | waited (wait : Wait)
  | routeChanged
  deriving DecidableEq, Repr

def routedWait : RoutedWait → Except Error Unit
  | .waited wait => waitFor wait
  | .routeChanged => .error .staleMap

/-! ## One submission -/

/-- What a session says of a request in the end. -/
abbrev SessionResult := Except SessionError (Option Message)

/-- Hands a request to the session: the options, whether time or the caller interrupts,
what the session says, and what it says to cancelling the request. -/
structure Admission where
  options : OptionsView
  interrupted : Option UnknownCause
  admitted : Except SessionError Unit
  cancelled : SessionResult

/-- What the caller sees of an interruption before the request was sent. -/
def UnknownCause.unsent : UnknownCause → Error
  | .cancelled => .cancelled
  | .timeout => .timeout
  | .transport => .notConnected

def classifyCancel (result : SessionResult) (cause : UnknownCause) (mutation : Bool) :
    Except Error Message :=
  match result with
  | .ok (some reply) => .ok reply
  | .ok none => .error .malformedReply
  | .error .cancelled => .error cause.unsent
  | .error error =>
    if error = .outcomeUnknown ∧ mutation = true then .error (.outcomeUnknown cause)
    else .error (mapRequestError error mutation)

/-- What the session reports of a submitted request, and what becomes of it. -/
abbrev Reported (α : Type) := List SessionResult × α

/-- Either the request is with the session, or its reply is there already. -/
def admitWithCancellation (admission : Admission) (mutation : Bool) :
    Reported (Except Error (Option Message)) :=
  match checkOptions admission.options with
  | .error error => ([], .error error)
  | .ok () =>
    match admission.interrupted, admission.admitted with
    | none, .ok () => ([], .ok none)
    | none, .error error => ([], .error (mapSessionError error))
    | some cause, .ok () =>
      ([admission.cancelled],
        (classifyCancel admission.cancelled cause mutation).map some)
    | some cause, .error .cancelled => ([], .error cause.unsent)
    | some _, .error error => ([], .error (mapSessionError error))

/-- How the wait for an admitted request ends: by its result, by an interruption, by a
change of the route, or because the OSD unblocks the object or drops the block. -/
inductive SubmissionWait where
  | finished (result : SessionResult)
  | interrupted (cause : UnknownCause) (cancelled : SessionResult)
  | routeChanged (cancelled : SessionResult)
  | unblocked (cancelled : SessionResult)
  | abandoned

inductive SubmissionResult where
  | reply (message : Message)
  | resend (uncertain : Bool)

def waitForSubmission (wait : SubmissionWait) (mutation : Bool) :
    Reported (Except Error SubmissionResult) :=
  match wait with
  | .finished result =>
    ([result],
      match result with
      | .ok (some reply) => .ok (.reply reply)
      | .ok none => .error .malformedReply
      | .error error => .error (mapRequestError error mutation))
  | .interrupted cause cancelled =>
    ([cancelled], (classifyCancel cancelled cause mutation).map .reply)
  | .routeChanged cancelled =>
    ([cancelled],
      match cancelled with
      | .ok (some reply) => .ok (.reply reply)
      | .ok none => .error .malformedReply
      | .error .cancelled => .error .staleMap
      | .error error =>
        if error = .outcomeUnknown ∧ mutation = false then .error .staleMap
        else .error (mapRequestError error mutation))
  | .unblocked cancelled =>
    ([cancelled],
      match cancelled with
      | .ok (some reply) => .ok (.reply reply)
      | .error .cancelled => .ok (.resend false)
      | .error .outcomeUnknown => .ok (.resend true)
      | .ok none => .error .malformedReply
      | .error error => .error (mapRequestError error mutation))
  | .abandoned => ([], .error .notConnected)

/-- The answers to one round of a submission. -/
structure Round where
  /-- The mark on the session that it has failed, at the beginning of the round. -/
  failure : Option Error
  capacity : RoutedWait
  /-- The mark after a wait for capacity that failed. -/
  failureAfterWait : Option Error
  /-- The mark under the lock. -/
  failureLocked : Option Error
  /-- A backoff covers the object. -/
  blocked : Bool
  change : RoutedWait
  nextSubmission : Nat
  admission : Admission
  wait : SubmissionWait
  /-- The mark after the request failed. -/
  failureAtEnd : Option Error

/-- Once there is capacity and no backoff covers the object, the request is handed to the
session. -/
def Round.submit (mutation : Bool) (round : Round) (prior : Option UnknownCause) :
    Reported (Retry.Next (Option UnknownCause) (Except Error Message)) :=
  match checkedAdd u64Max round.nextSubmission 1 with
  | none => ([], .done (.error .limitExceeded))
  | some _ =>
    match admitWithCancellation round.admission mutation with
    | (reports, .error .queueSaturated) => (reports, .again prior)
    | (reports, .error error) => (reports, .done (.error error))
    | (reports, .ok (some reply)) => (reports, .done (.ok reply))
    | (reports, .ok none) =>
      let (more, result) := waitForSubmission round.wait mutation
      (reports ++ more,
        match result with
        | .ok (.resend uncertain) =>
          .again (if mutation && uncertain then some .transport else prior)
        | .ok (.reply reply) => .done (.ok reply)
        | .error error =>
          if round.failureAtEnd = some .staleMap then .done (.error .staleMap)
          else .done (.error error))

def Round.attempt (mutation : Bool) (round : Round) (prior : Option UnknownCause) :
    Reported (Retry.Next (Option UnknownCause) (Except Error Message)) :=
  match round.failure with
  | some error => ([], .done (.error error))
  | none =>
    match routedWait round.capacity with
    | .error error => ([], .done (.error (round.failureAfterWait.getD error)))
    | .ok () =>
      match round.failureLocked with
      | some error => ([], .done (.error error))
      | none =>
        if round.blocked then
          match routedWait round.change with
          | .error error => ([], .done (.error error))
          | .ok () => ([], .again prior)
        else round.submit mutation prior

/-- One round, with an outcome that became unknown in an earlier one preserved. -/
def Round.run (mutation : Bool) (prior : Option UnknownCause) (round : Round) :
    Reported (Retry.Next (Option UnknownCause) (Except Error Message)) :=
  match round.attempt mutation prior with
  | (reports, .again prior) => (reports, .again prior)
  | (reports, .done result) => (reports, .done (result.mapError (preserveUnknown · prior)))

/-- Submits a request and waits for its reply.  Every wait has a deadline, and it passes
when no more rounds are given. -/
def submitRouted (mutation : Bool) (rounds : List Round) : Reported (Except Error Message) :=
  Retry.run (Round.run mutation) (fun prior => .error (preserveUnknown .timeout prior)) none rounds

/-! ## Routes -/

structure Target where
  poolId : Int
  object : List UInt8
  locator : List UInt8
  nameSpace : List UInt8
  snapshot : Nat
  snapshotSequence : Nat
  writeSnapshots : List Nat
  deriving DecidableEq, Repr

/-- Where an object goes, as far as a request needs it. -/
structure ObjectPlacement where
  rawHash : Nat
  pg : Pg
  actingPrimary : Int
  primaryShard : Int
  sharded : Bool
  deriving DecidableEq, Repr

/-- A published OSD map, as far as routing reads it. -/
structure MapView where
  epoch : Nat
  placeObject : (pool : Int) → (object locator nameSpace : List UInt8) → Option ObjectPlacement
  placeRawHash : (pool : Int) → (hash : Nat) → Option ObjectPlacement
  /-- The OSD has an address with a port. -/
  reachable : Int → Bool

/-- A bounded attempt to get a newer map: the options before and after, whether the clock
can represent its deadline, and its result. -/
structure Refresh where
  before : OptionsView
  representable : Bool
  result : Except Error Unit
  after : OptionsView

def bestEffortRefreshMap (refresh : Refresh) : Except Error Unit := do
  checkOptions refresh.before
  if !refresh.representable then throw .limitExceeded
  match refresh.result with
  | .error .cancelled => throw .cancelled
  | _ => checkOptions refresh.after

/-- One look at the published maps. -/
structure Look where
  options : OptionsView
  terminal : Bool
  map : Option MapView
  refresh : Refresh

/-- A map and a placement in it whose primary can be reached. -/
structure Route where
  epoch : Nat
  placement : ObjectPlacement
  deriving DecidableEq, Repr

/-- Waits for a map in which the object has a primary that can be reached.  The caller
cancels when no more looks are given. -/
def waitForUsableRoute (target : Target) (hash : Option Nat) : List Look → Except Error Route
  | [] => .error .cancelled
  | look :: looks => do
      checkOptions look.options
      if look.terminal then throw .notConnected
      let map ← okOr .notConnected look.map
      let placement ← okOr .noPrimary
        (match hash with
        | none => map.placeObject target.poolId target.object target.locator target.nameSpace
        | some hash => map.placeRawHash target.poolId hash)
      if 0 ≤ placement.actingPrimary && map.reachable placement.actingPrimary then
        return ⟨map.epoch, placement⟩
      bestEffortRefreshMap look.refresh
      waitForUsableRoute target hash looks

/-! ## Checking replies -/

def validateTarget (reply : Reply) (object : List UInt8) (pg : Pg) (attempt : Nat) : Bool :=
  reply.object == object && reply.pg == pg && !(reply.retry ≥ 0 && reply.retry != attempt)

def validateOperations (reply : Reply) (operations : List Operation) : Bool :=
  reply.operations.length == operations.length
    && (reply.operations.zip operations).all fun (result, operation) =>
      result.operation == operation.code
        && match operation with
          | .read _ length => result.data.length ≤ length
          | _ => true

/-- A mutation that was carried out has to be on disk. -/
def validateDurableReply (reply : Reply) : Bool :=
  !(reply.result == 0 && twos 8 reply.flags &&& flagOnDisk == 0)

def allowsUnknownRetry : Operation → Bool
  | .call .. | .notify .. | .notifyAck .. => false
  | .withFlags operation _ => allowsUnknownRetry operation
  | _ => true

def containsDurableMutation (operations : List Operation) : Bool :=
  operations.any Operation.isMutation

structure CompoundResult where
  operations : List OperationResult
  version : Nat
  deriving DecidableEq, Repr

/-- The first operation that failed and was not allowed to. -/
def firstFailure (operations : List Operation) (reply : Reply) : Option Int :=
  ((operations.zip reply.operations).find? fun (operation, result) =>
    result.code < 0 && operation.flags &&& opFlagFailOk == 0).map fun entry => entry.2.code

/-! ## One attempt -/

/-- What does not change from attempt to attempt. -/
structure Call where
  operations : List Operation
  mutation : Bool
  /-- The incarnation of the client, unless there is no randomness to choose it. -/
  incarnation : Except Error Int
  limits : MessageLimits
  features : Nat

def Call.routeHash (call : Call) : Option Nat := call.operations.head?.bind Operation.routeHash

def Call.clientIncarnation (call : Call) : Int := call.incarnation.toOption.getD 0

def Call.retryUnknown (call : Call) : Bool := call.operations.all allowsUnknownRetry

/-- What the attempts pass on. -/
structure Loop where
  attempt : Nat
  target : Target
  transactionId : Nat
  flags : Nat
  priorUnknown : Option UnknownCause
  deriving DecidableEq, Repr

/-- The answers to one attempt. -/
structure Attempt where
  closed : Bool
  options : OptionsView
  looks : List Look
  /-- Looking up the primary's session. -/
  session : Except Error Unit
  /-- The global id of the authority that is in the slot, if there is one. -/
  authority : Option UInt64
  /-- The clock can represent the deadline of the attempt. -/
  representable : Bool
  rounds : List Round
  /-- The client is closed once the submission has failed. -/
  closedAfter : Bool
  /-- Another primary shows up in time. -/
  primaryChanged : Bool
  refresh : Refresh
  /-- The transaction counter after a redirect. -/
  nextTransaction : Nat

/-- What an attempt leaves in the log. -/
inductive Event where
  | encoded (attempt : Nat) (message : Message)
  | reported (result : SessionResult)
  | validated (reply : Reply)
  deriving DecidableEq

/-- The result of a call, or nothing if it panics. -/
abbrev Outcome := Option (Except Error CompoundResult)

abbrev Step := Retry.Next Loop Outcome

def Step.fail (error : Error) : Step := .done (some (.error error))

def Loop.next (s : Loop) : Step := .again { s with attempt := s.attempt + 1 }

/-- The error of a reply that is not what was asked for. -/
def Call.malformed (call : Call) : Error :=
  if call.mutation then .outcomeUnknown .transport else .malformedReply

def Call.request (call : Call) (s : Loop) (route : Route) (globalId : UInt64) : Request where
  mapEpoch := route.epoch
  pg := route.placement.pg
  shard := route.placement.primaryShard
  sharded := route.placement.sharded
  objectHash := route.placement.rawHash
  poolId := s.target.poolId
  object := s.target.object
  locator := s.target.locator
  nameSpace := s.target.nameSpace
  snapshot := s.target.snapshot
  snapshotSequence := s.target.snapshotSequence
  writeSnapshots := s.target.writeSnapshots
  transactionId := s.transactionId
  clientGlobalId := globalId
  clientIncarnation := call.clientIncarnation
  retry := s.attempt
  flags := s.flags
  features := call.features
  operations := call.operations

/-- After a submission that failed. -/
def Attempt.recover (call : Call) (s : Loop) (a : Attempt) (error : Error) : Step :=
  let keep (error : Error) : Step := .fail (preserveUnknown error s.priorUnknown)
  if error = .queueSaturated then keep error
  else if a.closedAfter then keep .closed
  else
    match error with
    | .outcomeUnknown cause =>
      let cause := s.priorUnknown.getD cause
      if call.retryUnknown && a.primaryChanged then { s with priorUnknown := some cause }.next
      else .fail (.outcomeUnknown cause)
    | .timeout | .cancelled => keep error
    | _ =>
      match bestEffortRefreshMap a.refresh with
      | .error error => keep error
      | .ok () => s.next

def Loop.redirected (s : Loop) (redirect : Redirect) : Loop :=
  { s with
    target :=
      { s.target with
        poolId := redirect.pool
        object := if redirect.object.isEmpty then s.target.object else redirect.object
        locator := redirect.locator
        nameSpace := redirect.nameSpace }
    flags := s.flags ||| flagRedirected ||| flagIgnoreCache ||| flagIgnoreOverlay }

/-- After the map is refreshed, the operations are tried again. -/
def Attempt.tryAgain (s : Loop) (a : Attempt) : Step :=
  match bestEffortRefreshMap a.refresh with
  | .error error => .fail error
  | .ok () => s.next

/-- After a reply for the right object.  Nothing is unknown any more. -/
def Attempt.settle (call : Call) (s : Loop) (a : Attempt) (reply : Reply) : Step :=
  let s := { s with priorUnknown := none }
  match reply.redirect with
  | some redirect =>
    let s := s.redirected redirect
    if call.mutation then
      match checkedAdd u64Max a.nextTransaction 1 with
      | none => .fail .limitExceeded
      | some _ => { s with transactionId := a.nextTransaction }.next
    else s.next
  | none =>
    if reply.result = -11 then a.tryAgain s
    else if !validateOperations reply call.operations then .fail call.malformed
    else if reply.operations.any (·.code == -11) then a.tryAgain s
    else if containsDurableMutation call.operations && !validateDurableReply reply then
      .fail (.outcomeUnknown .transport)
    else if reply.result < 0 then .fail (.wireErrno reply.result)
    else
      match firstFailure call.operations reply with
      | some code => .fail (.wireErrno code)
      | none => .done (some (.ok ⟨reply.operations, reply.version⟩))

/-- After a submission that was answered. -/
def Attempt.conclude (call : Call) (s : Loop) (a : Attempt) (route : Route) (message : Message) :
    List Event × Step :=
  match decodeReply message call.limits with
  | .error _ => ([], .fail call.malformed)
  | .ok reply =>
    if !validateTarget reply s.target.object route.placement.pg s.attempt then
      ([], .fail call.malformed)
    else ([.validated reply], a.settle call s reply)

/-- The request of an attempt is encoded and submitted. -/
def Attempt.send (call : Call) (s : Loop) (a : Attempt) (route : Route) : List Event × Step :=
  let globalId := a.authority.getD 0
  match encodeRequest (call.request s route globalId) call.limits with
  | none => ([], .done none)
  | some (.error error) => ([], .fail (mapMessageError error))
  | some (.ok message) =>
    if !a.representable then ([.encoded s.attempt message], .fail .limitExceeded)
    else
      let (reports, result) := submitRouted call.mutation a.rounds
      let log := .encoded s.attempt message :: reports.map .reported
      match result with
      | .error error => (log, a.recover call s error)
      | .ok reply =>
        let (more, next) := a.conclude call s route reply
        (log ++ more, next)

def Attempt.run (call : Call) (s : Loop) (a : Attempt) : List Event × Step :=
  let keep (error : Error) : Step := .fail (preserveUnknown error s.priorUnknown)
  if a.closed then ([], keep .closed)
  else
    match checkOptions a.options with
    | .error error => ([], keep error)
    | .ok () =>
      match waitForUsableRoute s.target call.routeHash a.looks with
      | .error error => ([], keep error)
      | .ok route =>
        let flags := if s.attempt > 0 then s.flags ||| flagRetry else s.flags
        match a.session with
        | .error error => ([], .fail error)
        | .ok () => a.send call { s with flags } route

/-! ### What an attempt can do -/

/-- The request that an attempt encodes. -/
def Attempt.requestFor (call : Call) (s : Loop) (a : Attempt) (route : Route) : Request :=
  call.request s route (a.authority.getD 0)

/-- What the log says of a request that was submitted. -/
def Attempt.submission (call : Call) (s : Loop) (a : Attempt) (message : Message) : List Event :=
  .encoded s.attempt message :: (submitRouted call.mutation a.rounds).1.map .reported

/-- The ways an attempt ends that gets as far as sending. -/
inductive Attempt.Sent (call : Call) (s : Loop) (a : Attempt) (route : Route) :
    List Event × Step → Prop where
  | unencoded (outcome : Outcome)
      (fails : ∀ message, encodeRequest (a.requestFor call s route) call.limits ≠
        some (.ok message)) :
      Sent call s a route ([], .done outcome)
  | late (message : Message)
      (encoded : encodeRequest (a.requestFor call s route) call.limits = some (.ok message))
      (late : a.representable = false) :
      Sent call s a route ([.encoded s.attempt message], .fail .limitExceeded)
  | failed (message : Message) (error : Error)
      (encoded : encodeRequest (a.requestFor call s route) call.limits = some (.ok message))
      (submitted : (submitRouted call.mutation a.rounds).2 = .error error) :
      Sent call s a route (a.submission call s message, a.recover call s error)
  | answered (message reply : Message)
      (encoded : encodeRequest (a.requestFor call s route) call.limits = some (.ok message))
      (submitted : (submitRouted call.mutation a.rounds).2 = .ok reply) :
      Sent call s a route
        (a.submission call s message ++ (a.conclude call s route reply).1,
          (a.conclude call s route reply).2)

theorem Attempt.sent (call : Call) (s : Loop) (a : Attempt) (route : Route) :
    a.Sent call s route (a.send call s route) := by
  unfold Attempt.send
  dsimp only
  split
  next encoded => exact .unencoded none fun _ other => nomatch encoded.symm.trans other
  next encoded => exact .unencoded _ fun _ other => nomatch encoded.symm.trans other
  rename_i message encoded
  split
  next late => exact .late message encoded (by simpa using late)
  split
  next error submitted => exact .failed message error encoded submitted
  next reply submitted => exact .answered message reply encoded submitted

/-- The ways an attempt ends: with the unknown outcome preserved, with the error of looking up
the session, or by sending. -/
inductive Attempt.Ran (call : Call) (s : Loop) (a : Attempt) : List Event × Step → Prop where
  | kept (error : Error) : Ran call s a ([], .fail (preserveUnknown error s.priorUnknown))
  | noSession (error : Error) (missing : a.session = .error error) :
      Ran call s a ([], .fail error)
  | sent (flags : Nat) (route : Route) :
      Ran call s a (a.send call { s with flags } route)

theorem Attempt.ran (call : Call) (s : Loop) (a : Attempt) : a.Ran call s (a.run call s) := by
  unfold Attempt.run
  dsimp only
  split
  · exact .kept _
  split
  · exact .kept _
  · split
    · exact .kept _
    next route _ =>
      split
      next error missing => exact .noSession error missing
      · exact .sent _ route

/-! ## The call -/

def Call.start (call : Call) (target : Target) (transactionId : Nat) : Loop where
  attempt := 0
  target :=
    if call.mutation then target else { target with snapshotSequence := 0, writeSnapshots := [] }
  transactionId := transactionId
  flags :=
    (if call.routeHash.isSome then flagPgOp ||| flagIgnoreOverlay else 0)
      ||| (if call.operations.length > 1 then flagReturnVector else 0)
  priorUnknown := none

def giveUp (s : Loop) : Outcome := some (.error (preserveUnknown .recoveryExhausted s.priorUnknown))

/-- Carries out a list of operations. -/
def executeRouted (call : Call) (target : Target) (transactionId : Nat)
    (attempts : Vector Attempt maxAttempts) : List Event × Outcome :=
  match call.incarnation with
  | .error error => ([], some (.error error))
  | .ok _ =>
    if call.operations.tail.any fun operation => operation.routeHash != call.routeHash then
      ([], some (.error .limitExceeded))
    else
      Retry.run (Attempt.run call) giveUp (call.start target transactionId) attempts.toList

end RadosRs.Osd
