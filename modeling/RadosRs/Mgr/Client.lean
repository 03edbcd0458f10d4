import RadosRs.Lib.Retry
import RadosRs.Types
import RadosRs.Msgr.Message
import RadosRs.Msgr.Session.State

/-!
# Commands to the active manager

`command` sends a command to the manager that is active, in at most a configured
number of attempts.  An attempt reads the target from the monitor's maps, opens a
session to it unless there is one already, and submits the command.  While the
answer is awaited four things may give the submission up: the caller cancels, the
deadline passes, the client is closed, or another manager becomes active.  The
session is then told to cancel the request, and what it says to that decides.

What the surroundings decide is read from the fields of `Turn`, `Opening` and
`Attempt`, in the order in which the code asks for it.  The event log tells which
attempts were submitted and what the session said of them in the end.
-/

namespace RadosRs.Mgr

open Bytes Fixed Wire Msgr
open Session (SessionError)

/-! ## Messages -/

def messageMgrCommand : Nat := 0x709
def messageMgrCommandReply : Nat := 0x70a

/-- The status is kept as the bytes that were sent. -/
structure CommandReply where
  result : Int
  status : List UInt8
  data : List UInt8
  deriving DecidableEq, Repr

inductive MessageError where
  | wire (error : WireError)
  | malformed (reason : String)
  deriving DecidableEq, Repr

def encodeCommand (fsid : List UInt8) (command : List (List UInt8)) (input : List UInt8)
    (maxBytes : Nat) : Except MessageError Message :=
  if maxBytes == 0 || command.isEmpty || input.length > maxBytes || command.length > u32Max then
    .error (.wire .limitExceeded)
  else
    let encoder := ((Encoder.new maxBytes).raw fsid).u32 command.length
    match (command.foldl Encoder.blob encoder).finish with
    | .error error => .error (.wire error)
    | .ok front =>
      if front.length + input.length > maxBytes || front.length > u32Max
          || input.length > u32Max then .error (.wire .limitExceeded)
      else .ok {
        header := { messageType := messageMgrCommand, version := 1 }
        lengths := { front := front.length, data := input.length }
        front
        data := input }

def validateMessagePayload (message : Message) (messageType version compat maxBytes : Nat) :
    Except MessageError Unit :=
  if maxBytes == 0 || message.front.length + message.data.length > maxBytes then
    .error (.wire .limitExceeded)
  else if message.header.messageType != messageType || message.header.version != version
      || message.header.compatVersion != compat || !message.middle.isEmpty then
    .error (.malformed "message payload")
  else if message.front.length > u32Max || message.data.length > u32Max then
    .error (.wire .limitExceeded)
  else if message.lengths != { front := message.front.length, data := message.data.length } then
    .error (.malformed "message payload")
  else .ok ()

def decodeCommandReply (message : Message) (maxBytes : Nat) : Except MessageError CommandReply := do
  validateMessagePayload message messageMgrCommandReply 1 1 maxBytes
  let (result, decoder) := (Decoder.new message.front maxBytes).i32
  let (status, decoder) := decoder.blob
  decoder.finish.mapError .wire
  if decoder.remaining != 0 then throw (.malformed "manager command reply")
  return ⟨result, status, message.data⟩

/-! ## Targets -/

inductive ManagerError where
  | closed
  | invalidConfig
  | noActiveManager
  | identityUnavailable
  | unsupportedManagerFeatures
  | session (error : SessionError)
  | message (error : MessageError)
  | wireErrno (code : Int)
  deriving DecidableEq, Repr

/-- The active manager, as far as it is compared. -/
structure ActiveTarget where
  gid : Nat
  name : List UInt8
  address : List UInt8
  deriving DecidableEq, Repr

def sameTarget (left right : ActiveTarget) : Bool := left == right

/-- What the monitor has published. -/
structure Snapshot where
  fsid : Option (List UInt8)
  target : Option ActiveTarget
  unsupportedFeatures : Bool
  deriving DecidableEq, Repr

def currentTarget (snapshot : Snapshot) : Except ManagerError (ActiveTarget × List UInt8) :=
  match snapshot.fsid with
  | none => .error .identityUnavailable
  | some fsid =>
    if snapshot.unsupportedFeatures then .error .unsupportedManagerFeatures
    else
      match snapshot.target with
      | none => .error .noActiveManager
      | some target => .ok (target, fsid)

/-! ## One submission -/

/-- What the session does with a request: whether it admits it, whether its owner is gone
when the request is cancelled, and the result that it leaves, if it leaves one. -/
structure Submit where
  admitted : Except SessionError Unit
  orphaned : Bool
  result : Option (Except SessionError (Option Message))
  deriving DecidableEq

/-- What the session's `submit` returns, cancelled or not. -/
def Submit.returned (submit : Submit) : Except SessionError Message :=
  match submit.admitted with
  | .error error => .error error
  | .ok () =>
    match submit.result.getD (.error (if submit.orphaned then .outcomeUnknown else .closed)) with
    | .error error => .error error
    | .ok none => .error .malformed
    | .ok (some reply) => .ok reply

def classifyCancelResult (result : Except SessionError Message) : ManagerError :=
  if result = .error .outcomeUnknown then .session .outcomeUnknown else .session .cancelled

/-- What wakes a submission up. -/
inductive Wake where
  | finished
  | closed
  | deadline
  | poll (canceled : Bool)
  | tick (snapshot : Snapshot)
  deriving DecidableEq

/-- One turn of the wait: the options before it, what wakes it up, and what the session has to
say if the submission is finished or given up. -/
structure Turn where
  options : OptionsView
  wake : Wake
  submit : Submit
  deriving DecidableEq

/-- What the session's `submit` returned, if it did, and what becomes of it. -/
abbrev Reported (α : Type) := List (Except SessionError Message) × α

/-- What becomes of a submission that is given up because the client is closed or the target
has changed. -/
def afterGivingUp (returned : Except SessionError Message)
    (otherwise : Except ManagerError (Option Message)) : Except ManagerError (Option Message) :=
  if returned = .error .outcomeUnknown then .error (.session .outcomeUnknown) else otherwise

/-- One turn of the wait for the result. -/
def Turn.run (target : ActiveTarget) (turn : Turn) :
    Reported (Retry.Next Unit (Except ManagerError (Option Message))) :=
  let returned := turn.submit.returned
  let cancel : Except ManagerError (Option Message) := .error (classifyCancelResult returned)
  if turn.options.canceled then ([returned], .done cancel)
  else if turn.options.expired then ([returned], .done cancel)
  else
    match turn.wake with
    | .finished => ([returned], .done ((returned.map some).mapError .session))
    | .closed => ([returned], .done (afterGivingUp returned (.error .closed)))
    | .deadline => ([returned], .done cancel)
    | .poll canceled => if canceled then ([returned], .done cancel) else ([], .again ())
    | .tick snapshot =>
      match currentTarget snapshot with
      | .ok (current, _) =>
        if sameTarget current target then ([], .again ())
        else ([returned], .done (afterGivingUp returned (.ok none)))
      | .error _ => ([returned], .done (afterGivingUp returned (.ok none)))

/-- Waits for the result of a submission.  When no more turns are given the task that submits
the request is gone without a result. -/
def submitPendingAware (target : ActiveTarget) (turns : List Turn) :
    Reported (Except ManagerError (Option Message)) :=
  Retry.run (fun _ turn => turn.run target) (fun _ => .error (.session .disconnected)) () turns

/-! ## One attempt -/

/-- The answers to opening a session: the slot of the client, the options, the session that is
created, and the published target and the slot after that. -/
structure Opening where
  closed : Bool
  cached : Option ActiveTarget
  options : OptionsView
  created : Except ManagerError Unit
  snapshot : Snapshot
  closedAfter : Bool

def getSession (target : ActiveTarget) (opening : Opening) : Except ManagerError Unit :=
  if opening.closed then .error .closed
  else if opening.cached.any (sameTarget · target) then .ok ()
  else if opening.options.canceled || opening.options.expired then .error (.session .cancelled)
  else
    match opening.created with
    | .error error => .error error
    | .ok () =>
      match currentTarget opening.snapshot with
      | .error error => .error error
      | .ok (current, _) =>
        if !sameTarget current target then .error .noActiveManager
        else if opening.closedAfter then .error .closed
        else .ok ()

/-- How the wait between two attempts ends. -/
inductive Waited where
  | elapsed
  | deadline
  | canceled
  | closed
  deriving DecidableEq

def waitRetry (options : OptionsView) (ends : Waited) : Except ManagerError Unit :=
  if options.canceled || options.expired then .error (.session .cancelled)
  else
    match ends with
    | .elapsed => .ok ()
    | .deadline | .canceled => .error (.session .cancelled)
    | .closed => .error .closed

/-- The answers to one attempt. -/
structure Attempt where
  closed : Bool
  options : OptionsView
  snapshot : Snapshot
  opening : Opening
  turns : List Turn
  waitOptions : OptionsView
  waited : Waited

/-- What does not change from attempt to attempt. -/
structure Call where
  command : List (List UInt8)
  input : List UInt8
  maxBytes : Nat
  maxAttempts : Nat
  /-- The counter of transaction ids when the call begins. -/
  transactionId : Nat

structure Loop where
  attempt : Nat
  lastError : Option ManagerError
  deriving DecidableEq

/-- What an attempt leaves in the log. -/
inductive Event where
  | submitted (request : Message)
  | returned (result : Except SessionError Message)
  deriving DecidableEq

/-- The reply, with the error that the manager reports in it. -/
abbrev Outcome := Except ManagerError (CommandReply × Option ManagerError)

abbrev Step := Retry.Next Loop Outcome

/-- The next attempt, after a wait. -/
def Attempt.wait (s : Loop) (a : Attempt) (error : ManagerError) : Step :=
  match waitRetry a.waitOptions a.waited with
  | .error error => .done (.error error)
  | .ok () => .again ⟨s.attempt + 1, some error⟩

/-- The next attempt, unless this is the last one. -/
def Attempt.retry (call : Call) (s : Loop) (a : Attempt) (error : ManagerError) : Step :=
  if s.attempt + 1 < call.maxAttempts then a.wait s error else .done (.error error)

/-- What the caller gets of a reply. -/
def Call.conclude (call : Call) (reply : Message) : Outcome :=
  if reply.header.transactionId ≠ call.transactionId then
    .error (.message (.malformed "manager command reply transaction"))
  else
    match decodeCommandReply reply call.maxBytes with
    | .error error => .error (.message error)
    | .ok reply =>
      .ok (reply, if reply.result < 0 then some (.wireErrno reply.result) else none)

/-- After a submission. -/
def Attempt.settle (call : Call) (s : Loop) (a : Attempt) :
    Except ManagerError (Option Message) → Step
  | .ok none => a.retry call s .noActiveManager
  | .ok (some reply) => .done (call.conclude reply)
  | .error (.session .outcomeUnknown) => .done (.error (.session .outcomeUnknown))
  | .error .closed => .done (.error .closed)
  | .error error => a.retry call s error

def Attempt.submit (call : Call) (s : Loop) (a : Attempt) (target : ActiveTarget)
    (request : Message) : List Event × Step :=
  let (reports, result) := submitPendingAware target a.turns
  (.submitted request :: reports.map .returned, a.settle call s result)

def Attempt.run (call : Call) (s : Loop) (a : Attempt) : List Event × Step :=
  if a.closed then ([], .done (.error .closed))
  else if a.options.canceled || a.options.expired then ([], .done (.error (.session .cancelled)))
  else
    match currentTarget a.snapshot with
    | .error .noActiveManager => ([], a.wait s .noActiveManager)
    | .error error => ([], .done (.error error))
    | .ok (target, fsid) =>
      match encodeCommand fsid call.command call.input call.maxBytes with
      | .error error => ([], .done (.error (.message error)))
      | .ok message =>
        match getSession target a.opening with
        | .error .noActiveManager => ([], a.wait s .noActiveManager)
        | .error .closed => ([], .done (.error .closed))
        | .error error => ([], a.retry call s error)
        | .ok () =>
          a.submit call s target
            { message with
              header := { message.header with transactionId := call.transactionId } }

/-! ## The call -/

def nextTransactionId (closed : Bool) (nextTid : Nat) : Except ManagerError Nat :=
  if closed then .error .closed
  else if nextTid = 0 then .error (.session .transitionLimit)
  else .ok nextTid

/-- Sends a command to the active manager.  `closed` tells whether the client is closed when
the call begins. -/
def command (closed : Bool) (call : Call) (attempts : Vector Attempt call.maxAttempts) :
    List Event × Outcome :=
  if call.command.isEmpty then ([], .error .invalidConfig)
  else
    match nextTransactionId closed call.transactionId with
    | .error error => ([], .error error)
    | .ok _ =>
      Retry.run (Attempt.run call) (fun s => .error (s.lastError.getD .noActiveManager))
        ⟨0, none⟩ attempts.toList

end RadosRs.Mgr
