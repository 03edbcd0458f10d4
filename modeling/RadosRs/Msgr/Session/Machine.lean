import Mathlib.Data.List.MinMax
import Mathlib.Data.Prod.Lex
import RadosRs.Lib.Mealy
import RadosRs.Msgr.Session.State

/-!
# The session machine

`Machine.step` takes a session through one input and returns the effects the
session asks for.  The effects are the only way it acts: it opens and closes no
connection and keeps no clock.

The source mutates the machine and appends to a vector of effects.  Here both
are one value, `Exec`, and every function takes it to the next one.  A function
that also reports whether to go on returns a flag with it, and `Exec.andThen` is
the test of that flag.
-/

namespace RadosRs.Msgr.Session

open Fixed

/-- A step under way: the machine as it stands and the effects put out so far. -/
structure Exec extends Machine where
  effects : List Effect

/-- A session before its first input. -/
def Machine.initial (config : Config) : Machine where
  toLedger := .empty
  config := config
  state := .disconnected
  generation := 0
  controls := []
  controlGeneration := 1
  incomingCount := 0
  writeBusy := false
  clientCookie := config.clientCookie
  serverCookie := config.serverCookie
  serverGlobalId := 0
  serverAddresses := []
  serverFeatures := 0
  globalSequence := max config.globalSequence config.clientIdent.globalSequence
  connectSequence := config.connectSequence
  authenticatedGlobalId := 0
  credentialIdentity := none
  candidateCredentialIdentity := none
  credentialChange := .unknown
  renewal := .idle
  renewalPending := false
  serverFlags := 0
  connectedOnce := false
  reconnectAttempts := 0
  transitions := 0
  connectPending := false
  terminalError := none
  replacementCookies := config.replacementCookies

/-- A new session, unless the configuration makes no sense. -/
def Machine.new (config : Config) : Except SessionError Machine :=
  if config.maxQueuedMessages == 0 || config.maxRetainedBytes == 0
      || config.maxInFlightTransactions == 0 || config.maxHandshakeTransitions == 0
      || config.limits.maxSegmentBytes == 0 || config.limits.maxFrameBytes == 0 then
    .error .malformed
  else if config.globalSequence != 0 && config.clientIdent.globalSequence != 0
      && config.globalSequence != config.clientIdent.globalSequence then
    .error .malformed
  else .ok (.initial config)

theorem Machine.new_eq_ok {config : Config} {m : Machine} (h : Machine.new config = .ok m) :
    m = .initial config := by
  unfold Machine.new at h
  split at h
  · cases h
  split at h
  · cases h
  · exact (Except.ok.inj h).symm

/-- The bytes a request is charged for, unless no transport would take it. -/
def Machine.admissionBytes (m : Machine) (message : Message) : Except SessionError Nat := do
  let front ← okOr .malformed (tryFrom u32Max message.front.length)
  let middle ← okOr .malformed (tryFrom u32Max message.middle.length)
  let data ← okOr .malformed (tryFrom u32Max message.data.length)
  let limits := m.config.limits
  if message.lengths.front != front || message.lengths.middle != middle
      || message.lengths.data != data || message.header.dataPrePaddingLength > data
      || front > limits.maxSegmentBytes || middle > limits.maxSegmentBytes
      || data > limits.maxSegmentBytes then
    throw .malformed
  let bytes ← okOr .malformed do
    let value ← checkedAdd u64Max messageHeaderSize front
    let value ← checkedAdd u64Max value middle
    checkedAdd u64Max value data
  let frame ← (message.encode limits).mapError SessionError.frame
  if !(CrcCodec.prepare frame limits).isOk || !(validateFrameSize frame limits).isOk then
    throw .malformed
  pure bytes

namespace Exec

def emit (x : Exec) (effect : Effect) : Exec :=
  { x with effects := x.effects ++ [effect] }

/-- An operation of the ledger, as part of a step. -/
def onLedger (x : Exec) (f : Ledger → Ledger) : Exec :=
  { x with toLedger := f x.toLedger }

/-- Goes on with `next` if a check passed, and with `failed` otherwise. -/
def branch (checked : Bool × Exec) (next failed : Exec → Exec) : Exec :=
  if checked.1 then next checked.2 else failed checked.2

/-- Goes on only if a check passed. -/
def andThen (checked : Bool × Exec) (next : Exec → Exec) : Exec := branch checked next id

def setState (x : Exec) (state : State) : Exec :=
  if x.state != state then { x with state }.emit (.event (.stateChanged state)) else x

/-! ## Failing requests -/

/-- Removes each of the requests and reports its error. -/
def failRequests (x : Exec) (requests : List (Nat × SessionError)) : Exec :=
  requests.foldl
    (fun x request =>
      (x.onLedger (·.removePending request.1)).emit (.failed request.1 request.2))
    x

/-- The error of a request that fails with everything else. -/
def errorOfAll (error : SessionError) (pending : Pending) : SessionError :=
  if pending.mayHaveExecuted && error != .outcomeUnknown then .outcomeUnknown else error

def failAll (x : Exec) (error : SessionError) : Exec :=
  let requests := x.pending.map fun p => Effect.failed p.requestId (errorOfAll error p)
  { x with toLedger := x.toLedger.cleared, effects := x.effects ++ requests }

def failTerminal (x : Exec) (error : SessionError) : Exec :=
  if x.terminalError.isSome then x
  else
    let x := { x with terminalError := some error }
    let x := x.emit (.terminal error)
    let x := x.emit (.event (.transportFault error))
    let x := { x with writeBusy := false, controls := [], connectPending := false }
    let x := x.emit (.closeTransport x.generation)
    let x := x.failAll error
    x.setState .disconnected

def invalidateControls (x : Exec) : Bool × Exec :=
  match checkedAdd u64Max x.controlGeneration 1 with
  | none => (false, x.failTerminal .transitionLimit)
  | some generation =>
    let requests := (x.pending.filter (·.control.isSome)).map fun p =>
      (p.requestId, if p.mayHaveExecuted then SessionError.outcomeUnknown else .disconnected)
    (true, { x with controlGeneration := generation }.failRequests requests)

def failSentUnknown (x : Exec) : Exec :=
  let requests := (x.pending.filter (·.sent)).map fun p =>
    (p.requestId, SessionError.outcomeUnknown)
  { x.failRequests requests with replay := [] }

def resetForNewIdentity (x : Exec) : Exec :=
  let x :=
    { x with
      serverCookie := 0
      serverFlags := 0
      connectSequence := 0
      lastInbound := 0
      nextOutbound := some 1
      nextTransactionId := some 1 }
  x.failAll .disconnected

/-! ## Losing and regaining the connection -/

def beginReconnect (x : Exec) : Exec :=
  if x.config.maxReconnectAttempts == 0
      || x.reconnectAttempts ≥ x.config.maxReconnectAttempts then
    x.failTerminal .reconnectExhausted
  else
    let x := { x with reconnectAttempts := x.reconnectAttempts + 1, connectPending := true }
    match checkedAdd u64Max x.generation 1 with
    | none => x.failTerminal .transitionLimit
    | some generation => { x with generation }.emit (.connect generation)

def fault (x : Exec) (error : SessionError) : Exec :=
  if x.terminalError.isSome || x.state == .stopped
      || (x.state == .disconnected && x.connectPending) then x
  else
    andThen x.invalidateControls fun x =>
      if error == .queueSaturated then x.failTerminal error
      else
        let x := x.emit (.event (.transportFault error))
        let x := x.emit (.closeTransport x.generation)
        let x := { x with writeBusy := false, controls := [] }
        let x :=
          if x.serverFlags &&& connectionFlagLossy != 0 then
            x.failSentUnknown.resetForNewIdentity
          else if x.config.reconnectPolicy == .failPending then x.failAll .disconnected
          else if x.serverCookie == 0 then x.failSentUnknown
          else x.onLedger (·.prepareReplay)
        (x.setState .disconnected).beginReconnect

def startTransport (x : Exec) (state : State) : Bool × Exec :=
  match checkedAdd u64Max x.generation 1 with
  | none => (false, x.failTerminal .transitionLimit)
  | some generation => (true, { x with generation }.setState state)

def stop (x : Exec) : Exec :=
  if x.state == .stopped then x
  else
    let x := (x.setState .stopped).failAll .closed
    let x := { x with connectPending := false }
    x.emit (.closeTransport x.generation)

/-! ## Checks that fault when they fail -/

def requireReady (x : Exec) : Bool × Exec :=
  if x.state == .ready then (true, x) else (false, x.fault .malformed)

def transitionAllowed (x : Exec) (expected : State) : Bool × Exec :=
  if x.state != expected then (false, x.fault .malformed)
  else
    let x := { x with transitions := x.transitions + 1 }
    if x.transitions > x.config.maxHandshakeTransitions then (false, x.fault .transitionLimit)
    else (true, x)

/-- An acknowledgment of something that was never sent is refused. -/
def acceptAcknowledgment (x : Exec) (sequence : Nat) : Bool × Exec :=
  if x.nextOutbound.any fun next => sequence != 0 && sequence ≥ next then
    (false, x.fault .malformed)
  else (true, x)

/-! ## Queueing control messages -/

def queueControl (x : Exec) (control : Control) : Exec :=
  if x.controls.length ≥ x.config.maxQueuedMessages then x.fault .queueSaturated
  else { x with controls := x.controls ++ [control] }

def queueClientIdent (x : Exec) : Exec :=
  x.queueControl
    (.clientIdent
      { x.config.clientIdent with cookie := x.clientCookie, globalSequence := x.globalSequence })

def queueReconnect (x : Exec) : Exec :=
  let x := { x with controls := [] }
  x.queueControl
    (.sessionReconnect
      { addresses := x.config.clientIdent.addresses
        clientCookie := x.clientCookie
        serverCookie := x.serverCookie
        globalSequence := x.globalSequence
        connectSequence := x.connectSequence
        messageSequence := x.lastInbound })

def refreshCookie (x : Exec) : Bool × Exec :=
  match x.replacementCookies with
  | [] => (false, x.failTerminal .disconnected)
  | cookie :: cookies =>
    let x := { x with replacementCookies := cookies }
    if cookie == 0 then (false, x.failTerminal .malformed)
    else (true, { x with clientCookie := cookie })

/-! ## Requests -/

/-- Enters an admitted request into the ledger. -/
def register (x : Exec) (requestId : Nat) (message : Message) (transactionId bytes : Nat)
    (oneWay control : Bool) : Exec :=
  let pending : Pending :=
    { requestId
      message := { message with header := { message.header with transactionId } }
      bytes
      sequence := 0
      sent := false
      mayHaveExecuted := false
      oneWay
      control := if control then some x.controlGeneration else none }
  (x.onLedger (·.insert pending)).emit (.admitted requestId transactionId)

/-- Whether the lane of a request has no room for it. -/
def saturated (x : Exec) (bytes : Nat) (control : Bool) : Bool :=
  if control then
    x.controlMessages ≥ maxControlMessages || bytes > maxControlBytes - x.controlBytes
  else
    x.pending.length - x.controlMessages ≥ x.config.maxQueuedMessages
      || bytes > x.config.maxRetainedBytes - x.retainedBytes

/-- Admits a request, or fails it on the spot. -/
def admitRequest (x : Exec) (requestId : Nat) (message : Message) (oneWay control : Bool) : Exec :=
  match x.terminalError with
  | some error => x.emit (.failed requestId error)
  | none =>
    if x.state == .stopped then x.emit (.failed requestId .closed)
    else
      match x.admissionBytes message with
      | .error _ => x.emit (.failed requestId .malformed)
      | .ok bytes =>
        if x.saturated bytes control || (x.find requestId).isSome then
          x.emit (.failed requestId .queueSaturated)
        else if message.header.transactionId == 0 then
          match x.takeTransactionId with
          | (none, l) =>
            ((x.onLedger fun _ => l).failTerminal .transitionLimit).emit
              (.failed requestId .transitionLimit)
          | (some transactionId, l) =>
            (x.onLedger fun _ => l).register requestId message transactionId bytes
              oneWay control
        else if (x.byTransaction message.header.transactionId).isSome then
          x.emit (.failed requestId .malformed)
        else
          x.register requestId message message.header.transactionId bytes oneWay control

/-- A reserved control message.  Only the acknowledgment of a backoff is one. -/
def admitControl (x : Exec) (requestId : Nat) (message : Message) (generation : Nat) : Exec :=
  if generation != x.controlGeneration || x.state != .ready then
    x.emit (.failed requestId .disconnected)
  else if message.header.messageType != 61 || message.header.version != 1
      || message.header.compatVersion > 1 || message.front.length < 29
      || message.front[28]? != some 2 || !message.middle.isEmpty || !message.data.isEmpty then
    x.emit (.failed requestId .unsupportedPayload)
  else x.admitRequest requestId message true true

def cancel (x : Exec) (requestId : Nat) : Exec :=
  match x.find requestId with
  | none => x
  | some pending =>
    (x.onLedger (·.removePending requestId)).emit
      (.failed requestId
        (if pending.mayHaveExecuted then .outcomeUnknown else .cancelled))

end Exec

/-- Replays come first, in order; then reserved control messages; then the rest. -/
def Pending.dispatchKey (p : Pending) : ℕ ×ₗ ℕ :=
  match p.sequence, p.control.isSome with
  | 0, true => toLex (1, 0)
  | 0, false => toLex (2, 0)
  | sequence, _ => toLex (0, sequence)

/-- A request under its first sequence number. -/
def Pending.numbered (p : Pending) (sequence : Nat) : Pending :=
  { p with
    sequence
    message := { p.message with header := { p.message.header with sequence } } }

/-- The pending requests that may be sent now, with their places in the list. -/
def Machine.candidates (m : Machine) : List (Pending × Nat) :=
  m.pending.zipIdx.filter fun entry =>
    !entry.1.sent
      && (entry.1.control.isSome
        || (m.renewal != .draining && m.inFlightCount < m.config.maxInFlightTransactions))

namespace Exec

/-- Hands the request at `index` to the transport. -/
def transmit (x : Exec) (index : Nat) (pending : Pending) : Exec :=
  let x := { x.onLedger (·.transmit index pending) with writeBusy := true }
  x.emit (.sendMessage x.generation pending.requestId pending.message)

/-- Sends the request that is first, under its number or else the next one. -/
def sendFirst (x : Exec) (index : Nat) (pending : Pending) : Exec :=
  if pending.sequence == 0 then
    match x.allocateSequence with
    | (none, _) => x.failTerminal .transitionLimit
    | (some sequence, l) => (x.onLedger fun _ => l).transmit index (pending.numbered sequence)
  else x.transmit index pending

def dispatch (x : Exec) : Exec :=
  if x.writeBusy || x.state == .disconnected || x.state == .wait || x.state == .stopped then x
  else
    match x.controls with
    | control :: controls =>
      { x with controls, writeBusy := true }.emit (.sendControl x.generation control)
    | [] =>
      if x.state != .ready then x
      else if x.renewal == .draining && x.controlMessages == 0 then
        if x.inFlightCount == 0 then { x with renewal := .reconnecting }.fault .renewal
        else x
      else
        match x.candidates.argmin fun entry => entry.1.dispatchKey with
        | none => x
        | some (pending, index) => x.sendFirst index pending

/-! ## The handshake -/

/-- Takes over the global id the connection was authenticated for.  Another one than
before starts the session afresh. -/
def identify (x : Exec) (authenticatedGlobalId : Option Nat) : Bool × Exec :=
  match authenticatedGlobalId with
  | none => (true, x)
  | some globalId =>
    let identityChanged :=
      x.authenticatedGlobalId != 0 && x.authenticatedGlobalId != globalId
    let x := { x with authenticatedGlobalId := globalId }
    match tryFrom i64Max globalId with
    | none => (false, x.failTerminal .malformed)
    | some globalId =>
      let clientIdent := { x.config.clientIdent with globalId }
      let x := { x with config := { x.config with clientIdent } }
      (true, if identityChanged then x.resetForNewIdentity else x)

/-- Notes whether the connection shows another credential than the session had. -/
def compareCredential (x : Exec) (credentialIdentity : Option Identity) : Exec :=
  match credentialIdentity with
  | none => { x with candidateCredentialIdentity := none, credentialChange := .unknown }
  | some identity =>
    if x.credentialIdentity == some identity then { x with credentialChange := .unchanged }
    else
      { x with candidateCredentialIdentity := some identity, credentialChange := .changed }

def connected (x : Exec) (generation : Nat) (authenticatedGlobalId : Option Nat)
    (credentialIdentity : Option Identity) : Exec :=
  let close (x : Exec) : Exec := x.emit (.closeTransport generation)
  if generation != x.generation || !x.connectPending then close x
  else
    let x := { x with connectPending := false, terminalError := none, transitions := 0 }
    match (if x.connectedOnce then checkedAdd u64Max x.globalSequence 1
        else some x.globalSequence) with
    | none => close (x.failTerminal .transitionLimit)
    | some globalSequence =>
      let x := { x with globalSequence, connectedOnce := true }
      branch (x.identify authenticatedGlobalId)
        (fun x =>
          let x := x.compareCredential credentialIdentity
          if x.serverCookie != 0 then
            match checkedAdd u64Max x.connectSequence 1 with
            | none => close (x.failTerminal .transitionLimit)
            | some connectSequence =>
              branch ({ x with connectSequence }.startTransport .reconnecting)
                (·.queueReconnect) close
          else
            branch x.refreshCookie
              (fun x =>
                branch ({ x with connectSequence := 0 }.startTransport .connecting)
                  (·.queueClientIdent) close)
              close)
        close

/-- A renewal is complete once the new connection shows another credential. -/
def completeRenewal (x : Exec) : Bool × Exec :=
  if x.renewal != .reconnecting then (true, x)
  else if x.credentialChange == .changed then
    let x :=
      { x with
        credentialIdentity := x.candidateCredentialIdentity
        candidateCredentialIdentity := none }
    let x :=
      if x.renewalPending then
        { x with renewalPending := false, renewal := .draining }.emit (.event .credentialRenewal)
      else { x with renewal := .idle }
    let x := { x with credentialChange := .unknown }
    (true, x.emit (.event .credentialRenewalCompleted))
  else (false, x.fault .renewal)

/-- The last act of a handshake. -/
def becomeReady (x : Exec) : Exec := { x with reconnectAttempts := 0 }.setState .ready

def serverIdent (x : Exec) (ident : ServerIdent) : Exec :=
  if x.state != .connecting then x.fault .malformed
  else
    let x := { x with transitions := x.transitions + 1 }
    let own := x.config.clientIdent
    if x.transitions > x.config.maxHandshakeTransitions then x.fault .transitionLimit
    else if ident.requiredFeatures &&& ~~~own.supportedFeatures != 0
        || own.requiredFeatures &&& ~~~ident.supportedFeatures != 0 then
      x.failTerminal .unsupportedFeature
    else if !ident.addresses.any (·.hasSameEndpoint own.targetAddress) then x.fault .malformed
    else
      let x :=
        { x with
          serverCookie := ident.cookie
          serverGlobalId := ident.globalId
          serverAddresses := ident.addresses
          serverFeatures := ident.supportedFeatures
          serverFlags := ident.flags }
      andThen x.failSentUnknown.completeRenewal (·.becomeReady)

def reset (x : Exec) (full : Bool) : Exec :=
  andThen x.invalidateControls fun x =>
    let x := x.emit (.event (.sessionReset full))
    let x := { x with serverCookie := 0, serverFlags := 0, connectSequence := 0, lastInbound := 0 }
    if full then
      andThen x.refreshCookie fun x =>
        let x := { x with nextOutbound := some 1, nextTransactionId := some 1 }
        ((x.failAll .disconnected).setState .connecting).queueClientIdent
    else ((x.onLedger (·.prepareReplay)).setState .connecting).queueClientIdent

def renewalDue (x : Exec) (generation : Nat) : Exec :=
  if generation != x.generation then x
  else if x.renewal == .idle then
    andThen x.invalidateControls fun x =>
      { x with renewal := .draining }.emit (.event .credentialRenewal)
  else { x with renewalPending := true }

/-! ## What the peer sends -/

/-- Hands a message to the request it answers, or upward. -/
def deliver (x : Exec) (message : Message) : Exec :=
  let answered := (x.byTransaction message.header.transactionId).filter fun requestId =>
    (x.find requestId).any fun pending => pending.mayHaveExecuted && !pending.oneWay
  match answered with
  | some requestId =>
    (x.onLedger (·.removePending requestId)).emit (.completed requestId (some message))
  | none =>
    if x.incomingCount ≥ x.config.maxQueuedMessages then x.failTerminal .queueSaturated
    else { x with incomingCount := x.incomingCount + 1 }.emit (.incoming message)

/-- Reports that messages before this one are missing. -/
def noteGap (x : Exec) (sequence : Nat) : Exec :=
  if x.lastInbound != u64Max && sequence != x.lastInbound + 1 then
    x.emit (.event (.sequenceGap sequence (x.lastInbound + 1)))
  else x

/-- Takes in a message that has not been received before. -/
def receive (x : Exec) (message : Message) : Exec :=
  let sequence := message.header.sequence
  let x := { x.noteGap sequence with lastInbound := sequence }
  let x := x.onLedger (·.trimReplay message.header.ackSequence)
  (x.queueControl (.ack sequence)).deliver message

def message (x : Exec) (message : Message) : Exec :=
  if x.state != .ready then x.fault .malformed
  else
    andThen (x.acceptAcknowledgment message.header.ackSequence) fun x =>
      if message.header.sequence ≤ x.lastInbound then
        x.emit (.event (.duplicateDropped message.header.sequence))
      else x.receive message

/-- The end of a resumed session's handshake. -/
def reconnectOk (x : Exec) (messageSequence : Nat) : Exec :=
  let x := (x.onLedger (·.trimReplay messageSequence)).onLedger (·.prepareReplay)
  andThen x.completeRenewal fun x => x.becomeReady.emit (.event (.reconnectOk messageSequence))

def control (x : Exec) (control : Control) : Exec :=
  match control with
  | .ack sequence =>
    andThen x.requireReady fun x =>
      andThen (x.acceptAcknowledgment sequence) fun x =>
        (x.onLedger (·.trimReplay sequence)).emit (.event (.acknowledged sequence))
  | .keepalive2 timestamp =>
    andThen x.requireReady (·.queueControl (.keepalive2Ack timestamp))
  | .keepalive2Ack _ => andThen x.requireReady (·.emit (.event .keepaliveAck))
  | .sessionReset full => andThen (x.transitionAllowed .reconnecting) (·.reset full)
  | .sessionRetry connectSequence =>
    andThen (x.transitionAllowed .reconnecting) fun x =>
      match checkedAdd u64Max connectSequence 1 with
      | none => x.failTerminal .transitionLimit
      | some next =>
        ({ x with connectSequence := next }.emit (.event (.retry next))).queueReconnect
  | .sessionRetryGlobal globalSequence =>
    andThen (x.transitionAllowed .reconnecting) fun x =>
      match checkedAdd u64Max (max x.globalSequence globalSequence) 1 with
      | none => x.failTerminal .transitionLimit
      | some next =>
        ({ x with globalSequence := next }.emit (.event (.retryGlobal next))).queueReconnect
  | .wait =>
    if x.state != .connecting && x.state != .reconnecting then x.fault .malformed
    else
      let x := { x with transitions := x.transitions + 1 }
      ((x.setState .wait).emit (.event .wait)).fault .disconnected
  | .sessionReconnectOk messageSequence =>
    andThen (x.transitionAllowed .reconnecting) fun x =>
      andThen (x.acceptAcknowledgment messageSequence) (·.reconnectOk messageSequence)
  | .serverIdent ident => x.serverIdent ident
  | .identMissingFeatures _ => x.failTerminal .unsupportedPayload
  | _ => x.fault .unsupportedPayload

/-! ## Inputs -/

def start (x : Exec) (ready : Bool) : Exec :=
  if x.state != .disconnected || x.connectPending || x.terminalError.isSome then x
  else if ready then ({ x with connectedOnce := true }.startTransport .ready).2
  else x.beginReconnect

def initialConnection (x : Exec) (authenticatedGlobalId : Option Nat)
    (credentialIdentity : Option Identity) : Exec :=
  if x.state == .disconnected && !x.connectPending then
    { x with connectPending := true }.connected x.generation authenticatedGlobalId
      credentialIdentity
  else x

def initialIdentity (x : Exec) (generation : Nat) (authenticatedGlobalId : Option Nat)
    (credentialIdentity : Option Identity) : Exec :=
  if generation == x.generation && x.state == .ready then
    { x with
      authenticatedGlobalId := authenticatedGlobalId.getD x.authenticatedGlobalId
      credentialIdentity }
  else x

/-- A one-way request is complete once it is written. -/
def writeComplete (x : Exec) (generation : Nat) (requestId : Option Nat)
    (result : Except SessionError Unit) : Exec :=
  if generation != x.generation then x
  else
    let x := { x with writeBusy := false }
    match result with
    | .error error => x.fault error
    | .ok () =>
      match requestId with
      | none => x
      | some requestId =>
        if (x.find requestId).any (·.oneWay) then
          (x.onLedger (·.removePending requestId)).emit (.completed requestId none)
        else x

def connectFailed (x : Exec) (generation : Nat) : Exec :=
  if generation == x.generation && x.connectPending then
    ({ x with connectPending := false }.emit
      (.event (.transportFault .disconnected))).beginReconnect
  else x

/-- What an input does to a step that has just begun. -/
def perform (x : Exec) : Input → Exec
  | .start ready => x.start ready
  | .initialConnection globalId identity => x.initialConnection globalId identity
  | .initialIdentity generation globalId identity =>
    x.initialIdentity generation globalId identity
  | .admitRequest requestId message oneWay => x.admitRequest requestId message oneWay false
  | .admitControl requestId message generation => x.admitControl requestId message generation
  | .cancel requestId => x.cancel requestId
  | .dispatch => x.dispatch
  | .writeComplete generation requestId result => x.writeComplete generation requestId result
  | .connected generation globalId identity => x.connected generation globalId identity
  | .connectFailed generation => x.connectFailed generation
  | .control generation control =>
    if generation == x.generation then x.control control else x
  | .message generation message =>
    if generation == x.generation then x.message message else x
  | .fault generation error => if generation == x.generation then x.fault error else x
  | .renewalDue generation => x.renewalDue generation
  | .consumeIncoming => { x with incomingCount := x.incomingCount - 1 }
  | .stop => x.stop

end Exec

/-- One step of the session. -/
def Machine.step (m : Machine) (input : Input) : Machine × List Effect :=
  let x := Exec.perform { m with effects := [] } input
  (x.toMachine, x.effects)

/-- A small session with a peer that lets it resume. -/
def sampleConfig : Config where
  limits := ⟨4096, 8192, 4, 64⟩
  maxQueuedMessages := 4
  maxRetainedBytes := 4096
  maxInFlightTransactions := 2
  maxReconnectAttempts := 3
  maxHandshakeTransitions := 4
  reconnectPolicy := .replayPending
  clientIdent :=
    { addresses := [], targetAddress := ⟨2, 0, 2, []⟩, globalId := 0, globalSequence := 0
      supportedFeatures := 0, requiredFeatures := 0, flags := 0, cookie := 0 }
  clientCookie := 5
  serverCookie := 7
  globalSequence := 0
  connectSequence := 0
  replacementCookies := []

theorem new_sample : Machine.new sampleConfig = .ok (.initial sampleConfig) := rfl

/-- A request that is sent, lost with the connection and cancelled. -/
def sampleInputs : List Input :=
  [.start true, .admitRequest 1 {} false, .dispatch, .fault 1 .disconnected, .cancel 1]

end RadosRs.Msgr.Session
