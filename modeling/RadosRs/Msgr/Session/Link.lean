import RadosRs.Lib.Trace
import RadosRs.Msgr.Session.Machine

/-!
# The connection of a session

Next to the ledger, a session has a connection: the state it is in, the number of
the transport, the control messages that wait to be written, how often it has
tried to connect, and which credential it shows.  `Link` is this part of the
machine.

This module says what can happen to a connection and nothing about when it
happens.  `Link.Act` lists it, one act for each thing that the functions of the
machine do together, with what holds before it and the effects it puts out in
their order.  Failures of requests are left out; they belong to the ledger.
`Link.Sound` is what holds of every connection that a session can have.
-/

namespace RadosRs.Msgr.Session

/-- The part of a session that is about its connection. -/
@[ext] structure Link where
  state : State
  generation : Nat
  controls : List Control
  writeBusy : Bool
  connectPending : Bool
  terminalError : Option SessionError
  reconnectAttempts : Nat
  transitions : Nat
  renewal : RenewalState
  renewalPending : Bool
  credentialIdentity : Option Identity
  candidateCredentialIdentity : Option Identity
  credentialChange : CredentialChange
  maxReconnectAttempts : Nat
  maxHandshakeTransitions : Nat

def Machine.link (m : Machine) : Link where
  state := m.state
  generation := m.generation
  controls := m.controls
  writeBusy := m.writeBusy
  connectPending := m.connectPending
  terminalError := m.terminalError
  reconnectAttempts := m.reconnectAttempts
  transitions := m.transitions
  renewal := m.renewal
  renewalPending := m.renewalPending
  credentialIdentity := m.credentialIdentity
  candidateCredentialIdentity := m.candidateCredentialIdentity
  credentialChange := m.credentialChange
  maxReconnectAttempts := m.config.maxReconnectAttempts
  maxHandshakeTransitions := m.config.maxHandshakeTransitions

/-- Everything but the failure of a request. -/
def Effect.linked : Effect → Bool
  | .failed .. => false
  | _ => true

/-- Events that tell of nothing that changes. -/
def Effect.inert : Effect → Bool
  | .event (.stateChanged _) => false
  | .event .credentialRenewal => false
  | .event .credentialRenewalCompleted => false
  | .event _ => true
  | _ => false

/-- The credential that an input reports for a new connection. -/
def Input.shows : Input → Option (Option Identity)
  | .connected _ _ identity => some identity
  | .initialConnection _ identity => some identity
  | _ => none

/-- A new connection that the session takes. -/
def Machine.takes (m : Machine) : Input → Bool
  | .connected generation _ _ => generation == m.generation && m.connectPending
  | .initialConnection _ _ => m.state == .disconnected && !m.connectPending
  | _ => false

/-- Inputs that may complete a request. -/
def Input.completes : Input → Bool
  | .writeComplete .. => true
  | .message .. => true
  | _ => false

namespace Link

/-- The effects of a change of state. -/
def enters (l : Link) (state : State) : List Effect :=
  if l.state = state then [] else [.event (.stateChanged state)]

/-- A handshake is under way. -/
def Handshaking (l : Link) : Prop := l.state = .connecting ∨ l.state = .reconnecting

/-- A new connection has been taken. -/
def accepted (l : Link) : Link :=
  { l with connectPending := false, terminalError := none, transitions := 0 }

/-- The credential of a new connection has been compared with that of the session. -/
def compared (l : Link) : Option Identity → Link
  | none => { l with candidateCredentialIdentity := none, credentialChange := .unknown }
  | some identity =>
    if l.credentialIdentity == some identity then { l with credentialChange := .unchanged }
    else
      { l with candidateCredentialIdentity := some identity, credentialChange := .changed }

/-- Nothing more will happen to this session by itself. -/
def ended (l : Link) (error : SessionError) : Link :=
  { l with
    terminalError := some error, writeBusy := false, controls := [], connectPending := false
    state := .disconnected }

/-- A renewal has been completed. -/
def renewed (l : Link) : Link :=
  { l with
    credentialIdentity := l.candidateCredentialIdentity
    candidateCredentialIdentity := none
    renewal := if l.renewalPending then .draining else .idle
    renewalPending := false
    credentialChange := .unknown }

/-- What a step with the given input may do to a connection. -/
inductive Act (input : Input) : Link → List Effect → Link → Prop
  | note {l : Link} {effect : Effect} (inert : effect.inert = true) : Act input l [effect] l
  /-- The transport is closed, or another one that is not wanted. -/
  | close {l : Link} {generation : Nat}
      (own : generation = l.generation
        ∨ ∃ globalId identity, input = .connected generation globalId identity) :
      Act input l [.closeTransport generation] l
  /-- The session ends with an error. -/
  | terminal {l : Link} (error : SessionError) (live : l.terminalError = none) :
      Act input l
        ([.terminal error, .event (.transportFault error), .closeTransport l.generation]
          ++ l.enters .disconnected)
        (l.ended error)
  /-- The connection breaks. -/
  | drop {l : Link} (live : l.terminalError = none) (running : l.state ≠ .stopped)
      (idle : l.connectPending = false) :
      Act input l ([.closeTransport l.generation] ++ l.enters .disconnected)
        { l with writeBusy := false, controls := [], state := .disconnected }
  | connect {l : Link} (down : l.state = .disconnected) (live : l.terminalError = none)
      (left : l.reconnectAttempts < l.maxReconnectAttempts) :
      Act input l [.connect (l.generation + 1)]
        { l with
          reconnectAttempts := l.reconnectAttempts + 1, connectPending := true
          generation := l.generation + 1 }
  /-- There is no generation left for another attempt. -/
  | exhaust {l : Link} (down : l.state = .disconnected) (live : l.terminalError = none)
      (left : l.reconnectAttempts < l.maxReconnectAttempts) :
      Act input l []
        { l with reconnectAttempts := l.reconnectAttempts + 1, connectPending := true }
  | connectFailed {l : Link} (dialing : l.connectPending = true) :
      Act input l [] { l with connectPending := false }
  | compare {l : Link} {identity : Option Identity} (shows : input.shows = some identity)
      (down : l.state = .disconnected) (idle : l.connectPending = false)
      (live : l.terminalError = none) :
      Act input l [] (l.compared identity)
  /-- A handshake begins on a new connection, with at most one message to write. -/
  | «open» {l : Link} {identity : Option Identity} {state : State} {controls : List Control}
      (shows : input.shows = some identity) (compared : l.compared identity = l)
      (handshake : state = .connecting ∨ state = .reconnecting)
      (down : l.state = .disconnected) (idle : l.connectPending = false)
      (live : l.terminalError = none) (first : l.transitions = 0) (few : controls.length ≤ 1) :
      Act input l [.event (.stateChanged state)]
        { l with generation := l.generation + 1, state, controls }
  /-- A connection that is ready from the start. -/
  | start {l : Link} (asked : input = .start true) (down : l.state = .disconnected)
      (idle : l.connectPending = false) (live : l.terminalError = none) :
      Act input l [.event (.stateChanged .ready)]
        { l with generation := l.generation + 1, state := .ready }
  /-- The handshake goes on, with one more message to write if that is allowed. -/
  | advance {l : Link} {state : State} {controls : List Control} (handshaking : l.Handshaking)
      (handshake : state = .connecting ∨ state = .reconnecting)
      (few : controls.length ≤ l.controls.length
        ∨ (controls.length ≤ l.controls.length + 1
          ∧ l.transitions + 1 ≤ l.maxHandshakeTransitions)) :
      Act input l (l.enters state)
        { l with transitions := l.transitions + 1, state, controls }
  | wait {l : Link} (handshaking : l.Handshaking) :
      Act input l [.event (.stateChanged .wait)] { l with state := .wait }
  | renew {l : Link} {generation : Nat} {control : Control}
      (asked : input = .control generation control) (handshaking : l.Handshaking)
      (reconnecting : l.renewal = .reconnecting) (changed : l.credentialChange = .changed) :
      Act input l
        ((if l.renewalPending then [.event .credentialRenewal] else [])
          ++ [.event .credentialRenewalCompleted])
        l.renewed
  | ready {l : Link} (handshaking : l.Handshaking) :
      Act input l [.event (.stateChanged .ready)]
        { l with reconnectAttempts := 0, state := .ready }
  | due {l : Link} (asked : input = .renewalDue l.generation) (idle : l.renewal = .idle) :
      Act input l [.event .credentialRenewal] { l with renewal := .draining }

  /-- A renewal is due while another one is under way. -/
  | pend {l : Link} (busy : l.renewal ≠ .idle) : Act input l [] { l with renewalPending := true }
  /-- Nothing is in flight any more, so that the connection can be replaced. -/
  | drained {l : Link} (asked : input = .dispatch) (ready : l.state = .ready)
      (draining : l.renewal = .draining) : Act input l [] { l with renewal := .reconnecting }
  | identify {l : Link} {globalId : Option Nat} {identity : Option Identity}
      (asked : input = .initialIdentity l.generation globalId identity)
      (ready : l.state = .ready) : Act input l [] { l with credentialIdentity := identity }
  /-- A control message waits to be written. -/
  | queue {l : Link} {control : Control} (ready : l.state = .ready) :
      Act input l [] { l with controls := l.controls ++ [control] }
  | sendControl {l : Link} {control : Control} {controls : List Control}
      (asked : input = .dispatch) (up : l.Handshaking ∨ l.state = .ready)
      (free : l.writeBusy = false) (first : l.controls = control :: controls) :
      Act input l [.sendControl l.generation control] { l with controls, writeBusy := true }
  | sendMessage {l : Link} {requestId : Nat} {message : Message} (asked : input = .dispatch)
      (ready : l.state = .ready) (free : l.writeBusy = false) :
      Act input l [.sendMessage l.generation requestId message] { l with writeBusy := true }
  | written {l : Link} {requestId : Option Nat} {result : Except SessionError Unit}
      (asked : input = .writeComplete l.generation requestId result) :
      Act input l [] { l with writeBusy := false }
  | admitted {l : Link} {requestId transactionId : Nat} (live : l.terminalError = none)
      (running : l.state ≠ .stopped) : Act input l [.admitted requestId transactionId] l
  | completed {l : Link} {requestId : Nat} {reply : Option Message}
      (asked : input.completes = true) : Act input l [.completed requestId reply] l
  | incoming {l : Link} {generation : Nat} {message : Message}
      (asked : input = .message generation message) : Act input l [.incoming message] l
  | stop {l : Link} (asked : input = .stop) (running : l.state ≠ .stopped) :
      Act input l [.event (.stateChanged .stopped), .closeTransport l.generation]
        { l with state := .stopped, connectPending := false }

theorem Act.notes {input : Input} {l : Link} {es : List Effect}
    (inert : ∀ e ∈ es, e.inert = true) : Trace (Act input) l es l := by
  induction es with
  | nil => exact .nil
  | cons e es ih =>
    obtain ⟨first, rest⟩ := List.forall_mem_cons.mp inert
    exact .cons (.note first) (ih rest)

/-- What holds of every connection a session can have. -/
structure Sound (l : Link) : Prop where
  dialing : l.connectPending = true → l.state = .disconnected ∧ l.terminalError = none
  ended : l.terminalError ≠ none → l.state = .disconnected ∨ l.state = .stopped
  down : l.state = .disconnected → l.controls = []
  attempts : l.reconnectAttempts ≤ l.maxReconnectAttempts

variable {input : Input} {l k : Link} {es : List Effect}

theorem Handshaking.ne (h : l.Handshaking) : l.state ≠ .disconnected ∧ l.state ≠ .stopped := by
  rcases h with h | h <;> simp [h]

theorem Sound.live (h : l.Sound) (up : l.state ≠ .disconnected ∧ l.state ≠ .stopped) :
    l.terminalError = none := by
  by_contra error
  exact (h.ended error).elim up.1 up.2

theorem Sound.idle (h : l.Sound) (down : l.state = .disconnected → l.terminalError ≠ none) :
    l.connectPending = false :=
  Bool.eq_false_iff.mpr fun dial => down (h.dialing dial).1 (h.dialing dial).2

/-- A connection that is up is neither dialing nor ended. -/
theorem Sound.of_handshaking (h : l.Sound) (up : l.Handshaking) :
    l.connectPending = false ∧ l.terminalError = none :=
  ⟨h.idle fun down => absurd down up.ne.1, h.live up.ne⟩

theorem Sound.of_up (idle : l.connectPending = false) (live : l.terminalError = none)
    (up : l.state ≠ .disconnected) (attempts : l.reconnectAttempts ≤ l.maxReconnectAttempts) :
    l.Sound where
  dialing dial := absurd dial (by simp [idle])
  ended error := absurd live error
  down here := absurd here up
  attempts := attempts

theorem Sound.accepted (h : l.Sound) (down : l.state = .disconnected) : l.accepted.Sound where
  dialing := nofun
  ended := nofun
  down := fun _ => h.down down
  attempts := h.attempts

theorem compared_eq (l : Link) (identity : Option Identity) :
    ∃ candidate change, l.compared identity
      = { l with candidateCredentialIdentity := candidate, credentialChange := change } := by
  unfold compared
  split
  · exact ⟨_, _, rfl⟩
  split
  · exact ⟨l.candidateCredentialIdentity, .unchanged, rfl⟩
  · exact ⟨_, _, rfl⟩

theorem Act.sound (act : Act input l es k) (h : l.Sound) : k.Sound := by
  have attempts := h.attempts
  cases act with
  | terminal => exact ⟨nofun, fun _ => .inl rfl, fun _ => rfl, attempts⟩
  | drop live running idle =>
    exact ⟨fun dial => absurd dial (by simp [idle]), fun error => absurd live error,
      fun _ => rfl, attempts⟩
  | connect here live left => exact ⟨fun _ => ⟨here, live⟩, h.ended, h.down, left⟩
  | exhaust here live left => exact ⟨fun _ => ⟨here, live⟩, h.ended, h.down, left⟩
  | connectFailed => exact ⟨nofun, h.ended, h.down, attempts⟩
  | @compare identity =>
    obtain ⟨candidate, change, same⟩ := l.compared_eq identity
    rw [same]
    exact ⟨h.dialing, h.ended, h.down, attempts⟩
  | «open» shows same handshake here idle live =>
    exact .of_up idle live (by rcases handshake with rfl | rfl <;> nofun) attempts
  | start asked here idle live => exact .of_up idle live nofun attempts
  | advance handshaking handshake =>
    obtain ⟨idle, live⟩ := h.of_handshaking handshaking
    exact .of_up idle live (by rcases handshake with rfl | rfl <;> nofun) attempts
  | wait handshaking =>
    obtain ⟨idle, live⟩ := h.of_handshaking handshaking
    exact .of_up idle live nofun attempts
  | ready handshaking =>
    obtain ⟨idle, live⟩ := h.of_handshaking handshaking
    exact .of_up idle live nofun (Nat.zero_le _)
  | queue ready =>
    exact ⟨h.dialing, h.ended, fun here => absurd (here.symm.trans ready) nofun, attempts⟩
  | sendControl asked up =>
    refine ⟨h.dialing, h.ended, fun here => ?_, attempts⟩
    rcases up with up | up
    · exact absurd here up.ne.1
    · cases here.symm.trans up
  | stop => exact ⟨nofun, fun _ => .inr rfl, nofun, attempts⟩
  | _ => exact ⟨h.dialing, h.ended, h.down, attempts⟩

end Link

end RadosRs.Msgr.Session
