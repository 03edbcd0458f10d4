import RadosRs.Msgr.Session.Link
import RadosRs.Msgr.Session.Settle

/-!
# What the machine does about its connection

Every function of the machine that only deals with connections is a number of
acts of the connection, and the ledger makes quiet moves meanwhile.  `Exec.Runs`
states it for a part of a step, and there is one lemma for every function, which
is used in place of the function from here on.  Functions that only deal with
requests do nothing to the connection (`Exec.Stays`).

A function that sends, admits or answers a request is a number of acts as well
(`Exec.Goes`); what it does to the ledger is said with the turns.
-/

namespace RadosRs.Msgr.Session

open Fixed Link Ledger

namespace Exec

/-- The effects so far, failures of requests apart. -/
def linked (x : Exec) : List Effect := x.effects.filter Effect.linked

/-- From `x` to `y`, nothing has happened to the connection, and the ledger has moved quietly. -/
structure Stays (x y : Exec) : Prop extends Settles x y where
  link : y.link = x.link
  linked : y.linked = x.linked

variable {y z : Exec} (x : Exec)

theorem Stays.refl : x.Stays x := ⟨.refl x, rfl, rfl⟩

theorem Stays.trans {x : Exec} (h : x.Stays y) (k : y.Stays z) : x.Stays z :=
  ⟨h.toSettles.trans k.toSettles, k.link.trans h.link, k.linked.trans h.linked⟩

theorem Stays.of_eq {x : Exec} (link : y.link = x.link) (kept : y.kept = x.kept)
    (effects : y.effects = x.effects) : x.Stays y :=
  ⟨.of_eq kept (by rw [effects]), link, by rw [Exec.linked, effects, Exec.linked]⟩

theorem Stays.of_quiet {x : Exec} (move : Quiet x.toLedger [] y.toLedger)
    (link : y.link = x.link) (limits : y.limits = x.limits) (effects : y.effects = x.effects) :
    x.Stays y :=
  ⟨.of_quiet move (by rw [effects]) limits (congrArg Link.terminalError link), link,
    by rw [Exec.linked, effects, Exec.linked]⟩

theorem linked_emit {effect : Effect} (h : effect.linked = true) :
    (x.emit effect).linked = x.linked ++ [effect] := by
  simp [linked, emit, h]

theorem linked_setState (state : State) :
    (x.setState state).linked = x.linked ++ x.link.enters state := by
  unfold setState enters
  by_cases here : x.state = state
  · simp [here, Machine.link]
  · simp [here, Machine.link, linked, emit, Effect.linked]

theorem link_setState (state : State) : (x.setState state).link = { x.link with state } := by
  unfold setState
  split
  · rfl
  rename_i here
  have here : x.state = state := by simpa using here
  subst here
  rfl

/-! ## Requests -/

variable {error : SessionError}

@[simp] theorem filter_linked_failed (ps : List Pending) (error : Pending → SessionError) :
    (ps.map fun p => Effect.failed p.requestId (error p)).filter Effect.linked = [] := by
  simp [List.filter_map, Function.comp_def, Effect.linked]

theorem stays_failAll (known : error ≠ .outcomeUnknown) : x.Stays (x.failAll error) :=
  ⟨settles_failAll x known, rfl, by simp [linked, failAll]⟩

theorem stays_failRequests (select : Pending → Bool) (error : Pending → SessionError)
    (cause : x.toLedger.Wf → ∀ p ∈ x.pending, select p = true →
      (error p = .outcomeUnknown ↔ p.mayHaveExecuted = true)) :
    x.Stays (x.failRequests ((x.pending.filter select).map fun p => (p.requestId, error p))) := by
  refine ⟨settles_failRequests x select error cause, ?_, ?_⟩ <;> rw [failRequests_map]
  · rfl
  · simp [linked]

theorem stays_failSentUnknown : x.Stays x.failSentUnknown := by
  have failing := stays_failRequests x (·.sent) (fun _ => .outcomeUnknown)
    fun wf p hp sent => by simpa using (wf.each p hp).sent sent
  exact failing.trans (.of_quiet .forgetReplay rfl rfl rfl)

/-- Forgetting everything: the requests fail and the counters start over. -/
theorem stays_startOver (x y : Exec) (known : error ≠ .outcomeUnknown)
    (h : y = { x with nextOutbound := some 1, nextTransactionId := some 1 }) :
    x.Stays (y.failAll error) := by
  subst h
  exact .trans (stays_failAll x known) (.of_quiet (.renumber rfl) rfl rfl rfl)

theorem stays_resetForNewIdentity : x.Stays x.resetForNewIdentity := by
  let y := { x with serverCookie := 0, serverFlags := 0, connectSequence := 0, lastInbound := 0 }
  have forget : x.Stays y := .of_quiet .forgetInbound rfl rfl rfl
  exact forget.trans (stays_startOver y _ (by decide) rfl)

/-- What a fault does to the requests, once the control messages are gone. -/
theorem stays_fault_requests :
    x.Stays
      (if x.serverFlags &&& connectionFlagLossy != 0 then x.failSentUnknown.resetForNewIdentity
      else if x.config.reconnectPolicy == .failPending then x.failAll .disconnected
      else if x.serverCookie == 0 then x.failSentUnknown
      else x.onLedger (·.prepareReplay)) := by
  split
  · exact (stays_failSentUnknown x).trans (stays_resetForNewIdentity _)
  split
  · exact stays_failAll x (by decide)
  split
  · exact stays_failSentUnknown x
  · exact .of_quiet .unsend rfl rfl rfl

/-! ## Going -/

/-- From `x` to `y`, the connection has acted. -/
def Goes (input : Input) (x y : Exec) : Prop :=
  x.link.Sound → ∃ es, y.linked = x.linked ++ es ∧ Trace (Act input) x.link es y.link

/-- The same, and the ledger has moved quietly. -/
def Runs (input : Input) (x y : Exec) : Prop := x.link.Sound → x.Settles y ∧ Goes input x y

variable {input : Input} {x : Exec}

theorem Goes.of_act {es : List Effect} (act : Act input x.link es y.link)
    (effects : y.linked = x.linked ++ es) : Goes input x y :=
  fun _ => ⟨es, effects, .single act⟩

theorem Goes.sound (h : Goes input x y) (sound : x.link.Sound) : y.link.Sound := by
  obtain ⟨es, effects, acts⟩ := h sound
  exact Trace.invariant Sound Act.sound acts sound

theorem Goes.trans (h : Goes input x y) (k : Goes input y z) : Goes input x z := by
  intro sound
  obtain ⟨es, effects, acts⟩ := h sound
  obtain ⟨es', effects', acts'⟩ := k (h.sound sound)
  exact ⟨es ++ es', by rw [effects', effects, List.append_assoc], acts.trans acts'⟩

theorem Runs.goes (h : Runs input x y) : Goes input x y := fun sound => (h sound).2 sound

theorem Goes.of_same (link : y.link = x.link) (linked : y.linked = x.linked) :
    Goes input x y := fun _ => by
  refine ⟨[], by rw [linked, List.append_nil], ?_⟩
  rw [link]
  exact .nil

theorem Stays.goes (h : x.Stays y) : Goes input x y := .of_same h.link h.linked

theorem Stays.runs (h : x.Stays y) : Runs input x y := fun _ => ⟨h.toSettles, h.goes⟩

theorem Runs.refl (x : Exec) : Runs input x x := (Stays.refl x).runs

theorem Runs.trans (h : Runs input x y) (k : Runs input y z) : Runs input x z := by
  intro sound
  obtain ⟨settles, goes⟩ := h sound
  obtain ⟨settles', goes'⟩ := k (goes.sound sound)
  exact ⟨settles.trans settles', goes.trans goes'⟩

/-- A step may use what holds of the connection. -/
theorem Runs.of_sound (h : x.link.Sound → Runs input x y) : Runs input x y :=
  fun sound => h sound sound

theorem Runs.of_act {es : List Effect} {k : Link} (act : Act input x.link es k)
    (link : y.link = k) (effects : y.linked = x.linked ++ es) (settles : x.Settles y) :
    Runs input x y :=
  fun _ => ⟨settles, .of_act (link ▸ act) effects⟩

/-- An act that puts out nothing. -/
theorem Runs.silent (act : Act input x.link [] y.link) (kept : y.kept = x.kept)
    (effects : y.effects = x.effects) : Runs input x y := by
  refine .of_act act rfl ?_ (.of_eq kept (by rw [effects]))
  rw [linked, effects, List.append_nil, linked]

/-- An act that puts out an effect that is not about requests. -/
theorem Runs.emits {effect : Effect} (act : Act input x.link [effect] y.link)
    (hidden : effect.visible = false) (kept : y.kept = x.kept)
    (effects : y.effects = x.effects ++ [effect]) : Runs input x y := by
  have seen : effect.linked = true := by
    cases effect <;> simp_all [Effect.visible, Effect.linked]
  refine .of_act act rfl ?_ (.of_eq kept ?_)
  · simp [linked, effects, seen]
  · simp [effects, hidden]

variable {state : State}

/-- An act that puts out a change of state. -/
theorem Runs.enters (act : Act input x.link [.event (.stateChanged state)] { y.link with state })
    (other : y.state ≠ state) (kept : y.kept = x.kept) (effects : y.effects = x.effects) :
    Runs input x (y.setState state) := by
  have entered : y.link.enters state = [.event (.stateChanged state)] := if_neg other
  refine .of_act act (link_setState y state) ?_ ?_
  · rw [linked_setState, entered, linked, effects, linked]
  · exact .trans (.of_eq kept (by rw [effects])) (settles_setState y state)

theorem runs_note (x : Exec) (effect : Effect) (inert : effect.inert = true) :
    Runs input x (x.emit effect) :=
  .emits (.note inert) (by cases effect <;> simp_all [Effect.inert, Effect.visible]) rfl rfl

variable {generation : Nat}

theorem runs_close (x : Exec) (own : generation = x.generation
      ∨ ∃ globalId identity, input = .connected generation globalId identity) :
    Runs input x (x.emit (.closeTransport generation)) :=
  .emits (.close own) rfl rfl rfl

/-! ## Losing and regaining the connection -/

theorem runs_failTerminal (x : Exec) (known : error ≠ .outcomeUnknown) :
    Runs input x (x.failTerminal error) := by
  refine fun _ => ⟨settles_failTerminal x known, ?_⟩
  unfold failTerminal
  split
  · exact (Stays.refl x).goes
  rename_i live
  have live : x.link.terminalError = none := by simpa [Machine.link] using live
  let told : List Effect :=
    [.terminal error, .event (.transportFault error), .closeTransport x.generation]
  let y : Exec :=
    { x with
      terminalError := some error, writeBusy := false, controls := [], connectPending := false
      effects := x.effects ++ told }
  have stays : y.Stays (y.failAll error) := stays_failAll y known
  have emitted : y.linked = x.linked ++ told := by simp [linked, y, told, Effect.linked]
  have act : Act input x.link (told ++ x.link.enters .disconnected)
      ((y.failAll error).setState .disconnected).link := by
    rw [link_setState, stays.link]
    exact .terminal error live
  have moved : Goes input x ((y.failAll error).setState .disconnected) := by
    refine .of_act act ?_
    rw [linked_setState, stays.linked, stays.link, emitted, List.append_assoc]
    rfl
  simpa [emit, y, told] using moved

theorem generation_setState (x : Exec) (state : State) :
    (x.setState state).generation = x.generation :=
  congrArg Link.generation (link_setState x state)

/-- What is done with a transport after the session has ended. -/
theorem runs_failTerminal_close (x : Exec) (known : error ≠ .outcomeUnknown)
    (own : generation = x.generation) :
    Runs input x ((x.failTerminal error).emit (.closeTransport generation)) := by
  refine .trans (runs_failTerminal x known) (runs_close _ (.inl ?_))
  rw [own]
  unfold failTerminal
  split
  · rfl
  dsimp only
  rw [generation_setState]
  rfl

/-- A check that passes or ends the session, and does nothing to the connection before. -/
inductive Checks (x : Exec) : Bool × Exec → Prop
  | passes {y : Exec} (stays : x.Stays y) : Checks x (true, y)
  | ends {y : Exec} {error : SessionError} (stays : x.Stays y) (known : error ≠ .outcomeUnknown) :
      Checks x (false, y.failTerminal error)

variable {checked : Bool × Exec} {next : Exec → Exec}

theorem Checks.andThen (h : x.Checks checked)
    (passed : ∀ y, x.Stays y → Runs input x (next y)) : Runs input x (andThen checked next) := by
  cases h with
  | passes stays => exact passed _ stays
  | ends stays known => exact stays.runs.trans (runs_failTerminal _ known)

theorem Checks.branch (h : x.Checks checked) (own : generation = x.generation)
    (passed : ∀ y, x.Stays y → Runs input x (next y)) :
    Runs input x (branch checked next (·.emit (.closeTransport generation))) := by
  cases h with
  | passes stays => exact passed _ stays
  | ends stays known =>
    refine stays.runs.trans (runs_failTerminal_close _ known ?_)
    exact own.trans (congrArg Link.generation stays.link).symm

theorem checks_invalidateControls (x : Exec) : x.Checks x.invalidateControls := by
  unfold invalidateControls
  split
  · exact .ends (.refl x) (by decide)
  rename_i generation _
  refine .passes (.trans (y := { x with controlGeneration := generation }) (.of_eq rfl rfl rfl) ?_)
  refine stays_failRequests _ (·.control.isSome) _ fun _ p _ _ => ?_
  cases p.mayHaveExecuted <;> simp

theorem runs_beginReconnect (down : x.state = .disconnected) (live : x.terminalError = none) :
    Runs input x x.beginReconnect := by
  unfold beginReconnect
  split
  · exact runs_failTerminal x (by decide)
  rename_i allowed
  have left : x.reconnectAttempts < x.config.maxReconnectAttempts := by
    simp only [Bool.or_eq_true, beq_iff_eq, decide_eq_true_eq, not_or, not_le] at allowed
    exact allowed.2
  dsimp only
  split
  · refine .trans ?_ (runs_failTerminal _ (by decide))
    exact .silent (.exhaust down live left) rfl rfl
  rename_i generation next
  obtain rfl := checkedAdd_eq_some next
  exact .emits (.connect down live left) rfl rfl rfl

theorem runs_drop (live : x.link.terminalError = none) (running : x.link.state ≠ .stopped)
    (idle : x.link.connectPending = false) :
    let y := { x.emit (.closeTransport x.generation) with writeBusy := false, controls := [] }
    Runs input x
      (((if y.serverFlags &&& connectionFlagLossy != 0 then y.failSentUnknown.resetForNewIdentity
        else if y.config.reconnectPolicy == .failPending then y.failAll .disconnected
        else if y.serverCookie == 0 then y.failSentUnknown
        else y.onLedger (·.prepareReplay)).setState .disconnected).beginReconnect) := by
  intro y
  have stays := stays_fault_requests y
  have closed : x.Settles y := .of_eq rfl (by simp [y, emit, Effect.visible])
  generalize (if y.serverFlags &&& connectionFlagLossy != 0 then _ else _ : Exec) = z at stays ⊢
  have link : (z.setState .disconnected).link
      = { x.link with writeBusy := false, controls := [], state := .disconnected } := by
    rw [link_setState, stays.link]
    rfl
  refine .trans ?_ (runs_beginReconnect (congrArg Link.state link)
    ((congrArg Link.terminalError link).trans live))
  refine .of_act (.drop live running idle) link ?_
    ((closed.trans stays.toSettles).trans (settles_setState z _))
  have emitted : y.linked = x.linked ++ [.closeTransport x.generation] := linked_emit x rfl
  rw [linked_setState, stays.linked, stays.link, emitted, List.append_assoc]
  rfl

theorem runs_fault (x : Exec) (error : SessionError) : Runs input x (x.fault error) := by
  refine .of_sound fun sound => ?_
  unfold fault
  split
  · exact .refl x
  rename_i running
  simp only [Bool.or_eq_true, Bool.and_eq_true, beq_iff_eq, Option.isSome_iff_ne_none, ne_eq,
    not_or, not_not, not_and, Bool.not_eq_true] at running
  obtain ⟨⟨live, notStopped⟩, notDialing⟩ := running
  have idle : x.link.connectPending = false := by
    by_contra dial
    rw [Bool.not_eq_false] at dial
    exact absurd (notDialing (sound.dialing dial).1) (Bool.not_eq_false _ ▸ dial)
  refine (checks_invalidateControls x).andThen fun y stays => stays.runs.trans ?_
  split
  next saturated => exact runs_failTerminal y (by simp_all)
  refine .trans (runs_note y (.event (.transportFault error)) rfl) ?_
  generalize told : y.emit (.event (.transportFault error)) = z
  have link : z.link = x.link := by rw [← told, ← stays.link]; rfl
  exact runs_drop (link ▸ live) (link ▸ notStopped) (link ▸ idle)

theorem runs_stop (asked : input = .stop) (x : Exec) : Runs input x x.stop := by
  unfold stop
  split
  · exact .refl x
  rename_i running
  have running : x.link.state ≠ .stopped := by simpa [Machine.link] using running
  have stays := stays_failAll (x.setState .stopped) (show SessionError.closed ≠ _ by decide)
  have settles := (settles_setState x .stopped).trans stays.toSettles
  dsimp only
  generalize (x.setState .stopped).failAll .closed = y at stays settles ⊢
  have link := stays.link.trans (link_setState x .stopped)
  refine .of_act (.stop asked running)
    (congrArg (fun l : Link => { l with connectPending := false }) link) ?_
    (settles.trans (.of_eq rfl (by simp [emit, Effect.visible])))
  have generation : y.generation = x.generation := congrArg Link.generation link
  have told : y.linked = x.linked ++ [.event (.stateChanged .stopped)] := by
    rw [stays.linked, linked_setState, Link.enters, if_neg running]
  rw [linked_emit _ rfl]
  change y.linked ++ [.closeTransport y.generation] = _
  rw [told, generation, List.append_assoc]
  rfl

/-! ## Checks -/

theorem runs_requireReady (passed : x.state = .ready → Runs input x (next x)) :
    Runs input x (andThen x.requireReady next) := by
  unfold requireReady
  split
  next ready => exact passed (by simpa using ready)
  · exact runs_fault x _

theorem runs_acceptAcknowledgment (sequence : Nat) (passed : Runs input x (next x)) :
    Runs input x (andThen (x.acceptAcknowledgment sequence) next) := by
  unfold acceptAcknowledgment
  split
  · exact runs_fault x _
  · exact passed

/-- The handshake goes on without a message. -/
theorem runs_advance (handshaking : x.link.Handshaking) :
    Runs input x { x with transitions := x.transitions + 1 } := by
  have act : Act input x.link (x.link.enters x.link.state)
      { x with transitions := x.transitions + 1 }.link :=
    .advance handshaking handshaking (.inl le_rfl)
  rw [Link.enters, if_pos rfl] at act
  exact .silent act rfl rfl

/-- The peer has been answered in a handshake, and since then the ledger has moved and some
things have been noted. -/
structure Answers (x y : Exec) : Prop extends Settles x y where
  handshaking : x.link.Handshaking
  within : x.transitions + 1 ≤ x.config.maxHandshakeTransitions
  link : y.link = { x.link with transitions := x.transitions + 1 }
  linked : ∃ notes, (∀ e ∈ notes, e.inert = true) ∧ y.linked = x.linked ++ notes

theorem Answers.stays (h : Answers x y) (stays : y.Stays z) : Answers x z :=
  ⟨h.toSettles.trans stays.toSettles, h.handshaking, h.within, stays.link.trans h.link,
    stays.linked ▸ h.linked⟩

theorem Answers.note (h : Answers x y) (effect : Effect) (inert : effect.inert = true) :
    Answers x (y.emit effect) := by
  have quiet : y.Settles (y.emit effect) := by
    refine .of_eq rfl ?_
    cases effect <;> simp_all [emit, Effect.inert, Effect.visible]
  have seen : effect.linked = true := by cases effect <;> simp_all [Effect.inert, Effect.linked]
  obtain ⟨notes, inerts, linked⟩ := h.linked
  refine ⟨h.toSettles.trans quiet, h.handshaking, h.within, h.link, notes ++ [effect], ?_, ?_⟩
  · exact List.forall_mem_append.mpr ⟨inerts, List.forall_mem_singleton.mpr inert⟩
  · rw [linked_emit y seen, linked, List.append_assoc]

/-- The handshake goes on, with the notes before it. -/
theorem Answers.of_act {k : Link} (h : Answers x y)
    (act : Act input x.link (x.link.enters state) k) (link : z.link = k)
    (linked : z.linked = y.linked ++ y.link.enters state) (settles : y.Settles z) :
    Runs input x z := by
  obtain ⟨notes, inert, told⟩ := h.linked
  refine fun _ => ⟨h.toSettles.trans settles, fun _ => ⟨notes ++ x.link.enters state, ?_, ?_⟩⟩
  · rw [linked, told, h.link, List.append_assoc]
    rfl
  · exact (Act.notes inert).trans (.single (link ▸ act))

theorem Answers.handshaking_after (h : Answers x y) : y.link.Handshaking := by
  rw [h.link]
  exact h.handshaking

theorem Answers.runs (h : Answers x y) : Runs input x y := by
  refine h.of_act (.advance h.handshaking h.handshaking (.inl le_rfl)) h.link ?_ (.refl y)
  rw [Link.enters, if_pos (congrArg Link.state h.link), List.append_nil]

theorem runs_transitionAllowed (passed : ∀ y : Exec, Answers x y → Runs input x (next y)) :
    Runs input x (andThen (x.transitionAllowed .reconnecting) next) := by
  unfold transitionAllowed
  split
  · exact runs_fault x _
  rename_i here
  have here : x.state = .reconnecting := by simpa using here
  dsimp only
  split
  · exact (runs_advance (.inr here)).trans (runs_fault _ _)
  rename_i within
  exact passed _ ⟨.of_eq rfl rfl, .inr here, not_lt.mp within, rfl, [], nofun,
    (List.append_nil _).symm⟩

theorem runs_queueControl (ready : x.state = .ready) (control : Control) :
    Runs input x (x.queueControl control) := by
  unfold queueControl
  split
  · exact runs_fault x _
  · exact .silent (.queue ready) rfl rfl

/-! ## The handshake -/

theorem checks_identify (x : Exec) (globalId : Option Nat) : x.Checks (x.identify globalId) := by
  unfold identify
  split
  · exact .passes (.refl x)
  rename_i globalId
  dsimp only
  split
  · refine .ends (y := { x with authenticatedGlobalId := globalId }) ?_ (by decide)
    exact .of_eq rfl rfl rfl
  refine .passes ?_
  split
  · refine .trans ?_ (stays_resetForNewIdentity _)
    exact .of_eq rfl rfl rfl
  · exact .of_eq rfl rfl rfl

theorem checks_refreshCookie (x : Exec) : x.Checks x.refreshCookie := by
  unfold refreshCookie
  split
  · exact .ends (.refl x) (by decide)
  rename_i cookie cookies _
  dsimp only
  split
  · refine .ends (y := { x with replacementCookies := cookies }) ?_ (by decide)
    exact .of_eq rfl rfl rfl
  · refine .passes (y := { x with replacementCookies := cookies, clientCookie := cookie }) ?_
    exact .of_eq rfl rfl rfl

theorem compareCredential_spec (x : Exec) (identity : Option Identity) :
    (x.compareCredential identity).link = x.link.compared identity
      ∧ (x.compareCredential identity).kept = x.kept
      ∧ (x.compareCredential identity).effects = x.effects := by
  unfold compareCredential compared
  cases identity with
  | none => exact ⟨rfl, rfl, rfl⟩
  | some identity =>
    dsimp only
    change _ = (if x.credentialIdentity == some identity then _ else _) ∧ _
    split <;> exact ⟨rfl, rfl, rfl⟩

theorem compared_compared (l : Link) (identity : Option Identity) :
    (l.compared identity).compared identity = l.compared identity := by
  cases identity with
  | none => rfl
  | some identity =>
    simp only [compared]
    split <;> simp_all

/-- A connection that has been taken and on which a handshake can begin. -/
structure Opening (input : Input) (identity : Option Identity) (l : Link) : Prop where
  shows : input.shows = some identity
  down : l.state = .disconnected
  idle : l.connectPending = false
  live : l.terminalError = none
  first : l.transitions = 0

variable {identity : Option Identity}

/-- The handshake begins with a message. -/
theorem runs_firstControl (settles : x.Settles y) (opening : Opening input identity x.link)
    (same : x.link.compared identity = x.link)
    (handshake : state = .connecting ∨ state = .reconnecting)
    (link : y.link = { x.link with generation := x.generation + 1, state, controls := [] })
    (linked : y.linked = x.linked ++ [.event (.stateChanged state)]) (control : Control) :
    Runs input x (y.queueControl control) := by
  have opens (controls : List Control) (few : controls.length ≤ 1) :
      Act input x.link [.event (.stateChanged state)]
        { x.link with generation := x.generation + 1, state, controls } :=
    .open opening.shows same handshake opening.down opening.idle opening.live opening.first few
  have empty : y.controls = [] := congrArg Link.controls link
  unfold queueControl
  split
  · refine .trans ?_ (runs_fault y _)
    exact .of_act (opens [] (Nat.zero_le 1)) link linked settles
  refine .of_act (opens [control] le_rfl) ?_ linked (settles.trans (.of_eq rfl rfl))
  rw [empty]
  exact congrArg (fun l : Link => { l with controls := [control] }) link

theorem runs_startTransport (own : generation = x.generation) (down : x.state = .disconnected)
    (handshake : state = .connecting ∨ state = .reconnecting)
    (passed : ∀ y : Exec, y.link = { x.link with generation := x.generation + 1, state } →
      y.linked = x.linked ++ [.event (.stateChanged state)] → x.Settles y →
      Runs input x (next y)) :
    Runs input x (branch (x.startTransport state) next (·.emit (.closeTransport generation))) := by
  unfold startTransport branch
  cases counted : checkedAdd u64Max x.generation 1 with
  | none => exact runs_failTerminal_close x (by decide) own
  | some g =>
    obtain rfl := checkedAdd_eq_some counted
    have changes : x.link.state ≠ state := by
      rcases handshake with rfl | rfl <;> simp [Machine.link, down]
    refine passed _ (link_setState _ state) ?_ (.trans ?_ (settles_setState _ state))
    · rw [linked_setState]
      exact congrArg (x.linked ++ ·) (if_neg changes)
    · exact .of_eq rfl rfl

/-- The handshake on a new connection whose credential has been compared. -/
theorem runs_handshake (own : generation = x.generation) (opening : Opening input identity x.link)
    (same : x.link.compared identity = x.link) :
    Runs input x
      (if x.serverCookie != 0 then
        match checkedAdd u64Max x.connectSequence 1 with
        | none => (x.failTerminal .transitionLimit).emit (.closeTransport generation)
        | some connectSequence =>
          branch ({ x with connectSequence }.startTransport .reconnecting)
            (·.queueReconnect) (·.emit (.closeTransport generation))
      else
        branch x.refreshCookie
          (fun x =>
            branch ({ x with connectSequence := 0 }.startTransport .connecting)
              (·.queueClientIdent) (·.emit (.closeTransport generation)))
          (·.emit (.closeTransport generation))) := by
  refine .of_sound fun sound => ?_
  have empty : x.link.controls = [] := sound.down opening.down
  split
  · split
    · exact runs_failTerminal_close x (by decide) own
    rename_i connectSequence _
    have counted : x.Stays { x with connectSequence } := .of_eq rfl rfl rfl
    refine counted.runs.trans ?_
    refine runs_startTransport own opening.down (.inr rfl) fun y link linked settles => ?_
    have cleared : Settles _ { y with controls := [] } := settles.trans (.of_eq rfl rfl)
    refine runs_firstControl cleared opening same (.inr rfl) ?_ linked _
    exact congrArg (fun l : Link => { l with controls := [] }) link
  refine (checks_refreshCookie x).branch own fun y stays => ?_
  have counted : x.Stays { y with connectSequence := 0 } := stays.trans (.of_eq rfl rfl rfl)
  refine counted.runs.trans ?_
  have opening : Opening input identity y.link := stays.link ▸ opening
  refine runs_startTransport (own.trans (congrArg Link.generation stays.link).symm)
    opening.down (.inl rfl) fun z link linked settles => ?_
  refine runs_firstControl settles opening (stays.link ▸ same) (.inl rfl) ?_ linked _
  have none : y.link.controls = [] := stays.link ▸ empty
  rw [link, ← none]
  rfl

/-- A connection that is taken leads to a handshake. -/
theorem runs_connected (globalId : Option Nat) (shows : input.shows = some identity)
    (accepted : generation = x.generation) (dialing : x.connectPending = true)
    (down : x.state = .disconnected) :
    Runs input { x with connectPending := false, terminalError := none, transitions := 0 }
      (x.connected generation globalId identity) := by
  have taken : ¬ (generation != x.generation || !x.connectPending) = true := by
    simp [accepted, dialing]
  unfold connected
  dsimp only
  rw [if_neg taken]
  have opening : Opening input identity x.link.accepted := ⟨shows, down, rfl, rfl, rfl⟩
  split
  · exact runs_failTerminal_close _ (by decide) accepted
  rename_i globalSequence _
  let start : Exec :=
    { x with
      connectPending := false, terminalError := none, transitions := 0, globalSequence
      connectedOnce := true }
  have begun : Stays { x with connectPending := false, terminalError := none, transitions := 0 }
      start := .of_eq rfl rfl rfl
  refine begun.runs.trans ((checks_identify start globalId).branch accepted fun y stays => ?_)
  have own : generation = y.generation :=
    accepted.trans (congrArg Link.generation stays.link).symm
  have opening : Opening input identity y.link := stays.link ▸ opening
  obtain ⟨link, kept, effects⟩ := compareCredential_spec y identity
  obtain ⟨candidate, change, eq⟩ := y.link.compared_eq identity
  have compared := link.trans eq
  have opens : Opening input identity (y.compareCredential identity).link := by
    rw [compared]
    exact ⟨shows, opening.down, opening.idle, opening.live, opening.first⟩
  refine stays.runs.trans (.trans (.silent ?_ kept effects) (runs_handshake ?_ opens ?_))
  · rw [link]
    exact .compare shows opening.down opening.idle opening.live
  · exact own.trans (congrArg Link.generation compared).symm
  · rw [link, compared_compared]

theorem completeRenewal_changed (reconnecting : x.renewal = .reconnecting)
    (changed : x.credentialChange = .changed) :
    ∃ y, x.completeRenewal = (true, y) ∧ y.link = x.link.renewed ∧ x.Settles y ∧ y.linked = x.linked
      ++ ((if x.renewalPending then [.event .credentialRenewal] else [])
        ++ [.event .credentialRenewalCompleted]) := by
  unfold completeRenewal
  rw [if_neg (by simp [reconnecting]), if_pos (by simp [changed])]
  cases pending : x.renewalPending
  all_goals
    refine ⟨_, rfl, ?_, .of_eq ?_ ?_, ?_⟩
    · simp [Machine.link, renewed, emit, pending]
    · rfl
    all_goals simp [emit, linked, Effect.linked, Effect.visible]

variable {control : Control}

theorem runs_completeRenewal (asked : input = .control generation control)
    (handshaking : x.link.Handshaking)
    (passed : ∀ y : Exec, y.link.Handshaking → Runs input y (next y)) :
    Runs input x (andThen x.completeRenewal next) := by
  by_cases reconnecting : x.renewal = .reconnecting
  on_goal 2 =>
    rw [completeRenewal, if_pos (by simp [reconnecting])]
    exact passed x handshaking
  by_cases changed : x.credentialChange = .changed
  · obtain ⟨y, eq, link, settles, linked⟩ := completeRenewal_changed reconnecting changed
    rw [eq]
    refine .trans (.of_act (.renew asked handshaking reconnecting changed) link linked settles)
      (passed y ?_)
    rw [link]
    exact handshaking
  · rw [completeRenewal, if_neg (by simp [reconnecting]), if_neg (by simp [changed])]
    exact runs_fault x _

theorem runs_becomeReady (handshaking : x.link.Handshaking) : Runs input x x.becomeReady :=
  .enters (y := { x with reconnectAttempts := 0 }) (.ready handshaking)
    (by rcases handshaking with h | h <;> simp [show x.state = _ from h]) rfl rfl

theorem runs_serverIdent (asked : input = .control generation control) (x : Exec)
    (ident : ServerIdent) : Runs input x (x.serverIdent ident) := by
  unfold serverIdent
  split
  · exact runs_fault x _
  rename_i here
  have here : x.state = .connecting := by simpa using here
  refine .trans (runs_advance (.inl here)) ?_
  dsimp only
  split
  · exact runs_fault _ _
  split
  · exact runs_failTerminal _ (by decide)
  split
  · exact runs_fault _ _
  refine .trans ?_ (runs_completeRenewal asked ?_ fun y => runs_becomeReady)
  · refine (Stays.trans ?_ (stays_failSentUnknown _)).runs
    exact .of_eq rfl rfl rfl
  · rw [(stays_failSentUnknown _).link]
    exact .inl here

/-- The handshake goes on with a message. -/
theorem Answers.queueControl (h : Answers x y)
    (handshake : state = .connecting ∨ state = .reconnecting)
    (few : z.controls.length ≤ x.controls.length)
    (link : z.link = { y.link with state, controls := z.controls })
    (linked : z.linked = y.linked ++ y.link.enters state) (settles : y.Settles z)
    (control : Control) : Runs input x (z.queueControl control) := by
  have link : z.link
      = { x.link with transitions := x.transitions + 1, state, controls := z.controls } := by
    rw [link, h.link]
  unfold Exec.queueControl
  split
  · refine .trans ?_ (runs_fault z _)
    exact h.of_act (.advance h.handshaking handshake (.inl few)) link linked settles
  refine h.of_act (.advance h.handshaking handshake (.inr ⟨?_, h.within⟩))
    (congrArg (fun l : Link => { l with controls := z.controls ++ [control] }) link) linked
    (settles.trans (.of_eq rfl rfl))
  rw [List.length_append]
  exact Nat.add_le_add_right few 1

theorem Answers.queueClientIdent (h : Answers x y) :
    Runs input x (y.setState .connecting).queueClientIdent := by
  have link := link_setState y .connecting
  have kept : (y.setState .connecting).controls = y.controls := congrArg Link.controls link
  refine h.queueControl (.inl rfl) ?_ ?_ (linked_setState y _) (settles_setState y _) _
  · rw [kept, show y.controls = x.controls from congrArg Link.controls h.link]
  · rw [link, kept]
    rfl

theorem Answers.queueReconnect (h : Answers x y) : Runs input x y.queueReconnect := by
  refine h.queueControl (z := { y with controls := [] }) h.handshaking_after (Nat.zero_le _) rfl ?_
    (.of_eq rfl rfl) _
  rw [Link.enters, if_pos rfl, List.append_nil]
  rfl

theorem Answers.failTerminal (h : Answers x y) (known : error ≠ .outcomeUnknown) :
    Runs input x (y.failTerminal error) := h.runs.trans (runs_failTerminal y known)

theorem Answers.andThen (h : Answers x y) (checks : y.Checks checked)
    (passed : ∀ z, Answers x z → Runs input x (next z)) : Runs input x (andThen checked next) := by
  cases checks with
  | passes stays => exact passed _ (h.stays stays)
  | ends stays known => exact (h.stays stays).failTerminal known

theorem Answers.reset (h : Answers x y) (full : Bool) : Runs input x (y.reset full) := by
  refine h.andThen (checks_invalidateControls y) fun z h => ?_
  have told : Answers x (z.emit (.event (.sessionReset full))) := h.note _ rfl
  have forgot : Answers x { z.emit (.event (.sessionReset full)) with
      serverCookie := 0, serverFlags := 0, connectSequence := 0, lastInbound := 0 } :=
    told.stays (.of_quiet .forgetInbound rfl rfl rfl)
  dsimp only
  split
  · refine forgot.andThen (checks_refreshCookie _) fun w h => ?_
    exact (h.stays (stays_startOver w _ (by decide) rfl)).queueClientIdent
  refine Answers.queueClientIdent (forgot.stays ?_)
  exact .of_quiet .unsend rfl rfl rfl

/-! ## The peer -/

/-- The end of the handshake of a resumed session. -/
theorem runs_resumed (asked : input = .control generation control)
    (handshaking : x.link.Handshaking) (sequence : Nat) :
    Runs input x (andThen x.completeRenewal fun x =>
      x.becomeReady.emit (.event (.reconnectOk sequence))) :=
  runs_completeRenewal asked handshaking fun _ up =>
    (runs_becomeReady up).trans (runs_note _ _ rfl)

theorem runs_reconnectOk (asked : input = .control generation control)
    (handshaking : x.link.Handshaking) (sequence : Nat) : Runs input x (x.reconnectOk sequence) := by
  have trimmed : x.Stays (x.onLedger (·.trimReplay sequence)) :=
    .of_quiet (.trim sequence) rfl rfl rfl
  have recalled : x.Stays ((x.onLedger (·.trimReplay sequence)).onLedger (·.prepareReplay)) :=
    trimmed.trans (.of_quiet .unsend rfl rfl rfl)
  exact recalled.runs.trans (runs_resumed (x := (x.onLedger _).onLedger _) asked handshaking
    sequence)

theorem runs_control (asked : input = .control generation control) (x : Exec) :
    Runs input x (x.control control) := by
  unfold Exec.control
  split
  case _ sequence =>
    refine runs_requireReady fun _ => runs_acceptAcknowledgment _ ?_
    refine .trans (Stays.runs ?_) (runs_note _ _ rfl)
    exact .of_quiet (.trim sequence) rfl rfl rfl
  case _ timestamp => exact runs_requireReady fun ready => runs_queueControl ready _
  case _ => exact runs_requireReady fun _ => runs_note x _ rfl
  case _ full => exact runs_transitionAllowed fun y answers => answers.reset full
  case _ connectSequence =>
    refine runs_transitionAllowed fun y answers => ?_
    split
    · exact answers.failTerminal (by decide)
    rename_i next _
    have counted := answers.stays (z := { y with connectSequence := next }) (.of_eq rfl rfl rfl)
    exact (counted.note (.event (.retry next)) rfl).queueReconnect
  case _ globalSequence =>
    refine runs_transitionAllowed fun y answers => ?_
    split
    · exact answers.failTerminal (by decide)
    rename_i next _
    have counted := answers.stays (z := { y with globalSequence := next }) (.of_eq rfl rfl rfl)
    exact (counted.note (.event (.retryGlobal next)) rfl).queueReconnect
  case _ =>
    split
    · exact runs_fault x _
    rename_i here
    have handshaking : x.link.Handshaking := by
      by_contra neither
      exact here (by simpa [Handshaking, Machine.link] using neither)
    refine .trans (runs_advance handshaking) (.trans (.trans ?_ (runs_note _ _ rfl)) (runs_fault _ _))
    exact .enters (.wait handshaking)
      (by rcases handshaking with h | h <;> simp [show x.state = _ from h]) rfl rfl
  case _ messageSequence =>
    refine runs_transitionAllowed fun y answers => ?_
    refine answers.runs.trans (runs_acceptAcknowledgment _ ?_)
    exact runs_reconnectOk asked answers.handshaking_after messageSequence
  case _ ident => exact runs_serverIdent asked x ident
  case _ => exact runs_failTerminal x (by decide)
  case _ => exact runs_fault x _

/-! ## Inputs -/

theorem runs_renewalDue (asked : input = .renewalDue generation) (x : Exec) :
    Runs input x (x.renewalDue generation) := by
  unfold renewalDue
  split
  · exact .refl x
  rename_i current
  have current : generation = x.generation := by simpa using current
  subst current
  split
  next idle =>
    have idle : x.renewal = .idle := by simpa using idle
    refine (checks_invalidateControls x).andThen fun y stays => stays.runs.trans ?_
    have generation : x.generation = y.link.generation := (congrArg Link.generation stays.link).symm
    have idle : y.link.renewal = .idle := (congrArg Link.renewal stays.link).trans idle
    exact .emits (.due (generation ▸ asked) idle) rfl rfl rfl
  next busy =>
    have busy : x.link.renewal ≠ .idle := by simpa [Machine.link] using busy
    exact .silent (.pend busy) rfl rfl

theorem runs_start {ready : Bool} (asked : input = .start ready) (x : Exec) :
    Runs input x (x.start ready) := by
  unfold start
  split
  · exact .refl x
  rename_i allowed
  simp only [Bool.or_eq_true, bne_iff_ne, Option.isSome_iff_ne_none, ne_eq, not_or, not_not,
    Bool.not_eq_true] at allowed
  obtain ⟨⟨down, idle⟩, live⟩ := allowed
  split
  next begins =>
    subst begins
    unfold startTransport
    split
    · refine .trans (Stays.runs ?_) (runs_failTerminal _ (by decide))
      exact .of_eq rfl rfl rfl
    rename_i generation counted
    obtain rfl := checkedAdd_eq_some counted
    exact .enters (.start asked down idle live) (by simp [down]) rfl rfl
  · exact runs_beginReconnect down live

theorem runs_initialIdentity {globalId : Option Nat}
    (asked : input = .initialIdentity generation globalId identity) (x : Exec) :
    Runs input x (x.initialIdentity generation globalId identity) := by
  unfold initialIdentity
  split
  next here =>
    simp only [Bool.and_eq_true, beq_iff_eq] at here
    obtain ⟨rfl, ready⟩ := here
    exact .silent (.identify asked ready) rfl rfl
  · exact .refl x

theorem runs_connectFailed (x : Exec) (generation : Nat) :
    Runs input x (x.connectFailed generation) := by
  refine .of_sound fun sound => ?_
  unfold connectFailed
  split
  next dialing =>
    simp only [Bool.and_eq_true, beq_iff_eq] at dialing
    obtain ⟨down, live⟩ := sound.dialing dialing.2
    refine .trans (y := { x with connectPending := false })
      (.silent (.connectFailed dialing.2) rfl rfl) ?_
    exact .trans (runs_note _ _ rfl) (runs_beginReconnect down live)
  · exact .refl x

theorem runs_cancel (x : Exec) (requestId : Nat) : Runs input x (x.cancel requestId) := by
  unfold cancel
  split
  · exact .refl x
  rename_i p found
  obtain ⟨hp, rfl⟩ := find_mem found
  refine Stays.runs ⟨⟨⟨rfl, id, fun ended halt => by simp [emit, onLedger, ended halt]⟩, fun _ =>
    ⟨_, by rw [emit, List.filter_append]; rfl, .single (.fail found ?_)⟩⟩, rfl, ?_⟩
  · cases p.mayHaveExecuted <;> simp
  · simp [linked, emit, onLedger, Effect.linked]

end Exec

end RadosRs.Msgr.Session
