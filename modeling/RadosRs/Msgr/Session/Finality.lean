import RadosRs.Msgr.Session.Refinement

/-!
# How a session ends

A session ends with a terminal error or because it is told to stop, and after
that it should do nothing any more until somebody gives it a new connection.
`Halted` is a session in this state.  An input to a halted session does nothing,
with two exceptions that still reach the routine for terminal errors in a stopped
session (`Breaks`); that routine writes the state without looking at it.

A terminal error is raised deep inside other functions, and what runs after it in
the same step is shown to be harmless by the acts of the connection.  One function
goes on where it should not: a message that finds no room for its acknowledgment
ends the session and is delivered all the same (`Saturates`).
-/

namespace RadosRs.Msgr.Session

open Fixed Link

/-- Effects by which a session does something for its requests or its peer. -/
def Effect.active : Effect → Bool
  | .connect _ => true
  | .sendControl .. => true
  | .sendMessage .. => true
  | .admitted .. => true
  | .completed .. => true
  | .incoming _ => true
  | _ => false

/-! ## Halted sessions -/

/-- A session that has ended or has been stopped. -/
structure Halted (m : Machine) : Prop where
  down : m.state = .disconnected ∨ m.state = .stopped
  idle : m.connectPending = false
  empty : m.pending = []
  halt : m.terminalError.isSome = true ∨ m.state = .stopped

/-- An input that ends a stopped session with an error, and so takes it out of its state. -/
def Breaks (m : Machine) : Input → Prop
  | .control generation (.identMissingFeatures _) =>
    m.terminalError = none ∧ generation = m.generation
  | .renewalDue generation =>
    m.terminalError = none ∧ generation = m.generation ∧ m.renewal = .idle
      ∧ u64Max ≤ m.controlGeneration
  | _ => False

/-- A new connection that is not the result of an attempt, and that the session takes. -/
def Machine.takesInitial (m : Machine) : Input → Bool
  | .initialConnection globalId identity => m.takes (.initialConnection globalId identity)
  | _ => false

/-- What an input does to a halted session. -/
structure Halts (m : Machine) (input : Input) : Prop where
  inert : ∀ e ∈ (m.step input).2, e.active = false
  halted : Halted (m.step input).1
  state : m.state = .stopped → (m.step input).1.state = .stopped
  terminal : (m.step input).1.terminalError = m.terminalError
  generation : (m.step input).1.generation = m.generation
  renewal : ((m.step input).1.renewal = m.renewal
      ∧ (m.step input).1.controlGeneration = m.controlGeneration)
    ∨ ((m.step input).1.renewal ≠ .idle ∧ m.controlGeneration < u64Max)

namespace Exec

variable {x : Exec}

theorem fault_halted (halt : x.terminalError.isSome = true ∨ x.state = .stopped)
    (error : SessionError) : x.fault error = x := by
  unfold fault
  rw [if_pos]
  rcases halt with halt | halt <;> simp [halt]

theorem failTerminal_ended (halt : x.terminalError.isSome = true) (error : SessionError) :
    x.failTerminal error = x := by
  unfold failTerminal
  rw [if_pos halt]

end Exec

variable {m : Machine} {input : Input}

/-- An input that leaves the session as it is. -/
theorem Halts.of_same (h : Halted m) (inert : ∀ e ∈ (m.step input).2, e.active = false)
    (same : (m.step input).1 = m) : Halts m input := by
  refine ⟨inert, ?_, ?_, ?_, ?_, ?_⟩ <;> rw [same]
  · exact h
  · exact id
  · exact .inl ⟨rfl, rfl⟩

theorem Halts.of_nothing (h : Halted m) (nothing : m.step input = (m, [])) : Halts m input :=
  .of_same h (by rw [nothing]; nofun) (by rw [nothing])

theorem Halted.not_ready (h : Halted m) : m.state ≠ .ready := by
  rcases h.down with down | down <;> simp [down]

theorem Halted.not_handshaking (h : Halted m) : m.state ≠ .connecting ∧ m.state ≠ .reconnecting := by
  rcases h.down with down | down <;> simp [down]

theorem Halted.control (h : Halted m) (generation : Nat) (control : Control)
    (whole : ¬ Breaks m (.control generation control)) : Halts m (.control generation control) := by
  refine .of_nothing h ?_
  have fault (error : SessionError) : Exec.fault { m with effects := [] } error
      = { m with effects := [] } := Exec.fault_halted h.halt error
  have ready := h.not_ready
  obtain ⟨connecting, reconnecting⟩ := h.not_handshaking
  unfold Machine.step Exec.perform
  dsimp only
  split
  next current =>
    have current : generation = m.generation := by simpa using current
    cases control with
    | identMissingFeatures features =>
      have halt : m.terminalError.isSome = true := by
        by_contra live
        exact whole ⟨by simpa using live, current⟩
      simp [Exec.control, Exec.failTerminal, halt]
    | _ =>
      simp [Exec.control, Exec.requireReady, Exec.transitionAllowed, Exec.serverIdent,
        Exec.andThen, Exec.branch, fault, ready, connecting, reconnecting]
  · rfl

theorem Halted.admitRequest (h : Halted m) (requestId : Nat) (message : Message) (oneWay : Bool) :
    m.step (.admitRequest requestId message oneWay)
      = (m, [.failed requestId (m.terminalError.getD .closed)]) := by
  unfold Machine.step Exec.perform Exec.admitRequest
  cases ended : m.terminalError with
  | some error => rfl
  | none =>
    have stopped : m.state = .stopped := h.halt.resolve_left (by simp [ended])
    simp [stopped, Exec.emit]

theorem Halted.renewalDue (h : Halted m) (generation : Nat)
    (whole : ¬ Breaks m (.renewalDue generation)) : Halts m (.renewalDue generation) := by
  by_cases current : generation = m.generation
  on_goal 2 => exact .of_nothing h (by simp [Machine.step, Exec.perform, Exec.renewalDue, current])
  by_cases idle : m.renewal = .idle
  · cases counted : checkedAdd u64Max m.controlGeneration 1 with
    | none =>
      have spent : u64Max ≤ m.controlGeneration := by
        unfold checkedAdd at counted
        split at counted
        · cases counted
        next full => exact Nat.le_of_lt_succ (not_le.mp full)
      have halt : m.terminalError.isSome = true := by
        by_contra live
        exact whole ⟨by simpa using live, current, idle, spent⟩
      refine .of_nothing h ?_
      simp [Machine.step, Exec.perform, Exec.renewalDue, current, idle, Exec.invalidateControls,
        counted, Exec.failTerminal, halt, Exec.andThen, Exec.branch]
    | some next =>
      have eq : m.step (.renewalDue generation)
          = ({ m with controlGeneration := next, renewal := .draining },
            [.event .credentialRenewal]) := by
        simp [Machine.step, Exec.perform, Exec.renewalDue, current, idle,
          Exec.invalidateControls, counted, Exec.andThen, Exec.branch, Exec.failRequests,
          Exec.emit, h.empty]
      refine ⟨?_, ?_, ?_, ?_, ?_, ?_⟩ <;> rw [eq]
      · simp [Effect.active]
      · exact ⟨h.down, h.idle, h.empty, h.halt⟩
      · exact id
      refine .inr ⟨by simp, ?_⟩
      by_contra spent
      rw [checkedAdd, if_neg (by omega)] at counted
      cases counted
  · have eq : m.step (.renewalDue generation) = ({ m with renewalPending := true }, []) := by
      simp [Machine.step, Exec.perform, Exec.renewalDue, current, idle]
    refine ⟨?_, ?_, ?_, ?_, ?_, ?_⟩ <;> rw [eq]
    · simp
    · exact ⟨h.down, h.idle, h.empty, h.halt⟩
    · exact id
    · exact .inl ⟨rfl, rfl⟩

theorem Halted.writeComplete (h : Halted m) (generation : Nat) (requestId : Option Nat)
    (result : Except SessionError Unit) : Halts m (.writeComplete generation requestId result) := by
  by_cases current : generation = m.generation
  on_goal 2 => exact .of_nothing h (by simp [Machine.step, Exec.perform, Exec.writeComplete, current])
  have eq : m.step (.writeComplete generation requestId result)
      = ({ m with writeBusy := false }, []) := by
    unfold Machine.step Exec.perform Exec.writeComplete
    have fault (error : SessionError) :
        Exec.fault { m with writeBusy := false, effects := [] } error
          = { m with writeBusy := false, effects := [] } := Exec.fault_halted h.halt error
    cases result with
    | error error => simp [current, fault]
    | ok _ => cases requestId <;> simp [current, Ledger.find, h.empty]
  refine ⟨?_, ?_, ?_, ?_, ?_, ?_⟩ <;> rw [eq]
  · simp
  · exact ⟨h.down, h.idle, h.empty, h.halt⟩
  · exact id
  · exact .inl ⟨rfl, rfl⟩

theorem Halted.stop (h : Halted m) : Halts m .stop := by
  by_cases stopped : m.state = .stopped
  · exact .of_nothing h (by simp [Machine.step, Exec.perform, Exec.stop, stopped])
  have pending : m.toLedger.pending = [] := h.empty
  have state : (m.step .stop).1.state = .stopped := by
    simp [Machine.step, Exec.perform, Exec.stop, stopped, Exec.setState, Exec.failAll, Exec.emit]
  refine ⟨?_, ⟨.inr state, ?_, ?_, .inr state⟩, fun _ => state, ?_, ?_, ?_⟩
  all_goals
    simp [Machine.step, Exec.perform, Exec.stop, stopped, Exec.setState, Exec.failAll, Exec.emit,
      Ledger.cleared, pending, Effect.active]

theorem Machine.takesInitial_stopped (stopped : m.state = .stopped) (input : Input) :
    m.takesInitial input = false := by
  cases input with
  | initialConnection globalId identity => simp [takesInitial, takes, stopped]
  | _ => rfl

/-- A halted session stays halted and does nothing. -/
theorem Halted.step (h : Halted m) (refused : m.takesInitial input = false)
    (whole : ¬ Breaks m input) : Halts m input := by
  have fault (error : SessionError) : Exec.fault { m with effects := [] } error
      = { m with effects := [] } := Exec.fault_halted h.halt error
  have ready := h.not_ready
  obtain ⟨down, idle, empty, halt⟩ := id h
  cases input with
  | start begun =>
    refine .of_nothing h ?_
    have stays :
        (m.state != .disconnected || m.connectPending || m.terminalError.isSome) = true := by
      rcases halt with halt | halt <;> simp [halt]
    simp [Machine.step, Exec.perform, Exec.start, stays]
  | initialConnection globalId identity =>
    refine .of_nothing h ?_
    have refused : (m.state == .disconnected && !m.connectPending) = false := refused
    simp [Machine.step, Exec.perform, Exec.initialConnection, refused]
  | initialIdentity generation globalId identity =>
    refine .of_nothing h ?_
    simp [Machine.step, Exec.perform, Exec.initialIdentity, ready]
  | admitRequest requestId message oneWay =>
    have eq := h.admitRequest requestId message oneWay
    exact .of_same h (by simp [eq, Effect.active]) (by rw [eq])
  | admitControl requestId message generation =>
    have eq : m.step (.admitControl requestId message generation)
        = (m, [.failed requestId .disconnected]) := by
      simp [Machine.step, Exec.perform, Exec.admitControl, ready, Exec.emit]
    exact .of_same h (by simp [eq, Effect.active]) (by rw [eq])
  | cancel requestId =>
    refine .of_nothing h ?_
    simp [Machine.step, Exec.perform, Exec.cancel, Ledger.find, empty]
  | dispatch =>
    refine .of_nothing h ?_
    rcases down with down | down <;> simp [Machine.step, Exec.perform, Exec.dispatch, down]
  | writeComplete generation requestId result => exact h.writeComplete generation requestId result
  | connected generation globalId identity =>
    have eq : m.step (.connected generation globalId identity)
        = (m, [.closeTransport generation]) := by
      simp [Machine.step, Exec.perform, Exec.connected, idle, Exec.emit]
    exact .of_same h (by simp [eq, Effect.active]) (by rw [eq])
  | connectFailed generation =>
    refine .of_nothing h ?_
    simp [Machine.step, Exec.perform, Exec.connectFailed, idle]
  | control generation control => exact h.control generation control whole
  | message generation message =>
    refine .of_nothing h ?_
    simp [Machine.step, Exec.perform, Exec.message, ready, fault]
  | fault generation error =>
    refine .of_nothing h ?_
    simp [Machine.step, Exec.perform, fault]
  | renewalDue generation => exact h.renewalDue generation whole
  | consumeIncoming =>
    exact ⟨List.forall_mem_nil _, ⟨down, idle, empty, halt⟩, id, rfl, rfl, .inl ⟨rfl, rfl⟩⟩
  | stop => exact h.stop

/-! ## Stopping -/

/-- The state stays stopped over a run, and nothing is done. -/
def StaysStopped (m : Machine) (inputs : List Input) : Prop :=
  (∀ e ∈ Mealy.log Machine.step m inputs, e.active = false)
    ∧ ∀ before, before <+: inputs → (Mealy.after Machine.step m before).state = .stopped

/-- Nothing among the inputs ends a stopped session with an error. -/
def Unbroken (m : Machine) (inputs : List Input) : Prop :=
  m.terminalError = none →
    (∀ features, .control m.generation (.identMissingFeatures features) ∉ inputs)
      ∧ (m.renewal = .idle → u64Max ≤ m.controlGeneration → .renewalDue m.generation ∉ inputs)

/-- An input that breaks a stopped session leaves the state. -/
theorem step_state_of_breaks (breaks : Breaks m input) :
    (m.step input).1.state = .disconnected := by
  have ends (x : Exec) (live : x.terminalError = none) (error : SessionError) :
      (x.failTerminal error).state = .disconnected := by
    unfold Exec.failTerminal
    rw [if_neg (by simp [live])]
    exact congrArg Link.state (Exec.link_setState _ .disconnected)
  unfold Breaks at breaks
  split at breaks
  case _ generation features =>
    obtain ⟨live, rfl⟩ := breaks
    unfold Machine.step Exec.perform
    dsimp only
    rw [if_pos (beq_self_eq_true _)]
    exact ends _ live _
  case _ generation =>
    obtain ⟨live, rfl, idle, spent⟩ := breaks
    have none : checkedAdd u64Max m.controlGeneration 1 = none := if_neg (by omega)
    unfold Machine.step Exec.perform Exec.renewalDue Exec.invalidateControls
    simp only [bne_self_eq_false, Bool.false_eq_true, if_false, idle, beq_self_eq_true, if_true, none,
      Exec.andThen, Exec.branch, id]
    exact ends _ live _
  case _ => cases breaks

theorem unbroken_cons (halts : Halts m input) (whole : ¬ Breaks m input) (inputs : List Input) :
    Unbroken m (input :: inputs) ↔ Unbroken (m.step input).1 inputs := by
  unfold Unbroken
  rw [halts.terminal, halts.generation]
  refine forall_congr' fun live => and_congr ?_ ?_
  · refine forall_congr' fun features => ?_
    rw [List.mem_cons, not_or, and_iff_right]
    rintro rfl
    exact whole ⟨live, rfl⟩
  have head (idle : m.renewal = .idle) (spent : u64Max ≤ m.controlGeneration) :
      .renewalDue m.generation ≠ input := by
    rintro rfl
    exact whole ⟨live, rfl, idle, spent⟩
  rcases halts.renewal with ⟨renewal, counted⟩ | ⟨busy, below⟩
  · rw [renewal, counted]
    refine forall_congr' fun idle => forall_congr' fun spent => ?_
    rw [List.mem_cons, not_or, and_iff_right (head idle spent)]
  · exact ⟨fun _ idle => absurd idle busy, fun _ _ spent => absurd spent (by omega)⟩

theorem staysStopped_cons (halts : Halts m input) (stopped : m.state = .stopped)
    (inputs : List Input) :
    StaysStopped m (input :: inputs) ↔ StaysStopped (m.step input).1 inputs := by
  refine and_congr ?_ ⟨fun stays before within => ?_, fun stays before within => ?_⟩
  · rw [Mealy.log_cons, List.forall_mem_append, and_iff_right halts.inert]
  · exact stays (input :: before) ((List.cons_prefix_cons).mpr ⟨rfl, within⟩)
  rcases List.prefix_cons_iff.mp within with rfl | ⟨rest, rfl, part⟩
  · exact stopped
  · exact stays rest part

/-- A stopped session stays so exactly if none of the inputs breaks it. -/
theorem Halted.staysStopped_iff (h : Halted m) (stopped : m.state = .stopped)
    (inputs : List Input) : StaysStopped m inputs ↔ Unbroken m inputs := by
  induction inputs generalizing m with
  | nil =>
    refine iff_of_true ⟨nofun, fun before within => ?_⟩ fun _ => ⟨fun _ => nofun, fun _ _ => nofun⟩
    rw [List.prefix_nil.mp within]
    exact stopped
  | cons input inputs ih =>
    by_cases breaks : Breaks m input
    · refine iff_of_false (fun stays => ?_) fun unbroken => ?_
      · have left := stays.2 [input] ((List.cons_prefix_cons).mpr ⟨rfl, List.nil_prefix⟩)
        cases left.symm.trans (step_state_of_breaks breaks)
      · unfold Breaks at breaks
        split at breaks
        · obtain ⟨live, rfl⟩ := breaks
          exact (unbroken live).1 _ List.mem_cons_self
        · obtain ⟨live, rfl, idle, spent⟩ := breaks
          exact (unbroken live).2 idle spent List.mem_cons_self
        · cases breaks
    · have halts := h.step (Machine.takesInitial_stopped stopped input) breaks
      rw [staysStopped_cons halts stopped, unbroken_cons halts breaks]
      exact ih halts.halted (halts.state stopped)

/-- Only a stop stops a session. -/
theorem Link.Act.stopped {l k : Link} {es : List Effect} (act : Act input l es k)
    (stopped : k.state = .stopped) : l.state = .stopped ∨ input = .stop := by
  cases act with
  | stop asked => exact .inr asked
  | @compare identity =>
    obtain ⟨candidate, change, same⟩ := l.compared_eq identity
    rw [same] at stopped
    exact .inl stopped
  | «open» shows same handshake => rcases handshake with rfl | rfl <;> cases stopped
  | advance handshaking handshake => rcases handshake with rfl | rfl <;> cases stopped
  | terminal => cases stopped
  | drop => cases stopped
  | start => cases stopped
  | wait => cases stopped
  | ready => cases stopped
  | _ => exact .inl stopped

theorem Machine.stopped_of_step (sound : m.link.Sound) (stopped : (m.step input).1.state = .stopped) :
    m.state = .stopped ∨ input = .stop := by
  have opened : (m.opened input).state = m.state := by
    unfold Machine.opened
    split <;> rfl
  have back := Trace.invariant (fun l : Link => l.state ≠ .stopped ∧ input ≠ .stop)
    (fun act h => ⟨fun stopped => (act.stopped stopped).elim h.1 h.2, h.2⟩) (m.step_acts sound input)
  by_contra neither
  rw [not_or] at neither
  exact (back ⟨fun stopped => neither.1 (opened ▸ stopped), neither.2⟩).1 stopped

/-- What a stop leaves. -/
theorem stop_halts (sound : m.link.Sound) (empty : m.state = .stopped → m.pending = []) :
    (∀ e ∈ (m.step .stop).2, e.active = false) ∧ Halted (m.step .stop).1
      ∧ (m.step .stop).1.state = .stopped
      ∧ (m.step .stop).1.terminalError = m.terminalError
      ∧ (m.step .stop).1.generation = m.generation ∧ (m.step .stop).1.renewal = m.renewal
      ∧ (m.step .stop).1.controlGeneration = m.controlGeneration := by
  by_cases stopped : m.state = .stopped
  · have nothing : m.step .stop = (m, []) := by
      simp [Machine.step, Exec.perform, Exec.stop, stopped]
    rw [nothing]
    have idle := sound.idle fun down => by cases stopped.symm.trans down
    exact ⟨List.forall_mem_nil _, ⟨.inr stopped, idle, empty stopped, .inr stopped⟩, stopped, rfl,
      rfl, rfl, rfl⟩
  · have state : (m.step .stop).1.state = .stopped := by
      simp [Machine.step, Exec.perform, Exec.stop, stopped, Exec.setState, Exec.failAll, Exec.emit]
    refine ⟨?_, ⟨.inr state, ?_, ?_, .inr state⟩, state, ?_, ?_, ?_, ?_⟩
    all_goals
      simp [Machine.step, Exec.perform, Exec.stop, stopped, Exec.setState, Exec.failAll, Exec.emit,
        Ledger.cleared, Effect.active]
    intro e told
    rcases told with ⟨p, _, rfl⟩ | rfl <;> rfl

theorem Machine.stopped_empty (config : Config) (inputs : List Input) :
    let m := Mealy.after Machine.step (.initial config) inputs
    m.state = .stopped → m.pending = [] := by
  refine (Mealy.run_invariant Machine.step
    (fun _ _ m => m.link.Sound ∧ (m.state = .stopped → m.pending = []))
    ⟨Machine.initial_sound config, fun stopped => by cases stopped⟩ ?_ inputs).2
  intro _ _ m input ⟨sound, empty⟩
  refine ⟨Machine.step_sound sound input, fun stopped => ?_⟩
  by_cases stop : input = .stop
  · rw [stop]
    exact (stop_halts sound empty).2.1.empty
  have before := (Machine.stopped_of_step sound stopped).resolve_right stop
  have idle := sound.idle fun down => by cases before.symm.trans down
  have whole : ¬ Breaks m input := by
    intro breaks
    cases stopped.symm.trans (step_state_of_breaks breaks)
  have halted : Halted m := ⟨.inr before, idle, empty before, .inr before⟩
  exact (halted.step (takesInitial_stopped before input) whole).halted.empty

/-- After a stop the state stays stopped, and nothing is done any more. -/
def StopsForGood (m : Machine) (later : List Input) : Prop :=
  (∀ e ∈ Mealy.log Machine.step m (.stop :: later), e.active = false)
    ∧ ∀ before, before <+: later →
      (Mealy.after Machine.step m (.stop :: before)).state = .stopped

/-- A session that is told to stop stops for good exactly if nothing that comes after
breaks it. -/
theorem stops_for_good_iff {config : Config} {m : Machine} (new : Machine.new config = .ok m)
    (inputs later : List Input) :
    StopsForGood (Mealy.after Machine.step m inputs) later
      ↔ Unbroken (Mealy.after Machine.step m inputs) later := by
  obtain rfl := Machine.new_eq_ok new
  have sound := Machine.after_sound (Machine.initial_sound config) inputs
  obtain ⟨inert, halted, stopped, terminal, generation, renewal, counted⟩ :=
    stop_halts sound (Machine.stopped_empty config inputs)
  generalize Mealy.after Machine.step (.initial config) inputs = s at *
  have same : Unbroken (s.step .stop).1 later ↔ Unbroken s later := by
    unfold Unbroken
    rw [terminal, generation, renewal, counted]
  rw [← same, ← halted.staysStopped_iff stopped]
  refine and_congr ?_ .rfl
  rw [Mealy.log_cons, List.forall_mem_append, and_iff_right inert]

/-- A keepalive that still arrives is ignored. -/
theorem stops_for_good_keepalive :
    StopsForGood (Mealy.after Machine.step (.initial sampleConfig) [.start true])
      [.control 1 (.keepalive2Ack ⟨0, 0⟩), .dispatch] := by
  refine (stops_for_good_iff new_sample [.start true] _).mpr fun _ => ⟨fun features => ?_, ?_⟩
  · simp
  · intro _ _
    simp

/-- A peer that reports missing features gets a stopped session out of its state. -/
theorem not_stops_for_good_missing :
    Machine.new sampleConfig = .ok (.initial sampleConfig)
      ∧ ¬ StopsForGood (Mealy.after Machine.step (.initial sampleConfig) [.start true])
        [.control 1 (.identMissingFeatures 0)] := by
  refine ⟨new_sample, fun stops => ?_⟩
  have stopped := stops.2 _ (List.prefix_refl _)
  have left : (Mealy.after Machine.step (Mealy.after Machine.step (.initial sampleConfig)
      [.start true]) [.stop, .control 1 (.identMissingFeatures 0)]).state = .disconnected := by
    decide
  cases stopped.symm.trans left

/-! ## Terminal errors

What follows a terminal error in the log of a step does nothing. -/

/-- Nothing is done after a terminal error. -/
def Final (log : List Effect) : Prop :=
  ∀ before error after, log = before ++ .terminal error :: after → ∀ e ∈ after, e.active = false

/-- Neither an action nor a terminal error. -/
def Effect.plain : Effect → Bool
  | .terminal _ => false
  | e => !e.active

theorem Effect.inactive_of_plain {e : Effect} (plain : e.plain = true) : e.active = false := by
  cases e <;> first | rfl | cases plain

section Logs

variable {log es : List Effect} {e : Effect} {l k : Link}

theorem final_of_absent (absent : ∀ error, .terminal error ∉ log) : Final log := by
  rintro before error after rfl
  exact absurd (by simp) (absent error)

theorem Final.append (h : Final log) (plain : ∀ e ∈ es, e.plain = true) : Final (log ++ es) := by
  intro before error after eq e mem
  have inert := fun e mem => Effect.inactive_of_plain (plain e mem)
  rcases List.append_eq_append_iff.mp eq with ⟨rest, rfl, rfl⟩ | ⟨rest, rfl, split⟩
  · exact inert e (by simp [mem])
  cases rest with
  | nil =>
    rw [List.nil_append] at split
    cases plain (.terminal error) (by simp [← split])
  | cons first rest =>
    obtain ⟨rfl, rfl⟩ := List.cons.inj split
    rcases List.mem_append.mp mem with mem | mem
    · exact h before error rest rfl e mem
    · exact inert e mem

theorem final_concat (absent : ∀ error, .terminal error ∉ log) (e : Effect) :
    Final (log ++ [e]) := by
  intro before error after eq
  rcases List.append_eq_append_iff.mp eq with ⟨rest, rfl, split⟩ | ⟨rest, rfl, split⟩
  · cases rest with
    | nil => exact (List.cons.inj split).2 ▸ nofun
    | cons first rest => exact absurd (List.cons.inj split).2 (by simp)
  cases rest with
  | nil => exact (List.cons.inj split).2 ▸ nofun
  | cons first rest =>
    obtain ⟨rfl, rfl⟩ := List.cons.inj split
    exact absurd (by simp) (absent error)

/-- What holds of the effects of a step while it is under way. -/
structure Ending (log : List Effect) (l : Link) : Prop where
  final : Final log
  ended : ∀ error, .terminal error ∈ log → l.terminalError = some error

theorem Ending.absent (h : Ending log l) (live : l.terminalError = none) (error : SessionError) :
    .terminal error ∉ log :=
  fun told => absurd (live.symm.trans (h.ended error told)) nofun

theorem Ending.plain (h : Ending log l) (plain : ∀ e ∈ es, e.plain = true)
    (same : k.terminalError = l.terminalError) : Ending (log ++ es) k := by
  refine ⟨h.final.append plain, fun error told => ?_⟩
  rw [same]
  refine h.ended error ((List.mem_append.mp told).resolve_right fun told => ?_)
  cases plain _ told

/-- Something is done while the session has not ended. -/
theorem Ending.does (h : Ending log l) (live : l.terminalError = none)
    (other : ∀ error, e ≠ .terminal error) : Ending (log ++ [e]) k := by
  refine ⟨final_concat (h.absent live) e, fun error told => ?_⟩
  rcases List.mem_append.mp told with told | told
  · exact absurd told (h.absent live error)
  · exact absurd (List.mem_singleton.mp told).symm (other error)

theorem Ending.terminal (h : Ending log l) (live : l.terminalError = none) {error : SessionError}
    (plain : ∀ e ∈ es, e.plain = true) (same : k.terminalError = some error) :
    Ending (log ++ .terminal error :: es) k := by
  have first : Ending (log ++ [.terminal error]) k := by
    refine ⟨final_concat (h.absent live) _, fun other told => ?_⟩
    rcases List.mem_append.mp told with told | told
    · exact absurd told (h.absent live other)
    · rw [same, Effect.terminal.inj (List.mem_singleton.mp told)]
  have rest := first.plain plain rfl
  rwa [List.append_assoc] at rest

theorem plain_enters (l : Link) (state : State) : ∀ e ∈ l.enters state, e.plain = true := by
  unfold enters
  split <;> simp [Effect.plain, Effect.active]

theorem Ending.act (act : Act input l es k) (sound : l.Sound) (asked : input.completes = false)
    (h : Ending log l) : Ending (log ++ es) k := by
  cases act with
  | note inert =>
    refine h.plain (List.forall_mem_singleton.mpr ?_) rfl
    rename_i effect
    cases effect <;> first | rfl | cases inert
  | terminal error live =>
    rw [List.cons_append]
    refine h.terminal live (List.forall_mem_append.mpr ⟨?_, plain_enters l _⟩) rfl
    simp [Effect.plain, Effect.active]
  | drop =>
    refine h.plain (List.forall_mem_append.mpr ⟨?_, plain_enters l _⟩) rfl
    simp [Effect.plain, Effect.active]
  | connect down live => exact h.does live nofun
  | @compare identity =>
    obtain ⟨candidate, change, same⟩ := l.compared_eq identity
    rw [same]
    exact h.plain nofun rfl
  | advance => exact h.plain (plain_enters l _) rfl
  | renew =>
    refine h.plain ?_ rfl
    split <;> simp [Effect.plain, Effect.active]
  | sendControl _ open' =>
    refine h.does (sound.live ?_) nofun
    rcases open' with handshaking | ready
    · exact handshaking.ne
    · simp [ready]
  | sendMessage _ ready => exact h.does (sound.live (by simp [ready])) nofun
  | admitted live => exact h.does live nofun
  | completed completes => cases completes.symm.trans asked
  | incoming message =>
    rw [message] at asked
    cases asked
  | _ => exact h.plain (by simp [Effect.plain, Effect.active]) rfl

end Logs

/-! ## A step with a terminal error -/

namespace Exec

variable {x y : Exec}

/-- A step under way whose effects end as they should. -/
def Ends (x : Exec) : Prop := x.link.Sound ∧ Ending x.linked x.link

theorem Goes.ends (goes : Goes input x y) (asked : input.completes = false) (h : x.Ends) :
    y.Ends := by
  obtain ⟨es, linked, acts⟩ := goes h.1
  refine ⟨Trace.invariant Sound Act.sound acts h.1, ?_⟩
  rw [linked]
  exact (Trace.log_invariant (fun log (l : Link) => l.Sound ∧ Ending log l)
    (fun act inv => ⟨act.sound inv.1, inv.2.act act inv.1 asked⟩) acts h).2

theorem Runs.ends (runs : Runs .stop x y) (h : x.Ends) : y.Ends := runs.goes.ends rfl h

/-- A session that has not ended does something. -/
theorem ends_does (h : x.Ends) (live : x.terminalError = none) (link : y.link = x.link)
    {e : Effect} (other : ∀ error, e ≠ .terminal error) (linked : y.linked = x.linked ++ [e]) :
    y.Ends := by
  unfold Ends
  rw [link, linked]
  exact ⟨h.1, h.2.does live other⟩

/-- A session that has not ended hands a message on. -/
theorem ends_deliver (h : x.Ends) (live : x.terminalError = none) (message : Message) :
    (x.deliver message).Ends := by
  unfold deliver
  dsimp only
  split
  next requestId _ =>
    exact ends_does (e := .completed requestId (some message)) h live rfl nofun (linked_emit _ rfl)
  split
  · exact (runs_failTerminal x (by decide)).ends h
  · exact ends_does (e := .incoming message) h live rfl nofun (linked_emit _ rfl)

theorem terminalError_failTerminal (x : Exec) (error : SessionError) :
    (x.failTerminal error).terminalError ≠ none := by
  unfold failTerminal
  split
  next halt => exact Option.isSome_iff_ne_none.mp halt
  have link := congrArg Link.terminalError (link_setState
    (failAll (emit { emit (emit { x with terminalError := some error } (.terminal error))
      (.event (.transportFault error)) with
        writeBusy := false, controls := [], connectPending := false }
      (.closeTransport x.generation)) error) .disconnected)
  intro none
  cases link.symm.trans none

/-- A queue without room ends a session that is up. -/
theorem terminalError_queueControl (ready : x.state = .ready) (live : x.terminalError = none)
    (full : x.config.maxQueuedMessages ≤ x.controls.length) (control : Control) :
    (x.queueControl control).terminalError ≠ none := by
  unfold queueControl fault
  rw [if_pos full, if_neg (by simp [live, ready])]
  unfold andThen branch
  split
  · exact terminalError_failTerminal _ _
  rename_i failed
  unfold invalidateControls at failed ⊢
  split at failed
  · exact terminalError_failTerminal _ _
  · exact absurd rfl failed

/-- A message that is handed on by a session that has ended. -/
theorem deliver_ended (empty : x.pending = []) (halt : x.terminalError ≠ none)
    (message : Message) :
    x.deliver message = if x.incomingCount ≥ x.config.maxQueuedMessages then x
      else { x with incomingCount := x.incomingCount + 1 }.emit (.incoming message) := by
  have nobody : (x.byTransaction message.header.transactionId).filter (fun requestId =>
      (x.find requestId).any fun pending => pending.mayHaveExecuted && !pending.oneWay) = none := by
    simp [Ledger.find, empty]
  unfold deliver
  dsimp only
  rw [nobody]
  dsimp only
  split
  · exact failTerminal_ended (Option.isSome_iff_ne_none.mpr halt) _
  · rfl

end Exec

/-- A message that finds no room for its acknowledgment, but room to be handed on. -/
def Saturates (m : Machine) : Input → Prop
  | .message generation message =>
    generation = m.generation ∧ m.state = .ready
      ∧ ¬ m.nextOutbound.any (fun next => message.header.ackSequence != 0
        && message.header.ackSequence ≥ next)
      ∧ m.lastInbound < message.header.sequence
      ∧ m.config.maxQueuedMessages ≤ m.controls.length
      ∧ m.incomingCount < m.config.maxQueuedMessages
  | _ => False

namespace Exec

variable {x : Exec} {message : Message}

/-- The acknowledgment of a message ends the session if the queue has no room for it. -/
theorem terminalError_acknowledge (ready : x.state = .ready) (live : x.terminalError = none)
    (message : Message) :
    (x.acknowledge message).terminalError = none
      ↔ x.controls.length < x.config.maxQueuedMessages := by
  have queued (z : Exec) (ready : z.state = .ready) (live : z.terminalError = none)
      (control : Control) : (z.queueControl control).terminalError = none
        ↔ z.controls.length < z.config.maxQueuedMessages := by
    constructor
    · intro none
      by_contra full
      exact terminalError_queueControl ready live (not_lt.mp full) _ none
    intro room
    rw [queueControl, if_neg (not_le.mpr room)]
    exact live
  unfold acknowledge noteGap
  split
  · refine queued (onLedger _ _) ?_ ?_ _
    · exact ready
    · exact live
  · refine queued (onLedger _ _) ?_ ?_ _
    · exact ready
    · exact live

/-- A message that does not saturate the session ends its step as it should. -/
theorem ends_message (h : m.begin.Ends) (fits : ¬ Saturates m (.message m.generation message)) :
    (m.begin.message message).Ends := by
  unfold Exec.message
  split
  · exact (runs_fault m.begin _).ends h
  rename_i ready
  have ready : m.state = .ready := by simpa [Machine.begin] using ready
  have live : m.begin.terminalError = none :=
    h.1.live (show m.state ≠ _ ∧ m.state ≠ _ by simp [ready])
  unfold acceptAcknowledgment
  split
  · exact (runs_fault m.begin _).ends h
  rename_i confirmed
  change (if _ then _ else _ : Exec).Ends
  split
  · exact ends_does (e := .event (.duplicateDropped message.header.sequence)) h live rfl (by simp)
      (linked_emit _ rfl)
  rename_i fresh
  have taken := acknowledged (m := m) h.1 ready message
  rw [receive_eq]
  have goes : Goes .stop m.begin _ := taken.goes
  have ends := goes.ends rfl h
  by_cases up : (m.begin.acknowledge message).terminalError = none
  · exact ends_deliver ends up message
  rw [show ((true, m.begin).2.acknowledge message).deliver message = _ from
    deliver_ended (taken.ended (absurd live) up) up message, if_pos]
  · exact ends
  · by_contra unread
    rw [taken.incomingCount, taken.queue] at unread
    exact fits ⟨rfl, ready, confirmed, not_le.mp fresh,
      not_lt.mp fun free => up ((terminalError_acknowledge ready live message).mpr free),
      not_le.mp unread⟩

theorem ends_writeComplete (h : x.Ends) (generation : Nat) (requestId : Option Nat)
    (result : Except SessionError Unit) (fresh : x.effects = []) :
    (x.writeComplete generation requestId result).Ends := by
  unfold writeComplete
  split
  · exact h
  have ends : Ends { x with writeBusy := false } :=
    ⟨⟨h.1.dialing, h.1.ended, h.1.down, h.1.attempts⟩, h.2.final, h.2.ended⟩
  dsimp only
  split
  · exact (runs_fault _ _).ends ends
  split
  · exact ends
  next requestId =>
    split
    · refine ⟨ends.1, final_of_absent fun error told => ?_, fun error told => ?_⟩
      all_goals simp [linked, emit, onLedger, fresh, Effect.linked] at told
    · exact ends

end Exec

/-- The effects of a step that does not saturate the session. -/
theorem Machine.step_ending (sound : m.link.Sound) (fits : ¬ Saturates m input) :
    Ending ((m.step input).2.filter Effect.linked) (m.step input).1.link := by
  have start (l : Link) : Ending [] l := ⟨final_of_absent fun _ => nofun, fun _ => nofun⟩
  have begun : m.begin.Ends := ⟨sound, start _⟩
  cases asked : input.completes with
  | false =>
    exact (Trace.log_invariant (fun log (l : Link) => l.Sound ∧ Ending log l)
      (fun act inv => ⟨act.sound inv.1, inv.2.act act inv.1 asked⟩) (m.step_acts sound input)
      ⟨Machine.opened_sound sound input, start _⟩).2
  | true =>
    cases input with
    | writeComplete generation requestId result =>
      exact (Exec.ends_writeComplete begun generation requestId result rfl).2
    | message generation message =>
      unfold Machine.step Exec.perform
      dsimp only
      split
      next current =>
        have current : generation = m.generation := by simpa using current
        subst current
        exact (Exec.ends_message begun fits).2
      · exact start _
    | _ => cases asked

theorem Final.of_linked {log : List Effect} (h : Final (log.filter Effect.linked)) : Final log := by
  rintro before error after rfl e mem
  rw [List.filter_append, List.filter_cons_of_pos rfl] at h
  cases e with
  | failed => rfl
  | _ => exact h _ error _ rfl _ (List.mem_filter.mpr ⟨mem, rfl⟩)

variable {error : SessionError}

/-- A session that has ended takes no part in anything until it gets a new connection. -/
theorem Halted.run (h : Halted m) (halt : m.terminalError = some error) (later : List Input)
    (refused : Mealy.Every Machine.step (fun m input => m.takesInitial input = false) m later) :
    (∀ e ∈ Mealy.log Machine.step m later, e.active = false)
      ∧ Halted (Mealy.after Machine.step m later)
      ∧ (Mealy.after Machine.step m later).terminalError = some error := by
  induction later generalizing m with
  | nil => exact ⟨nofun, h, halt⟩
  | cons input later ih =>
    have whole : ¬ Breaks m input := by
      unfold Breaks
      split <;> simp [halt]
    have halts := h.step refused.1 whole
    obtain ⟨inert, halted, same⟩ := ih halts.halted (halts.terminal.trans halt) refused.2
    rw [Mealy.log_cons, List.forall_mem_append]
    exact ⟨⟨halts.inert, inert⟩, halted, same⟩

/-- A step that raises a terminal error is the last thing the session does: nothing is done
after the error, no request is left, and until a new connection is given to it the session
does nothing and answers every request with the error. -/
def EndsWith (m : Machine) (input : Input) (error : SessionError) : Prop :=
  (∀ before after, (m.step input).2 = before ++ .terminal error :: after →
    ∀ e ∈ after, e.active = false)
  ∧ (m.step input).1.pending = []
  ∧ ∀ later, Mealy.Every Machine.step (fun m input => m.takesInitial input = false)
      (m.step input).1 later →
    (∀ e ∈ Mealy.log Machine.step (m.step input).1 later, e.active = false)
      ∧ (Mealy.after Machine.step (m.step input).1 later).pending = []
      ∧ ∀ requestId message oneWay,
        ((Mealy.after Machine.step (m.step input).1 later).step
          (.admitRequest requestId message oneWay)).2 = [.failed requestId error]

theorem Machine.ended_empty (config : Config) (inputs : List Input) :
    let m := Mealy.after Machine.step (.initial config) inputs
    m.link.Sound ∧ (m.terminalError ≠ none → m.pending = []) :=
  Mealy.run_invariant Machine.step
    (fun _ _ m => m.link.Sound ∧ (m.terminalError ≠ none → m.pending = []))
    ⟨initial_sound config, fun halt => absurd rfl halt⟩
    (fun _ _ _ input h => ⟨step_sound h.1 input, (step_of h.1 input).ended h.2⟩) inputs

/-- A saturated session hands the message on after it has ended. -/
theorem not_endsWith_of_saturates (sound : m.link.Sound) (saturates : Saturates m input)
    (raised : .terminal error ∈ (m.step input).2) : ¬ EndsWith m input error := by
  unfold Saturates at saturates
  split at saturates
  case _ generation message =>
    obtain ⟨rfl, ready, acknowledged, fresh, full, unread⟩ := saturates
    have live : m.terminalError = none := sound.live (by simp [Machine.link, ready])
    have taken := Exec.acknowledged sound ready message
    have halt : (m.begin.acknowledge message).terminalError ≠ none := fun none =>
      absurd full (not_le.mpr ((Exec.terminalError_acknowledge ready live message).mp none))
    have handed : (m.step (.message m.generation message)).2
        = (m.begin.acknowledge message).effects ++ [.incoming message] := by
      have perform : m.begin.perform (.message m.generation message)
          = (m.begin.acknowledge message).deliver message := by
        unfold Exec.perform Exec.message Exec.acceptAcknowledgment
        dsimp only
        rw [if_pos (by simp [Machine.begin]), if_neg (by simp [Machine.begin, ready]),
          if_neg (show ¬ m.begin.nextOutbound.any _ from acknowledged)]
        change (if _ then _ else _ : Exec) = _
        exact if_neg (not_le.mpr fresh)
      change (m.begin.perform (.message m.generation message)).effects = _
      rw [perform, Exec.deliver_ended (taken.ended (absurd live) halt) halt, if_neg]
      · rfl
      · rw [taken.incomingCount, taken.queue]
        exact not_le.mpr unread
    have told : .terminal error ∈ (m.begin.acknowledge message).effects := by
      rw [handed] at raised
      exact (List.mem_append.mp raised).resolve_right (by simp)
    obtain ⟨before, after, split⟩ := List.append_of_mem told
    intro ends
    have inert := ends.1 before (after ++ [.incoming message])
      (by rw [handed, split, List.append_assoc, List.cons_append])
    cases inert (.incoming message) (by simp)
  case _ => exact saturates.elim

/-- A terminal error is final, unless it is raised because a message found no room for its
acknowledgment. -/
theorem terminal_final_iff {config : Config} {m : Machine} (new : Machine.new config = .ok m)
    (inputs : List Input) {input : Input} {error : SessionError}
    (raised : .terminal error ∈ ((Mealy.after Machine.step m inputs).step input).2) :
    EndsWith (Mealy.after Machine.step m inputs) input error
      ↔ ¬ Saturates (Mealy.after Machine.step m inputs) input := by
  obtain rfl := Machine.new_eq_ok new
  obtain ⟨sound, ended⟩ := Machine.ended_empty config inputs
  have empty := (Machine.step_of sound input).ended ended
  generalize Mealy.after Machine.step (.initial config) inputs = s at *
  refine ⟨fun ends saturates => not_endsWith_of_saturates sound saturates raised ends, fun fits => ?_⟩
  have ending := Machine.step_ending sound fits
  have halt : (s.step input).1.terminalError = some error :=
    ending.ended error (List.mem_filter.mpr ⟨raised, rfl⟩)
  have none : (s.step input).1.pending = [] :=
    empty (show (s.step input).1.terminalError ≠ none by rw [halt]; nofun)
  have after : (s.step input).1.link.Sound := Machine.step_sound sound input
  have halted : Halted (s.step input).1 := by
    have ended : (s.step input).1.terminalError ≠ Option.none := by simp [halt]
    exact ⟨after.ended ended, after.idle fun _ => ended, none, .inl (by rw [halt]; rfl)⟩
  refine ⟨fun before after eq => ending.final.of_linked before error after eq, none, ?_⟩
  intro later refused
  obtain ⟨inert, rest, same⟩ := halted.run halt later refused
  refine ⟨inert, rest.empty, fun requestId message oneWay => ?_⟩
  rw [rest.admitRequest, same]
  rfl

/-- A session that runs out of attempts has ended, and a request that comes after gets the
error. -/
theorem terminal_final_iff_exhausted :
    .terminal .reconnectExhausted ∈ ((Mealy.after Machine.step
        (.initial { sampleConfig with maxReconnectAttempts := 0 }) [.start true]).step
        (.fault 1 .disconnected)).2
      ∧ EndsWith (Mealy.after Machine.step
        (.initial { sampleConfig with maxReconnectAttempts := 0 }) [.start true])
        (.fault 1 .disconnected) .reconnectExhausted := by
  have raised : .terminal .reconnectExhausted ∈ ((Mealy.after Machine.step
      (.initial { sampleConfig with maxReconnectAttempts := 0 }) [.start true]).step
      (.fault 1 .disconnected)).2 := by
    decide
  have new : Machine.new { sampleConfig with maxReconnectAttempts := 0 }
      = .ok (.initial { sampleConfig with maxReconnectAttempts := 0 }) := rfl
  exact ⟨raised, (terminal_final_iff new [.start true] raised).mpr id⟩

/-- A session with room for one acknowledgment gets two messages, ends on the second one and
hands it on all the same. -/
theorem not_terminal_final_saturated :
    let config := { sampleConfig with maxQueuedMessages := 1 }
    let m := Mealy.after Machine.step (.initial config)
      [.start true, .message 1 { header := { sequence := 1 } }, .consumeIncoming]
    let input := Input.message 1 { header := { sequence := 2 } }
    Machine.new config = .ok (.initial config)
      ∧ .terminal .queueSaturated ∈ (m.step input).2
      ∧ ¬ EndsWith m input .queueSaturated := by
  intro config m input
  have raised : .terminal .queueSaturated ∈ (m.step input).2 := by decide
  refine ⟨rfl, raised, ?_⟩
  have sound := Machine.after_sound (Machine.initial_sound config)
    [.start true, .message 1 { header := { sequence := 1 } }, .consumeIncoming]
  have saturates : Saturates m input := by
    refine ⟨?_, ?_, ?_, ?_, ?_, ?_⟩ <;> decide
  exact not_endsWith_of_saturates sound saturates raised

end RadosRs.Msgr.Session
