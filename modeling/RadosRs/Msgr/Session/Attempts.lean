import RadosRs.Msgr.Session.Refinement

/-!
# A session gives up

A peer that answers with resets, retries, waits or faults, or that never answers,
keeps a session busy only so long.  Two bounds say it, and they are read off the
effects alone: how often the session asks for a connection before it becomes ready
(`connectsSinceReady`), and how many control messages it writes to one transport
while it is not ready (`handshakeSends`).

The state at an effect is the last one that the events before it told of.  That
this is the state of the machine is part of the result.
-/

namespace RadosRs.Msgr.Session

open Link

/-! ## Reading the effects -/

/-- The state after an effect, if `state` was the one before it. -/
def Effect.tells (state : State) : Effect → State
  | .event (.stateChanged state) => state
  | _ => state

def toldState (log : List Effect) : State := log.foldl Effect.tells .disconnected

/-- Attempts at a connection, counted from the last time the session became ready. -/
def Effect.attempts (attempts : Nat) : Effect → Nat
  | .connect _ => attempts + 1
  | .event (.stateChanged .ready) => 0
  | _ => attempts

def connectsSinceReady (log : List Effect) : Nat := log.foldl Effect.attempts 0

def Effect.sendsControl (generation : Nat) : Effect → Bool
  | .sendControl g _ => g == generation
  | _ => false

/-- The control messages written to a transport while the session is not ready, beginning
in the given state. -/
def sendsFrom (generation : Nat) : State → List Effect → Nat
  | _, [] => 0
  | state, effect :: log =>
    (if state ≠ .ready ∧ effect.sendsControl generation then 1 else 0)
      + sendsFrom generation (effect.tells state) log

def handshakeSends (generation : Nat) (log : List Effect) : Nat :=
  sendsFrom generation .disconnected log

theorem toldState_append (log es : List Effect) :
    toldState (log ++ es) = es.foldl Effect.tells (toldState log) :=
  List.foldl_append

theorem connectsSinceReady_append (log es : List Effect) :
    connectsSinceReady (log ++ es) = es.foldl Effect.attempts (connectsSinceReady log) :=
  List.foldl_append

variable (generation : Nat)

theorem sendsFrom_append (state : State) (log es : List Effect) :
    sendsFrom generation state (log ++ es) = sendsFrom generation state log
      + sendsFrom generation (log.foldl Effect.tells state) es := by
  induction log generalizing state with
  | nil => exact (Nat.zero_add _).symm
  | cons effect log ih => rw [List.cons_append, sendsFrom, ih, sendsFrom, Nat.add_assoc]; rfl

theorem handshakeSends_append (log es : List Effect) :
    handshakeSends generation (log ++ es)
      = handshakeSends generation log + sendsFrom generation (toldState log) es :=
  sendsFrom_append generation .disconnected log es

/-! Failures of requests count for nothing. -/

theorem toldState_linked (log : List Effect) :
    toldState (log.filter Effect.linked) = toldState log := by
  refine List.foldl_filter.trans (congrArg (fun f => log.foldl f _) ?_)
  funext state effect
  cases effect <;> rfl

theorem connectsSinceReady_linked (log : List Effect) :
    connectsSinceReady (log.filter Effect.linked) = connectsSinceReady log := by
  refine List.foldl_filter.trans (congrArg (fun f => log.foldl f _) ?_)
  funext attempts effect
  cases effect <;> rfl

theorem sendsFrom_linked (state : State) (log : List Effect) :
    sendsFrom generation state (log.filter Effect.linked) = sendsFrom generation state log := by
  induction log generalizing state with
  | nil => rfl
  | cons effect log ih =>
    cases effect <;> simp [List.filter_cons, Effect.linked, sendsFrom, ih, Effect.sendsControl,
      Effect.tells]

/-! ## One act -/

variable {input : Input} {l k : Link} {log es : List Effect}

theorem foldl_tells_enters (l : Link) (state : State) :
    (l.enters state).foldl Effect.tells l.state = state := by
  unfold enters
  split
  next here => exact here
  · rfl

variable {effect : Effect}

theorem Effect.tells_inert (inert : effect.inert = true) (state : State) :
    effect.tells state = state := by
  cases effect with
  | event event => cases event <;> first | rfl | cases inert
  | _ => rfl

/-- Every change of state is told. -/
theorem Link.Act.tells (act : Act input l es k) : es.foldl Effect.tells l.state = k.state := by
  cases act with
  | note inert => exact Effect.tells_inert inert l.state
  | terminal => exact foldl_tells_enters l .disconnected
  | drop => exact foldl_tells_enters l .disconnected
  | advance => exact foldl_tells_enters l _
  | @compare identity =>
    obtain ⟨candidate, change, same⟩ := l.compared_eq identity
    rw [same]
    rfl
  | renew =>
    cases pending : l.renewalPending <;> simp [renewed, Effect.tells, pending]
  | _ => rfl

/-- Neither an attempt at a connection nor a control message. -/
def Effect.calm : Effect → Bool
  | .connect _ => false
  | .sendControl _ _ => false
  | _ => true

theorem Effect.calm_of_inert (inert : effect.inert = true) : effect.calm = true := by
  cases effect <;> first | rfl | cases inert

theorem calm_enters (l : Link) (state : State) : ∀ e ∈ l.enters state, e.calm = true := by
  intro e told
  unfold enters at told
  split at told
  · cases told
  · rw [List.mem_singleton.mp told]
    rfl

theorem calm_append_enters (first : ∀ e ∈ es, e.calm = true) (l : Link) (state : State) :
    ∀ e ∈ es ++ l.enters state, e.calm = true :=
  List.forall_mem_append.mpr ⟨first, calm_enters l state⟩

/-- An act is calm, unless it asks for a connection or writes a control message. -/
theorem Link.Act.calm (act : Act input l es k) :
    (∀ e ∈ es, e.calm = true) ∨ es = [.connect (l.generation + 1)]
      ∨ ∃ control controls, es = [.sendControl l.generation control]
        ∧ l.controls = control :: controls ∧ (l.Handshaking ∨ l.state = .ready)
        ∧ k = { l with controls, writeBusy := true } := by
  cases act with
  | connect => exact .inr (.inl rfl)
  | sendControl asked up free first => exact .inr (.inr ⟨_, _, rfl, first, up, rfl⟩)
  | note inert => exact .inl (List.forall_mem_singleton.mpr (Effect.calm_of_inert inert))
  | terminal => exact .inl (calm_append_enters (by simp [Effect.calm]) l _)
  | drop => exact .inl (calm_append_enters (by simp [Effect.calm]) l _)
  | advance => exact .inl (calm_enters l _)
  | renew =>
    left
    split <;> simp [Effect.calm]
  | _ => simp [Effect.calm]

theorem foldl_attempts_calm (calm : ∀ e ∈ es, e.calm = true) (attempts : Nat) :
    es.foldl Effect.attempts attempts ≤ attempts := by
  induction es generalizing attempts with
  | nil => exact le_rfl
  | cons e es ih =>
    obtain ⟨first, rest⟩ := List.forall_mem_cons.mp calm
    refine (ih rest _).trans ?_
    unfold Effect.attempts
    split
    · cases first
    · exact Nat.zero_le _
    · exact le_rfl

/-! ## Attempts -/

/-- Every attempt since the session was last ready is counted. -/
structure Attempted (log : List Effect) (l : Link) : Prop where
  counted : connectsSinceReady log ≤ l.reconnectAttempts
  bounded : ∀ p, p <+: log → connectsSinceReady p ≤ l.maxReconnectAttempts

theorem Link.Act.limits (act : Act input l es k) :
    k.maxReconnectAttempts = l.maxReconnectAttempts
      ∧ k.maxHandshakeTransitions = l.maxHandshakeTransitions := by
  cases act with
  | @compare identity =>
    obtain ⟨candidate, change, same⟩ := l.compared_eq identity
    rw [same]
    exact ⟨rfl, rfl⟩
  | _ => exact ⟨rfl, rfl⟩

/-- An act keeps the count, raises it with the attempts or makes the session ready. -/
theorem Link.Act.counted (act : Act input l es k) {attempts : Nat}
    (h : attempts ≤ l.reconnectAttempts) :
    es.foldl Effect.attempts attempts ≤ k.reconnectAttempts := by
  have fewer (calm : ∀ e ∈ es, e.calm = true) :
      es.foldl Effect.attempts attempts ≤ l.reconnectAttempts :=
    (foldl_attempts_calm calm attempts).trans h
  cases act with
  | connect => exact Nat.succ_le_succ h
  | exhaust => exact h.trans (Nat.le_succ _)
  | ready => exact le_rfl
  | start => exact Nat.zero_le _
  | «open» => exact fewer (by simp [Effect.calm])
  | note inert => exact fewer (List.forall_mem_singleton.mpr (Effect.calm_of_inert inert))
  | terminal => exact fewer (calm_append_enters (by simp [Effect.calm]) l _)
  | drop => exact fewer (calm_append_enters (by simp [Effect.calm]) l _)
  | advance => exact fewer (calm_enters l _)
  | renew => exact fewer (by split <;> simp [Effect.calm])
  | @compare identity =>
    obtain ⟨candidate, change, same⟩ := l.compared_eq identity
    rw [same]
    exact h
  | _ => exact h

theorem Attempted.act (act : Act input l es k) (sound : l.Sound) (h : Attempted log l) :
    Attempted (log ++ es) k := by
  have counted : connectsSinceReady (log ++ es) ≤ k.reconnectAttempts := by
    rw [connectsSinceReady_append]
    exact act.counted h.counted
  refine ⟨counted, fun p within => ?_⟩
  have before (p : List Effect) (within : p <+: log) :
      connectsSinceReady p ≤ k.maxReconnectAttempts := by
    rw [act.limits.1]
    exact h.bounded p within
  have now (e : Effect) (single : es = [e]) : connectsSinceReady p ≤ k.maxReconnectAttempts := by
    subst single
    rcases List.prefix_concat_iff.mp within with rfl | earlier
    · exact counted.trans (act.sound sound).attempts
    · exact before p earlier
  rcases act.calm with calm | single | ⟨control, _, single, _⟩
  · rcases List.prefix_or_prefix_of_prefix within (log.prefix_append es) with earlier | ⟨q, rfl⟩
    · exact before p earlier
    · have part := (List.prefix_append_right_inj log).mp within
      rw [connectsSinceReady_append]
      refine (foldl_attempts_calm (fun e mem => calm e (part.subset mem)) _).trans ?_
      exact before log (List.prefix_refl log)
  · exact now _ single
  · exact now _ single

/-! ## Handshakes -/

/-- What has been written to the present transport and what waits to be written are
covered by the answers the peer has given. -/
structure Paced (log : List Effect) (l : Link) : Prop where
  told : toldState log = l.state
  unused : ∀ generation, l.generation < generation → handshakeSends generation log = 0
  bounded : ∀ generation, handshakeSends generation log ≤ l.maxHandshakeTransitions + 1
  handshake : l.Handshaking → handshakeSends l.generation log + l.controls.length
    ≤ min l.transitions l.maxHandshakeTransitions + 1

theorem sendsFrom_silent {generation : Nat} (silent : ∀ e ∈ es, e.sendsControl generation = false)
    (state : State) : sendsFrom generation state es = 0 := by
  induction es generalizing state with
  | nil => rfl
  | cons e es ih =>
    obtain ⟨first, rest⟩ := List.forall_mem_cons.mp silent
    rw [sendsFrom, ih rest, if_neg (by simp [first])]

theorem Link.Act.silent (act : Act input l es k) :
    (∀ generation, ∀ e ∈ es, e.sendsControl generation = false)
      ∨ ∃ control controls, es = [.sendControl l.generation control]
        ∧ l.controls = control :: controls ∧ (l.Handshaking ∨ l.state = .ready)
        ∧ k = { l with controls, writeBusy := true } := by
  rcases act.calm with calm | rfl | sends
  · left
    intro generation e mem
    have calm := calm e mem
    cases e <;> first | rfl | cases calm
  · exact .inl fun _ => by simp [Effect.sendsControl]
  · exact .inr sends

theorem Link.Act.generation_le (act : Act input l es k) : l.generation ≤ k.generation := by
  cases act with
  | connect => exact Nat.le_succ _
  | «open» => exact Nat.le_succ _
  | start => exact Nat.le_succ _
  | @compare identity =>
    obtain ⟨candidate, change, same⟩ := l.compared_eq identity
    rw [same]
  | _ => exact le_rfl

/-- An act that writes no control message opens a handshake, goes on with it or leaves it
alone. -/
theorem Link.Act.paced (act : Act input l es k)
    (silent : ∀ generation, ∀ e ∈ es, e.sendsControl generation = false) {sends : Nat}
    (unused : l.generation < k.generation → sends = 0)
    (h : l.Handshaking → sends + l.controls.length
      ≤ min l.transitions l.maxHandshakeTransitions + 1)
    (up : k.Handshaking) :
    sends + k.controls.length ≤ min k.transitions k.maxHandshakeTransitions + 1 := by
  cases act with
  | terminal => rcases up with up | up <;> cases up
  | drop => rcases up with up | up <;> cases up
  | connect down => exact absurd down up.ne.1
  | exhaust down => exact absurd down up.ne.1
  | @compare identity =>
    obtain ⟨candidate, change, same⟩ := l.compared_eq identity
    rw [same] at up ⊢
    exact h up
  | «open» shows same handshake down idle live first few =>
    have new := unused (Nat.lt_succ_self _)
    dsimp only
    omega
  | start => rcases up with up | up <;> cases up
  | advance handshaking handshake few =>
    have before := h handshaking
    dsimp only
    omega
  | wait => rcases up with up | up <;> cases up
  | ready => rcases up with up | up <;> cases up
  | queue ready => rcases up with up | up <;> cases ready.symm.trans up
  | sendControl asked open' free first =>
    have sent := silent l.generation _ (List.mem_singleton.mpr rfl)
    simp [Effect.sendsControl] at sent
  | stop => rcases up with up | up <;> cases up
  | _ => exact h up

theorem Paced.act (act : Act input l es k) (h : Paced log l) : Paced (log ++ es) k := by
  have told : toldState (log ++ es) = k.state := by rw [toldState_append, h.told, act.tells]
  have limit := act.limits.2
  rcases act.silent with silent | ⟨control, controls, rfl, first, up, rfl⟩
  · have same (generation : Nat) :
        handshakeSends generation (log ++ es) = handshakeSends generation log := by
      rw [handshakeSends_append, sendsFrom_silent (silent generation), Nat.add_zero]
    refine ⟨told, fun generation later => ?_, fun generation => ?_, ?_⟩
    · rw [same]
      exact h.unused generation (act.generation_le.trans_lt later)
    · rw [same, limit]
      exact h.bounded generation
    rw [same]
    refine act.paced silent (h.unused _) fun up => ?_
    rcases act.generation_le.eq_or_lt with same | later
    · rw [← same]
      exact h.handshake up
    rw [h.unused _ later]
    have before := h.handshake up
    omega
  · rcases up with up | ready
    · have before := h.handshake up
      have counted (generation : Nat) :
          handshakeSends generation (log ++ [.sendControl l.generation control])
            = handshakeSends generation log + if l.generation = generation then 1 else 0 := by
        have open' : l.state ≠ .ready := by rcases up with up | up <;> simp [up]
        simp [handshakeSends_append, h.told, sendsFrom, Effect.sendsControl, open']
      rw [first, List.length_cons] at before
      refine ⟨told, fun generation later => ?_, fun generation => ?_, fun _ => ?_⟩
      · rw [counted, h.unused generation later, if_neg (ne_of_lt later)]
      · rw [counted]
        split
        next here =>
          subst here
          dsimp only
          omega
        · exact h.bounded generation
      · rw [counted, if_pos rfl]
        dsimp only
        omega
    · have same (generation : Nat) :
          handshakeSends generation (log ++ [.sendControl l.generation control])
            = handshakeSends generation log := by
        simp [handshakeSends_append, h.told, sendsFrom, ready]
      refine ⟨told, fun generation later => ?_, fun generation => ?_, fun up => ?_⟩
      · rw [same]
        exact h.unused generation later
      · rw [same]
        exact h.bounded generation
      · rcases up with up | up <;> cases ready.symm.trans up

theorem handshakeSends_mono {p : List Effect} (h : p <+: log) (generation : Nat) :
    handshakeSends generation p ≤ handshakeSends generation log := by
  obtain ⟨rest, rfl⟩ := h
  rw [handshakeSends_append]
  exact Nat.le_add_right _ _

/-! ## Every run -/

theorem reached_limits (config : Config) (inputs : List Input) :
    let l := (Mealy.after Machine.step (.initial config) inputs).link
    l.maxReconnectAttempts = config.maxReconnectAttempts
      ∧ l.maxHandshakeTransitions = config.maxHandshakeTransitions :=
  Machine.run_acts
    (fun _ l => l.maxReconnectAttempts = config.maxReconnectAttempts
      ∧ l.maxHandshakeTransitions = config.maxHandshakeTransitions)
    (Machine.initial_sound config) ⟨rfl, rfl⟩ (fun _ _ _ same => same)
    (fun act _ same => ⟨act.limits.1.trans same.1, act.limits.2.trans same.2⟩) inputs

theorem attempted_reached (config : Config) (inputs : List Input) :
    Attempted ((Mealy.log Machine.step (.initial config) inputs).filter Effect.linked)
      (Mealy.after Machine.step (.initial config) inputs).link := by
  refine Machine.run_acts Attempted (Machine.initial_sound config) ⟨le_rfl, fun p empty => ?_⟩
    (fun _ _ _ h => ⟨h.counted, h.bounded⟩) (fun act sound h => h.act act sound) inputs
  rw [List.prefix_nil.mp empty]
  exact Nat.zero_le _

theorem paced_reached (config : Config) (inputs : List Input) :
    Paced ((Mealy.log Machine.step (.initial config) inputs).filter Effect.linked)
      (Mealy.after Machine.step (.initial config) inputs).link := by
  refine Machine.run_acts Paced (Machine.initial_sound config) ?_ ?_ (fun act _ h => h.act act)
    inputs
  · exact ⟨rfl, fun _ _ => rfl, fun _ => Nat.zero_le _, fun up => absurd rfl up.ne.1⟩
  · intro log l down h
    exact ⟨h.told, h.unused, h.bounded, fun up => absurd down up.ne.1⟩

/-- A session asks for a connection only so often before it is ready, and it writes only
so many control messages to a transport that is not ready, whatever its peer does.  Both
hold at every effect of the run, and the events tell the state of the machine. -/
theorem attempts_bounded {config : Config} {m : Machine} (new : Machine.new config = .ok m)
    (inputs : List Input) :
    toldState (Mealy.log Machine.step m inputs) = (Mealy.after Machine.step m inputs).state
      ∧ ∀ log, log <+: Mealy.log Machine.step m inputs →
        connectsSinceReady log ≤ config.maxReconnectAttempts
          ∧ ∀ generation, handshakeSends generation log ≤ config.maxHandshakeTransitions + 1 := by
  obtain rfl := Machine.new_eq_ok new
  have paced := paced_reached config inputs
  obtain ⟨attempts, transitions⟩ := reached_limits config inputs
  refine ⟨(toldState_linked _).symm.trans paced.told, fun log within => ⟨?_, fun generation => ?_⟩⟩
  · rw [← connectsSinceReady_linked, ← attempts]
    exact (attempted_reached config inputs).bounded _ (within.filter _)
  refine (handshakeSends_mono within generation).trans ?_
  rw [← transitions, handshakeSends, ← sendsFrom_linked]
  exact paced.bounded generation

/-- A peer that resets the session again and again, until the session is done with it. -/
def resettingPeer : List Input :=
  [.initialConnection (some 1) none, .dispatch, .writeComplete 1 none (.ok ()),
    .control 1 (.sessionReset false), .dispatch, .control 1 (.sessionReset false),
    .connected 2 (some 1) none, .dispatch]

theorem attempts_bounded_resetting :
    Machine.new sampleConfig = .ok (.initial sampleConfig)
      ∧ connectsSinceReady (Mealy.log Machine.step (.initial sampleConfig) resettingPeer) ≤ 3
      ∧ handshakeSends 1 (Mealy.log Machine.step (.initial sampleConfig) resettingPeer) ≤ 5 := by
  have bounds := (attempts_bounded new_sample resettingPeer).2 _ (List.prefix_refl _)
  exact ⟨new_sample, bounds.1, bounds.2 1⟩

end RadosRs.Msgr.Session
