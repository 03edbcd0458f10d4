import RadosRs.Msgr.Session.Refinement

/-!
# Renewing a credential

A session whose credential is about to expire drains, reconnects and calls the
renewal complete once the new connection shows another credential.  Which
credential a connection shows is reported from outside, and the machine keeps its
own record of it.  `Watch` follows the reports alone: the identity of the
connection in use, and the one that was in use when the renewal under way began.

The machine compares a new connection with its record, and it writes the record
only for the first identity and when a renewal is complete.  A connection that is
taken by a handshake leaves the record as it was, so that a renewal may complete
without any change.  Where the record agrees with the reports (`KeepsRecord`), a
renewal completes only when it should.
-/

namespace RadosRs.Msgr.Session

open Link

/-- What has been reported from outside about the credentials of a session. -/
structure Watch where
  /-- The identity reported for the connection in use. -/
  inUse : Option Identity := none
  /-- The identity of the connection that was in use when the renewal began. -/
  renewing : Option Identity := none

/-- The identity of the connection in use once an input has been taken. -/
def Watch.reported (w : Watch) (m : Machine) (input : Input) : Option Identity :=
  match input with
  | .connected _ _ identity => if m.takes input then identity else w.inUse
  | .initialConnection _ identity => if m.takes input then identity else w.inUse
  | .initialIdentity generation _ identity =>
    if generation == m.generation && m.state == .ready then identity else w.inUse
  | .start true =>
    if m.state == .disconnected && !m.connectPending && m.terminalError.isNone then none
    else w.inUse
  | _ => w.inUse

def Watch.next (w : Watch) (m : Machine) (input : Input) : Watch where
  inUse := w.reported m input
  renewing :=
    if .event .credentialRenewal ∈ (m.step input).2 then w.reported m input else w.renewing

/-- A session together with what has been reported about it. -/
def watchedStep (s : Machine × Watch) (input : Input) : (Machine × Watch) × List Effect :=
  (((s.1.step input).1, s.2.next s.1 input), (s.1.step input).2)

/-- A renewal completes only in a handshake on a connection with a known credential, and
another one than was in use when the renewal began. -/
def RenewsSoundly (s : Machine × Watch) (input : Input) : Prop :=
  .event .credentialRenewalCompleted ∈ (s.1.step input).2 →
    s.1.link.Handshaking ∧ s.2.inUse.isSome ∧ s.2.renewing ≠ s.2.inUse

/-- The machine's record is that of the connection in use when a renewal begins, and it is
not replaced during the renewal. -/
def KeepsRecord (s : Machine × Watch) : Input → Prop
  | .renewalDue generation =>
    generation = s.1.generation → s.1.renewal = .idle → s.1.credentialIdentity = s.2.inUse
  | .initialIdentity generation _ identity =>
    generation = s.1.generation → s.1.state = .ready → s.1.renewal ≠ .idle →
      identity = s.1.credentialIdentity
  | _ => True

instance (l : Link) : Decidable l.Handshaking :=
  inferInstanceAs (Decidable (l.state = .connecting ∨ l.state = .reconnecting))

instance (s : Machine × Watch) (input : Input) : Decidable (RenewsSoundly s input) :=
  inferInstanceAs (Decidable (_ → _ ∧ _ ∧ _))

instance (s : Machine × Watch) (input : Input) : Decidable (KeepsRecord s input) := by
  unfold KeepsRecord
  split <;> infer_instance

/-! ## One step -/

/-- What a handshake remembers of the credential its connection showed. -/
def Compared (inUse : Option Identity) (l : Link) : Prop :=
  l.Handshaking → l.credentialChange = .changed →
    l.candidateCredentialIdentity = inUse ∧ inUse.isSome ∧ l.credentialIdentity ≠ inUse

/-- What holds between steps. -/
structure Watched (s : Machine × Watch) : Prop where
  sound : s.1.link.Sound
  compared : Compared s.2.inUse s.1.link
  renewing : s.1.renewal ≠ .idle → s.2.renewing = s.1.credentialIdentity

/-- What holds during a step that began at `m`, when the connection in use has the
identity `inUse` and that of the renewal was `renewing`. -/
structure During (m : Machine) (input : Input) (inUse renewing : Option Identity)
    (log : List Effect) (l : Link) : Prop where
  compared : Compared inUse l
  before : .event .credentialRenewal ∉ log → l.renewal ≠ .idle → renewing = l.credentialIdentity
  begun : .event .credentialRenewal ∈ log → l.credentialIdentity = inUse
  completed : .event .credentialRenewalCompleted ∈ log →
    m.link.Handshaking ∧ inUse.isSome ∧ renewing ≠ inUse
  opened : l.Handshaking → m.link.Handshaking ∨ input.shows.isSome
  due : ∀ generation, input = .renewalDue generation → .event .credentialRenewal ∉ log →
    (l.renewal = .idle → m.renewal = .idle) ∧ l.credentialIdentity = m.credentialIdentity

variable {m : Machine} {input : Input} {inUse renewing : Option Identity} {log es : List Effect}
  {l k : Link}

/-- The events of a renewal. -/
def Effect.renews : Effect → Bool
  | .event .credentialRenewal => true
  | .event .credentialRenewalCompleted => true
  | _ => false

/-- An act that leaves the credentials alone. -/
structure Keeps (l : Link) (es : List Effect) (k : Link) : Prop where
  silent : ∀ e ∈ es, e.renews = false
  renewal : k.renewal = .idle ↔ l.renewal = .idle
  identity : k.credentialIdentity = l.credentialIdentity
  shown : k.Handshaking → l.Handshaking ∧ k.credentialChange = l.credentialChange
    ∧ k.candidateCredentialIdentity = l.candidateCredentialIdentity

/-- An act that tells nothing of a renewal and leaves the record as it is. -/
theorem During.of_silent (h : During m input inUse renewing log l)
    (silent : ∀ e ∈ es, e.renews = false) (renewal : k.renewal = .idle ↔ l.renewal = .idle)
    (identity : k.credentialIdentity = l.credentialIdentity) (compared : Compared inUse k)
    (opened : k.Handshaking → m.link.Handshaking ∨ input.shows.isSome) :
    During m input inUse renewing (log ++ es) k := by
  have old {e : Effect} (renews : e.renews = true) : e ∈ log ++ es ↔ e ∈ log := by
    rw [List.mem_append, or_iff_left]
    exact fun mem => absurd (renews.symm.trans (silent e mem)) nofun
  refine ⟨compared, ?before, ?begun, ?completed, opened, fun generation asked => ?due⟩
  case before =>
    rw [old rfl, ne_eq, renewal, identity]
    exact h.before
  case begun =>
    rw [old rfl, identity]
    exact h.begun
  case completed =>
    rw [old rfl]
    exact h.completed
  case due =>
    rw [old rfl, renewal, identity]
    exact h.due generation asked

theorem During.keep (h : During m input inUse renewing log l) (keeps : Keeps l es k) :
    During m input inUse renewing (log ++ es) k := by
  refine h.of_silent keeps.silent keeps.renewal keeps.identity (fun up changed => ?_)
    fun up => h.opened (keeps.shown up).1
  obtain ⟨before, change, candidate⟩ := keeps.shown up
  rw [candidate, keeps.identity]
  exact h.compared before (change ▸ changed)

theorem renews_of_inert {effect : Effect} (inert : effect.inert = true) :
    effect.renews = false := by
  cases effect with
  | event event => cases event <;> first | rfl | cases inert
  | _ => rfl

theorem renews_enters (l : Link) (state : State) : ∀ e ∈ l.enters state, e.renews = false := by
  unfold enters
  split <;> simp [Effect.renews]

/-- Apart from four kinds of act, the credentials are left alone. -/
theorem Link.Act.keeps (act : Act input l es k) :
    Keeps l es k
      ∨ (∃ identity, input.shows = some identity ∧ l.compared identity = l
        ∧ (∀ e ∈ es, e.renews = false) ∧ k.renewal = l.renewal
        ∧ k.credentialIdentity = l.credentialIdentity ∧ k.credentialChange = l.credentialChange
        ∧ k.candidateCredentialIdentity = l.candidateCredentialIdentity)
      ∨ ((∃ generation control, input = .control generation control) ∧ l.Handshaking
        ∧ l.renewal = .reconnecting ∧ l.credentialChange = .changed ∧ k = l.renewed
        ∧ es = (if l.renewalPending then [.event .credentialRenewal] else [])
          ++ [.event .credentialRenewalCompleted])
      ∨ (input = .renewalDue l.generation ∧ l.renewal = .idle
        ∧ k = { l with renewal := .draining } ∧ es = [.event .credentialRenewal])
      ∨ ∃ globalId identity, input = .initialIdentity l.generation globalId identity := by
  have off {state : State} (down : state = .disconnected ∨ state = .wait ∨ state = .ready
      ∨ state = .stopped) {P : Prop} (up : state = .connecting ∨ state = .reconnecting) : P := by
    rcases down with rfl | rfl | rfl | rfl <;> rcases up with up | up <;> cases up
  cases act with
  | note inert =>
    exact .inl ⟨List.forall_mem_singleton.mpr (renews_of_inert inert), .rfl, rfl,
      fun up => ⟨up, rfl, rfl⟩⟩
  | terminal =>
    refine .inl ⟨List.forall_mem_append.mpr ⟨?_, renews_enters l _⟩, .rfl, rfl, off (.inl rfl)⟩
    simp [Effect.renews]
  | drop =>
    refine .inl ⟨List.forall_mem_append.mpr ⟨?_, renews_enters l _⟩, .rfl, rfl, off (.inl rfl)⟩
    simp [Effect.renews]
  | connect down => exact .inl ⟨by simp [Effect.renews], .rfl, rfl, off (.inl down)⟩
  | exhaust down => exact .inl ⟨nofun, .rfl, rfl, off (.inl down)⟩
  | @compare identity shows down =>
    obtain ⟨candidate, change, same⟩ := l.compared_eq identity
    rw [same]
    exact .inl ⟨nofun, .rfl, rfl, off (.inl down)⟩
  | «open» shows compared =>
    exact .inr (.inl ⟨_, shows, compared, by simp [Effect.renews], rfl, rfl, rfl, rfl⟩)
  | start => exact .inl ⟨by simp [Effect.renews], .rfl, rfl, off (.inr (.inr (.inl rfl)))⟩
  | advance handshaking =>
    exact .inl ⟨renews_enters l _, .rfl, rfl, fun _ => ⟨handshaking, rfl, rfl⟩⟩
  | wait => exact .inl ⟨by simp [Effect.renews], .rfl, rfl, off (.inr (.inl rfl))⟩
  | renew asked handshaking reconnecting changed =>
    exact .inr (.inr (.inl ⟨⟨_, _, asked⟩, handshaking, reconnecting, changed, rfl, rfl⟩))
  | ready => exact .inl ⟨by simp [Effect.renews], .rfl, rfl, off (.inr (.inr (.inl rfl)))⟩
  | due asked idle => exact .inr (.inr (.inr (.inl ⟨asked, idle, rfl, rfl⟩)))
  | drained asked ready draining =>
    refine .inl ⟨nofun, ?_, rfl, off (.inr (.inr (.inl ready)))⟩
    simp [draining]
  | identify asked => exact .inr (.inr (.inr (.inr ⟨_, _, asked⟩)))
  | stop => exact .inl ⟨by simp [Effect.renews], .rfl, rfl, off (.inr (.inr (.inr rfl)))⟩
  | _ => exact .inl ⟨by simp [Effect.renews], .rfl, rfl, fun up => ⟨up, rfl, rfl⟩⟩

variable {identity : Option Identity}

/-- What a connection shows, once compared with the record. -/
theorem compared_changed (same : l.compared identity = l)
    (changed : l.credentialChange = .changed) :
    l.candidateCredentialIdentity = identity ∧ identity.isSome ∧ l.credentialIdentity ≠ identity := by
  rw [← same] at changed ⊢
  cases identity with
  | none => cases changed
  | some identity =>
    unfold compared at changed ⊢
    dsimp only at changed ⊢
    split at changed
    · cases changed
    rename_i different
    rw [if_neg different]
    exact ⟨rfl, rfl, fun eq => different (beq_iff_eq.mpr eq)⟩

variable {generation : Nat}

/-- A renewal is completed. -/
theorem During.renew {control : Control}
    (h : During m (.control generation control) inUse renewing log l)
    (handshaking : l.Handshaking) (reconnecting : l.renewal = .reconnecting)
    (changed : l.credentialChange = .changed) :
    During m (.control generation control) inUse renewing
      (log ++ ((if l.renewalPending then [.event .credentialRenewal] else [])
        ++ [.event .credentialRenewalCompleted])) l.renewed := by
  obtain ⟨candidate, known, different⟩ := h.compared handshaking changed
  have unbegun : .event .credentialRenewal ∉ log := fun begun => different (h.begun begun)
  have old : renewing = l.credentialIdentity := h.before unbegun (by simp [reconnecting])
  have up : m.link.Handshaking := (h.opened handshaking).resolve_right nofun
  refine ⟨nofun, fun silent busy => ?_, fun _ => candidate, fun _ => ?_, h.opened, nofun⟩
  · cases pending : l.renewalPending with
    | false => exact absurd (by simp [renewed, pending]) busy
    | true => simp [pending] at silent
  · exact ⟨up, known, old ▸ different⟩

/-- A renewal begins. -/
theorem During.begin (h : During m (.renewalDue generation) inUse renewing log l)
    (idle : l.renewal = .idle) (recorded : m.renewal = .idle → m.credentialIdentity = inUse) :
    During m (.renewalDue generation) inUse renewing (log ++ [.event .credentialRenewal])
      { l with renewal := .draining } := by
  have begun : .event .credentialRenewal ∈ log ++ [Effect.event .credentialRenewal] := by simp
  refine ⟨h.compared, absurd begun, fun _ => ?_, fun completed => ?_, h.opened,
    fun _ _ => absurd begun⟩
  · by_cases before : .event .credentialRenewal ∈ log
    · exact h.begun before
    · obtain ⟨was, identity⟩ := h.due generation rfl before
      exact identity.trans (recorded (was idle))
  · exact h.completed (by simpa using completed)

theorem During.act (act : Act input l es k)
    (shown : ∀ identity, input.shows = some identity → inUse = identity)
    (identified : ∀ generation globalId identity,
      input ≠ .initialIdentity generation globalId identity)
    (recorded : ∀ generation, input = .renewalDue generation → m.renewal = .idle →
      m.credentialIdentity = inUse)
    (h : During m input inUse renewing log l) :
    During m input inUse renewing (log ++ es) k := by
  rcases act.keeps with keeps | ⟨identity, shows, same, silent, renewal, stored, change, candidate⟩
    | ⟨⟨generation, control, rfl⟩, handshaking, reconnecting, changed, rfl, rfl⟩
    | ⟨rfl, idle, rfl, rfl⟩ | ⟨globalId, identity, asked⟩
  · exact h.keep keeps
  · refine h.of_silent silent (by rw [renewal]) stored (fun _ changed => ?_) fun _ => ?_
    · rw [candidate, stored, shown identity shows]
      exact compared_changed same (change ▸ changed)
    · rw [shows]
      exact .inr rfl
  · exact h.renew handshaking reconnecting changed
  · exact h.begin idle (recorded _ rfl)
  · exact absurd asked (identified _ _ _)

/-! ## Steps -/

/-- A connection that is refused and a renewal of another connection change nothing. -/
theorem step_unheeded
    (stale : (input.shows.isSome ∧ m.takes input = false)
      ∨ ∃ generation, input = .renewalDue generation ∧ generation ≠ m.generation) :
    (m.step input).1 = m ∧ ∀ e ∈ (m.step input).2, e.renews = false := by
  rcases stale with ⟨shows, refused⟩ | ⟨generation, rfl, other⟩
  · cases input with
    | connected generation globalId identity =>
      have refused : (generation != m.generation || !m.connectPending) = true := by
        rw [Machine.takes, Bool.and_eq_false_iff] at refused
        simpa using refused
      simp [Machine.step, Exec.perform, Exec.connected, refused, Exec.emit, Effect.renews]
    | initialConnection globalId identity =>
      have refused : (m.state == .disconnected && !m.connectPending) = false := refused
      simp [Machine.step, Exec.perform, Exec.initialConnection, refused]
    | _ => cases shows
  · simp [Machine.step, Exec.perform, Exec.renewalDue, other]

/-- During a handshake the connection in use stays the same. -/
theorem Watch.reported_of_handshaking (w : Watch) (sound : m.link.Sound)
    (up : m.link.Handshaking) (input : Input) : w.reported m input = w.inUse := by
  have refused : ¬ m.takes input = true :=
    fun taken => up.ne.1 (Machine.down_of_takes sound taken)
  have state : m.state ≠ .disconnected ∧ m.state ≠ .ready := by
    refine ⟨up.ne.1, ?_⟩
    rcases up with up | up <;> exact fun ready => absurd (ready.symm.trans up) nofun
  unfold reported
  split
  · exact if_neg refused
  · exact if_neg refused
  · exact if_neg (by simp [state.2])
  · exact if_neg (by simp [state.1])
  · rfl

variable {s : Machine × Watch}

theorem Watched.opened (h : Watched s) (input : Input) :
    During s.1 input (s.2.reported s.1 input) s.2.renewing [] (s.1.opened input) := by
  have same : (s.1.opened input).state = s.1.state ∧ (s.1.opened input).renewal = s.1.renewal
      ∧ (s.1.opened input).credentialIdentity = s.1.credentialIdentity
      ∧ (s.1.opened input).credentialChange = s.1.credentialChange
      ∧ (s.1.opened input).candidateCredentialIdentity = s.1.candidateCredentialIdentity := by
    unfold Machine.opened
    split <;> exact ⟨rfl, rfl, rfl, rfl, rfl⟩
  obtain ⟨state, renewal, identity, change, candidate⟩ := same
  have up (handshaking : (s.1.opened input).Handshaking) : s.1.link.Handshaking := by
    rw [Handshaking, state] at handshaking
    exact handshaking
  refine ⟨fun handshaking changed => ?_, fun _ busy => ?_, by simp, by simp, fun h => .inl (up h),
    fun _ _ _ => ⟨fun idle => renewal ▸ idle, identity⟩⟩
  · rw [s.2.reported_of_handshaking h.sound (up handshaking), candidate, identity]
    exact h.compared (up handshaking) (change.symm.trans changed)
  · rw [identity]
    exact h.renewing (renewal ▸ busy)

/-- What holds at the end of a step is what the step had to show. -/
theorem Watched.of_during (h : Watched s)
    (done : During s.1 input (s.2.reported s.1 input) s.2.renewing
      ((s.1.step input).2.filter Effect.linked) (s.1.step input).1.link) :
    RenewsSoundly s input ∧ Watched (watchedStep s input).1 := by
  have told {event : Event} : .event event ∈ (s.1.step input).2.filter Effect.linked
      ↔ .event event ∈ (s.1.step input).2 := by
    rw [List.mem_filter, and_iff_left]
    rfl
  refine ⟨fun completed => ?_, Machine.step_sound h.sound input, done.compared, fun busy => ?_⟩
  · obtain ⟨up, known, different⟩ := done.completed (told.mpr completed)
    rw [s.2.reported_of_handshaking h.sound up] at known different
    exact ⟨up, known, different⟩
  change (if _ then _ else _) = _
  split
  next begun => exact (done.begun (told.mpr begun)).symm
  next unbegun => exact done.before (fun begun => unbegun (told.mp begun)) busy

theorem Watched.identify (h : Watched s) {globalId : Option Nat}
    (recorded : KeepsRecord s (.initialIdentity generation globalId identity)) :
    During s.1 (.initialIdentity generation globalId identity)
      (s.2.reported s.1 (.initialIdentity generation globalId identity)) s.2.renewing
      ((s.1.step (.initialIdentity generation globalId identity)).2.filter Effect.linked)
      (s.1.step (.initialIdentity generation globalId identity)).1.link := by
  have start := h.opened (.initialIdentity generation globalId identity)
  unfold Machine.step Exec.perform Exec.initialIdentity
  dsimp only
  split
  next here =>
    simp only [Bool.and_eq_true, beq_iff_eq] at here
    obtain ⟨current, ready⟩ := here
    have down {P : Prop} (up : State.ready = .connecting ∨ State.ready = .reconnecting) : P := by
      rcases up with up | up <;> cases up
    have none (up : s.1.link.Handshaking) {P : Prop} : P := by
      refine down ?_
      rw [Handshaking, show s.1.link.state = .ready from ready] at up
      exact up
    refine ⟨fun up => none up, fun _ busy => ?_, by simp, by simp, fun up => none up, by simp⟩
    rw [h.renewing busy]
    exact (recorded current ready busy).symm
  · exact start

theorem Watched.step (h : Watched s) (input : Input) (recorded : KeepsRecord s input) :
    RenewsSoundly s input ∧ Watched (watchedStep s input).1 := by
  refine h.of_during ?_
  by_cases identified : ∃ generation globalId identity,
      input = .initialIdentity generation globalId identity
  · obtain ⟨generation, globalId, identity, rfl⟩ := identified
    exact h.identify recorded
  by_cases stale : (input.shows.isSome ∧ s.1.takes input = false)
      ∨ ∃ generation, input = .renewalDue generation ∧ generation ≠ s.1.generation
  · obtain ⟨same, silent⟩ := step_unheeded stale
    have start := h.opened input
    have refused : s.1.takes input = false := by
      rcases stale with stale | ⟨generation, rfl, _⟩
      · exact stale.2
      · rfl
    rw [Machine.opened, if_neg (Bool.eq_false_iff.mp refused)] at start
    rw [same]
    exact start.of_silent (fun e mem => silent e (List.mem_of_mem_filter mem)) .rfl rfl
      start.compared start.opened
  simp only [not_or, not_and, not_exists, Bool.not_eq_false, ne_eq, not_not] at stale
  refine Trace.log_invariant
    (During s.1 input (s.2.reported s.1 input) s.2.renewing) (fun act => During.act act ?_ ?_ ?_)
    (s.1.step_acts h.sound input) (h.opened input)
  · intro identity shows
    have taken := stale.1 (by rw [shows]; rfl)
    cases input with
    | connected generation globalId shown => exact (if_pos taken).trans (Option.some.inj shows)
    | initialConnection globalId shown => exact (if_pos taken).trans (Option.some.inj shows)
    | _ => cases shows
  · exact fun generation globalId identity asked => identified ⟨generation, globalId, identity, asked⟩
  · rintro generation rfl idle
    exact recorded (stale.2 generation rfl) idle

/-! ## Every run -/

theorem Watched.every (h : Watched s) (inputs : List Input)
    (recorded : Mealy.Every watchedStep KeepsRecord s inputs) :
    Mealy.Every watchedStep RenewsSoundly s inputs := by
  induction inputs generalizing s with
  | nil => trivial
  | cons input inputs ih =>
    obtain ⟨sound, next⟩ := h.step input recorded.1
    exact ⟨sound, ih next recorded.2⟩

/-- Where the machine's record agrees with what has been reported whenever a renewal
begins, every renewal that completes has changed the credential. -/
theorem renews_soundly {config : Config} {m : Machine} (new : Machine.new config = .ok m)
    (inputs : List Input) (recorded : Mealy.Every watchedStep KeepsRecord (m, {}) inputs) :
    Mealy.Every watchedStep RenewsSoundly (m, {}) inputs := by
  obtain rfl := Machine.new_eq_ok new
  refine Watched.every ⟨Machine.initial_sound config, ?_, fun busy => absurd rfl busy⟩ inputs recorded
  exact fun up => absurd rfl up.ne.1

def firstIdentity : Identity := .replicate 32 1
def otherIdentity : Identity := .replicate 32 2

/-- A renewal of a session that was ready from the start. -/
def recordedRenewal : List Input :=
  [.start true, .initialIdentity 1 (some 7) (some firstIdentity), .renewalDue 1, .dispatch,
    .connected 2 (some 7) (some otherIdentity), .control 3 (.sessionReconnectOk 0)]

theorem renews_soundly_recorded :
    Mealy.Every watchedStep RenewsSoundly (.initial sampleConfig, {}) recordedRenewal
      ∧ .event .credentialRenewalCompleted
        ∈ Mealy.log Machine.step (.initial sampleConfig) recordedRenewal := by
  refine ⟨renews_soundly new_sample recordedRenewal ?_, by decide⟩
  decide

/-- A session that began with a handshake reconnects with the credential it had, and the
renewal completes. -/
theorem not_renews_soundly_handshake :
    Machine.new sampleConfig = .ok (.initial sampleConfig)
      ∧ ¬ Mealy.Every watchedStep RenewsSoundly (.initial sampleConfig, {})
        [.initialConnection (some 7) (some firstIdentity), .dispatch,
          .writeComplete 1 none (.ok ()), .control 1 (.sessionReconnectOk 0), .renewalDue 1,
          .dispatch, .connected 2 (some 7) (some firstIdentity),
          .control 3 (.sessionReconnectOk 0)] := by
  refine ⟨new_sample, ?_⟩
  decide

end RadosRs.Msgr.Session
