import RadosRs.Msgr.Session.Refinement

/-!
# Acknowledgments and replay

The peer confirms messages by their outbound sequence numbers.  A confirmed
message leaves the replay list, but whether a request is sent is decided by its
own `sent` flag, and `prepareReplay` has cleared that flag for everything on the
list before the peer's answer to a reconnect arrives.  What the peer confirms
then is sent again.  `Confirmed` is the invariant that keeps a confirmed message
from being sent again; an acknowledgment establishes it only if everything it
confirms is on the transport at that time.
-/

namespace RadosRs.Msgr.Session

open Ledger

/-! ## Confirmed numbers -/

/-- Up to `sequence` nothing is waiting to be sent, and no number will be given again. -/
structure Confirmed (sequence : Nat) (l : Ledger) : Prop where
  sent : ∀ p ∈ l.pending, 0 < p.sequence → p.sequence ≤ sequence →
    p.sent = true ∧ p.requestId ∉ l.replay
  passed : ∀ next, l.nextOutbound = some next → sequence < next

variable {l : Ledger}

theorem Confirmed.zero (wf : l.Wf) : Confirmed 0 l :=
  ⟨fun p _ positive le => absurd positive (by omega), wf.positive⟩

variable {sequence : Nat}

/-- Fewer requests to send and fewer to replay keep what is confirmed. -/
theorem Confirmed.mono {k : Ledger} (h : Confirmed sequence l) (pending : k.pending ⊆ l.pending)
    (replay : k.replay ⊆ l.replay) (counter : k.nextOutbound = l.nextOutbound) :
    Confirmed sequence k := by
  refine ⟨fun p hp positive le => ?_, counter ▸ h.passed⟩
  obtain ⟨sent, unlisted⟩ := h.sent p (pending hp) positive le
  exact ⟨sent, fun listed => unlisted (replay listed)⟩

theorem Confirmed.removePending (h : Confirmed sequence l) (wf : l.Wf) (id : Nat) :
    Confirmed sequence (l.removePending id) :=
  h.mono (fun _ hq => (wf.distinct.mem_removePending.mp hq).1) (removePending_replay l id)
    (removePending_nextOutbound l id)

theorem Confirmed.trimReplay (h : Confirmed sequence l) (other : Nat) :
    Confirmed sequence (l.trimReplay other) :=
  h.mono (fun _ hq => hq) (fun _ listed => (List.mem_filter.mp listed).1) rfl

/-- What is confirmed is not on the replay list, so it is not sent again. -/
theorem Confirmed.prepareReplay (h : Confirmed sequence l) (wf : l.Wf) :
    Confirmed sequence l.prepareReplay := by
  refine ⟨?_, h.passed⟩
  rw [wf.distinct.prepareReplay_pending, List.forall_mem_map]
  intro p hp positive le
  obtain ⟨sent, unlisted⟩ := h.sent p hp (by simpa using positive) (by simpa using le)
  rw [recalled_of_not_mem l p unlisted]
  exact ⟨sent, unlisted⟩

/-- Either `sequence` is confirmed, or the numbers have started over. -/
def Kept (sequence : Nat) (l : Ledger) : Prop :=
  Confirmed sequence l ∨ l.nextOutbound = some 1

theorem Kept.removePending (h : Kept sequence l) (wf : l.Wf) (id : Nat) :
    Kept sequence (l.removePending id) := by
  rcases h with confirmed | reset
  · exact .inl (confirmed.removePending wf id)
  · exact .inr ((removePending_nextOutbound l id).trans reset)

variable {es : List Effect}

theorem Quiet.kept {k : Ledger} (h : Quiet l es k) (wf : l.Wf) (kept : Kept sequence l) :
    Kept sequence k := by
  rcases kept with confirmed | reset
  · cases h with
    | fail => exact .inl (confirmed.removePending wf _)
    | clear => exact .inl (confirmed.mono (by simp [cleared]) (by simp [cleared]) rfl)
    | unsend => exact .inl (confirmed.prepareReplay wf)
    | trim => exact .inl (confirmed.trimReplay _)
    | forgetReplay => exact .inl (confirmed.mono (fun _ h => h) (by simp) rfl)
    | forgetInbound => exact .inl (confirmed.mono (fun _ h => h) (fun _ h => h) rfl)
    | renumber => exact .inr rfl
  · rcases h.counts.outbound with again | same
    · exact .inr again
    · exact .inr (same.trans reset)

theorem Quiets.kept {k : Ledger} (h : Quiets l es k) (wf : l.Wf) (kept : Kept sequence l) :
    Kept sequence k := by
  refine (Trace.invariant (fun k => k.Wf ∧ Kept sequence k) ?_ h ⟨wf, kept⟩).2
  rintro k es k' move ⟨wf, ih⟩
  exact ⟨move.wf wf, Quiet.kept move wf ih⟩

variable {m : Machine} {input : Input}

/-- A step sends nothing that is confirmed, and keeps it confirmed unless the numbers
start over. -/
theorem Turn.confirmed (h : Turn m input es l) (wf : m.toLedger.Wf)
    (confirmed : Confirmed sequence m.toLedger) :
    Kept sequence l ∧ ∀ generation id message, .sendMessage generation id message ∈ es →
      sequence < message.header.sequence := by
  have received (message : Message) : Kept sequence (m.received message) :=
    .inl (Confirmed.trimReplay (l := { m.toLedger with lastInbound := message.header.sequence })
      ⟨confirmed.sent, confirmed.passed⟩ _)
  have above {p q : Pending} {after : Option Nat} (hp : p ∈ m.pending) (unsent : p.sent = false)
      (numbers : m.Numbers p q after) : sequence < q.sequence := by
    cases numbers with
    | replayed nonzero =>
      by_contra le
      have := (confirmed.sent p hp (by omega) (by omega)).1
      simp [unsent] at this
    | fresh zero counter moved =>
      have := confirmed.passed _ counter
      simp only [Pending.numbered]
      omega
  refine ⟨?_, fun generation id message mem => ?_⟩
  · cases h with
    | quiet idle quiets => exact Quiets.kept quiets wf (.inl confirmed)
    | reject asked advance quiets known =>
      exact Quiets.kept quiets (wf.congr rfl rfl rfl) (.inl ⟨confirmed.sent, confirmed.passed⟩)
    | admitRequest asked absent number sent may grants =>
      refine .inl ⟨fun p hp positive le => ?_, confirmed.passed⟩
      rcases List.mem_append.mp hp with hp | hp
      · exact confirmed.sent p hp positive le
      · rw [List.mem_singleton.mp hp] at positive
        omega
    | @send p q before rest after pending candidate first numbers =>
      have hp : p ∈ m.pending := by simp [pending]
      have numbered := numbers.numbered wf hp
      have unsent : p.sent = false := by
        have := (List.mem_filter.mp candidate).2
        simp_all
      have above := above hp unsent numbers
      refine .inl ⟨?_, fun next counter => above.trans (numbered.below next counter)⟩
      rw [transmit_pending (l := { m.toLedger with nextOutbound := after }) pending]
      intro r hr positive le
      have hr : r ∈ m.pending := by
        rw [pending]
        rcases List.mem_append.mp hr with hr | hr
        · exact List.mem_append_left _ hr
        rcases List.mem_cons.mp hr with rfl | hr
        · exact absurd le (by simpa using above)
        · exact List.mem_append_right _ (.tail _ hr)
      obtain ⟨sent, unlisted⟩ := confirmed.sent r hr positive le
      refine ⟨sent, fun listed => ?_⟩
      rcases (mem_transmit_replay _ _ _).mp listed with listed | here
      · exact unlisted listed
      -- the request that goes out was not on the transport, this one is
      have same := wf.distinct.eq_of_key hr hp (here.trans numbered.requestId)
      simp [same, unsent] at sent
    | written found oneWay => exact .inl (confirmed.removePending wf _)
    | @answer generation message es l p newer quiets kept found may twoWay same =>
      have wf' := wf.received message
      exact (Quiets.kept quiets wf' (received message)).removePending (quiets.wf wf') _
    | @incoming generation message es l newer quiets kept =>
      exact Quiets.kept quiets (wf.received message) (received message)
    | @overflow generation message es l newer quiets =>
      exact Quiets.kept quiets (wf.received message) (received message)
  · cases h.puts wf _ mem with
    | sent hp unsent numbers =>
      rw [(numbers.numbered wf hp).header]
      exact above hp unsent numbers

/-! ## Acknowledgments -/

namespace Machine

/-- What `acceptAcknowledgment` checks: the number has been given out. -/
def accepts (m : Machine) (sequence : Nat) : Bool :=
  !m.nextOutbound.any fun next => sequence != 0 && sequence ≥ next

/-- The outbound sequence number that an input confirms, if the session accepts it. -/
def acknowledged (m : Machine) : Input → Option Nat
  | .control generation (.ack sequence) =>
    if generation == m.generation && m.state == .ready && m.accepts sequence then
      some sequence
    else none
  | .control generation (.sessionReconnectOk sequence) =>
    if generation == m.generation && m.state == .reconnecting
        && m.transitions + 1 ≤ m.config.maxHandshakeTransitions && m.accepts sequence then
      some sequence
    else none
  | .message generation message =>
    if generation == m.generation && m.state == .ready
        && m.accepts message.header.ackSequence then
      some message.header.ackSequence
    else none
  | _ => none

/-- An input that is dropped because it was received before.  The acknowledgment in it is
checked but not used. -/
def drops (m : Machine) : Input → Bool
  | .message _ message => message.header.sequence ≤ m.lastInbound
  | _ => false

/-- What an input confirms is on the transport.  If the input is dropped, it is not on
the replay list either. -/
def ConfirmsSent (m : Machine) (input : Input) : Prop :=
  ∀ sequence ∈ m.acknowledged input,
    ∀ p ∈ m.pending, 0 < p.sequence → p.sequence ≤ sequence →
      p.sent = true ∧ (m.drops input = true → p.requestId ∉ m.replay)

instance (m : Machine) (input : Input) : Decidable (m.ConfirmsSent input) := by
  unfold ConfirmsSent
  infer_instance

theorem accepts_passed (wf : m.Reached) (h : m.accepts sequence = true) (next : Nat)
    (counter : m.nextOutbound = some next) : sequence < next := by
  have positive := wf.ledger.positive next counter
  have := h
  simp [accepts, counter] at this
  omega

end Machine

/-- An acknowledgment of what is on the transport confirms it. -/
theorem Confirmed.of_trimReplay (wf : l.Wf)
    (sent : ∀ p ∈ l.pending, 0 < p.sequence → p.sequence ≤ sequence → p.sent = true)
    (passed : ∀ next, l.nextOutbound = some next → sequence < next) :
    Confirmed sequence (l.trimReplay sequence) := by
  refine ⟨fun p hp positive le => ⟨sent p hp positive le, fun listed => ?_⟩, passed⟩
  obtain ⟨-, q, hq, same, later⟩ := wf.distinct.mem_trimReplay.mp listed
  rw [wf.distinct.eq_of_key hq hp same] at later
  omega

theorem Kept.settles {x y : Exec} (h : Kept sequence x.toLedger) (wf : x.toLedger.Wf)
    (settles : x.Settles y) : Kept sequence y.toLedger := by
  obtain ⟨es, -, quiets⟩ := settles.quiets wf
  exact Quiets.kept quiets wf h

theorem Kept.deliver {x : Exec} (h : Kept sequence x.toLedger) (wf : x.toLedger.Wf)
    (message : Message) : Kept sequence (x.deliver message).toLedger := by
  unfold Exec.deliver
  dsimp only
  split
  next requestId answered => exact h.removePending wf requestId
  split
  · exact h.settles wf (Exec.settles_failTerminal x (by decide))
  · exact h

variable {message : Message}

/-- A message that is taken in confirms what it acknowledges. -/
theorem Kept.receive (wf : m.Reached) (ready : m.state = .ready)
    (sent : ∀ p ∈ m.pending, 0 < p.sequence → p.sequence ≤ message.header.ackSequence →
      p.sent = true)
    (passed : ∀ next, m.nextOutbound = some next → message.header.ackSequence < next) :
    Kept message.header.ackSequence (m.begin.receive message).toLedger := by
  have quiets := (Exec.acknowledged wf.sound ready message).quiets wf.toWf
  have received : Confirmed message.header.ackSequence (m.received message) :=
    .of_trimReplay (l := { m.toLedger with lastInbound := message.header.sequence })
      (wf.ledger.congr rfl rfl rfl) sent passed
  have wf' := wf.ledger.received message
  rw [Exec.receive_eq]
  exact (Quiets.kept quiets wf' (.inl received)).deliver (quiets.wf wf') message

namespace Exec

variable {x : Exec} {sequence : Nat}

theorem andThen_true (x : Exec) (next : Exec → Exec) : andThen (true, x) next = next x := rfl

theorem acceptAcknowledgment_of_accepts (h : x.toMachine.accepts sequence = true) :
    x.acceptAcknowledgment sequence = (true, x) := by
  unfold acceptAcknowledgment
  rw [if_neg]
  simpa [Machine.accepts] using h

theorem control_ack (ready : x.state = .ready) (accepted : x.toMachine.accepts sequence = true) :
    x.control (.ack sequence)
      = (x.onLedger (·.trimReplay sequence)).emit (.event (.acknowledged sequence)) := by
  simp [control, requireReady, ready, andThen, branch, acceptAcknowledgment_of_accepts accepted]

theorem transitionAllowed_of_le {state : State} (expected : x.state = state)
    (allowed : x.transitions + 1 ≤ x.config.maxHandshakeTransitions) :
    x.transitionAllowed state = (true, { x with transitions := x.transitions + 1 }) := by
  unfold transitionAllowed
  rw [if_neg (by simp [expected])]
  exact if_neg (by simpa using allowed)

theorem control_sessionReconnectOk (reconnecting : x.state = .reconnecting)
    (allowed : x.transitions + 1 ≤ x.config.maxHandshakeTransitions)
    (accepted : x.toMachine.accepts sequence = true) :
    x.control (.sessionReconnectOk sequence)
      = { x with transitions := x.transitions + 1 }.reconnectOk sequence := by
  have accepts : acceptAcknowledgment { x with transitions := x.transitions + 1 } sequence
      = (true, { x with transitions := x.transitions + 1 }) :=
    acceptAcknowledgment_of_accepts accepted
  unfold control
  dsimp only
  rw [transitionAllowed_of_le reconnecting allowed, andThen_true, accepts, andThen_true]

theorem message_of_accepts (ready : x.state = .ready)
    (accepted : x.toMachine.accepts message.header.ackSequence = true) :
    x.message message =
      if message.header.sequence ≤ x.lastInbound then
        x.emit (.event (.duplicateDropped message.header.sequence))
      else x.receive message := by
  simp [Exec.message, ready, andThen, branch, acceptAcknowledgment_of_accepts accepted]

end Exec

/-- The answer to a reconnect confirms its number, like any acknowledgment. -/
theorem Kept.reconnectOk {x : Exec} (wf : x.toLedger.Wf) (sound : x.link.Sound)
    (handshaking : x.link.Handshaking) (confirmed : Confirmed sequence (x.trimReplay sequence)) :
    Kept sequence (x.reconnectOk sequence).toLedger := by
  have trimmed : (x.trimReplay sequence).Wf := wf.congr rfl rfl rfl
  have recalled : Kept sequence (x.trimReplay sequence).prepareReplay :=
    .inl (confirmed.prepareReplay trimmed)
  have resumed : Exec.Runs (.control 0 .wait) _ _ := Exec.runs_resumed
    (x := (x.onLedger (·.trimReplay sequence)).onLedger (·.prepareReplay)) rfl handshaking sequence
  exact recalled.settles trimmed.prepareReplay (resumed sound).1

/-- An acknowledgment that is accepted confirms its number, if what it confirms is on the
transport. -/
theorem Machine.ConfirmsSent.kept (wf : m.Reached) (confirms : m.ConfirmsSent input)
    (accepted : m.acknowledged input = some sequence) :
    Kept sequence (m.step input).1.toLedger := by
  have confirms := confirms sequence accepted
  have sent := fun p hp positive le => (confirms p hp positive le).1
  show Kept sequence (m.begin.perform input).toLedger
  cases input with
  | control generation control =>
    cases control with
    | ack number =>
      simp only [Machine.acknowledged, Option.ite_none_right_eq_some, Bool.and_eq_true,
        beq_iff_eq, Option.some.injEq] at accepted
      obtain ⟨⟨⟨same, ready⟩, known⟩, rfl⟩ := accepted
      have performs : m.begin.perform (.control generation (.ack number))
          = m.begin.control (.ack number) := if_pos (beq_iff_eq.mpr same)
      rw [performs, Exec.control_ack ready known]
      exact .inl (.of_trimReplay wf.ledger sent (m.accepts_passed wf known))
    | sessionReconnectOk number =>
      simp only [Machine.acknowledged, Option.ite_none_right_eq_some, Bool.and_eq_true,
        beq_iff_eq, Option.some.injEq, decide_eq_true_eq] at accepted
      obtain ⟨⟨⟨⟨same, reconnecting⟩, allowed⟩, known⟩, rfl⟩ := accepted
      have performs : m.begin.perform (.control generation (.sessionReconnectOk number))
          = m.begin.control (.sessionReconnectOk number) := if_pos (beq_iff_eq.mpr same)
      rw [performs, Exec.control_sessionReconnectOk reconnecting allowed known]
      refine Kept.reconnectOk wf.ledger ⟨wf.sound.dialing, wf.sound.ended, wf.sound.down,
        wf.sound.attempts⟩ (.inr reconnecting) ?_
      exact .of_trimReplay wf.ledger sent (m.accepts_passed wf known)
    | _ => cases accepted
  | message generation message =>
    simp only [Machine.acknowledged, Option.ite_none_right_eq_some, Bool.and_eq_true,
      beq_iff_eq, Option.some.injEq] at accepted
    obtain ⟨⟨⟨same, ready⟩, known⟩, rfl⟩ := accepted
    have passed := m.accepts_passed wf known
    have performs : m.begin.perform (.message generation message) = m.begin.message message :=
      if_pos (beq_iff_eq.mpr same)
    rw [performs, Exec.message_of_accepts ready known]
    split
    next old =>
      refine .inl ⟨fun p hp positive le => ?_, passed⟩
      exact ⟨sent p hp positive le, (confirms p hp positive le).2 (decide_eq_true old)⟩
    · exact Kept.receive wf ready sent passed
  | _ => cases accepted

/-! ## Runs -/

/-- A step that takes the outbound numbers back to one. -/
def ResetsOutbound (m : Machine) (input : Input) : Prop :=
  m.nextOutbound ≠ some 1 ∧ (m.step input).1.nextOutbound = some 1

instance (m : Machine) (input : Input) : Decidable (ResetsOutbound m input) :=
  inferInstanceAs (Decidable (_ ∧ _))

/-- In a run from `m`, once an acknowledgment has been accepted, no message up to its
number is sent, as long as the numbers do not start over. -/
def NeverResent (m : Machine) (inputs : List Input) : Prop :=
  ∀ before input between last rest sequence,
    inputs = before ++ input :: (between ++ last :: rest) →
    (Mealy.after Machine.step m before).acknowledged input = some sequence →
    Mealy.Every Machine.step (fun m input => ¬ ResetsOutbound m input)
      (Mealy.after Machine.step m before) (input :: between) →
    ∀ generation id message,
      .sendMessage generation id message
        ∈ ((Mealy.after Machine.step m (before ++ input :: between)).step last).2 →
      sequence < message.header.sequence

/-- Numbers that have not started over are still confirmed. -/
theorem Kept.confirmed (wf : m.Reached) (keeps : ¬ ResetsOutbound m input)
    (passed : ∀ next, m.nextOutbound = some next → sequence < next)
    (kept : Kept sequence (m.step input).1.toLedger) :
    Confirmed sequence (m.step input).1.toLedger := by
  rcases kept with confirmed | reset
  · exact confirmed
  have one : m.nextOutbound = some 1 := by
    by_contra other
    exact keeps ⟨other, reset⟩
  have := passed 1 one
  obtain rfl : sequence = 0 := by omega
  exact .zero (wf.step input).ledger

theorem Machine.accepts_of_acknowledged (h : m.acknowledged input = some sequence) :
    m.accepts sequence = true := by
  unfold acknowledged at h
  split at h <;> simp at h
  all_goals
    obtain ⟨⟨-, known⟩, rfl⟩ := h
    exact known

theorem confirmed_after (wf : m.Reached) (confirmed : Confirmed sequence m.toLedger)
    (inputs : List Input)
    (every : Mealy.Every Machine.step (fun m input => ¬ ResetsOutbound m input) m inputs) :
    Confirmed sequence (Mealy.after Machine.step m inputs).toLedger := by
  refine (Mealy.every_invariant Machine.step
    (fun _ _ m => m.Reached ∧ Confirmed sequence m.toLedger) ⟨wf, confirmed⟩ ?_ inputs every).2
  rintro inputs log m input keeps ⟨wf, confirmed⟩
  have kept := ((Machine.step_turn wf input).confirmed wf.ledger confirmed).1
  exact ⟨wf.step input, kept.confirmed wf keeps confirmed.passed⟩

/-- If everything that is acknowledged is on the transport at that time, nothing that is
acknowledged is sent again. -/
theorem never_resent_of_confirms_sent {config : Config} {m : Machine}
    (new : Machine.new config = .ok m) (inputs : List Input)
    (every : Mealy.Every Machine.step Machine.ConfirmsSent m inputs) :
    NeverResent m inputs := by
  intro before input between last rest sequence split acknowledged keeps generation id message sends
  have wf := (Machine.Reached.new new).after before
  obtain ⟨keeps, later⟩ := keeps
  have confirms : (Mealy.after Machine.step m before).ConfirmsSent input := by
    rw [split, Mealy.every_append] at every
    exact every.2.1
  have known := Machine.accepts_of_acknowledged acknowledged
  have confirmed := (confirms.kept wf acknowledged).confirmed wf keeps
    (Machine.accepts_passed wf known)
  have confirmed := confirmed_after (wf.step input) confirmed between later
  rw [Mealy.after_append, Mealy.after_cons] at sends
  have wf := (wf.step input).after between
  exact ((Machine.step_turn wf last).confirmed wf.ledger confirmed).2 generation id message
    (List.mem_filter.mpr ⟨sends, rfl⟩)

/-- A request is sent and acknowledged, the connection is lost and made again, and another
request is sent. -/
theorem never_resent_of_confirms_sent_sample :
    let inputs : List Input :=
      [.start true, .admitRequest 1 {} false, .dispatch, .control 1 (.ack 1),
        .fault 1 .disconnected, .connected 2 none none, .dispatch, .writeComplete 3 none (.ok ()),
        .control 3 (.sessionReconnectOk 1), .admitRequest 2 {} false, .dispatch]
    (Mealy.after Machine.step (.initial sampleConfig) (inputs.take 3)).acknowledged
        (.control 1 (.ack 1)) = some 1 ∧
      Mealy.Every Machine.step Machine.ConfirmsSent (.initial sampleConfig) inputs ∧
      NeverResent (.initial sampleConfig) inputs := by
  intro inputs
  have every : Mealy.Every Machine.step Machine.ConfirmsSent (.initial sampleConfig) inputs := by
    decide
  exact ⟨by decide, every, never_resent_of_confirms_sent new_sample inputs every⟩

/-- A request is sent, the connection is lost, and the peer says on reconnecting that it
has received the request.  It is sent again all the same. -/
theorem not_never_resent : ¬ ∀ (config : Config) (m : Machine), Machine.new config = .ok m →
    ∀ inputs, NeverResent m inputs := by
  intro h
  let before : List Input :=
    [.start true, .admitRequest 1 {} false, .dispatch, .fault 1 .disconnected,
      .connected 2 none none, .dispatch, .writeComplete 3 none (.ok ())]
  let input : Input := .control 3 (.sessionReconnectOk 1)
  have resent := h sampleConfig _ new_sample (before ++ [input, .dispatch]) before input []
    .dispatch [] 1 rfl (by decide) (by decide)
  have sends : .sendMessage 3 1 { header := { sequence := 1, transactionId := 1 } }
      ∈ ((Mealy.after Machine.step (.initial sampleConfig)
        (before ++ [input])).step .dispatch).2 := by
    decide
  exact absurd (resent _ _ _ sends) (by decide)

end RadosRs.Msgr.Session
