import RadosRs.Msgr.Session.Refinement

/-!
# The order on the wire

A request that waits to be sent again keeps its number, and `dispatch` takes the
lowest number first.  That a later number does not overtake it needs the waiting
request to be a candidate.  The limit on requests in flight never rules it out,
because no more requests than that have a number at all (`numbered_le_limit`).
A credential renewal does: while it drains, only reserved control messages are
candidates, and the first of them takes a new number.
-/

namespace RadosRs.Msgr.Session

open Ledger

/-! ## Requests with a number -/

/-- A request, not a control message, that has been sent before. -/
def Pending.counted (p : Pending) : Bool := p.control.isNone && p.sequence != 0

/-- How many requests have a number. -/
def Ledger.numberedCount (l : Ledger) : Nat := l.pending.countP Pending.counted

theorem Ledger.numberedCount_removePending (l : Ledger) (id : Nat) :
    (l.removePending id).numberedCount ≤ l.numberedCount := by
  rw [numberedCount, removePending_pending]
  exact List.eraseP_sublist.countP_le

variable {es : List Effect}

theorem Quiet.numberedCount {l k : Ledger} (h : Quiet l es k) (wf : l.Wf) :
    k.numberedCount ≤ l.numberedCount := by
  cases h with
  | fail => exact l.numberedCount_removePending _
  | clear => simp [Ledger.numberedCount, cleared]
  | unsend =>
    rw [Ledger.numberedCount, wf.distinct.prepareReplay_pending, List.countP_map]
    refine le_of_eq (List.countP_congr fun p _ => ?_)
    simp [Pending.counted]
  | trim => exact le_rfl
  | forgetReplay => exact le_rfl
  | forgetInbound => exact le_rfl
  | renumber => exact le_rfl

theorem Quiets.numberedCount {l k : Ledger} (h : Quiets l es k) (wf : l.Wf) :
    k.numberedCount ≤ l.numberedCount := by
  refine (Trace.invariant (fun k => k.Wf ∧ k.numberedCount ≤ l.numberedCount) ?_ h
    ⟨wf, le_rfl⟩).2
  rintro k es k' move ⟨wf, ih⟩
  exact ⟨move.wf wf, (Quiet.numberedCount move wf).trans ih⟩

variable {m : Machine} {p : Pending}

/-- A request that waits to be sent again is a candidate, unless a renewal drains or the
limit is reached. -/
theorem Machine.mem_candidates (hp : p ∈ m.pending) (unsent : p.sent = false)
    (allowed : p.control.isSome = true ∨
      (m.renewal ≠ .draining ∧ m.inFlightCount < m.config.maxInFlightTransactions)) :
    ∃ index, (p, index) ∈ m.candidates := by
  obtain ⟨index, here⟩ := List.getElem?_of_mem hp
  refine ⟨index, List.mem_filter.mpr ⟨List.mem_zipIdx_iff_getElem?.mpr here, ?_⟩⟩
  simpa [unsent] using allowed

variable {index : Nat}

theorem Machine.of_mem_candidates (h : (p, index) ∈ m.candidates) :
    p ∈ m.pending ∧ p.sent = false ∧ (p.control.isSome = true ∨
      (m.renewal ≠ .draining ∧ m.inFlightCount < m.config.maxInFlightTransactions)) := by
  obtain ⟨place, allowed⟩ := List.mem_filter.mp h
  refine ⟨List.mem_of_getElem? (List.mem_zipIdx_iff_getElem?.mp place), ?_⟩
  simpa using allowed

theorem Pending.dispatchKey_of_ne (h : p.sequence ≠ 0) : p.dispatchKey = toLex (0, p.sequence) := by
  unfold Pending.dispatchKey
  split <;> simp_all

/-- A replay comes before anything new. -/
theorem Pending.dispatchKey_lt {q : Pending} (hp : p.sequence ≠ 0) (hq : q.sequence = 0) :
    p.dispatchKey < q.dispatchKey := by
  rw [dispatchKey_of_ne hp]
  unfold Pending.dispatchKey
  rw [hq]
  cases q.control.isSome <;> simp [Prod.Lex.toLex_lt_toLex]

/-- When a request gets its first number, there is room for it: everything that has one
is on the transport. -/
theorem Machine.numberedCount_lt (candidate : (p, index) ∈ m.candidates)
    (first : ∀ c ∈ m.candidates, p.dispatchKey ≤ c.1.dispatchKey) (zero : p.sequence = 0)
    (request : p.control = none) : m.numberedCount < m.config.maxInFlightTransactions := by
  obtain ⟨-, -, allowed⟩ := of_mem_candidates candidate
  have allowed := allowed.resolve_left (by simp [request])
  refine lt_of_le_of_lt (List.countP_mono_left fun r hr counted => ?_) allowed.2
  obtain ⟨plain, nonzero⟩ : r.control = none ∧ r.sequence ≠ 0 := by
    simpa [Pending.counted] using counted
  cases sent : r.sent with
  | true => simp [plain]
  | false =>
    obtain ⟨place, other⟩ := mem_candidates hr sent (.inr allowed)
    exact absurd (first _ other) (not_le.mpr (Pending.dispatchKey_lt nonzero zero))

theorem Turn.numberedCount {input : Input} {l : Ledger} (h : Turn m input es l)
    (wf : m.toLedger.Wf) (bound : m.numberedCount ≤ m.config.maxInFlightTransactions) :
    l.numberedCount ≤ m.config.maxInFlightTransactions := by
  cases h with
  | quiet idle quiets => exact (Quiets.numberedCount quiets wf).trans bound
  | reject asked advance quiets known =>
    exact (Quiets.numberedCount quiets (wf.congr rfl rfl rfl)).trans bound
  | @admitRequest _ p request after asked absent sequence sent may grants =>
    have plain : p.counted = false := by simp [Pending.counted, sequence]
    show (m.pending ++ [p]).countP Pending.counted ≤ _
    rw [List.countP_append, List.countP_singleton, plain]
    exact bound
  | @send p q before rest after pending candidate first numbers =>
    have same : m.numberedCount = before.countP Pending.counted
        + (rest.countP Pending.counted + if p.counted then 1 else 0) := by
      rw [Ledger.numberedCount, pending, List.countP_append, List.countP_cons]
    rw [Ledger.numberedCount,
      transmit_pending (l := { m.toLedger with nextOutbound := after }) pending,
      List.countP_append, List.countP_cons]
    cases numbers with
    | replayed nonzero => exact same ▸ bound
    | fresh zero counter moved =>
      have uncounted : p.counted = false := by simp [Pending.counted, zero]
      cases control : p.control with
      | none =>
        have := m.numberedCount_lt candidate first zero control
        rw [same, uncounted] at this
        split <;> simp at this ⊢ <;> omega
      | some generation =>
        rw [same, uncounted] at bound
        simpa [Pending.counted, Pending.numbered, control] using bound
  | written found oneWay => exact (m.numberedCount_removePending _).trans bound
  | answer newer quiets kept found may twoWay same =>
    have received := (Quiets.numberedCount quiets (wf.received _)).trans bound
    exact (numberedCount_removePending _ _).trans received
  | incoming newer quiets kept =>
    exact (Quiets.numberedCount quiets (wf.received _)).trans bound
  | overflow newer quiets =>
    exact (Quiets.numberedCount quiets (wf.received _)).trans bound

/-- No more requests have a number than may be in flight. -/
theorem numbered_le_limit {config : Config} (new : Machine.new config = .ok m)
    (inputs : List Input) :
    (Mealy.after Machine.step m inputs).numberedCount
      ≤ (Mealy.after Machine.step m inputs).config.maxInFlightTransactions := by
  refine (Mealy.run_invariant Machine.step
    (fun _ _ m => m.Reached ∧ m.numberedCount ≤ m.config.maxInFlightTransactions) ?_ ?_ inputs).2
  · refine ⟨.new new, ?_⟩
    cases Machine.new_eq_ok new
    exact Nat.zero_le _
  rintro inputs log m input ⟨wf, bound⟩
  have limit : (m.step input).1.config.maxInFlightTransactions
      = m.config.maxInFlightTransactions := (Machine.step_of wf.sound input).limit
  refine ⟨wf.step input, ?_⟩
  rw [limit]
  exact (Machine.step_turn wf input).numberedCount wf.ledger bound

/-! ## What a dispatch sends -/

namespace Machine

/-- The message a candidate is sent as. -/
def numberedMessage (m : Machine) (p : Pending) : Option Message :=
  if p.sequence = 0 then m.nextOutbound.map fun next => (p.numbered (max next 1)).message
  else some p.message

/-- A dispatch may send a request now. -/
def Dispatches (m : Machine) : Prop :=
  m.writeBusy = false ∧ m.state = .ready ∧ m.controls = [] ∧
    (m.renewal = .draining → m.controlMessages ≠ 0)

variable {message : Message} {generation : Nat}

/-- Settling sends nothing. -/
theorem not_sends_of_settles (wf : m.Reached) {x : Exec} (h : m.begin.Settles x) {id : Nat} :
    .sendMessage generation id message ∉ x.effects := by
  intro mem
  obtain ⟨es, effects, quiets⟩ := h.quiets wf.ledger
  have visible : .sendMessage generation id message ∈ x.effects.filter Effect.visible :=
    List.mem_filter.mpr ⟨mem, rfl⟩
  rw [effects] at visible
  obtain ⟨_, _, same⟩ := quiets.failed _ visible
  cases same

variable {requestId : Nat}

theorem sendFirst_sends (wf : m.Reached) :
    .sendMessage generation requestId message ∈ (m.begin.sendFirst index p).effects ↔
      generation = m.generation ∧ p.requestId = requestId ∧
        m.numberedMessage p = some message := by
  have sends {x : Exec} {q : Pending} (effects : x.effects = []) :
      .sendMessage generation requestId message ∈ (x.transmit index q).effects ↔
        generation = x.generation ∧ q.requestId = requestId ∧ q.message = message := by
    simp [Exec.transmit, Exec.emit, Exec.onLedger, effects, eq_comm]
  unfold Exec.sendFirst numberedMessage
  split
  next zero =>
    rw [if_pos (by simpa using zero)]
    split
    next exhausted =>
      have none : m.nextOutbound = none := by
        cases counter : m.nextOutbound with
        | none => rfl
        | some next => simp [begin, allocateSequence, counter] at exhausted
      refine iff_of_false (not_sends_of_settles wf (Exec.settles_failTerminal _ (by decide))) ?_
      simp [none]
    next sequence l allocated =>
      obtain ⟨next, after, counter, rfl, rfl, moved⟩ := allocateSequence_spec allocated
      have counter : m.nextOutbound = some next := counter
      rw [sends rfl, counter, Option.map_some, Option.some.injEq]
      rfl
  next nonzero =>
    rw [if_neg (by simpa using nonzero), sends rfl, Option.some.injEq]
    rfl

/-- A dispatch sends the first candidate, under its number. -/
theorem step_dispatch_sends (wf : m.Reached) :
    .sendMessage generation requestId message ∈ (m.step .dispatch).2 ↔
      m.Dispatches ∧ generation = m.generation ∧
        ∃ p index, m.candidates.argmin (fun entry => entry.1.dispatchKey) = some (p, index) ∧
          p.requestId = requestId ∧ m.numberedMessage p = some message := by
  show _ ∈ (m.begin.dispatch).effects ↔ _
  unfold Exec.dispatch
  split
  next busy =>
    refine iff_of_false (by simp [begin]) ?_
    rintro ⟨⟨idle, ready, -⟩, -⟩
    simp [begin, idle, ready] at busy
  rename_i free
  split
  next control controls queued =>
    refine iff_of_false (by simp [begin, Exec.emit]) ?_
    rintro ⟨⟨-, -, empty, -⟩, -⟩
    simp [begin, empty] at queued
  rename_i empty
  split
  next other =>
    refine iff_of_false (by simp [begin]) ?_
    rintro ⟨⟨-, ready, -⟩, -⟩
    simp [begin, ready] at other
  rename_i ready
  split
  next drains =>
    simp only [begin, Bool.and_eq_true, beq_iff_eq] at drains
    refine iff_of_false ?_ ?_
    · split
      · have drops : Exec.Runs .dispatch m.begin _ :=
          Exec.runs_drained (by simpa using ready) drains.1
        exact not_sends_of_settles wf (drops wf.sound).1
      · simp [begin]
    rintro ⟨⟨-, -, -, reserved⟩, -⟩
    exact reserved drains.1 drains.2
  next passes =>
    have dispatches : m.Dispatches := by
      simp only [begin, Bool.or_eq_true, not_or, Bool.not_eq_true] at free
      simp only [begin, bne_iff_ne, ne_eq, not_not] at ready
      simp only [begin, Bool.and_eq_true, beq_iff_eq, not_and] at passes
      exact ⟨free.1.1.1, ready, empty, passes⟩
    split
    next absent =>
      have absent : m.candidates.argmin (fun entry => entry.1.dispatchKey) = none := absent
      simp [begin, absent]
    rename_i p index chosen
    have chosen : m.candidates.argmin (fun entry => entry.1.dispatchKey)
        = some (p, index) := chosen
    rw [sendFirst_sends wf]
    simp [dispatches, chosen]

/-! ## Overtaking -/

/-- Nothing that waits to be sent again has a lower number than what a dispatch sends. -/
def InOrder (m : Machine) : Prop :=
  ∀ generation requestId message,
    .sendMessage generation requestId message ∈ (m.step .dispatch).2 →
      ∀ r ∈ m.pending, r.sequence ≠ 0 → r.sent = false →
        message.header.sequence ≤ r.sequence

/-- A control message that waits to be sent. -/
def Reserved (m : Machine) (c : Pending) : Prop :=
  c ∈ m.pending ∧ c.control.isSome = true ∧ c.sent = false

/-- While a renewal drains, a request waits to be sent again, and the control messages
that may go out have later numbers or none yet. -/
def Overtakes (m : Machine) : Prop :=
  m.Dispatches ∧ m.renewal = .draining ∧
    ∃ r ∈ m.pending, r.control = none ∧ r.sequence ≠ 0 ∧ r.sent = false ∧
      (∃ c, m.Reserved c ∧ (c.sequence ≠ 0 ∨ m.nextOutbound ≠ none)) ∧
      ∀ c, m.Reserved c → c.sequence = 0 ∨ r.sequence < c.sequence

/-- The number of a message that is sent as the first candidate. -/
theorem numberedMessage_sequence (wf : m.Reached) (hp : p ∈ m.pending)
    (h : m.numberedMessage p = some message) :
    (p.sequence ≠ 0 ∧ message.header.sequence = p.sequence) ∨
      (p.sequence = 0 ∧ ∃ next, m.nextOutbound = some next ∧
        message.header.sequence = max next 1) := by
  unfold numberedMessage at h
  split at h
  next zero =>
    obtain ⟨next, counter, rfl⟩ := Option.map_eq_some_iff.mp h
    exact .inr ⟨zero, next, counter, rfl⟩
  rename_i nonzero
  cases h
  exact .inl ⟨nonzero, (wf.ledger.each p hp).header nonzero⟩

variable {r : Pending}

/-- The first candidate has the lowest number of all that have one. -/
theorem sequence_le_of_first (wf : m.Reached) {place : Nat}
    (chosen : m.candidates.argmin (fun entry => entry.1.dispatchKey) = some (p, index))
    (numbered : m.numberedMessage p = some message) (candidate : (r, place) ∈ m.candidates)
    (nonzero : r.sequence ≠ 0) : message.header.sequence ≤ r.sequence := by
  have first : p.dispatchKey ≤ r.dispatchKey :=
    List.le_of_mem_argmin (f := fun entry : Pending × Nat => entry.1.dispatchKey) candidate chosen
  have hp := (of_mem_candidates (List.argmin_mem chosen)).1
  rcases numberedMessage_sequence wf hp numbered with ⟨positive, same⟩ | ⟨zero, -⟩
  · rw [Pending.dispatchKey_of_ne positive, Pending.dispatchKey_of_ne nonzero] at first
    rw [same]
    simpa [Prod.Lex.toLex_le_toLex] using first
  · exact absurd first (not_le.mpr (Pending.dispatchKey_lt nonzero zero))

/-- A request that waits to be sent again leaves room for itself. -/
theorem inFlightCount_lt (wf : m.Reached) (bound : m.numberedCount ≤ m.config.maxInFlightTransactions)
    (hr : r ∈ m.pending) (request : r.control = none) (nonzero : r.sequence ≠ 0)
    (unsent : r.sent = false) : m.inFlightCount < m.config.maxInFlightTransactions := by
  refine lt_of_lt_of_le ?_ bound
  have counted : m.inFlightCount
      = (m.pending.filter Pending.counted).countP fun p => p.sent && p.control.isNone := by
    rw [List.countP_filter]
    refine List.countP_congr fun p hp => ?_
    have each := wf.ledger.each p hp
    simp only [Pending.counted, Bool.and_eq_true, bne_iff_ne]
    constructor
    · rintro ⟨sent, plain⟩
      exact ⟨⟨sent, plain⟩, plain, each.numbered.mp (each.sent sent)⟩
    · rintro ⟨flight, -⟩
      exact flight
  rw [counted, Ledger.numberedCount, List.countP_eq_length_filter, List.countP_eq_length_filter,
    List.length_filter_lt_length_iff_exists]
  refine ⟨r, List.mem_filter.mpr ⟨hr, ?_⟩, by simp [unsent]⟩
  simp [Pending.counted, request, nonzero]

theorem overtakes_of_sends (wf : m.Reached)
    (bound : m.numberedCount ≤ m.config.maxInFlightTransactions)
    (sends : .sendMessage generation requestId message ∈ (m.step .dispatch).2)
    (hr : r ∈ m.pending) (nonzero : r.sequence ≠ 0) (unsent : r.sent = false)
    (lower : r.sequence < message.header.sequence) : m.Overtakes := by
  obtain ⟨dispatches, -, p, index, chosen, -, numbered⟩ := (step_dispatch_sends wf).mp sends
  -- everything with a number that is a candidate is at least as late as the message
  have late {c : Pending} (hc : c ∈ m.pending) (number : c.sequence ≠ 0) (waits : c.sent = false)
      (allowed : c.control.isSome = true ∨
        (m.renewal ≠ .draining ∧ m.inFlightCount < m.config.maxInFlightTransactions)) :
      r.sequence < c.sequence := by
    obtain ⟨place, candidate⟩ := mem_candidates hc waits allowed
    exact lower.trans_le (sequence_le_of_first wf chosen numbered candidate number)
  have request : r.control = none := by
    by_contra control
    exact lt_irrefl _ (late hr nonzero unsent (.inl (Option.isSome_iff_ne_none.mpr control)))
  have draining : m.renewal = .draining := by
    by_contra other
    have room := inFlightCount_lt wf bound hr request nonzero unsent
    exact lt_irrefl _ (late hr nonzero unsent (.inr ⟨other, room⟩))
  obtain ⟨hp, waits, allowed⟩ := of_mem_candidates (List.argmin_mem chosen)
  have control := allowed.resolve_right fun h => h.1 draining
  refine ⟨dispatches, draining, r, hr, request, nonzero, unsent, ⟨p, ⟨hp, control, waits⟩, ?_⟩, ?_⟩
  · rcases numberedMessage_sequence wf hp numbered with ⟨number, -⟩ | ⟨-, next, counter, -⟩
    · exact .inl number
    · exact .inr (by simp [counter])
  rintro c ⟨hc, control, waits⟩
  by_cases zero : c.sequence = 0
  · exact .inl zero
  · exact .inr (late hc zero waits (.inl control))

theorem not_inOrder_of_overtakes (wf : m.Reached) (h : m.Overtakes) : ¬ m.InOrder := by
  obtain ⟨dispatches, draining, r, hr, request, nonzero, unsent, ⟨c, hc, number⟩, later⟩ := h
  obtain ⟨place, candidate⟩ := mem_candidates hc.1 hc.2.2 (.inl hc.2.1)
  obtain ⟨⟨p, index⟩, chosen⟩ : ∃ entry,
      m.candidates.argmin (fun entry => entry.1.dispatchKey) = some entry := by
    rw [← Option.ne_none_iff_exists', ne_eq, List.argmin_eq_none]
    exact List.ne_nil_of_mem candidate
  obtain ⟨hp, waits, allowed⟩ := of_mem_candidates (List.argmin_mem chosen)
  have control := allowed.resolve_right fun h => h.1 draining
  obtain ⟨message, numbered⟩ : ∃ message, m.numberedMessage p = some message := by
    unfold numberedMessage
    split
    next zero =>
      have new : c.sequence = 0 := by
        by_contra replayed
        have first := List.le_of_mem_argmin
          (f := fun entry : Pending × Nat => entry.1.dispatchKey) candidate chosen
        exact absurd first (not_le.mpr (Pending.dispatchKey_lt replayed zero))
      obtain ⟨next, counter⟩ :=
        Option.ne_none_iff_exists'.mp (number.resolve_left (not_not.mpr new))
      exact ⟨_, by rw [counter, Option.map_some]⟩
    · exact ⟨_, rfl⟩
  intro order
  have le := order m.generation p.requestId message
    ((step_dispatch_sends wf).mpr ⟨dispatches, rfl, p, index, chosen, rfl, numbered⟩)
    r hr nonzero unsent
  rcases numberedMessage_sequence wf hp numbered with ⟨positive, same⟩ | ⟨zero, next, counter, same⟩
  · have := (later p ⟨hp, control, waits⟩).resolve_left positive
    omega
  · have := wf.ledger.below r hr next counter
    omega

end Machine

/-- In every state a session reaches, a dispatch overtakes nothing that waits to be sent
again, except for reserved control messages during a credential renewal. -/
theorem in_order_iff_not_overtakes {config : Config} {m : Machine}
    (new : Machine.new config = .ok m) (inputs : List Input) :
    (Mealy.after Machine.step m inputs).InOrder ↔
      ¬ (Mealy.after Machine.step m inputs).Overtakes := by
  have wf := (Machine.Reached.new new).after inputs
  have bound := numbered_le_limit new inputs
  constructor
  · exact fun order overtakes => Machine.not_inOrder_of_overtakes wf overtakes order
  intro never generation requestId message sends r hr nonzero unsent
  by_contra lower
  exact never (Machine.overtakes_of_sends wf bound sends hr nonzero unsent (not_le.mp lower))

/-- A request that was sent waits to be sent again after the connection was lost. -/
def waitingInputs : List Input :=
  [.start true, .admitRequest 1 {} false, .dispatch, .fault 1 .disconnected,
    .connected 2 none none, .dispatch, .writeComplete 3 none (.ok ()),
    .control 3 (.sessionReconnectOk 0)]

theorem in_order_iff_not_overtakes_sample :
    (Mealy.after Machine.step (.initial sampleConfig) waitingInputs).pending.map
        (fun p => (p.sequence, p.sent)) = [(1, false)] ∧
      (Mealy.after Machine.step (.initial sampleConfig) waitingInputs).InOrder := by
  refine ⟨by decide, (in_order_iff_not_overtakes new_sample waitingInputs).mpr ?_⟩
  rintro ⟨-, draining, -⟩
  exact absurd draining (by decide)

/-- The acknowledgment of a backoff. -/
def backoffAck : Message where
  header := { messageType := 61, version := 1 }
  lengths := { front := 29 }
  front := List.replicate 28 0 ++ [2]

set_option maxRecDepth 1000

/-- A renewal starts to drain while the request waits.  The acknowledgment of a backoff is
a reserved control message, and overtakes it. -/
theorem not_in_order : ¬ ∀ (config : Config) (m : Machine), Machine.new config = .ok m →
    ∀ inputs, (Mealy.after Machine.step m inputs).InOrder := by
  intro h
  have order := h sampleConfig _ new_sample
    (waitingInputs ++ [.renewalDue 3, .admitControl 2 backoffAck 3])
  have sends : .sendMessage 3 2 { backoffAck with
      header := { messageType := 61, version := 1, transactionId := 2, sequence := 2 } }
      ∈ ((Mealy.after Machine.step (.initial sampleConfig)
        (waitingInputs ++ [.renewalDue 3, .admitControl 2 backoffAck 3])).step .dispatch).2 := by
    decide
  obtain ⟨p, hp, first, waits⟩ : ∃ p ∈ (Mealy.after Machine.step (.initial sampleConfig)
      (waitingInputs ++ [.renewalDue 3, .admitControl 2 backoffAck 3])).pending,
      p.sequence = 1 ∧ p.sent = false := by
    decide
  have le := order _ _ _ sends p hp (by rw [first]; decide) waits
  rw [first] at le
  exact absurd le (by decide)

end RadosRs.Msgr.Session
