import RadosRs.Msgr.Session.Acts

/-!
# What one step does

`Turn` lists what a step of the machine can do to its ledger and which effects
about requests it puts out: a request is refused, admitted, sent, written or
answered, a message goes upward, and around any of these there are quiet moves.
To the connection a step does a number of acts, after it has taken a new
connection or not.  `Machine.step_of` is the refinement: every step of the
machine, from every state that can be reached and for every input, is such a turn
and such a number of acts.  Everything said about runs of the machine later on is
proved from the turns and the acts alone.
-/

namespace RadosRs.Msgr.Session

open Keyed Fixed Ledger Link

/-- The request an input asks to admitRequest: its id, its message and whether it is one-way. -/
def Input.request : Input → Option (Nat × Message × Bool)
  | .admitRequest requestId request oneWay => some (requestId, request, oneWay)
  | .admitControl requestId request _ => some (requestId, request, true)
  | _ => none

namespace Ledger

/-- The transaction id granted to a request that asks for one, and the counter after it.
Asking for zero means to take the next id that is free. -/
inductive Grants (l : Ledger) (asked : Nat) : Nat → Option Nat → Prop
  | chosen (nonzero : asked ≠ 0) (free : l.byTransaction asked = none) :
      l.Grants asked asked l.nextTransactionId
  | counted {next transactionId : Nat} {after : Option Nat} (zero : asked = 0)
      (counter : l.nextTransactionId = some next) (le : next ≤ transactionId)
      (pos : 1 ≤ transactionId) (free : l.byTransaction transactionId = none)
      (moved : ∀ n, after = some n → n = transactionId + 1) :
      l.Grants asked transactionId after

/-- The number a request is sent under, and the counter after it. -/
inductive Numbers (l : Ledger) (p : Pending) : Pending → Option Nat → Prop
  | replayed (nonzero : p.sequence ≠ 0) : l.Numbers p p l.nextOutbound
  | fresh {next : Nat} {after : Option Nat} (zero : p.sequence = 0)
      (counter : l.nextOutbound = some next) (moved : ∀ n, after = some n → n = max next 1 + 1) :
      l.Numbers p (p.numbered (max next 1)) after

/-- The ledger once a message that was not received before has been taken in. -/
def received (l : Ledger) (message : Message) : Ledger :=
  { l with lastInbound := message.header.sequence }.trimReplay message.header.ackSequence

theorem Wf.received {l : Ledger} (h : l.Wf) (message : Message) : (l.received message).Wf :=
  h.congr rfl rfl rfl

/-- Taking a transaction id moves the counter up and touches nothing else.  The id
taken is the one the counter stood at when it was free. -/
theorem takeTransactionIdLoop_spec (fuel : Nat) (l : Ledger) :
    ∃ after, (takeTransactionIdLoop fuel l).2 = { l with nextTransactionId := after } ∧
      (∀ n, after = some n → ∃ k, l.nextTransactionId = some k ∧ k ≤ n) ∧
      ∀ transactionId, (takeTransactionIdLoop fuel l).1 = some transactionId →
        l.Grants 0 transactionId after := by
  induction fuel generalizing l with
  | zero =>
    exact ⟨l.nextTransactionId, rfl, fun n h => ⟨n, h, le_rfl⟩, by simp [takeTransactionIdLoop]⟩
  | succ fuel ih =>
    cases counter : l.nextTransactionId with
    | none =>
      refine ⟨none, ?_, by simp, by simp [takeTransactionIdLoop, counter]⟩
      simp only [takeTransactionIdLoop, counter]
      rw [← counter]
    | some next =>
      simp only [takeTransactionIdLoop, counter]
      generalize moved : (if max next 1 == u64Max then none else some (max next 1 + 1)) = after
      have up : ∀ n, after = some n → n = max next 1 + 1 := by
        rintro n rfl
        split at moved
        · cases moved
        · exact (Option.some.inj moved).symm
      split
      next free =>
        refine ⟨after, rfl, fun n h => ⟨next, rfl, ?_⟩, fun transactionId taken => ?_⟩
        · have := up n h
          omega
        cases taken
        exact .counted rfl counter (le_max_left _ _) (le_max_right _ _)
          (by simpa using free) up
      · obtain ⟨last, ledger, later, granted⟩ := ih { l with nextTransactionId := after }
        refine ⟨last, ledger, fun n h => ⟨next, rfl, ?_⟩, fun transactionId taken => ?_⟩
        · obtain ⟨k, hk, le⟩ := later n h
          have := up k hk
          omega
        cases granted transactionId taken with
        | chosen nonzero => exact absurd rfl nonzero
        | counted zero counted le pos free moved =>
          have := up _ counted
          exact .counted rfl counter (by omega) pos free moved

theorem takeTransactionId_spec (l : Ledger) :
    ∃ after, l.takeTransactionId.2 = { l with nextTransactionId := after } ∧
      (∀ n, after = some n → ∃ k, l.nextTransactionId = some k ∧ k ≤ n) ∧
      ∀ transactionId, l.takeTransactionId.1 = some transactionId →
        l.Grants 0 transactionId after :=
  takeTransactionIdLoop_spec _ l

theorem allocateSequence_spec {l k : Ledger} {sequence : Nat}
    (h : l.allocateSequence = (some sequence, k)) :
    ∃ next after, l.nextOutbound = some next ∧ sequence = max next 1 ∧
      k = { l with nextOutbound := after } ∧ ∀ n, after = some n → n = max next 1 + 1 := by
  unfold allocateSequence at h
  cases counter : l.nextOutbound with
  | none => simp [counter] at h
  | some next =>
    simp only [counter, Prod.mk.injEq, Option.some.injEq] at h
    obtain ⟨rfl, rfl⟩ := h
    refine ⟨next, _, rfl, rfl, rfl, fun n moved => ?_⟩
    split at moved
    · cases moved
    · exact (Option.some.inj moved).symm

end Ledger

/-! ## Turns -/

/-- The beginning of a step. -/
def Machine.begin (m : Machine) : Exec := { m with effects := [] }

/-- What one step can do to the ledger of `m`, with the effects about requests. -/
inductive Turn (m : Machine) : Input → List Effect → Ledger → Prop
  | quiet {input : Input} {es : List Effect} {l : Ledger} (idle : input.request = none)
      (quiets : Quiets m.toLedger es l) : Turn m input es l
  /-- A request is refused.  When the transaction ids have run out, everything else
  fails first. -/
  | reject {input : Input} {requestId : Nat} {request : Message} {oneWay : Bool}
      {es : List Effect} {l : Ledger} {after : Option Nat} {error : SessionError}
      (asked : input.request = some (requestId, request, oneWay))
      (advance : ∀ n, after = some n → ∃ k, m.nextTransactionId = some k ∧ k ≤ n)
      (quiets : Quiets { m.toLedger with nextTransactionId := after } es l)
      (known : error ≠ .outcomeUnknown) :
      Turn m input (es ++ [.failed requestId error]) l
  | admitRequest {input : Input} {p : Pending} {request : Message} {after : Option Nat}
      (asked : input.request = some (p.requestId, request, p.oneWay))
      (absent : m.find p.requestId = none)
      (sequence : p.sequence = 0) (sent : p.sent = false) (may : p.mayHaveExecuted = false)
      (grants : m.Grants request.header.transactionId p.transactionId after)
      (room : m.begin.saturated p.bytes p.control.isSome = false)
      (taken : m.admissionBytes request = .ok p.bytes)
      (message : p.message =
        { request with header := { request.header with transactionId := p.transactionId } }) :
      Turn m input [.admitted p.requestId p.transactionId]
        ({ m.toLedger with nextTransactionId := after }.insert p)
  /-- The first candidate is handed to the transport. -/
  | send {p q : Pending} {before rest : List Pending} {after : Option Nat}
      (pending : m.pending = before ++ p :: rest)
      (candidate : (p, before.length) ∈ m.candidates)
      (first : ∀ c ∈ m.candidates, p.dispatchKey ≤ c.1.dispatchKey)
      (numbers : m.Numbers p q after) :
      Turn m .dispatch [.sendMessage m.generation p.requestId q.message]
        ({ m.toLedger with nextOutbound := after }.transmit before.length q)
  | written {generation : Nat} {p : Pending} {result : Except SessionError Unit}
      (found : m.find p.requestId = some p) (oneWay : p.oneWay = true) :
      Turn m (.writeComplete generation (some p.requestId) result) [.completed p.requestId none]
        (m.removePending p.requestId)
  /-- A new message answers a request that was sent. -/
  | answer {generation : Nat} {message : Message} {es : List Effect} {l : Ledger} {p : Pending}
      (newer : m.lastInbound < message.header.sequence)
      (quiets : Quiets (m.received message) es l)
      (kept : l.lastInbound = message.header.sequence)
      (found : l.find p.requestId = some p) (may : p.mayHaveExecuted = true)
      (twoWay : p.oneWay = false) (same : p.transactionId = message.header.transactionId) :
      Turn m (.message generation message) (es ++ [.completed p.requestId (some message)])
        (l.removePending p.requestId)
  /-- A new message goes upward. -/
  | incoming {generation : Nat} {message : Message} {es : List Effect} {l : Ledger}
      (newer : m.lastInbound < message.header.sequence)
      (quiets : Quiets (m.received message) es l)
      (kept : l.lastInbound = message.header.sequence) :
      Turn m (.message generation message) (es ++ [.incoming message]) l
  /-- A new message finds the queue full. -/
  | overflow {generation : Nat} {message : Message} {es : List Effect} {l : Ledger}
      (newer : m.lastInbound < message.header.sequence)
      (quiets : Quiets (m.received message) es l) :
      Turn m (.message generation message) es l

/-- What holds of every machine a session can reach. -/
structure Machine.Wf (m : Machine) : Prop where
  ledger : m.toLedger.Wf
  terminal : m.terminalError ≠ some .outcomeUnknown

/-! ## Every step is a turn and a number of acts -/

/-- The outcome of a step that ends at `x`. -/
structure Exec.StepOf (m : Machine) (input : Input) (x : Exec) : Prop extends Frame m.begin x where
  turn : m.Wf → Turn m input (x.effects.filter Effect.visible) x.toLedger
  goes : m.takes input = false → Goes input m.begin x

namespace Exec

variable {m : Machine} {input : Input} {x y : Exec}

theorem Settles.turn (wf : m.Wf) (idle : input.request = none) (h : m.begin.Settles x) :
    Turn m input (x.effects.filter Effect.visible) x.toLedger := by
  obtain ⟨es, effects, quiets⟩ := h.quiets wf.ledger
  rw [effects]
  exact .quiet idle quiets

theorem Runs.step (sound : m.link.Sound) (idle : input.request = none)
    (h : Runs input m.begin x) : StepOf m input x := by
  obtain ⟨settles, goes⟩ := h sound
  exact ⟨settles.toFrame, fun wf => settles.turn wf idle, fun _ => goes⟩

/-- The terminal error stays, and an empty ledger stays empty. -/
theorem Frame.of_pending (limits : y.limits = x.limits)
    (terminal : y.terminalError = x.terminalError) (pending : x.pending = [] → y.pending = []) :
    x.Frame y :=
  ⟨limits, fun known => terminal ▸ known, fun ended halt => pending (ended (terminal ▸ halt))⟩

theorem goes_failed (x : Exec) (requestId : Nat) (error : SessionError) :
    Goes input x (x.emit (.failed requestId error)) :=
  .of_same rfl (by simp [linked, emit, Effect.linked])

variable {requestId : Nat} {request : Message} {oneWay : Bool}

theorem step_refuse {error : SessionError}
    (asked : input.request = some (requestId, request, oneWay))
    (known : m.Wf → error ≠ .outcomeUnknown) :
    StepOf m input (m.begin.emit (.failed requestId error)) :=
  ⟨⟨rfl, id, id⟩, fun wf => .reject asked (fun n h => ⟨n, h, le_rfl⟩) .nil (known wf),
    fun _ => goes_failed _ _ _⟩

theorem step_register {bytes transactionId : Nat} {control : Bool} {after : Option Nat}
    (asked : input.request = some (requestId, request, oneWay))
    (live : m.terminalError = none) (running : m.state ≠ .stopped)
    (absent : m.find requestId = none)
    (grants : m.Grants request.header.transactionId transactionId after)
    (room : m.begin.saturated bytes control = false)
    (taken : m.admissionBytes request = .ok bytes) :
    StepOf m input
      ((m.begin.onLedger fun l => { l with nextTransactionId := after }).register requestId
        request transactionId bytes oneWay control) := by
  let p : Pending :=
    { requestId
      message := { request with header := { request.header with transactionId } }
      bytes
      sequence := 0
      sent := false
      mayHaveExecuted := false
      oneWay
      control := if control then some m.controlGeneration else none }
  have lane : p.control.isSome = control := by cases control <;> rfl
  refine ⟨⟨rfl, id, fun _ halt => absurd live halt⟩, fun _ => ?_, fun _ => ?_⟩
  · refine Turn.admitRequest (p := p) asked absent rfl rfl rfl grants ?_ taken rfl
    rw [lane]
    exact room
  · exact .of_act (.admitted live running) (linked_emit _ rfl)

theorem step_exhaust (sound : m.link.Sound) (live : m.terminalError = none) {after : Option Nat}
    {l : Ledger} (asked : input.request = some (requestId, request, oneWay))
    (advance : ∀ n, after = some n → ∃ k, m.nextTransactionId = some k ∧ k ≤ n)
    (ledger : l = { m.toLedger with nextTransactionId := after }) :
    StepOf m input
      (((m.begin.onLedger fun _ => l).failTerminal .transitionLimit).emit
        (.failed requestId .transitionLimit)) := by
  subst ledger
  generalize begun : (m.begin.onLedger fun _ => { m.toLedger with nextTransactionId := after }) = x
  have same : Goes input m.begin x := begun ▸ .of_same rfl rfl
  obtain ⟨failing, goes⟩ := runs_failTerminal x
    (show SessionError.transitionLimit ≠ .outcomeUnknown by decide) (same.sound sound)
  subst begun
  refine ⟨⟨failing.limits, failing.terminal, fun _ => failing.ended fun halt => absurd live halt⟩,
    fun wf => ?_, fun _ => (same.trans goes).trans (goes_failed _ _ _)⟩
  obtain ⟨es, effects, quiets⟩ := failing.quiets (wf.ledger.congr rfl rfl rfl)
  rw [emit, List.filter_append, effects]
  exact Turn.reject asked advance quiets (by decide)

theorem step_admitRequest (sound : m.link.Sound) (control : Bool)
    (asked : input.request = some (requestId, request, oneWay)) :
    StepOf m input (m.begin.admitRequest requestId request oneWay control) := by
  unfold admitRequest
  split
  next error terminal =>
    refine step_refuse asked fun wf unknown => wf.terminal ?_
    rw [← unknown]
    exact terminal
  rename_i live
  split
  · exact step_refuse asked fun _ => by decide
  rename_i running
  have running : m.state ≠ .stopped := by simpa [Machine.begin] using running
  split
  · exact step_refuse asked fun _ => by decide
  rename_i bytes admitted
  split
  · exact step_refuse asked fun _ => by decide
  rename_i accepted
  have passed : m.begin.saturated bytes control = false ∧ m.begin.find requestId = none := by
    simpa using accepted
  have absent : m.find requestId = none := passed.2
  split
  next zero =>
    obtain ⟨after, ledger, advance, granted⟩ := m.takeTransactionId_spec
    have asks : request.header.transactionId = 0 := by simpa using zero
    split
    next l taken =>
      have taken : m.takeTransactionId = (none, l) := taken
      rw [taken] at ledger
      exact step_exhaust sound live asked advance ledger
    rename_i transactionId l taken
    have taken : m.takeTransactionId = (some transactionId, l) := taken
    rw [taken] at ledger granted
    cases ledger
    refine step_register asked live running absent ?_ passed.1 admitted
    rw [asks]
    exact granted transactionId rfl
  next nonzero =>
    have asks : request.header.transactionId ≠ 0 := by simpa using nonzero
    split
    · exact step_refuse asked fun _ => by decide
    rename_i taken
    have free : m.begin.byTransaction request.header.transactionId = none := by
      simpa using taken
    exact step_register asked live running absent (.chosen asks free) passed.1 admitted

variable {generation : Nat}

theorem step_admitControl (sound : m.link.Sound) :
    StepOf m (.admitControl requestId request generation)
      (m.begin.admitControl requestId request generation) := by
  unfold admitControl
  split
  · exact step_refuse rfl fun _ => by decide
  split
  · exact step_refuse rfl fun _ => by decide
  · exact step_admitRequest sound true rfl

/-- A request is handed to the transport. -/
theorem step_transmit {p q : Pending} {before rest : List Pending} {after : Option Nat}
    (ready : m.link.state = .ready) (free : m.link.writeBusy = false)
    (pending : m.pending = before ++ p :: rest) (candidate : (p, before.length) ∈ m.candidates)
    (first : ∀ c ∈ m.candidates, p.dispatchKey ≤ c.1.dispatchKey)
    (numbers : m.Numbers p q after) :
    StepOf m .dispatch
      ((m.begin.onLedger fun l => { l with nextOutbound := after }).transmit before.length q) := by
  have same : q.requestId = p.requestId := by cases numbers <;> rfl
  refine ⟨.of_pending rfl rfl fun none => ?_, fun _ => ?_, fun _ => ?_⟩
  · exact absurd (pending.symm.trans none) (by simp)
  · have turn := Turn.send pending candidate first numbers
    rw [← same] at turn
    exact turn
  · exact .of_act (.sendMessage rfl ready free) (linked_emit _ rfl)

/-- A connection that has drained is dropped for the renewal. -/
theorem runs_drained {x : Exec} (ready : x.state = .ready) (draining : x.renewal = .draining) :
    Runs .dispatch x (fault { x with renewal := .reconnecting } .renewal) := by
  refine .trans ?_ (runs_fault _ _)
  exact .silent (.drained rfl ready draining) rfl rfl

theorem step_dispatch (sound : m.link.Sound) : StepOf m .dispatch m.begin.dispatch := by
  have nothing : StepOf m .dispatch m.begin := (Runs.refl _).step sound rfl
  unfold dispatch
  split
  · exact nothing
  rename_i allowed
  simp only [Bool.or_eq_true, beq_iff_eq, not_or, Bool.not_eq_true] at allowed
  obtain ⟨⟨⟨free, notDown⟩, notWaiting⟩, running⟩ := allowed
  split
  next control controls queued =>
    have up : m.link.Handshaking ∨ m.link.state = .ready := by
      cases state : m.state <;> simp_all [Handshaking, Machine.link, Machine.begin]
    exact Runs.step sound rfl (.emits (.sendControl rfl up free queued) rfl rfl rfl)
  split
  · exact nothing
  rename_i ready
  have ready : m.link.state = .ready := by simpa [Machine.link, Machine.begin] using ready
  split
  next draining =>
    have draining : m.link.renewal = .draining := by
      simp only [Bool.and_eq_true, beq_iff_eq] at draining
      exact draining.1
    split
    · exact (runs_drained ready draining).step sound rfl
    · exact nothing
  split
  · exact nothing
  rename_i p index chosen
  have chosen : m.candidates.argmin (fun entry => entry.1.dispatchKey) = some (p, index) := chosen
  have candidate := List.argmin_mem chosen
  have first : ∀ c ∈ m.candidates, p.dispatchKey ≤ c.1.dispatchKey :=
    fun c hc => List.le_of_mem_argmin (f := fun entry : Pending × Nat => entry.1.dispatchKey)
      hc chosen
  have place : m.pending[index]? = some p :=
    List.mem_zipIdx_iff_getElem?.mp (List.mem_filter.mp candidate).1
  obtain ⟨before, rest, pending, rfl⟩ :
      ∃ before rest, m.pending = before ++ p :: rest ∧ before.length = index := by
    obtain ⟨bound, here⟩ := List.getElem?_eq_some_iff.mp place
    refine ⟨m.pending.take index, m.pending.drop (index + 1), ?_, by simp; omega⟩
    rw [← here, List.getElem_cons_drop, List.take_append_drop]
  unfold sendFirst
  split
  next zero =>
    have zero : p.sequence = 0 := by simpa using zero
    split
    · exact (runs_failTerminal _ (by decide)).step sound rfl
    rename_i sequence l allocated
    obtain ⟨next, after, counter, rfl, rfl, moved⟩ := allocateSequence_spec allocated
    exact step_transmit ready free pending candidate first (.fresh zero counter moved)
  next nonzero =>
    exact step_transmit ready free pending candidate first (.replayed (by simpa using nonzero))

theorem step_writeComplete (sound : m.link.Sound) {requestId : Option Nat}
    {result : Except SessionError Unit} :
    StepOf m (.writeComplete generation requestId result)
      (m.begin.writeComplete generation requestId result) := by
  unfold writeComplete
  split
  · exact (Runs.refl _).step sound rfl
  rename_i current
  have current : generation = m.generation := by simpa [Machine.begin] using current
  subst current
  have idle : Runs (.writeComplete m.generation requestId result) m.begin
      { m.begin with writeBusy := false } := .silent (.written rfl) rfl rfl
  dsimp only
  split
  next error => exact (idle.trans (runs_fault _ error)).step sound rfl
  split
  · exact idle.step sound rfl
  rename_i requestId
  split
  next oneWay =>
    cases found : m.find requestId with
    | none =>
      have absent : ({ m.begin with writeBusy := false } : Exec).find requestId = none := found
      simp [absent] at oneWay
    | some p =>
      obtain ⟨hp, rfl⟩ := find_mem found
      have present : ({ m.begin with writeBusy := false } : Exec).find p.requestId = some p :=
        found
      refine ⟨.of_pending rfl rfl fun none => by simp [emit, onLedger, none], fun _ => ?_,
        fun _ => idle.goes.trans (.of_act (.completed rfl) (linked_emit _ rfl))⟩
      exact Turn.written found (by simpa [present] using oneWay)
  · exact idle.step sound rfl

variable {message : Message}

theorem step_deliver (sound : m.link.Sound) (newer : m.lastInbound < message.header.sequence)
    (frame : m.begin.Frame x) (goes : Goes (.message generation message) m.begin x)
    (quiets : m.Wf → Quiets (m.received message) (x.effects.filter Effect.visible) x.toLedger)
    (kept : x.lastInbound = message.header.sequence) :
    StepOf m (.message generation message) (x.deliver message) := by
  unfold deliver
  dsimp only
  split
  next requestId answered =>
    refine ⟨frame.trans (.of_pending rfl rfl fun none => by simp [emit, onLedger, none]),
      fun wf => ?_, fun _ => goes.trans (.of_act (.completed rfl) (linked_emit _ rfl))⟩
    have wf' : x.toLedger.Wf := (quiets wf).wf (wf.ledger.received message)
    obtain ⟨entry, pending⟩ := Option.filter_eq_some_iff.mp answered
    cases found : x.find requestId with
    | none => simp [found] at pending
    | some p =>
      obtain ⟨hp, rfl⟩ := find_mem found
      obtain ⟨may, twoWay⟩ : p.mayHaveExecuted = true ∧ p.oneWay = false := by
        simpa [found] using pending
      -- The table names the owner of the transaction, and ids are distinct.
      have same : p.transactionId = message.header.transactionId := by
        obtain ⟨q, hq, requestId, transactionId⟩ := wf'.owned _ _ entry
        rw [← wf'.distinct.eq_of_key hq hp requestId, transactionId]
      rw [emit, List.filter_append, onLedger]
      exact Turn.answer newer (quiets wf) kept found may twoWay same
  split
  · obtain ⟨failing, ended⟩ := runs_failTerminal x
      (show SessionError.queueSaturated ≠ .outcomeUnknown by decide) (goes.sound sound)
    refine ⟨frame.trans failing.toFrame, fun wf => ?_, fun _ => goes.trans ended⟩
    obtain ⟨es', effects', quiets'⟩ :=
      failing.quiets ((quiets wf).wf (wf.ledger.received message))
    rw [effects']
    exact Turn.overflow newer ((quiets wf).trans quiets')
  · refine ⟨frame.trans ⟨rfl, id, id⟩, fun wf => ?_,
      fun _ => goes.trans (.of_act (.incoming rfl) (linked_emit _ rfl))⟩
    rw [emit, List.filter_append]
    exact Turn.incoming newer (quiets wf) kept

/-- What a message is handed on with: the gap is noted and the acknowledgment queued. -/
def acknowledge (x : Exec) (message : Message) : Exec :=
  (({ x.noteGap message.header.sequence with lastInbound := message.header.sequence }.onLedger
    (·.trimReplay message.header.ackSequence))).queueControl (.ack message.header.sequence)

theorem receive_eq (x : Exec) (message : Message) :
    x.receive message = (x.acknowledge message).deliver message := rfl

/-- A new message is taken in and acknowledged before it is delivered. -/
structure Acknowledged (m : Machine) (message : Message) (x : Exec) : Prop
    extends Frame m.begin x where
  goes : ∀ {input}, Goes input m.begin x
  quiets : m.Wf → Quiets (m.received message) (x.effects.filter Effect.visible) x.toLedger
  inbox : x.inbox = (message.header.sequence, m.incomingCount)

theorem acknowledged (sound : m.link.Sound) (ready : m.state = .ready) (message : Message) :
    Acknowledged m message (m.begin.acknowledge message) := by
  obtain ⟨y, gap, noted, ledger, frame, effects, state, incoming⟩ :
      ∃ y : Exec, m.begin.noteGap message.header.sequence = y
        ∧ (∀ {input}, Goes input m.begin y) ∧ y.toLedger = m.toLedger
        ∧ m.begin.Frame y ∧ y.effects.filter Effect.visible = [] ∧ y.state = m.state
        ∧ y.incomingCount = m.incomingCount := by
    unfold noteGap
    split
    · exact ⟨_, rfl, (runs_note _ _ rfl).goes, rfl, ⟨rfl, id, id⟩, rfl, rfl, rfl⟩
    · exact ⟨_, rfl, (Runs.refl _).goes, rfl, .refl _, rfl, rfl, rfl⟩
  unfold acknowledge
  rw [gap]
  generalize taken : { y with lastInbound := message.header.sequence }.onLedger
    (·.trimReplay message.header.ackSequence) = z
  have received : z.toLedger = m.received message := by
    simp only [← taken, onLedger, Ledger.received, ledger]
  have framed : m.begin.Frame z := by
    rw [← taken]
    exact ⟨frame.limits, frame.terminal, frame.ended⟩
  have begun (input : Input) : Goes input m.begin z := by
    rw [← taken]
    exact noted.trans (.of_same rfl rfl)
  have ready : z.state = .ready := by
    rw [← taken]
    exact state.trans ready
  have sound : z.link.Sound := (begun .stop).sound sound
  have queues (input : Input) : Runs input z (z.queueControl (.ack message.header.sequence)) :=
    runs_queueControl ready _
  obtain ⟨settles, -⟩ := queues .stop sound
  refine ⟨framed.trans settles.toFrame, (begun _).trans (queues _).goes, fun wf => ?_, ?_⟩
  · obtain ⟨es, told, quiets⟩ := settles.quiets (received ▸ wf.ledger.received message)
    have silent : z.effects.filter Effect.visible = [] := by
      rw [← taken]
      exact effects
    rw [told, silent, ← received]
    exact quiets
  · rw [inbox_queueControl, ← incoming, ← taken]
    rfl

theorem Acknowledged.incomingCount {x : Exec} (h : Acknowledged m message x) :
    x.incomingCount = m.incomingCount := congrArg Prod.snd h.inbox

theorem Acknowledged.queue {x : Exec} (h : Acknowledged m message x) :
    x.config.maxQueuedMessages = m.config.maxQueuedMessages := congrArg (·.2.1) h.limits

theorem step_receive (sound : m.link.Sound) (ready : m.state = .ready)
    (newer : m.lastInbound < message.header.sequence) :
    StepOf m (.message generation message) (m.begin.receive message) := by
  have taken := acknowledged sound ready message
  exact step_deliver sound newer taken.toFrame taken.goes taken.quiets
    (congrArg Prod.fst taken.inbox)

theorem step_message (sound : m.link.Sound) :
    StepOf m (.message generation message) (m.begin.message message) := by
  unfold Exec.message
  split
  · exact (runs_fault _ _).step sound rfl
  rename_i ready
  have ready : m.state = .ready := by simpa [Machine.begin] using ready
  unfold andThen branch acceptAcknowledgment
  split
  · exact (runs_fault _ _).step sound rfl
  dsimp only
  rw [if_pos rfl]
  split
  · exact (runs_note _ _ rfl).step sound rfl
  next newer => exact step_receive sound ready (Nat.lt_of_not_le newer)

/-- What a new connection does. -/
theorem runs_perform_takes (x : Exec) (sound : x.link.Sound) (taken : x.takes input = true) :
    Runs input { x with connectPending := false, terminalError := none, transitions := 0 }
      (x.perform input) := by
  unfold Machine.takes at taken
  split at taken
  case _ generation globalId identity =>
    simp only [Bool.and_eq_true, beq_iff_eq] at taken
    exact runs_connected globalId rfl taken.1 taken.2 (sound.dialing taken.2).1
  case _ globalId identity =>
    have down : x.state = .disconnected := by
      simp only [Bool.and_eq_true, beq_iff_eq] at taken
      exact taken.1
    unfold perform initialConnection
    dsimp only
    rw [if_pos taken]
    exact runs_connected (x := { x with connectPending := true }) globalId rfl rfl rfl down
  case _ => cases taken

end Exec

/-- The connection of a session as a step begins to act on it. -/
def Machine.opened (m : Machine) (input : Input) : Link :=
  if m.takes input then m.link.accepted else m.link

variable {m : Machine} {input : Input}

/-- A session that takes a new connection has none. -/
theorem Machine.down_of_takes (sound : m.link.Sound) (taken : m.takes input = true) :
    m.link.state = .disconnected := by
  unfold Machine.takes at taken
  split at taken
  · simp only [Bool.and_eq_true] at taken
    exact (sound.dialing taken.2).1
  · simp only [Bool.and_eq_true, beq_iff_eq] at taken
    exact taken.1
  · cases taken

theorem Machine.opened_sound (sound : m.link.Sound) (input : Input) : (m.opened input).Sound := by
  unfold Machine.opened
  split
  next taken => exact sound.accepted (Machine.down_of_takes sound taken)
  · exact sound

/-- The same as a step, which ends the last one for good. -/
theorem Exec.step_taken (sound : m.link.Sound) (idle : input.request = none)
    (taken : m.takes input = true) : StepOf m input (m.begin.perform input) := by
  have settles := (runs_perform_takes m.begin sound taken
    (sound.accepted (Machine.down_of_takes sound taken))).1
  have live : m.begin.Settles
      { m.begin with connectPending := false, terminalError := none, transitions := 0 } :=
    ⟨⟨rfl, nofun, fun _ halt => absurd rfl halt⟩, fun _ => ⟨[], rfl, .nil⟩⟩
  exact ⟨(live.trans settles).toFrame, fun wf => (live.trans settles).turn wf idle,
    fun refused => by cases taken.symm.trans refused⟩

theorem Machine.step_of (sound : m.link.Sound) (input : Input) :
    Exec.StepOf m input (m.begin.perform input) := by
  have nothing {input : Input} (idle : input.request = none) : Exec.StepOf m input m.begin :=
    (Exec.Runs.refl _).step sound idle
  cases input with
  | start ready => exact (Exec.runs_start rfl _).step sound rfl
  | initialConnection globalId identity =>
    by_cases taken : m.takes (.initialConnection globalId identity) = true
    · exact Exec.step_taken sound rfl taken
    · rw [show m.begin.perform (.initialConnection globalId identity) = m.begin from if_neg taken]
      exact nothing rfl
  | initialIdentity generation globalId identity =>
    exact (Exec.runs_initialIdentity rfl _).step sound rfl
  | admitRequest requestId message oneWay => exact Exec.step_admitRequest sound false rfl
  | admitControl requestId message generation => exact Exec.step_admitControl sound
  | cancel requestId => exact (Exec.runs_cancel _ requestId).step sound rfl
  | dispatch => exact Exec.step_dispatch sound
  | writeComplete generation requestId result => exact Exec.step_writeComplete sound
  | connected generation globalId identity =>
    by_cases taken : m.takes (.connected generation globalId identity) = true
    · exact Exec.step_taken sound rfl taken
    · have refused : (generation != m.generation || !m.connectPending) = true := by
        rw [Machine.takes, Bool.and_eq_true, not_and_or] at taken
        simpa using taken
      rw [show m.begin.perform (.connected generation globalId identity)
        = m.begin.emit (.closeTransport generation) from if_pos refused]
      exact (Exec.runs_close _ (.inr ⟨_, _, rfl⟩)).step sound rfl
  | connectFailed generation => exact (Exec.runs_connectFailed _ generation).step sound rfl
  | control generation control =>
    simp only [Exec.perform]
    split
    · exact (Exec.runs_control rfl _).step sound rfl
    · exact nothing rfl
  | message generation message =>
    simp only [Exec.perform]
    split
    · exact Exec.step_message sound
    · exact nothing rfl
  | fault generation error =>
    simp only [Exec.perform]
    split
    · exact (Exec.runs_fault _ error).step sound rfl
    · exact nothing rfl
  | renewalDue generation => exact (Exec.runs_renewalDue rfl _).step sound rfl
  | consumeIncoming =>
    refine Exec.Runs.step sound rfl (Exec.Stays.runs ?_)
    exact .of_eq rfl rfl rfl
  | stop => exact (Exec.runs_stop rfl _).step sound rfl

/-- A step is a number of acts of the connection. -/
theorem Machine.step_acts (sound : m.link.Sound) (input : Input) :
    Trace (Act input) (m.opened input) ((m.step input).2.filter Effect.linked)
      (m.step input).1.link := by
  have openedSound := Machine.opened_sound sound input
  unfold Machine.opened at openedSound ⊢
  split at openedSound
  next taken =>
    obtain ⟨es, effects, acts⟩ := (Exec.runs_perform_takes m.begin sound taken).goes openedSound
    rw [if_pos taken, show (m.step input).2.filter Effect.linked = es from effects]
    exact acts
  rename_i refused
  obtain ⟨es, effects, acts⟩ := (Machine.step_of sound input).goes (Bool.eq_false_iff.mpr refused)
    sound
  rw [if_neg refused, show (m.step input).2.filter Effect.linked = es from effects]
  exact acts

theorem Machine.step_sound (sound : m.link.Sound) (input : Input) : (m.step input).1.link.Sound :=
  Trace.invariant Sound Act.sound (m.step_acts sound input) (Machine.opened_sound sound input)

theorem Machine.initial_sound (config : Config) : (Machine.initial config).link.Sound where
  dialing := nofun
  ended := nofun
  down := fun _ => rfl
  attempts := Nat.zero_le _

theorem Machine.after_sound (sound : m.link.Sound) (inputs : List Input) :
    (Mealy.after Machine.step m inputs).link.Sound :=
  Mealy.run_invariant Machine.step (fun _ _ m => m.link.Sound) sound
    (fun _ _ _ input sound => Machine.step_sound sound input) inputs

/-- What the taking of a connection and every act keep, a run keeps.  The invariant sees
the effects so far, failures of requests apart. -/
theorem Machine.run_acts (Inv : List Effect → Link → Prop) {m : Machine} (sound : m.link.Sound)
    (init : Inv [] m.link)
    (taken : ∀ log l, l.state = .disconnected → Inv log l → Inv log l.accepted)
    (acts : ∀ {input log l es k}, Act input l es k → l.Sound → Inv log l → Inv (log ++ es) k)
    (inputs : List Input) :
    Inv ((Mealy.log Machine.step m inputs).filter Effect.linked)
      (Mealy.after Machine.step m inputs).link := by
  refine (Mealy.run_invariant Machine.step
    (fun _ log m => m.link.Sound ∧ Inv (log.filter Effect.linked) m.link) ⟨sound, init⟩ ?_ inputs).2
  intro _ log m input ⟨sound, inv⟩
  refine ⟨Machine.step_sound sound input, ?_⟩
  have opened : (m.opened input).Sound ∧ Inv (log.filter Effect.linked) (m.opened input) := by
    refine ⟨Machine.opened_sound sound input, ?_⟩
    unfold Machine.opened
    split
    next takes => exact taken _ _ (Machine.down_of_takes sound takes) inv
    · exact inv
  rw [List.filter_append]
  exact (Trace.log_invariant (fun log l => l.Sound ∧ Inv log l)
    (fun act inv => ⟨act.sound inv.1, acts act inv.1 inv.2⟩) (m.step_acts sound input) opened).2

/-! ## What can be reached is well formed -/

variable {l : Ledger}

theorem Ledger.Grants.free {asked transactionId : Nat} {after : Option Nat}
    (h : l.Grants asked transactionId after) : l.byTransaction transactionId = none := by
  cases h with
  | chosen _ free => exact free
  | counted _ _ _ _ free _ => exact free

/-- What a request is sent as: itself, under a number below the counter. -/
structure Ledger.Numbered (p q : Pending) (after : Option Nat) : Prop where
  requestId : q.requestId = p.requestId
  transactionId : q.transactionId = p.transactionId
  oneWay : q.oneWay = p.oneWay
  control : q.control = p.control
  nonzero : q.sequence ≠ 0
  header : q.message.header.sequence = q.sequence
  below : ∀ next, after = some next → q.sequence < next

theorem Ledger.Numbers.numbered {p q : Pending} {after : Option Nat} (h : l.Numbers p q after)
    (wf : l.Wf) (hp : p ∈ l.pending) : Numbered p q after := by
  cases h with
  | replayed nonzero =>
    exact ⟨rfl, rfl, rfl, rfl, nonzero, (wf.each p hp).header nonzero, wf.below p hp⟩
  | fresh zero counter moved =>
    refine ⟨rfl, rfl, rfl, rfl, ?_, rfl, fun n h => ?_⟩
    · simp only [Pending.numbered]
      omega
    have := moved n h
    simp only [Pending.numbered]
    omega

theorem Ledger.Numbers.wf {p q : Pending} {after : Option Nat} (h : l.Numbers p q after)
    (wf : l.Wf) : { l with nextOutbound := after }.Wf := by
  cases h with
  | replayed => exact wf
  | fresh zero counter moved =>
    refine ⟨wf.distinct, wf.each, fun n h => ?_, fun r hr n h => ?_, wf.listed, wf.owned⟩
    · have := moved n h
      omega
    have := moved n h
    have := wf.below r hr _ counter
    omega

variable {es : List Effect}

theorem Turn.wf (h : Turn m input es l) (wf : m.toLedger.Wf) : l.Wf := by
  cases h with
  | quiet idle quiets => exact quiets.wf wf
  | reject asked advance quiets known => exact quiets.wf (wf.congr rfl rfl rfl)
  | @admitRequest _ p _ after asked absent sequence sent may grants =>
    have counted : { m.toLedger with nextTransactionId := after }.Wf := wf.congr rfl rfl rfl
    exact counted.insert absent grants.free sequence sent may
  | send pending candidate first numbers =>
    have numbered := numbers.numbered wf (by simp [pending])
    exact (numbers.wf wf).transmit pending numbered.requestId numbered.transactionId
      numbered.nonzero numbered.header numbered.below
  | written found oneWay => exact wf.removePending _
  | answer newer quiets kept found may twoWay same =>
    exact (quiets.wf (wf.received _)).removePending _
  | incoming newer quiets kept => exact quiets.wf (wf.received _)
  | overflow newer quiets => exact quiets.wf (wf.received _)

/-- What is said of a pending request has to be kept while it waits, to hold when it is admitted
and to be kept when it is handed to the transport. -/
theorem Turn.pending_rule {P : Pending → Prop} (h : Turn m input es l) (wf : m.toLedger.Wf)
    (kept : ∀ p ∈ m.pending, ∀ sent, P { p with sent })
    (admitted : ∀ p request, input.request = some (p.requestId, request, p.oneWay) →
      es = [.admitted p.requestId p.transactionId] → p.mayHaveExecuted = false →
      m.admissionBytes request = .ok p.bytes →
      p.message = { request with
        header := { request.header with transactionId := p.transactionId } } → P p)
    (handed : ∀ p ∈ m.pending, ∀ q after, m.Numbers p q after →
      es = [.sendMessage m.generation p.requestId q.message] →
      P { q with sent := true, mayHaveExecuted := true }) : ∀ p ∈ l.pending, P p := by
  have quieted {k start : Ledger} {fs : List Effect} (quiets : Quiets start fs k) (wf : start.Wf)
      (same : start.pending = m.pending) : ∀ q ∈ k.pending, P q := by
    intro q hq
    obtain ⟨p, hp, eq, _⟩ := quiets.origin wf q hq
    rw [eq]
    exact kept p (same ▸ hp) q.sent
  cases h with
  | quiet idle quiets => exact quieted quiets wf rfl
  | reject asked advance quiets known => exact quieted quiets (wf.congr rfl rfl rfl) rfl
  | @admitRequest _ p request after asked absent sequence sent may grants room taken message =>
    intro q hq
    rcases List.mem_append.mp hq with hq | hq
    · exact kept q hq q.sent
    · cases List.mem_singleton.mp hq
      exact admitted p request asked rfl may taken message
  | @send p q before rest after pending candidate first numbers =>
    rw [transmit_pending (l := { m.toLedger with nextOutbound := after }) pending]
    intro r hr
    rcases List.mem_append.mp hr with hr | hr
    · exact kept r (by simp [pending, hr]) r.sent
    rcases List.mem_cons.mp hr with rfl | hr
    · exact handed p (by simp [pending]) q after numbers rfl
    · exact kept r (by simp [pending, hr]) r.sent
  | written found oneWay =>
    exact fun q hq => kept q (wf.distinct.mem_removePending.mp hq).1 q.sent
  | answer newer quiets kept found may twoWay same =>
    have wf' := wf.received ‹Message›
    exact fun q hq => quieted quiets wf' rfl q
      ((quiets.wf wf').distinct.mem_removePending.mp hq).1
  | incoming newer quiets kept => exact quieted quiets (wf.received _) rfl
  | overflow newer quiets => exact quieted quiets (wf.received _) rfl

/-- An effect about a request, with what is known of the request. -/
inductive Machine.Puts (m : Machine) : Effect → Prop
  | failed {requestId : Nat} {error : SessionError} : m.Puts (.failed requestId error)
  | admitted {requestId transactionId : Nat} : m.Puts (.admitted requestId transactionId)
  | sent {p q : Pending} {after : Option Nat} (mem : p ∈ m.pending) (unsent : p.sent = false)
      (numbers : m.Numbers p q after) : m.Puts (.sendMessage m.generation p.requestId q.message)
  | written {requestId : Nat} : m.Puts (.completed requestId none)
  | answered {p : Pending} {message : Message} (mem : p ∈ m.pending) (twoWay : p.oneWay = false)
      (may : p.mayHaveExecuted = true) (same : p.transactionId = message.header.transactionId) :
      m.Puts (.completed p.requestId (some message))
  | incoming {message : Message} : m.Puts (.incoming message)

theorem Turn.puts (h : Turn m input es l) (wf : m.toLedger.Wf) : ∀ e ∈ es, m.Puts e := by
  have quieted {k start : Ledger} {fs : List Effect} (quiets : Quiets start fs k) :
      ∀ e ∈ fs, m.Puts e := by
    intro e mem
    obtain ⟨_, _, rfl⟩ := quiets.failed e mem
    exact .failed
  have ends {k start : Ledger} {fs : List Effect} {last : Effect} (quiets : Quiets start fs k)
      (puts : m.Puts last) : ∀ e ∈ fs ++ [last], m.Puts e :=
    List.forall_mem_append.mpr ⟨quieted quiets, List.forall_mem_singleton.mpr puts⟩
  cases h with
  | quiet idle quiets => exact quieted quiets
  | reject asked advance quiets known => exact ends quiets .failed
  | admitRequest => exact List.forall_mem_singleton.mpr .admitted
  | send pending candidate first numbers =>
    refine List.forall_mem_singleton.mpr (.sent (by simp [pending]) ?_ numbers)
    have := (List.mem_filter.mp candidate).2
    simp_all
  | written found oneWay => exact List.forall_mem_singleton.mpr .written
  | @answer generation message es l q newer quiets kept found may twoWay same =>
    obtain ⟨p, hp, eq, _⟩ := quiets.origin (wf.received message) _ (find_mem found).1
    refine ends quiets ?_
    rw [eq] at may twoWay same ⊢
    exact Machine.Puts.answered (p := p) hp twoWay may same
  | incoming newer quiets kept => exact ends quiets .incoming
  | overflow newer quiets => exact quieted quiets

/-- What holds of every machine a session can reach, with its connection. -/
structure Machine.Reached (m : Machine) : Prop extends Machine.Wf m where
  sound : m.link.Sound

/-- Every step of the machine is a turn of its ledger. -/
theorem Machine.step_turn (h : m.Reached) (input : Input) :
    Turn m input ((m.step input).2.filter Effect.visible) (m.step input).1.toLedger :=
  (Machine.step_of h.sound input).turn h.toWf

theorem Machine.Reached.step (h : m.Reached) (input : Input) : (m.step input).1.Reached :=
  ⟨⟨(Machine.step_turn h input).wf h.ledger, (Machine.step_of h.sound input).terminal h.terminal⟩,
    Machine.step_sound h.sound input⟩

theorem Machine.Reached.new {config : Config} (h : Machine.new config = .ok m) : m.Reached := by
  cases Machine.new_eq_ok h
  exact ⟨⟨.empty, by simp [Machine.initial]⟩, Machine.initial_sound config⟩

/-- Every state a session can reach is well formed. -/
theorem Machine.Reached.after (h : m.Reached) (inputs : List Input) :
    (Mealy.after Machine.step m inputs).Reached :=
  Mealy.run_invariant Machine.step (fun _ _ m => m.Reached) h
    (fun _ _ _ input h => h.step input) inputs

/-- A connection acts, or the session takes a new one. -/
inductive Link.Moves : Link → List Effect → Link → Prop
  | act {input : Input} {l k : Link} {es : List Effect} (act : Act input l es k) : Moves l es k
  | take {l : Link} (down : l.state = .disconnected) : Moves l [] l.accepted

/-- A run of a session is a run of its connection, and each of its steps a turn of its ledger. -/
theorem connection_and_ledger_refined {config : Config} (new : Machine.new config = .ok m)
    (inputs : List Input) (input : Input) :
    let s := Mealy.after Machine.step m inputs
    Trace Moves m.link ((Mealy.log Machine.step m inputs).filter Effect.linked) s.link ∧
      Turn s input ((s.step input).2.filter Effect.visible) (s.step input).1.toLedger := by
  have reached : m.Reached := .new new
  refine ⟨?_, Machine.step_turn (reached.after inputs) input⟩
  exact Machine.run_acts (fun log l => Trace Moves m.link log l) reached.sound .nil
    (fun log l down before => List.append_nil log ▸ before.trans (.single (.take down)))
    (fun act _ before => before.trans (.single (.act act))) inputs

theorem connection_and_ledger_refined_sample :
    Trace Moves (Machine.initial sampleConfig).link
      ((Mealy.log Machine.step (.initial sampleConfig) sampleInputs).filter Effect.linked)
      (Mealy.after Machine.step (.initial sampleConfig) sampleInputs).link :=
  (connection_and_ledger_refined new_sample sampleInputs .dispatch).1

end RadosRs.Msgr.Session
