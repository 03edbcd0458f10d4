import RadosRs.Msgr.Session.Refinement

/-!
# Replies, deliveries and transaction ids

Three counters keep messages apart.  The transaction table makes a reply find
the request it answers: that request had been sent, expects an answer and has
the reply's transaction id (`Recorded`).  The inbound counter makes each message
go upward at most once and in order, until it is reset.  The transaction counter
gives no id twice, until it is reset, so that a reply that comes too late does
not answer another request.
-/

namespace RadosRs.Msgr.Session

open Ledger

/-! ## Replies -/

/-- A pending request is on record: an input asked for it, the log has its admission,
and if it may have been executed the log has its transmission after that. -/
structure Recorded (inputs : List Input) (log : List Effect) (p : Pending) : Prop where
  asked : ∃ input ∈ inputs, ∃ request, input.request = some (p.requestId, request, p.oneWay)
  logged : ∃ before after, log = before ++ .admitted p.requestId p.transactionId :: after ∧
    (p.mayHaveExecuted = true → ∃ generation message,
      .sendMessage generation p.requestId message ∈ after ∧
        message.header.transactionId = p.transactionId)

namespace Recorded

variable {inputs : List Input} {log : List Effect} {p : Pending}

theorem append (h : Recorded inputs log p) (input : Input) (es : List Effect) :
    Recorded (inputs ++ [input]) (log ++ es) p := by
  obtain ⟨⟨i, mem, request, asked⟩, before, after, split, sent⟩ := h
  refine ⟨⟨i, List.mem_append_left _ mem, request, asked⟩, before, after ++ es, ?_, fun may => ?_⟩
  · rw [split]
    simp
  · obtain ⟨generation, message, mem, same⟩ := sent may
    exact ⟨generation, message, List.mem_append_left _ mem, same⟩

/-- Whether a request is on the transport right now does not matter. -/
theorem resent (h : Recorded inputs log p) (sent : Bool) :
    Recorded inputs log { p with sent } :=
  ⟨h.asked, h.logged⟩

theorem of_visible (h : Recorded inputs (log.filter Effect.visible) p) : Recorded inputs log p := by
  obtain ⟨asked, before, after, split, sent⟩ := h
  refine ⟨asked, ?_⟩
  obtain ⟨before', log', rfl, -, here⟩ := List.filter_eq_append_iff.mp split
  obtain ⟨hidden, after', rfl, -, -, rfl⟩ := List.filter_eq_cons_iff.mp here
  refine ⟨before' ++ hidden, after', (List.append_assoc ..).symm, fun may => ?_⟩
  obtain ⟨generation, message, mem, same⟩ := sent may
  exact ⟨generation, message, (List.mem_filter.mp mem).1, same⟩

end Recorded

variable {m : Machine} {l : Ledger} {es : List Effect} {input : Input}

theorem Turn.recorded {log : List Effect} {inputs : List Input} (h : Turn m input es l)
    (wf : m.toLedger.Wf) (ih : ∀ p ∈ m.pending, Recorded inputs log p) :
    ∀ p ∈ l.pending, Recorded (inputs ++ [input]) (log ++ es) p := by
  refine h.pending_rule wf (fun p hp sent => ((ih p hp).append input es).resent sent) ?_ ?_
  · rintro p request asked rfl may - -
    exact ⟨⟨input, by simp, request, asked⟩, log, [], rfl, by simp [may]⟩
  rintro p hp q after numbers rfl
  have numbered := numbers.numbered wf hp
  obtain ⟨⟨i, mem, request, asked⟩, before', after', split, _⟩ := ih p hp
  refine ⟨⟨i, List.mem_append_left _ mem, request, ?_⟩, before',
    after' ++ [.sendMessage m.generation p.requestId q.message], ?_, fun _ => ?_⟩
  · rw [asked, ← numbered.requestId, ← numbered.oneWay]
  · rw [split, ← numbered.requestId, ← numbered.transactionId]
    simp [Pending.transactionId]
  · refine ⟨m.generation, q.message, ?_, rfl⟩
    simp [numbered.requestId]

/-- A reply answers a pending request that was sent, expects it and has its transaction id. -/
theorem Turn.answered (h : Turn m input es l) (wf : m.toLedger.Wf) {id : Nat} {reply : Message}
    (mem : .completed id (some reply) ∈ es) :
    ∃ p ∈ m.pending, p.requestId = id ∧ p.oneWay = false ∧ p.mayHaveExecuted = true ∧
      p.transactionId = reply.header.transactionId := by
  cases h.puts wf _ mem with
  | answered hp twoWay may same => exact ⟨_, hp, rfl, twoWay, may, same⟩

/-- Every request that is pending in a run is on record. -/
theorem recorded_run (wf : m.Reached) (fresh : m.pending = []) (inputs : List Input) :
    ∀ p ∈ (Mealy.after Machine.step m inputs).pending,
      Recorded inputs (Mealy.log Machine.step m inputs) p := by
  have run := Mealy.run_invariant Machine.step
    (fun inputs log m => m.Reached ∧ ∀ p ∈ m.pending, Recorded inputs (log.filter Effect.visible) p)
    ⟨wf, by simp [fresh]⟩ ?_ inputs
  · exact fun p hp => (run.2 p hp).of_visible
  rintro inputs log m input ⟨wf, recorded⟩
  refine ⟨wf.step input, ?_⟩
  rw [List.filter_append]
  exact (Machine.step_turn wf input).recorded wf.ledger recorded

/-! ## Deliveries -/

/-- The message an effect hands upward. -/
def Effect.delivered : Effect → Option Message
  | .incoming message => some message
  | .completed _ reply => reply
  | _ => none

/-- The sequence numbers of the messages handed upward, in order. -/
def deliveries (log : List Effect) : List Nat :=
  log.filterMap fun effect => effect.delivered.map (·.header.sequence)

theorem deliveries_append (log more : List Effect) :
    deliveries (log ++ more) = deliveries log ++ deliveries more :=
  List.filterMap_append

theorem deliveries_visible (log : List Effect) :
    deliveries (log.filter Effect.visible) = deliveries log := by
  refine filterMap_visible (fun effect hidden => ?_) log
  cases effect <;> simp_all [Effect.visible, Effect.delivered]

theorem deliveries_quiets {k : Ledger} (h : Quiets l es k) : deliveries es = [] := by
  rw [deliveries, List.filterMap_eq_nil_iff]
  intro effect mem
  obtain ⟨id, error, rfl⟩ := Quiets.failed h effect mem
  rfl

/-- A step hands upward one message with a higher number than before, or none. -/
theorem Turn.deliveries (h : Turn m input es l) :
    (deliveries es = [] ∧ (l.lastInbound = 0 ∨ m.lastInbound ≤ l.lastInbound)) ∨
      (deliveries es = [l.lastInbound] ∧ m.lastInbound < l.lastInbound) := by
  have silent {k : Ledger} {fs : List Effect} (quiets : Quiets k fs l)
      (le : m.lastInbound ≤ k.lastInbound) : l.lastInbound = 0 ∨ m.lastInbound ≤ l.lastInbound := by
    rcases quiets.counts.inbound with reset | same
    · exact .inl reset
    · exact .inr (same ▸ le)
  cases h with
  | quiet idle quiets => exact .inl ⟨deliveries_quiets quiets, silent quiets le_rfl⟩
  | reject asked advance quiets known =>
    refine .inl ⟨?_, silent quiets le_rfl⟩
    rw [deliveries_append, deliveries_quiets quiets]
    rfl
  | admitRequest asked absent sequence sent may grants => exact .inl ⟨rfl, .inr le_rfl⟩
  | send pending candidate first numbers => exact .inl ⟨rfl, .inr le_rfl⟩
  | written found oneWay => exact .inl ⟨rfl, .inr (by simp)⟩
  | answer newer quiets kept found may twoWay same =>
    refine .inr ⟨?_, by simpa [kept] using newer⟩
    rw [deliveries_append, deliveries_quiets quiets]
    simp [Session.deliveries, Effect.delivered, kept]
  | incoming newer quiets kept =>
    refine .inr ⟨?_, by simpa [kept] using newer⟩
    rw [deliveries_append, deliveries_quiets quiets]
    simp [Session.deliveries, Effect.delivered, kept]
  | overflow newer quiets =>
    exact .inl ⟨deliveries_quiets quiets, silent quiets newer.le⟩

/-- A step that takes the inbound counter back to zero. -/
def ResetsInbound (m : Machine) (input : Input) : Prop :=
  m.lastInbound ≠ 0 ∧ (m.step input).1.lastInbound = 0

/-- Without a reset of the inbound counter, deliveries go up. -/
theorem deliveries_increase (wf : m.Reached) (inputs : List Input)
    (every : Mealy.Every Machine.step (fun m input => ¬ ResetsInbound m input) m inputs) :
    (deliveries (Mealy.log Machine.step m inputs)).Pairwise (· < ·) := by
  refine (Mealy.every_invariant Machine.step
    (fun _ log m => m.Reached ∧ (deliveries log).Pairwise (· < ·) ∧
      ∀ n ∈ deliveries log, 0 < n ∧ n ≤ m.lastInbound)
    ⟨wf, by simp [deliveries], by simp [deliveries]⟩ ?_ inputs every).2.1
  rintro inputs log m input keeps ⟨wf, increasing, bounded⟩
  refine ⟨wf.step input, ?_⟩
  have turn := (Machine.step_turn wf input).deliveries
  rw [deliveries_visible] at turn
  rw [deliveries_append]
  rcases turn with ⟨silent, counter⟩ | ⟨delivers, newer⟩
  · rw [silent, List.append_nil]
    refine ⟨increasing, fun n hn => ⟨(bounded n hn).1, ?_⟩⟩
    have old := bounded n hn
    rcases counter with reset | le
    · exact absurd ⟨by omega, reset⟩ keeps
    · exact old.2.trans le
  · rw [delivers]
    constructor
    · rw [List.pairwise_append]
      refine ⟨increasing, List.pairwise_singleton _ _, fun n hn k hk => ?_⟩
      rw [List.mem_singleton.mp hk]
      exact (bounded n hn).2.trans_lt newer
    intro n hn
    rcases List.mem_append.mp hn with hn | hn
    · exact ⟨(bounded n hn).1, (bounded n hn).2.trans newer.le⟩
    · rw [List.mem_singleton.mp hn]
      exact ⟨by omega, le_rfl⟩

/-! ## Transaction ids -/

/-- The request an effect admits, with its transaction id. -/
def Effect.admission : Effect → Option (Nat × Nat)
  | .admitted requestId transactionId => some (requestId, transactionId)
  | _ => none

/-- The requests admitted in a log, with their transaction ids, in order. -/
def admissions (log : List Effect) : List (Nat × Nat) := log.filterMap Effect.admission

theorem admissions_append (log more : List Effect) :
    admissions (log ++ more) = admissions log ++ admissions more :=
  List.filterMap_append

theorem admissions_visible (log : List Effect) :
    admissions (log.filter Effect.visible) = admissions log := by
  refine filterMap_visible (fun effect hidden => ?_) log
  cases effect <;> simp_all [Effect.visible, Effect.admission]

theorem admissions_quiets {k : Ledger} (h : Quiets l es k) : admissions es = [] := by
  rw [admissions, List.filterMap_eq_nil_iff]
  intro effect mem
  obtain ⟨id, error, rfl⟩ := Quiets.failed h effect mem
  rfl

/-- The request of an input, if any, leaves the choice of a transaction id to the session. -/
def Input.AsksNone (input : Input) : Prop :=
  ∀ requestId request oneWay, input.request = some (requestId, request, oneWay) →
    request.header.transactionId = 0

/-- A step that takes the transaction counter back to one. -/
def ResetsTransactions (m : Machine) (input : Input) : Prop :=
  m.nextTransactionId ≠ some 1 ∧ (m.step input).1.nextTransactionId = some 1

theorem Ledger.Grants.counter {asked transactionId : Nat} {after : Option Nat}
    (h : l.Grants asked transactionId after) (unasked : asked = 0) :
    ∃ next, l.nextTransactionId = some next ∧ next ≤ transactionId ∧ 1 ≤ transactionId ∧
      l.byTransaction transactionId = none ∧ ∀ n, after = some n → n = transactionId + 1 := by
  cases h with
  | chosen nonzero free => exact absurd unasked nonzero
  | counted zero counter le pos free moved => exact ⟨_, counter, le, pos, free, moved⟩

/-- An id that has been given away stays taken: it is below the counter, and no other
request uses it. -/
structure Taken (l : Ledger) (admission : Nat × Nat) : Prop where
  below : ∀ next, l.nextTransactionId = some next → admission.2 < next
  positive : 0 < admission.2
  owner : ∀ p ∈ l.pending, p.transactionId = admission.2 → p.requestId = admission.1

/-- A step either admits nothing, and then ids stay taken unless the counter is reset, or
it admits one request under a later id. -/
theorem Turn.admissions (h : Turn m input es l) (wf : m.toLedger.Wf) (asks : input.AsksNone) :
    (admissions es = [] ∧ (l.nextTransactionId = some 1 ∨
      ∀ admission, Taken m.toLedger admission → Taken l admission)) ∨
    ∃ admission, admissions es = [admission] ∧ Taken l admission ∧
      ∀ earlier, Taken m.toLedger earlier → earlier.2 < admission.2 ∧ Taken l earlier := by
  have carried {k l : Ledger} {fs : List Effect} (quiets : Quiets k fs l) (wf : k.Wf)
      (pending : k.pending = m.pending)
      (later : ∀ n, k.nextTransactionId = some n → ∃ j, m.nextTransactionId = some j ∧ j ≤ n) :
      l.nextTransactionId = some 1 ∨
        ∀ admission, Taken m.toLedger admission → Taken l admission := by
    rcases quiets.counts.transaction with reset | same
    · exact .inl reset
    refine .inr fun admission taken =>
      ⟨fun next counter => ?_, taken.positive, fun q hq tid => ?_⟩
    · obtain ⟨j, counter, le⟩ := later next (same ▸ counter)
      exact (taken.below j counter).trans_le le
    · obtain ⟨p, hp, eq, _⟩ := Quiets.origin quiets wf q hq
      rw [eq] at tid ⊢
      exact taken.owner p (pending ▸ hp) tid
  have kept : ∀ n, m.nextTransactionId = some n → ∃ j, m.nextTransactionId = some j ∧ j ≤ n :=
    fun n h => ⟨n, h, le_rfl⟩
  cases h with
  | quiet idle quiets => exact .inl ⟨admissions_quiets quiets, carried quiets wf rfl kept⟩
  | reject asked advance quiets known =>
    refine .inl ⟨?_, carried quiets (wf.congr rfl rfl rfl) rfl advance⟩
    rw [admissions_append, admissions_quiets quiets]
    rfl
  | @admitRequest _ p request after asked absent sequence sent may grants =>
    obtain ⟨next, counter, le, pos, free, moved⟩ := grants.counter (asks _ _ _ asked)
    refine .inr ⟨(p.requestId, p.transactionId), rfl, ⟨?_, pos, ?_⟩, fun earlier taken => ?_⟩
    · intro n h
      have := moved n h
      simp only
      omega
    · intro q hq tid
      rcases List.mem_append.mp hq with hq | hq
      · have owner := wf.listed q hq
        rw [tid, free] at owner
        cases owner
      · rw [List.mem_singleton.mp hq]
    · have lt : earlier.2 < p.transactionId := (taken.below _ counter).trans_le le
      refine ⟨lt, fun n h => ?_, taken.positive, fun q hq tid => ?_⟩
      · have := moved n h
        omega
      rcases List.mem_append.mp hq with hq | hq
      · exact taken.owner q hq tid
      · rw [List.mem_singleton.mp hq] at tid
        omega
  | @send p q before rest after pending candidate first numbers =>
    have numbered := numbers.numbered wf (by simp [pending])
    refine .inl ⟨rfl, .inr fun admission taken => ⟨taken.below, taken.positive, ?_⟩⟩
    rw [transmit_pending (l := { m.toLedger with nextOutbound := after }) pending]
    intro r hr tid
    have owner := taken.owner
    simp only [pending, List.mem_append, List.mem_cons] at hr owner
    rcases hr with hr | rfl | hr
    · exact owner r (.inl hr) tid
    · rw [← owner p (.inr (.inl rfl)) (numbered.transactionId ▸ tid)]
      exact numbered.requestId
    · exact owner r (.inr (.inr hr)) tid
  | written found oneWay =>
    refine .inl ⟨rfl, .inr fun admission taken => ⟨?_, taken.positive, fun q hq => ?_⟩⟩
    · simpa using taken.below
    · exact taken.owner q (wf.distinct.mem_removePending.mp hq).1
  | @answer generation message es l p newer quiets kept' found may twoWay same =>
    refine .inl ⟨?_, ?_⟩
    · rw [admissions_append, admissions_quiets quiets]
      rfl
    have distinct := (quiets.wf (wf.received message)).distinct
    rw [removePending_nextTransactionId]
    refine (carried quiets (wf.received message) rfl kept).imp_right
      fun keeps admission taken => ?_
    have taken := keeps admission taken
    refine ⟨?_, taken.positive, fun q hq => ?_⟩
    · simpa using taken.below
    · exact taken.owner q (distinct.mem_removePending.mp hq).1
  | @incoming generation message es l newer quiets kept' =>
    refine .inl ⟨?_, carried quiets (wf.received message) rfl kept⟩
    rw [admissions_append, admissions_quiets quiets]
    rfl
  | @overflow generation message es l newer quiets =>
    exact .inl ⟨admissions_quiets quiets, carried quiets (wf.received message) rfl kept⟩

/-- Without a reset of the counter, ids the session chooses go up, and they stay taken. -/
theorem admissions_increase (wf : m.Reached) (inputs : List Input) (every : Mealy.Every Machine.step
      (fun m input => ¬ ResetsTransactions m input ∧ input.AsksNone) m inputs) :
    ((admissions (Mealy.log Machine.step m inputs)).map (·.2)).Pairwise (· < ·) ∧
      ∀ admission ∈ admissions (Mealy.log Machine.step m inputs),
        Taken (Mealy.after Machine.step m inputs).toLedger admission := by
  refine (Mealy.every_invariant Machine.step
    (fun _ log m => m.Reached ∧ ((admissions log).map (·.2)).Pairwise (· < ·) ∧
      ∀ admission ∈ admissions log, Taken m.toLedger admission)
    ⟨wf, by simp [admissions], by simp [admissions]⟩ ?_ inputs every).2
  rintro inputs log m input ⟨keeps, asks⟩ ⟨wf, increasing, taken⟩
  refine ⟨wf.step input, ?_⟩
  have turn := (Machine.step_turn wf input).admissions wf.ledger asks
  rw [admissions_visible] at turn
  rw [admissions_append]
  rcases turn with ⟨silent, counter⟩ | ⟨admission, admits, own, later⟩
  · rw [silent, List.append_nil]
    refine ⟨increasing, fun admission mem => ?_⟩
    rcases counter with reset | keep
    · -- a counter that was at one has no id below it
      refine absurd ⟨fun one => ?_, reset⟩ keeps
      have old := taken admission mem
      have := old.below 1 one
      have := old.positive
      omega
    · exact keep admission (taken admission mem)
  · rw [admits]
    constructor
    · rw [List.map_append, List.pairwise_append]
      refine ⟨increasing, List.pairwise_singleton _ _, fun n hn k hk => ?_⟩
      obtain ⟨earlier, mem, rfl⟩ := List.mem_map.mp hn
      rw [List.mem_singleton.mp hk]
      exact (later earlier (taken earlier mem)).1
    intro earlier mem
    rcases List.mem_append.mp mem with mem | mem
    · exact (later earlier (taken earlier mem)).2
    · rw [List.mem_singleton.mp mem]
      exact own

/-! ## The three together -/

theorem Input.admit_of_request {requestId : Nat} {request : Message}
    (h : input.request = some (requestId, request, false)) :
    input = .admitRequest requestId request false := by
  cases input <;> simp_all [Input.request]

/-- In every run of a session,

* a reply completes a request that was admitted as a two-way request and was sent after
  that, under the transaction id of the reply;
* the messages handed upward have increasing sequence numbers, as long as the inbound
  counter is not reset;
* requests that do not choose their transaction id get different ones, as long as the
  counter is not reset, and no later reply to one of them completes another. -/
theorem replies_delivered_once {config : Config} {m : Machine}
    (new : Machine.new config = .ok m) (inputs : List Input) :
    let s := Mealy.after Machine.step m inputs
    (∀ input id reply, .completed id (some reply) ∈ (s.step input).2 →
      (∃ p ∈ s.pending, p.requestId = id ∧ p.oneWay = false ∧
        p.transactionId = reply.header.transactionId) ∧
      (∃ request, .admitRequest id request false ∈ inputs) ∧
      ∃ before rest generation sent,
        Mealy.log Machine.step m inputs
          = before ++ .admitted id reply.header.transactionId :: rest ∧
        .sendMessage generation id sent ∈ rest ∧
        sent.header.transactionId = reply.header.transactionId) ∧
    (∀ segment, Mealy.Every Machine.step (fun s input => ¬ ResetsInbound s input) s segment →
      (deliveries (Mealy.log Machine.step s segment)).Pairwise (· < ·)) ∧
    (∀ segment, Mealy.Every Machine.step
        (fun s input => ¬ ResetsTransactions s input ∧ input.AsksNone) s segment →
      ((admissions (Mealy.log Machine.step s segment)).map (·.2)).Nodup ∧
      ∀ input id transactionId other reply,
        (id, transactionId) ∈ admissions (Mealy.log Machine.step s segment) →
        .completed other (some reply) ∈ ((Mealy.after Machine.step s segment).step input).2 →
        reply.header.transactionId = transactionId → other = id) := by
  have wf := Machine.Reached.new new
  have fresh : m.pending = [] := by
    cases Machine.new_eq_ok new
    rfl
  have wfs := wf.after inputs
  -- a completion is visible, so it is in the turn of its step
  have answered {s : Machine} (wf : s.Reached) (input : Input) {id : Nat} {reply : Message}
      (mem : .completed id (some reply) ∈ (s.step input).2) :=
    (Machine.step_turn wf input).answered wf.ledger (List.mem_filter.mpr ⟨mem, rfl⟩)
  refine ⟨fun input id reply mem => ?_, fun segment every => deliveries_increase wfs segment every,
    fun segment every => ⟨?_, ?_⟩⟩
  · obtain ⟨p, hp, rfl, twoWay, may, same⟩ := answered wfs input mem
    obtain ⟨⟨i, asks, request, asked⟩, before, rest, split, sent⟩ :=
      recorded_run wf fresh inputs p hp
    obtain ⟨generation, message, sends, tid⟩ := sent may
    refine ⟨⟨p, hp, rfl, twoWay, same⟩, ⟨request, ?_⟩,
      before, rest, generation, message, same ▸ split, sends, same ▸ tid⟩
    rw [twoWay] at asked
    rw [← Input.admit_of_request asked]
    exact asks
  · exact (admissions_increase wfs segment every).1.imp (fun lt => lt.ne)
  · intro input id transactionId other reply admitted mem same
    have taken := (admissions_increase wfs segment every).2 _ admitted
    obtain ⟨p, hp, rfl, twoWay, may, tid⟩ := answered (wfs.after segment) input mem
    exact taken.owner p hp (tid.trans same)

/-- A request that is sent and then answered, and another one after it. -/
theorem replies_delivered_once_sample :
    let reply : Message := { header := { sequence := 1, transactionId := 1 } }
    let inputs : List Input := [.start true, .admitRequest 1 {} false, .dispatch]
    let s := Mealy.after Machine.step (.initial sampleConfig) inputs
    let segment : List Input :=
      [.message 1 reply, .admitRequest 2 {} false, .admitRequest 3 {} false]
    (.completed 1 (some reply) ∈ (s.step (.message 1 reply)).2 ∧
      ∃ p ∈ s.pending, p.requestId = 1 ∧ p.oneWay = false ∧ p.transactionId = 1) ∧
    (deliveries (Mealy.log Machine.step s segment)).Pairwise (· < ·) ∧
    admissions (Mealy.log Machine.step s segment) = [(2, 2), (3, 3)] ∧
    ((admissions (Mealy.log Machine.step s segment)).map (·.2)).Nodup := by
  intro reply inputs s segment
  have completes : .completed 1 (some reply) ∈ (s.step (.message 1 reply)).2 := by decide
  obtain ⟨replies, delivered, admitted⟩ := replies_delivered_once new_sample inputs
  refine ⟨⟨completes, (replies _ _ _ completes).1⟩, delivered segment ?_, by decide,
    (admitted segment ?_).1⟩
  · simp only [Mealy.Every, ResetsInbound, segment]
    decide
  simp only [Mealy.Every, ResetsTransactions, Input.AsksNone, Input.request, segment]
  refine ⟨⟨by decide, by simp⟩, ⟨by decide, ?_⟩, ⟨by decide, ?_⟩, trivial⟩
  all_goals
    rintro _ _ _ ⟨⟩
    rfl

end RadosRs.Msgr.Session
