import RadosRs.Msgr.Session.Life
import RadosRs.Msgr.Session.Refinement

/-!
# Every request is resolved once, and honestly

The log of a session is read as the life of each of its requests.  As long as no
request id is used twice, every log can be read to its end, and the point of its
life at which a request then stands is what the ledger says: it waits exactly if
it is pending, and was sent exactly if its flag says so (`Tracks`).

Two results follow.  A request is resolved at most once, is pending exactly if
it was admitted and not resolved, and is never lost.  And a request fails with
an unknown outcome exactly if it was handed to a transport.
-/

namespace RadosRs.Msgr.Session

open Ledger

/-- The ids of the requests among the inputs. -/
def requested (inputs : List Input) : List Nat :=
  inputs.filterMap fun input => input.request.map (·.1)

/-- No request id is used twice. -/
def FreshIds (inputs : List Input) : Prop := (requested inputs).Nodup

instance (inputs : List Input) : Decidable (FreshIds inputs) :=
  inferInstanceAs (Decidable (requested inputs).Nodup)

/-- Where a request stands according to the ledger, given all ids used so far. -/
def Ledger.life (l : Ledger) (ids : List Nat) (id : Nat) : Life :=
  match l.find id with
  | some p => .waiting p.mayHaveExecuted
  | none => if id ∈ ids then .resolved else .unseen

/-- The log can be read as the life of every request, up to where the ledger says. -/
structure Tracks (ids : List Nat) (log : List Effect) (l : Ledger) : Prop where
  known : ∀ p ∈ l.pending, p.requestId ∈ ids
  reads : ∀ id, Life.reads id .unseen log = some (l.life ids id)

namespace Tracks

variable {ids : List Nat} {log es : List Effect} {l k : Ledger}

theorem append {more : List Nat} (h : Tracks ids log l)
    (known : ∀ p ∈ k.pending, p.requestId ∈ more)
    (step : ∀ id, Life.reads id (l.life ids id) es = some (k.life more id)) :
    Tracks more (log ++ es) k :=
  ⟨known, fun id => by rw [Life.reads_append, h.reads id]; exact step id⟩

/-- Nothing about requests is put out and every request stands where it stood. -/
theorem still (h : Tracks ids log l) (known : ∀ p ∈ k.pending, p.requestId ∈ ids)
    (same : ∀ id, k.life ids id = l.life ids id) : Tracks ids log k :=
  ⟨known, fun id => by rw [same id]; exact h.reads id⟩

/-- An effect that resolves a pending request, which then leaves the ledger. -/
theorem resolve (h : Tracks ids log l) (distinct : l.Distinct) {p : Pending}
    (found : l.find p.requestId = some p) {effect : Effect}
    (about : effect.requestId = some p.requestId)
    (fits : Life.react (.waiting p.mayHaveExecuted) effect = some .resolved) :
    Tracks ids (log ++ [effect]) (l.removePending p.requestId) := by
  have hp := (find_mem found).1
  refine h.append (fun q hq => h.known q (distinct.mem_removePending.mp hq).1) fun id => ?_
  rw [Life.reads_cons]
  by_cases here : id = p.requestId
  · subst here
    simp [Ledger.life, found, distinct.find_removePending, h.known p hp, Life.next, about, fits]
  have other : effect.requestId ≠ some id := by
    rw [about]
    exact fun same => here (Option.some.inj same).symm
  simp [Ledger.life, distinct.find_removePending, here, Life.next_of_other other]

theorem quiet (h : Quiet l es k) (wf : l.Wf) (tracks : Tracks ids log l) :
    Tracks ids (log ++ es) k := by
  cases h with
  | @fail p error found cause =>
    refine tracks.resolve wf.distinct found rfl ?_
    have flag : decide (error = .outcomeUnknown) = p.mayHaveExecuted := by
      rw [Bool.eq_iff_iff, decide_eq_true_iff, cause]
    simp [Life.react, flag]
  | clear none =>
    rw [List.append_nil]
    refine tracks.still (by simp [cleared]) fun id => ?_
    simp [Ledger.life, Ledger.find, cleared, none]
  | unsend =>
    rw [List.append_nil]
    refine tracks.still ?_ fun id => ?_
    · rw [wf.distinct.prepareReplay_pending, List.forall_mem_map]
      simpa using tracks.known
    · rw [Ledger.life, wf.distinct.find_prepareReplay]
      cases found : l.find id <;> simp [Ledger.life, found]
  | trim => rw [List.append_nil]; exact ⟨tracks.known, tracks.reads⟩
  | forgetReplay => rw [List.append_nil]; exact ⟨tracks.known, tracks.reads⟩
  | forgetInbound => rw [List.append_nil]; exact ⟨tracks.known, tracks.reads⟩
  | renumber => rw [List.append_nil]; exact ⟨tracks.known, tracks.reads⟩

theorem quiets (h : Quiets l es k) (wf : l.Wf) (tracks : Tracks ids log l) :
    Tracks ids (log ++ es) k := by
  have both := Trace.log_invariant (fun log l => l.Wf ∧ Tracks ids log l)
    (fun move both => ⟨Quiet.wf move both.1, both.2.quiet move both.1⟩) h ⟨wf, tracks⟩
  exact both.2

end Tracks

/-- The id of the request an input brings, as a list. -/
def Input.ids (input : Input) : List Nat := (input.request.map (·.1)).toList

theorem requested_snoc (inputs : List Input) (input : Input) :
    requested (inputs ++ [input]) = requested inputs ++ input.ids := by
  unfold requested Input.ids
  rw [List.filterMap_append]
  cases h : input.request <;> simp [h]

theorem Turn.tracks {m : Machine} {input : Input} {es log : List Effect} {l : Ledger}
    {ids : List Nat} (h : Turn m input es l) (wf : m.toLedger.Wf)
    (fresh : ∀ id ∈ input.ids, id ∉ ids) (tracks : Tracks ids log m.toLedger) :
    Tracks (ids ++ input.ids) (log ++ es) l := by
  have same {input : Input} (idle : input.request = none) : ids ++ input.ids = ids := by
    simp [Input.ids, idle]
  cases h with
  | quiet idle quiets =>
    rw [same idle]
    exact tracks.quiets quiets wf
  | @reject _ requestId request oneWay es l after error asked advance quiets known =>
    have brings : input.ids = [requestId] := by simp [Input.ids, asked]
    rw [brings] at fresh ⊢
    have new : requestId ∉ ids := fresh requestId (by simp)
    have failing : Tracks ids (log ++ es) l :=
      Tracks.quiets quiets (wf.congr rfl rfl rfl) ⟨tracks.known, tracks.reads⟩
    have absent : l.find requestId = none := by
      rw [find_eq_none]
      exact fun p hp here => new (here ▸ failing.known p hp)
    rw [← List.append_assoc]
    refine failing.append (fun p hp => List.mem_append_left _ (failing.known p hp)) fun id => ?_
    by_cases here : id = requestId
    · subst here
      simp [Ledger.life, absent, new, Life.reads_cons, Life.next, Effect.requestId, Life.react,
        known]
    have other : Effect.requestId (.failed requestId error) ≠ some id := by
      simpa [Effect.requestId] using fun h => here h.symm
    simp [Ledger.life, Life.reads_cons, Life.next_of_other other, here]
  | @admitRequest _ p request after asked absent sequence sent may grants =>
    have brings : input.ids = [p.requestId] := by simp [Input.ids, asked]
    rw [brings] at fresh ⊢
    have new : p.requestId ∉ ids := fresh p.requestId (by simp)
    refine tracks.append ?_ fun id => ?_
    · intro q hq
      rcases List.mem_append.mp hq with hq | hq
      · exact List.mem_append_left _ (tracks.known q hq)
      · cases List.mem_singleton.mp hq
        simp
    have found := find_insert (l := { m.toLedger with nextTransactionId := after }) absent id
    have absent : m.find p.requestId = none := absent
    by_cases here : id = p.requestId
    · subst here
      simp [Ledger.life, found, absent, new, Life.reads_cons, Life.next, Effect.requestId,
        Life.react, may]
    have other : Effect.requestId (.admitted p.requestId p.transactionId) ≠ some id := by
      simpa [Effect.requestId] using fun h => here h.symm
    rw [Life.reads_cons, Life.next_of_other other]
    simp only [Ledger.life, found, here, if_false]
    simp [Ledger.find, here]
  | @send p q before rest after pending candidate first numbers =>
    rw [same rfl]
    have hp : p ∈ m.pending := by simp [pending]
    have present : m.find p.requestId = some p := wf.distinct.find_eq hp
    have numbered := numbers.numbered wf hp
    have found := (numbers.wf wf).distinct.find_transmit pending numbered.requestId
    refine tracks.append ?_ fun id => ?_
    · rw [transmit_pending (l := { m.toLedger with nextOutbound := after }) pending]
      have old := tracks.known
      rw [pending] at old
      intro r hr
      rcases List.mem_append.mp hr with hr | hr
      · exact old r (List.mem_append_left _ hr)
      rcases List.mem_cons.mp hr with rfl | hr
      · simpa [numbered.requestId] using old p (by simp)
      · exact old r (List.mem_append_right _ (.tail _ hr))
    · by_cases here : id = p.requestId
      · subst here
        simp [Ledger.life, found, present, Life.reads_cons, Life.next, Effect.requestId,
          Life.react]
      · have other : Effect.requestId (.sendMessage m.generation p.requestId q.message)
            ≠ some id := by
          simpa [Effect.requestId] using fun h => here h.symm
        rw [Life.reads_cons, Life.next_of_other other]
        simp only [Ledger.life, found, here, if_false]
        simp [Ledger.find]
  | written found oneWay =>
    rw [same rfl]
    exact tracks.resolve wf.distinct found rfl (by simp [Life.react])
  | @answer generation message es l p newer quiets kept found may twoWay matching =>
    rw [same rfl, ← List.append_assoc]
    have wf' := wf.received message
    have quieted := Tracks.quiets quiets wf' ⟨tracks.known, tracks.reads⟩
    exact quieted.resolve (quiets.wf wf').distinct found rfl (by simp [Life.react, may])
  | incoming newer quiets kept =>
    rw [same rfl, ← List.append_assoc]
    have quieted := Tracks.quiets quiets (wf.received _) ⟨tracks.known, tracks.reads⟩
    refine quieted.append quieted.known fun id => ?_
    rw [Life.reads_cons, Life.next_of_other (by simp [Effect.requestId])]
    rfl
  | overflow newer quiets =>
    rw [same rfl]
    exact Tracks.quiets quiets (wf.received _) ⟨tracks.known, tracks.reads⟩

/-- In every run with fresh ids, the log tracks the ledger. -/
theorem tracks_run {config : Config} {m : Machine} (new : Machine.new config = .ok m)
    (inputs : List Input) (fresh : FreshIds inputs) :
    Tracks (requested inputs) (Mealy.log Machine.step m inputs)
      (Mealy.after Machine.step m inputs).toLedger := by
  have start : Tracks (requested []) [] m.toLedger := by
    cases Machine.new_eq_ok new
    exact ⟨by simp [Machine.initial, Ledger.empty], fun id => by
      simp [Ledger.life, Ledger.find, Machine.initial, Ledger.empty, requested]⟩
  refine (Mealy.run_invariant Machine.step
    (fun inputs log m => m.Reached ∧ (FreshIds inputs → Tracks (requested inputs) log m.toLedger))
    ⟨.new new, fun _ => start⟩ ?_ inputs).2 fresh
  rintro inputs log m input ⟨wf, ih⟩
  refine ⟨wf.step input, fun fresh => ?_⟩
  unfold FreshIds at fresh ih
  rw [requested_snoc, List.nodup_append] at fresh
  rw [requested_snoc]
  have tracked := (Machine.step_turn wf input).tracks wf.ledger
    (fun id hid old => fresh.2.2 id old id hid rfl) (ih fresh.1)
  refine ⟨tracked.known, fun id => ?_⟩
  rw [← tracked.reads id, Life.reads_append, Life.reads_append]
  congr 1
  funext life
  rw [Life.reads_visible]

/-! ## The results -/

namespace Tracks

variable {ids : List Nat} {log : List Effect} {l : Ledger}

theorem countP_resolves (h : Tracks ids log l) (id : Nat) :
    log.countP (Effect.resolves id) = (l.life ids id).resolutions :=
  Life.reads_resolutions (h.reads id)

/-- A request is pending exactly if it was admitted and not resolved. -/
theorem pending_iff (h : Tracks ids log l) (id : Nat) :
    (∃ p ∈ l.pending, p.requestId = id) ↔
      (∃ transactionId, .admitted id transactionId ∈ log) ∧
        ∀ effect ∈ log, effect.resolves id = false := by
  have life := h.reads id
  have count := h.countP_resolves id
  unfold Ledger.life at life count
  cases found : l.find id with
  | some p =>
    obtain ⟨hp, here⟩ := find_mem found
    simp only [found] at life count
    refine ⟨fun _ => ⟨(Life.reads_unseen_waiting life).1, ?_⟩, fun _ => ⟨p, hp, here⟩⟩
    simpa using List.countP_eq_zero.mp count
  | none =>
    simp only [found] at life count
    refine ⟨fun ⟨p, hp, here⟩ => absurd here (find_eq_none.mp found p hp), ?_⟩
    rintro ⟨⟨transactionId, admitted⟩, unresolved⟩
    split at life
    next asked =>
      rw [if_pos asked, Life.resolutions] at count
      have none : log.countP (Effect.resolves id) = 0 :=
        List.countP_eq_zero.mpr (by simpa using unresolved)
      omega
    · exact absurd rfl ((Life.reads_unseen life).2 _ admitted)

end Tracks

/-- Every request is resolved at most once, is pending exactly if it was admitted and
not resolved, and is either pending or resolved. -/
theorem requests_resolved_once {config : Config} {m : Machine}
    (new : Machine.new config = .ok m) (inputs : List Input) (fresh : FreshIds inputs)
    (id : Nat) (asked : id ∈ requested inputs) :
    let log := Mealy.log Machine.step m inputs
    let pending := (Mealy.after Machine.step m inputs).pending
    log.countP (Effect.resolves id) ≤ 1 ∧
      ((∃ p ∈ pending, p.requestId = id) ↔
        (∃ transactionId, .admitted id transactionId ∈ log) ∧
          ∀ effect ∈ log, effect.resolves id = false) ∧
      ((∃ p ∈ pending, p.requestId = id) ∨ log.countP (Effect.resolves id) = 1) := by
  have tracks := tracks_run new inputs fresh
  have count := tracks.countP_resolves id
  refine ⟨?_, tracks.pending_iff id, ?_⟩
  · rw [count]
    cases Ledger.life _ _ _ <;> simp [Life.resolutions]
  cases found : (Mealy.after Machine.step m inputs).find id with
  | some p =>
    obtain ⟨hp, here⟩ := find_mem found
    exact .inl ⟨p, hp, here⟩
  | none =>
    right
    rw [count]
    simp [Ledger.life, found, asked, Life.resolutions]

theorem requests_resolved_once_sample :
    FreshIds sampleInputs ∧ 1 ∈ requested sampleInputs ∧
      (Mealy.log Machine.step (.initial sampleConfig) sampleInputs).countP (Effect.resolves 1)
        ≤ 1 :=
  ⟨by decide, by decide,
    (requests_resolved_once new_sample sampleInputs (by decide) 1 (by decide)).1⟩

/-- A request that was admitted and then fails has an unknown outcome exactly if it was
sent in between.  One that was never sent fails with a definite error, and one that
was sent does not. -/
theorem failed_unknown_iff_sent {config : Config} {m : Machine}
    (new : Machine.new config = .ok m) (inputs : List Input) (fresh : FreshIds inputs)
    (id : Nat) (error : SessionError) :
    let log := Mealy.log Machine.step m inputs
    (∀ before between rest transactionId,
      log = before ++ .admitted id transactionId :: (between ++ .failed id error :: rest) →
        (error = .outcomeUnknown ↔
          ∃ generation message, .sendMessage generation id message ∈ between)) ∧
      (.failed id error ∈ log → (¬ ∃ generation message, .sendMessage generation id message ∈ log) →
        error ≠ .outcomeUnknown) ∧
      (.failed id error ∈ log → (∃ generation message, .sendMessage generation id message ∈ log) →
        error ≠ .cancelled ∧ error ≠ .disconnected ∧ error ≠ .closed ∧
          error = .outcomeUnknown) := by
  have reads := (tracks_run new inputs fresh).reads id
  have any_sends (log : List Effect) : log.any (Effect.sends id) = true ↔
      ∃ generation message, .sendMessage generation id message ∈ log := by
    rw [List.any_eq_true]
    constructor
    · rintro ⟨effect, mem, sends⟩
      cases effect <;> simp_all [Effect.sends]
      exact ⟨_, _, mem⟩
    · rintro ⟨generation, message, mem⟩
      exact ⟨_, mem, by simp [Effect.sends]⟩
  refine ⟨?_, ?_, ?_⟩
  · intro before between rest transactionId split
    rw [split] at reads
    rw [Life.outcomeUnknown_iff_sent_between reads, any_sends]
  · intro failed unsent
    rw [Ne, Life.outcomeUnknown_iff_sent reads failed, any_sends]
    exact unsent
  intro failed sent
  have unknown := (Life.outcomeUnknown_iff_sent reads failed).mpr ((any_sends _).mpr sent)
  subst unknown
  simp

theorem failed_unknown_iff_sent_sample :
    let log := Mealy.log Machine.step (.initial sampleConfig) sampleInputs
    FreshIds sampleInputs ∧ .failed 1 .outcomeUnknown ∈ log ∧ .failed 1 .cancelled ∉ log := by
  refine ⟨by decide, by decide, fun failed => ?_⟩
  have sent := failed_unknown_iff_sent new_sample sampleInputs (by decide) 1 .cancelled
  exact (sent.2.2 failed ⟨1, { header := { sequence := 1, transactionId := 1 } },
    by decide⟩).1 rfl

end RadosRs.Msgr.Session
