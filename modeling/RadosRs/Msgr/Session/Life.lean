import RadosRs.Msgr.Session.Settle

/-!
# The life of a request

Seen from outside, a request is unseen, then waits, then is resolved.  While it
waits it may be sent any number of times.  `Life.next` reads one effect as a step
of this life, and has no result for an effect that comes at the wrong time: a
second resolution, a transmission of something never admitted, an unknown
outcome of something never sent, or a definite failure of something sent.

A log that can be read to its end, `Life.reads`, therefore has all of these
properties at once.  The second half of this module takes them out again, as
statements about the log alone.
-/

namespace RadosRs.Msgr.Session

inductive Life where
  | unseen
  /-- Admitted, and sent or not. -/
  | waiting (sent : Bool)
  | resolved
  deriving DecidableEq, Repr

/-- The request an effect is about. -/
def Effect.requestId : Effect → Option Nat
  | .sendMessage _ requestId _ => some requestId
  | .admitted requestId _ => some requestId
  | .completed requestId _ => some requestId
  | .failed requestId _ => some requestId
  | _ => none

/-- The effects that resolve a request. -/
def Effect.resolves (id : Nat) : Effect → Bool
  | .completed requestId _ => requestId == id
  | .failed requestId _ => requestId == id
  | _ => false

/-- The effects that hand a request to a transport. -/
def Effect.sends (id : Nat) : Effect → Bool
  | .sendMessage _ requestId _ => requestId == id
  | _ => false

namespace Life

/-- One effect about the request, at this point of its life. -/
def react : Life → Effect → Option Life
  | .unseen, .admitted .. => some (.waiting false)
  | .unseen, .failed _ error => if error = .outcomeUnknown then none else some .resolved
  | .waiting _, .sendMessage .. => some (.waiting true)
  | .waiting sent, .completed _ reply => if reply.isSome && !sent then none else some .resolved
  | .waiting sent, .failed _ error =>
    if decide (error = .outcomeUnknown) = sent then some .resolved else none
  | _, _ => none

/-- One effect, at this point of the life of request `id`. -/
def next (id : Nat) (life : Life) (effect : Effect) : Option Life :=
  if effect.requestId = some id then life.react effect else some life

/-- A list of effects read as part of the life of request `id`. -/
def reads (id : Nat) (life : Life) (log : List Effect) : Option Life :=
  log.foldlM (next id) life

variable {id : Nat} {life after : Life} {effect : Effect} {log more : List Effect}

@[simp] theorem reads_nil : reads id life [] = some life := rfl

theorem reads_cons :
    reads id life (effect :: log) = (next id life effect).bind (reads id · log) := by
  simp only [reads, List.foldlM_cons]
  rfl

theorem reads_append :
    reads id life (log ++ more) = (reads id life log).bind (reads id · more) := by
  simp only [reads, List.foldlM_append]
  rfl

theorem next_of_other (h : effect.requestId ≠ some id) : next id life effect = some life := by
  simp [next, h]

theorem requestId_of_not_visible (h : effect.visible = false) : effect.requestId = none := by
  cases effect <;> first | rfl | cases h

/-- Effects that are not about requests do not matter. -/
theorem reads_visible : reads id life (log.filter Effect.visible) = reads id life log := by
  induction log generalizing life with
  | nil => rfl
  | cons effect log ih =>
    by_cases h : effect.visible = true
    · rw [List.filter_cons_of_pos h, reads_cons, reads_cons]
      cases next id life effect with
      | none => rfl
      | some life => exact ih
    rw [List.filter_cons_of_neg h, reads_cons, next_of_other, ih]
    · rfl
    · simp [requestId_of_not_visible (Bool.eq_false_iff.mpr h)]

/-- One effect taken off the front of a log. -/
theorem reads_cons_eq_some (h : reads id life (effect :: log) = some after) :
    ∃ mid, next id life effect = some mid ∧ reads id mid log = some after := by
  rw [reads_cons] at h
  exact Option.bind_eq_some_iff.mp h

theorem reads_append_eq_some (h : reads id life (log ++ more) = some after) :
    ∃ mid, reads id life log = some mid ∧ reads id mid more = some after := by
  rw [reads_append] at h
  exact Option.bind_eq_some_iff.mp h

/-! ## What a step of a life says about the effect -/

theorem resolves_requestId (h : effect.resolves id = true) : effect.requestId = some id := by
  cases effect with
  | completed | failed => exact congrArg some (eq_of_beq h)
  | _ => cases h

theorem sends_requestId (h : effect.sends id = true) : effect.requestId = some id := by
  cases effect with
  | sendMessage => exact congrArg some (eq_of_beq h)
  | _ => cases h

theorem sends_of_other (other : effect.requestId ≠ some id) : effect.sends id = false :=
  Bool.eq_false_iff.mpr fun sends => other (sends_requestId sends)

/-- The steps of the life of request `id`. -/
inductive Moves (id : Nat) : Life → Effect → Life → Prop
  | other {life : Life} {effect : Effect} (other : effect.requestId ≠ some id) :
    Moves id life effect life
  | admitted {transactionId : Nat} :
    Moves id .unseen (.admitted id transactionId) (.waiting false)
  | refused {error : SessionError} (known : error ≠ .outcomeUnknown) :
    Moves id .unseen (.failed id error) .resolved
  | sent {before : Bool} {generation : Nat} {message : Message} :
    Moves id (.waiting before) (.sendMessage generation id message) (.waiting true)
  | completed {sent : Bool} {reply : Option Message} (answers : reply.isSome = true → sent = true) :
    Moves id (.waiting sent) (.completed id reply) .resolved
  | failed {sent : Bool} {error : SessionError} (fits : error = .outcomeUnknown ↔ sent = true) :
    Moves id (.waiting sent) (.failed id error) .resolved

theorem next_moves (h : next id life effect = some after) : Moves id life effect after := by
  unfold next at h
  split at h
  next here =>
    cases effect with
    | admitted =>
      cases here
      cases life <;> cases h
      exact .admitted
    | sendMessage =>
      cases here
      cases life <;> cases h
      exact .sent
    | completed _ reply =>
      cases here
      cases life with
      | waiting sent =>
        simp only [react, Option.ite_none_left_eq_some, Option.some.injEq] at h
        obtain ⟨answers, rfl⟩ := h
        exact .completed (by simpa using answers)
      | _ => cases h
    | failed _ error =>
      cases here
      cases life with
      | unseen =>
        simp only [react, Option.ite_none_left_eq_some, Option.some.injEq] at h
        obtain ⟨known, rfl⟩ := h
        exact .refused known
      | waiting sent =>
        simp only [react, Option.ite_none_right_eq_some, Option.some.injEq] at h
        obtain ⟨rfl, rfl⟩ := h
        exact .failed decide_eq_true_iff.symm
      | resolved => cases h
    | _ => cases here
  next other =>
    cases h
    exact .other other

/-- How often a request has been resolved at this point of its life. -/
def resolutions : Life → Nat
  | .resolved => 1
  | _ => 0

theorem next_resolutions (h : next id life effect = some after) :
    (if effect.resolves id then 1 else 0) + life.resolutions = after.resolutions := by
  cases next_moves h with
  | other other =>
    have quiet : effect.resolves id = false :=
      Bool.eq_false_iff.mpr fun resolves => other (resolves_requestId resolves)
    simp [quiet]
  | admitted | sent => rfl
  | refused | completed | failed => simp [Effect.resolves, resolutions]

/-! ## What a life says about the log -/

theorem reads_resolved (h : reads id .resolved log = some after) :
    after = .resolved ∧ ∀ effect ∈ log, effect.requestId ≠ some id := by
  induction log with
  | nil => exact ⟨(Option.some.inj h).symm, by simp⟩
  | cons effect log ih =>
    obtain ⟨mid, first, rest⟩ := reads_cons_eq_some h
    cases next_moves first with
    | other other => exact ⟨(ih rest).1, List.forall_mem_cons.mpr ⟨other, (ih rest).2⟩⟩

theorem reads_unseen (h : reads id life log = some .unseen) :
    life = .unseen ∧ ∀ effect ∈ log, effect.requestId ≠ some id := by
  induction log generalizing life with
  | nil => exact ⟨Option.some.inj h, by simp⟩
  | cons effect log ih =>
    obtain ⟨mid, first, rest⟩ := reads_cons_eq_some h
    obtain ⟨rfl, others⟩ := ih rest
    cases next_moves first with
    | other other => exact ⟨rfl, List.forall_mem_cons.mpr ⟨other, others⟩⟩

variable {sent : Bool}

theorem reads_waiting {still : Bool} (h : reads id (.waiting sent) log = some (.waiting still)) :
    still = (sent || log.any (Effect.sends id)) := by
  induction log generalizing sent with
  | nil => simpa using h.symm
  | cons effect log ih =>
    obtain ⟨mid, first, rest⟩ := reads_cons_eq_some h
    cases next_moves first with
    | other other => rw [ih rest, List.any_cons, sends_of_other other, Bool.false_or]
    | sent => simp [ih rest, Effect.sends]
    | completed | failed => cases (reads_resolved rest).1

theorem reads_resolutions (h : reads id life log = some after) :
    log.countP (Effect.resolves id) + life.resolutions = after.resolutions := by
  induction log generalizing life with
  | nil =>
    cases h
    simp
  | cons effect log ih =>
    obtain ⟨mid, first, rest⟩ := reads_cons_eq_some h
    have now := next_resolutions first
    have later := ih rest
    rw [List.countP_cons]
    omega

/-- A request that waits was admitted, and its flag says whether it was sent. -/
theorem reads_unseen_waiting (h : reads id .unseen log = some (.waiting sent)) :
    (∃ transactionId, .admitted id transactionId ∈ log) ∧
      sent = log.any (Effect.sends id) := by
  induction log with
  | nil => cases h
  | cons effect log ih =>
    obtain ⟨mid, first, rest⟩ := reads_cons_eq_some h
    cases next_moves first with
    | other other =>
      obtain ⟨⟨transactionId, admitted⟩, flag⟩ := ih rest
      refine ⟨⟨transactionId, .tail _ admitted⟩, ?_⟩
      rw [List.any_cons, sends_of_other other, flag, Bool.false_or]
    | admitted => exact ⟨⟨_, .head _⟩, by simpa [Effect.sends] using reads_waiting rest⟩
    | refused => cases (reads_resolved rest).1

variable {error : SessionError}

/-- A failure ends a life: of a request never heard of, or of one that waited, and then
it fits what is known of its outcome. -/
theorem reads_failed (h : reads id life (.failed id error :: log) = some after) :
    reads id .resolved log = some after ∧
      ((life = .unseen ∧ error ≠ .outcomeUnknown) ∨
        ∃ sent, life = .waiting sent ∧ (error = .outcomeUnknown ↔ sent = true)) := by
  obtain ⟨mid, first, rest⟩ := reads_cons_eq_some h
  cases next_moves first with
  | other other => exact absurd rfl other
  | refused known => exact ⟨rest, .inl ⟨rfl, known⟩⟩
  | failed fits => exact ⟨rest, .inr ⟨_, rfl, fits⟩⟩

/-- An unknown outcome means exactly that the request was sent before. -/
theorem outcomeUnknown_iff_sent (h : reads id .unseen log = some after)
    (failed : .failed id error ∈ log) :
    error = .outcomeUnknown ↔ log.any (Effect.sends id) = true := by
  obtain ⟨before, rest, rfl⟩ := List.append_of_mem failed
  obtain ⟨mid, start, finish⟩ := reads_append_eq_some h
  obtain ⟨finish, cause⟩ := reads_failed finish
  have silent : rest.any (Effect.sends id) = false := by
    simp only [List.any_eq_false]
    exact fun effect mem sends => (reads_resolved finish).2 effect mem (sends_requestId sends)
  rcases cause with ⟨rfl, known⟩ | ⟨sent, rfl, cause⟩
  · have unheard : before.any (Effect.sends id) = false := by
      simp only [List.any_eq_false]
      exact fun effect mem sends => (reads_unseen start).2 effect mem (sends_requestId sends)
    simp [known, silent, unheard, Effect.sends]
  · rw [cause, (reads_unseen_waiting start).2]
    simp [silent, Effect.sends]

/-- The same between an admission and a failure. -/
theorem outcomeUnknown_iff_sent_between {transactionId : Nat} {before between rest : List Effect}
    (h : reads id .unseen
      (before ++ .admitted id transactionId :: (between ++ .failed id error :: rest)) =
        some after) : error = .outcomeUnknown ↔ between.any (Effect.sends id) = true := by
  obtain ⟨start, _, tail⟩ := reads_append_eq_some h
  obtain ⟨mid, first, tail⟩ := reads_cons_eq_some tail
  have waits : mid = .waiting false := by
    cases next_moves first with
    | other other => exact absurd rfl other
    | admitted => rfl
  subst waits
  obtain ⟨last, waiting, tail⟩ := reads_append_eq_some tail
  rcases (reads_failed tail).2 with ⟨rfl, _⟩ | ⟨sent, rfl, cause⟩
  · cases (reads_unseen waiting).1
  · rw [cause, reads_waiting waiting, Bool.false_or]

end Life

end RadosRs.Msgr.Session
