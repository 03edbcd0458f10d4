import RadosRs.Msgr.Session.Ledger
import RadosRs.Msgr.Session.Machine

/-!
# Losing the connection is quiet

Most of the machine deals with connections: faults, resets, handshakes,
renewals.  None of this sends, admits or answers a request.  `Exec.Settles`
states it: from one point of a step to a later one, the ledger has only made
quiet moves, and the effects about requests are exactly the failures of those
moves.
-/

namespace RadosRs.Msgr.Session

open Keyed Ledger

/-- Effects about requests and messages, as opposed to connections and events. -/
def Effect.visible : Effect → Bool
  | .sendMessage .. => true
  | .admitted .. => true
  | .completed .. => true
  | .failed .. => true
  | .incoming .. => true
  | _ => false

/-- What is read off visible effects only can be read off the whole log. -/
theorem filterMap_visible {α : Type} {f : Effect → Option α}
    (h : ∀ effect, effect.visible = false → f effect = none) (log : List Effect) :
    (log.filter Effect.visible).filterMap f = log.filterMap f := by
  rw [List.filterMap_filter]
  refine List.filterMap_congr fun effect _ => ?_
  split
  · rfl
  next hidden => exact (h effect (Bool.eq_false_iff.mpr hidden)).symm

/-! ## Failing several requests -/

variable {error : SessionError}

theorem Ledger.Wf.quiets_failAll {l : Ledger} (wf : l.Wf) (known : error ≠ .outcomeUnknown) :
    Quiets l (l.pending.map fun p => .failed p.requestId (Exec.errorOfAll error p)) l.cleared := by
  generalize h : l.pending = ps
  induction ps generalizing l with
  | nil => exact .single (.clear h)
  | cons p ps ih =>
    have found : l.find p.requestId = some p := wf.distinct.find_eq (by simp [h])
    have cause : Exec.errorOfAll error p = .outcomeUnknown ↔ p.mayHaveExecuted = true := by
      unfold Exec.errorOfAll
      cases p.mayHaveExecuted <;> simp [known]
    have rest : (l.removePending p.requestId).pending = ps := by simp [h]
    rw [← removePending_cleared l p.requestId]
    exact .cons (.fail found cause) (ih (wf.removePending _) rest)

/-- Failing some of the pending requests, one after the other. -/
theorem Ledger.Wf.quiets_failRequests {l : Ledger} (wf : l.Wf) {ps : List Pending}
    (mem : ∀ p ∈ ps, p ∈ l.pending) (distinct : Keyed.Distinct Pending.requestId ps)
    {error : Pending → SessionError}
    (cause : ∀ p ∈ ps, (error p = .outcomeUnknown ↔ p.mayHaveExecuted = true)) :
    Quiets l (ps.map fun p => .failed p.requestId (error p))
      (ps.foldl (fun l p => l.removePending p.requestId) l) := by
  induction ps generalizing l with
  | nil => exact .nil
  | cons p ps ih =>
    obtain ⟨fresh, distinct⟩ := distinct_cons.mp distinct
    have found : l.find p.requestId = some p := wf.distinct.find_eq (mem p (by simp))
    refine .cons (.fail found (cause p (by simp)))
      (ih (wf.removePending _) ?_ distinct fun q hq => cause q (.tail _ hq))
    intro q hq
    exact wf.distinct.mem_removePending.mpr ⟨mem q (.tail _ hq), fresh q hq⟩

namespace Exec

/-! ## Settling -/

/-- The limits on requests: how many may be in flight, how many may wait, how many bytes they
may hold, and how large their frames may be. -/
def limits (x : Exec) : Nat × Nat × Nat × Limits :=
  (x.config.maxInFlightTransactions, x.config.maxQueuedMessages, x.config.maxRetainedBytes,
    x.config.limits)

/-- From `x` to `y`, the limits on requests have not changed, an unknown outcome has not
become a terminal error, and a session that has ended has no request left. -/
structure Frame (x y : Exec) : Prop where
  limits : y.limits = x.limits
  terminal : x.terminalError ≠ some .outcomeUnknown → y.terminalError ≠ some .outcomeUnknown
  ended : (x.terminalError ≠ none → x.pending = []) → y.terminalError ≠ none → y.pending = []

variable {y : Exec}

theorem Frame.limit {x : Exec} (h : x.Frame y) :
    y.config.maxInFlightTransactions = x.config.maxInFlightTransactions :=
  congrArg Prod.fst h.limits

variable (x : Exec)

theorem Frame.refl : x.Frame x := ⟨rfl, id, id⟩

theorem Frame.trans {x z : Exec} (h : x.Frame y) (k : y.Frame z) : x.Frame z :=
  ⟨k.limits.trans h.limits, k.terminal ∘ h.terminal, k.ended ∘ h.ended⟩

/-- From `x` to `y` the ledger has only made quiet moves. -/
structure Settles (x y : Exec) : Prop extends Frame x y where
  quiets : x.toLedger.Wf →
    ∃ es, y.effects.filter Effect.visible = x.effects.filter Effect.visible ++ es ∧
      Quiets x.toLedger es y.toLedger

/-- A quiet move that puts out nothing. -/
theorem Settles.of_quiet {x : Exec} (move : Quiet x.toLedger [] y.toLedger)
    (effects : y.effects.filter Effect.visible = x.effects.filter Effect.visible)
    (limits : y.limits = x.limits) (terminal : y.terminalError = x.terminalError) :
    x.Settles y := by
  refine ⟨⟨limits, fun known => terminal ▸ known, fun ended halt => ?_⟩,
    fun _ => ⟨[], by simp [effects], .single move⟩⟩
  exact move.pending_nil (ended (terminal ▸ halt))

/-- What anything leaves alone that is not about requests. -/
def kept (x : Exec) : Ledger × (Nat × Nat × Nat × Limits) × Option SessionError :=
  (x.toLedger, x.limits, x.terminalError)

/-- Anything that leaves the ledger alone. -/
theorem Settles.of_eq {x : Exec} (kept : y.kept = x.kept)
    (effects : y.effects.filter Effect.visible = x.effects.filter Effect.visible) :
    x.Settles y := by
  obtain ⟨ledger, limits, terminal⟩ : y.toLedger = x.toLedger ∧ y.limits = x.limits
      ∧ y.terminalError = x.terminalError := by simpa [Exec.kept] using kept
  refine ⟨⟨limits, fun known => terminal ▸ known, fun ended halt => ?_⟩,
    fun _ => ⟨[], by simp [effects], ?_⟩⟩
  · rw [ledger]
    exact ended (terminal ▸ halt)
  · rw [ledger]
    exact .nil

theorem Settles.refl : x.Settles x := .of_eq rfl rfl

theorem Settles.trans {x z : Exec} (h : x.Settles y) (k : y.Settles z) : x.Settles z := by
  refine ⟨h.toFrame.trans k.toFrame, fun wf => ?_⟩
  obtain ⟨es, effects, quiets⟩ := h.quiets wf
  obtain ⟨es', effects', quiets'⟩ := k.quiets (quiets.wf wf)
  exact ⟨es ++ es', by rw [effects', effects, List.append_assoc], quiets.trans quiets'⟩

theorem settles_setState (state : State) : x.Settles (x.setState state) := by
  unfold setState
  split
  · exact .of_eq rfl (by simp [emit, Effect.visible])
  · exact .refl x

/-! ## Failing requests -/

@[simp] theorem filter_visible_failed (ps : List Pending) (error : Pending → SessionError) :
    (ps.map fun p => Effect.failed p.requestId (error p)).filter Effect.visible
      = ps.map fun p => Effect.failed p.requestId (error p) := by
  simp [List.filter_map, Function.comp_def, Effect.visible]

theorem settles_failAll (known : error ≠ .outcomeUnknown) : x.Settles (x.failAll error) :=
  ⟨⟨rfl, id, fun _ _ => rfl⟩, fun wf => ⟨_, by simp [failAll], wf.quiets_failAll known⟩⟩

theorem settles_failTerminal (known : error ≠ .outcomeUnknown) :
    x.Settles (x.failTerminal error) := by
  unfold failTerminal
  split
  · exact .refl x
  dsimp only
  generalize told : ({ emit _ _ with writeBusy := false, controls := [], connectPending := false } :
    Exec).emit _ = y
  have failing := (settles_failAll y known).trans (settles_setState _ .disconnected)
  have ledger : y.toLedger = x.toLedger := by rw [← told]; rfl
  have visible : y.effects.filter Effect.visible = x.effects.filter Effect.visible := by
    rw [← told]
    simp [emit, Effect.visible]
  have ended : ((y.failAll error).setState .disconnected).pending = [] := by
    unfold setState
    split <;> rfl
  refine ⟨⟨failing.limits.trans (by rw [← told]; rfl), fun _ => ?_, fun _ _ => ended⟩, fun wf => ?_⟩
  · refine failing.terminal ?_
    rw [← told]
    simpa [emit] using known
  · obtain ⟨es, effects, quiets⟩ := failing.quiets (ledger ▸ wf)
    exact ⟨es, effects.trans (by rw [visible]), ledger ▸ quiets⟩

theorem failRequests_map (ps : List Pending) (error : Pending → SessionError) :
    x.failRequests (ps.map fun p => (p.requestId, error p)) =
      { x with
        toLedger := ps.foldl (fun l p => l.removePending p.requestId) x.toLedger
        effects := x.effects ++ ps.map fun p => .failed p.requestId (error p) } := by
  induction ps generalizing x with
  | nil => simp [failRequests]
  | cons p ps ih =>
    have tail := ih ((x.onLedger (·.removePending p.requestId)).emit
      (.failed p.requestId (error p)))
    unfold failRequests at tail ⊢
    rw [List.map_cons, List.foldl_cons, tail]
    simp [emit, onLedger]

/-- Failing the pending requests that satisfy a test, each with an error that fits it. -/
theorem settles_failRequests (select : Pending → Bool) (error : Pending → SessionError)
    (cause : x.toLedger.Wf → ∀ p ∈ x.pending, select p = true →
      (error p = .outcomeUnknown ↔ p.mayHaveExecuted = true)) :
    x.Settles (x.failRequests ((x.pending.filter select).map fun p => (p.requestId, error p))) := by
  rw [failRequests_map]
  refine ⟨⟨rfl, id, fun ended halt => by simp [ended halt]⟩,
    fun wf => ⟨_, by rw [List.filter_append, filter_visible_failed], ?_⟩⟩
  refine wf.quiets_failRequests ?_ ?_ ?_
  · exact fun p hp => (List.mem_filter.mp hp).1
  · exact wf.distinct.sublist (List.filter_sublist.map _)
  intro p hp
  obtain ⟨hp, selected⟩ := List.mem_filter.mp hp
  exact cause wf p hp selected

/-! ## Running out of room

A queue that is full ends the session without touching what has come in. -/

/-- The number of the last message that came in, and how many wait to be consumed. -/
def inbox (x : Exec) : Nat × Nat := (x.lastInbound, x.incomingCount)

theorem inbox_setState (state : State) : (x.setState state).inbox = x.inbox := by
  unfold setState
  split <;> rfl

theorem inbox_failTerminal (error : SessionError) : (x.failTerminal error).inbox = x.inbox := by
  unfold failTerminal
  split
  · rfl
  · exact inbox_setState _ _

theorem lastInbound_foldl_removePending (ps : List Pending) (l : Ledger) :
    (ps.foldl (fun l p => l.removePending p.requestId) l).lastInbound = l.lastInbound := by
  induction ps generalizing l with
  | nil => rfl
  | cons p ps ih => rw [List.foldl_cons, ih, removePending_lastInbound]

theorem inbox_queueControl (control : Control) : (x.queueControl control).inbox = x.inbox := by
  have invalidated : x.invalidateControls.2.inbox = x.inbox := by
    unfold invalidateControls
    split
    · exact inbox_failTerminal x _
    dsimp only
    rw [failRequests_map, inbox, lastInbound_foldl_removePending]
    rfl
  unfold queueControl
  split
  · unfold fault andThen branch
    split
    · rfl
    split
    · exact (inbox_failTerminal _ _).trans invalidated
    · exact invalidated
  · rfl

end Exec

end RadosRs.Msgr.Session
