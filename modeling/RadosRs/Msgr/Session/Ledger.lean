import RadosRs.Lib.Keyed
import RadosRs.Lib.Trace
import RadosRs.Msgr.Session.State

/-!
# The ledger on its own

This module says what can happen to the ledger of a session and nothing about
when it happens.  `Ledger.Quiet` lists the moves that are never the purpose of
an input but come with a broken, reset or resumed connection: a request fails,
what is on the replay list is to be sent again, acknowledged messages leave that
list, the counters start over.  `Quiets` is any number of them.

`Ledger.Wf` is what holds of every ledger a session can reach.  Each operation
has one lemma here that says what it does to the pending requests, so that no
later proof unfolds it.
-/

namespace RadosRs.Msgr.Session

open Keyed

namespace Ledger

/-- No two pending requests have the same id. -/
def Distinct (l : Ledger) : Prop := Keyed.Distinct Pending.requestId l.pending

/-! ## What the operations do -/

variable {l : Ledger} {id : Nat} {p : Pending}

theorem find_mem (h : l.find id = some p) : p ∈ l.pending ∧ p.requestId = id :=
  find?_mem h

theorem find_eq_none : l.find id = none ↔ ∀ p ∈ l.pending, p.requestId ≠ id :=
  find?_eq_none

theorem Distinct.find_eq (h : l.Distinct) (hp : p ∈ l.pending) : l.find p.requestId = some p :=
  Keyed.Distinct.find?_eq h hp

theorem removePending_of_absent (h : l.find id = none) : l.removePending id = l := by
  simp only [removePending, h]

@[simp] theorem removePending_pending (l : Ledger) (id : Nat) :
    (l.removePending id).pending = l.pending.eraseP (·.requestId == id) := by
  unfold removePending
  split
  next absent =>
    rw [List.eraseP_of_forall_not]
    intro p hp
    simpa using find_eq_none.mp absent p hp
  · rfl

@[simp] theorem removePending_nextOutbound (l : Ledger) (id : Nat) :
    (l.removePending id).nextOutbound = l.nextOutbound := by
  unfold removePending; split <;> rfl

@[simp] theorem removePending_lastInbound (l : Ledger) (id : Nat) :
    (l.removePending id).lastInbound = l.lastInbound := by
  unfold removePending; split <;> rfl

@[simp] theorem removePending_nextTransactionId (l : Ledger) (id : Nat) :
    (l.removePending id).nextTransactionId = l.nextTransactionId := by
  unfold removePending; split <;> rfl

theorem removePending_replay (l : Ledger) (id : Nat) :
    (l.removePending id).replay ⊆ l.replay := by
  unfold removePending
  split
  · exact fun _ h => h
  · exact fun _ h => (List.mem_filter.mp h).1

theorem removePending_byTransaction (h : l.find id = some p) :
    (l.removePending id).byTransaction = Function.update l.byTransaction p.transactionId none := by
  simp only [removePending, h]

@[simp] theorem removePending_cleared (l : Ledger) (id : Nat) :
    (l.removePending id).cleared = l.cleared := by
  simp [cleared]

theorem Distinct.mem_removePending (h : l.Distinct) :
    p ∈ (l.removePending id).pending ↔ p ∈ l.pending ∧ p.requestId ≠ id := by
  rw [removePending_pending]
  exact Keyed.Distinct.mem_eraseP h

theorem Distinct.find_removePending (h : l.Distinct) (removed id : Nat) :
    (l.removePending removed).find id = if id = removed then none else l.find id := by
  have distinct : (l.removePending removed).Distinct := by
    rw [Distinct, removePending_pending]
    exact Keyed.Distinct.eraseP h
  split
  next here =>
    subst here
    exact find_eq_none.mpr fun p hp => (h.mem_removePending.mp hp).2
  rename_i other
  cases found : l.find id with
  | none =>
    exact find_eq_none.mpr fun p hp => find_eq_none.mp found p (h.mem_removePending.mp hp).1
  | some p =>
    obtain ⟨hp, rfl⟩ := find_mem found
    exact distinct.find_eq (h.mem_removePending.mpr ⟨hp, other⟩)

/-- A pending request as `prepareReplay` leaves it. -/
def recalled (l : Ledger) (p : Pending) : Pending :=
  if p.requestId ∈ l.replay then { p with sent := false } else p

variable {ps : List Pending}

theorem unsend_eq_map (h : Keyed.Distinct Pending.requestId ps) (id : Nat) :
    unsend id ps = ps.map fun p => if p.requestId = id then { p with sent := false } else p := by
  induction ps with
  | nil => rfl
  | cons p ps ih =>
    obtain ⟨fresh, rest⟩ := distinct_cons.mp h
    by_cases here : p.requestId = id
    · have others : ps.map (fun q => if q.requestId = id then { q with sent := false } else q)
          = ps := by
        conv_rhs => rw [← List.map_id ps]
        refine List.map_congr_left fun q hq => ?_
        have other : q.requestId ≠ id := here ▸ fresh q hq
        simp [other]
      simp [unsend, here, others]
    · simp [unsend, here, ih rest]

theorem foldl_unsend (h : Keyed.Distinct Pending.requestId ps) (ids : List Nat) :
    ids.foldl (fun pending id => unsend id pending) ps
      = ps.map fun p => if p.requestId ∈ ids then { p with sent := false } else p := by
  induction ids generalizing ps with
  | nil => simp
  | cons id ids ih =>
    have step := unsend_eq_map h id
    have distinct : Keyed.Distinct Pending.requestId (unsend id ps) := by
      rw [step]
      refine h.map fun p => ?_
      split <;> rfl
    rw [List.foldl_cons, ih distinct, step, List.map_map]
    refine List.map_congr_left fun p _ => ?_
    by_cases here : p.requestId = id <;> by_cases later : p.requestId ∈ ids <;> simp_all

theorem Distinct.prepareReplay_pending (h : l.Distinct) :
    l.prepareReplay.pending = l.pending.map l.recalled :=
  foldl_unsend h l.replay

section Recalled

variable (l : Ledger) (p : Pending)

@[simp] theorem recalled_requestId : (l.recalled p).requestId = p.requestId := by
  unfold recalled; split <;> rfl

@[simp] theorem recalled_transactionId : (l.recalled p).transactionId = p.transactionId := by
  unfold recalled; split <;> rfl

@[simp] theorem recalled_message : (l.recalled p).message = p.message := by
  unfold recalled; split <;> rfl

@[simp] theorem recalled_sequence : (l.recalled p).sequence = p.sequence := by
  unfold recalled; split <;> rfl

@[simp] theorem recalled_mayHaveExecuted :
    (l.recalled p).mayHaveExecuted = p.mayHaveExecuted := by
  unfold recalled; split <;> rfl

@[simp] theorem recalled_control : (l.recalled p).control = p.control := by
  unfold recalled; split <;> rfl

theorem recalled_sent (h : (l.recalled p).sent = true) : p.sent = true := by
  unfold recalled at h; split at h <;> simp_all

theorem recalled_of_not_mem (h : p.requestId ∉ l.replay) : l.recalled p = p := by
  simp [recalled, h]

end Recalled

theorem Distinct.find_prepareReplay (h : l.Distinct) (id : Nat) :
    l.prepareReplay.find id = (l.find id).map l.recalled := by
  rw [find, h.prepareReplay_pending, List.find?_map]
  simp only [Function.comp_def, recalled_requestId]
  rfl

/-- A request stays on the replay list exactly if it has a later number. -/
theorem Distinct.mem_trimReplay (h : l.Distinct) {sequence : Nat} :
    id ∈ (l.trimReplay sequence).replay ↔
      id ∈ l.replay ∧ ∃ p ∈ l.pending, p.requestId = id ∧ sequence < p.sequence := by
  have reversed : Keyed.Distinct Pending.requestId l.pending.reverse := by
    rw [Keyed.Distinct, List.map_reverse, List.nodup_reverse]
    exact h
  simp only [trimReplay, List.mem_filter, sequenceOf]
  refine and_congr_right fun _ => ?_
  constructor
  · intro kept
    cases found : l.pending.reverse.find? (·.requestId == id) with
    | none => simp [found] at kept
    | some p =>
      obtain ⟨hp, here⟩ := find?_mem found
      exact ⟨p, List.mem_reverse.mp hp, here, by simpa [found] using kept⟩
  · rintro ⟨p, hp, rfl, later⟩
    rw [reversed.find?_eq (List.mem_reverse.mpr hp)]
    simpa using later

/-! ## Well-formed ledgers -/

end Ledger

/-- The flags, the number and the header of a pending request agree. -/
structure Pending.Wf (p : Pending) : Prop where
  sent : p.sent = true → p.mayHaveExecuted = true
  numbered : p.mayHaveExecuted = true ↔ p.sequence ≠ 0
  header : p.sequence ≠ 0 → p.message.header.sequence = p.sequence

namespace Ledger

/-- What holds of every ledger a session can reach. -/
structure Wf (l : Ledger) : Prop where
  distinct : l.Distinct
  each : ∀ p ∈ l.pending, p.Wf
  positive : ∀ next, l.nextOutbound = some next → 0 < next
  below : ∀ p ∈ l.pending, ∀ next, l.nextOutbound = some next → p.sequence < next
  listed : ∀ p ∈ l.pending, l.byTransaction p.transactionId = some p.requestId
  owned : ∀ transactionId id, l.byTransaction transactionId = some id →
    ∃ p ∈ l.pending, p.requestId = id ∧ p.transactionId = transactionId

theorem Wf.empty : Ledger.empty.Wf where
  distinct := distinct_nil
  each := by simp [Ledger.empty]
  positive := by simp [Ledger.empty]
  below := by simp [Ledger.empty]
  listed := by simp [Ledger.empty]
  owned := by simp [Ledger.empty]

variable {l k : Ledger}

/-- Changes to the replay list and the inbound counter do not matter. -/
theorem Wf.congr (h : l.Wf) (pending : k.pending = l.pending)
    (byTransaction : k.byTransaction = l.byTransaction)
    (nextOutbound : k.nextOutbound = l.nextOutbound) : k.Wf where
  distinct := by rw [Distinct, pending]; exact h.distinct
  each := by rw [pending]; exact h.each
  positive := by rw [nextOutbound]; exact h.positive
  below := by rw [pending, nextOutbound]; exact h.below
  listed := by rw [pending, byTransaction]; exact h.listed
  owned := by rw [pending, byTransaction]; exact h.owned

theorem Wf.of_pending_nil (none : l.pending = [])
    (noTransaction : ∀ transactionId, l.byTransaction transactionId = Option.none)
    (positive : ∀ next, l.nextOutbound = some next → 0 < next) : l.Wf where
  distinct := by rw [Distinct, none]; exact distinct_nil
  each := by simp [none]
  positive := positive
  below := by simp [none]
  listed := by simp [none]
  owned := by simp [noTransaction]

/-- With nothing pending, no transaction is listed. -/
theorem Wf.byTransaction_eq_none (h : l.Wf) (none : l.pending = []) (transactionId : Nat) :
    l.byTransaction transactionId = Option.none := by
  cases entry : l.byTransaction transactionId with
  | none => rfl
  | some id =>
    obtain ⟨p, hp, _⟩ := h.owned _ _ entry
    simp [none] at hp

theorem Wf.removePending (h : l.Wf) (id : Nat) : (l.removePending id).Wf := by
  cases found : l.find id with
  | none => rwa [removePending_of_absent found]
  | some p =>
    obtain ⟨hp, rfl⟩ := find_mem found
    have kept {q : Pending} (hq : q ∈ (l.removePending p.requestId).pending) :=
      h.distinct.mem_removePending.mp hq
    have table := removePending_byTransaction found
    refine ⟨?_, ?_, ?_, ?_, ?_, ?_⟩
    · rw [Distinct, removePending_pending]
      exact Keyed.Distinct.eraseP h.distinct
    · exact fun q hq => h.each q (kept hq).1
    · rw [removePending_nextOutbound]
      exact h.positive
    · rw [removePending_nextOutbound]
      exact fun q hq => h.below q (kept hq).1
    · intro q hq
      obtain ⟨hq, other⟩ := kept hq
      -- Another request of the same transaction would be the same request.
      have apart : q.transactionId ≠ p.transactionId := by
        intro same
        have entry := h.listed q hq
        rw [same, h.listed p hp] at entry
        exact other (Option.some.inj entry).symm
      rw [table, Function.update_of_ne apart]
      exact h.listed q hq
    · intro transactionId id entry
      rw [table] at entry
      by_cases here : transactionId = p.transactionId
      · subst here
        simp at entry
      rw [Function.update_of_ne here] at entry
      obtain ⟨q, hq, rfl, rfl⟩ := h.owned _ _ entry
      refine ⟨q, h.distinct.mem_removePending.mpr ⟨hq, fun same => here ?_⟩, rfl, rfl⟩
      rw [h.distinct.eq_of_key hq hp same]

theorem Wf.prepareReplay (h : l.Wf) : l.prepareReplay.Wf := by
  have pending := h.distinct.prepareReplay_pending
  refine ⟨?_, ?_, h.positive, ?_, ?_, ?_⟩
  · rw [Distinct, pending]
    exact Keyed.Distinct.map h.distinct l.recalled_requestId
  · rw [pending, List.forall_mem_map]
    intro p hp
    obtain ⟨sent, numbered, header⟩ := h.each p hp
    exact ⟨fun still => by simpa using sent (l.recalled_sent p still), by simpa using numbered,
      by simpa using header⟩
  · rw [pending, List.forall_mem_map]
    intro p hp
    simpa [Ledger.prepareReplay] using h.below p hp
  · rw [pending, List.forall_mem_map]
    intro p hp
    simpa [Ledger.prepareReplay] using h.listed p hp
  intro transactionId id entry
  obtain ⟨p, hp, rfl, rfl⟩ := h.owned _ _ entry
  rw [pending]
  exact ⟨_, List.mem_map_of_mem hp, by simp, by simp⟩

theorem insert_byTransaction (l : Ledger) (p : Pending) :
    (l.insert p).byTransaction
      = Function.update l.byTransaction p.transactionId (some p.requestId) := rfl

variable {p : Pending}

/-- A new request may enter under an id and a transaction id that are free. -/
theorem Wf.insert (h : l.Wf) (absent : l.find p.requestId = none)
    (free : l.byTransaction p.transactionId = none) (sequence : p.sequence = 0)
    (sent : p.sent = false) (may : p.mayHaveExecuted = false) : (l.insert p).Wf := by
  have fresh := find_eq_none.mp absent
  refine ⟨?_, ?_, h.positive, ?_, ?_, ?_⟩
  · exact Keyed.Distinct.snoc h.distinct fresh
  · intro q hq
    rcases List.mem_append.mp hq with hq | hq
    · exact h.each q hq
    · cases List.mem_singleton.mp hq
      exact ⟨by simp [sent], by simp [may, sequence], by simp [sequence]⟩
  · intro q hq next counter
    rcases List.mem_append.mp hq with hq | hq
    · exact h.below q hq next counter
    cases List.mem_singleton.mp hq
    rw [sequence]
    exact h.positive next counter
  · intro q hq
    rcases List.mem_append.mp hq with hq | hq
    · have apart : q.transactionId ≠ p.transactionId := by
        intro same
        have entry := h.listed q hq
        rw [same, free] at entry
        cases entry
      exact (Function.update_of_ne apart _ _).trans (h.listed q hq)
    · cases List.mem_singleton.mp hq
      exact Function.update_self _ _ _
  · intro transactionId id entry
    by_cases here : transactionId = p.transactionId
    · subst here
      rw [insert_byTransaction, Function.update_self] at entry
      exact ⟨p, by simp [Ledger.insert], Option.some.inj entry, rfl⟩
    rw [insert_byTransaction, Function.update_of_ne here] at entry
    obtain ⟨q, hq, same⟩ := h.owned _ _ entry
    exact ⟨q, List.mem_append_left _ hq, same⟩

theorem find_insert (absent : l.find p.requestId = none) (id : Nat) :
    (l.insert p).find id = if id = p.requestId then some p else l.find id := by
  rw [find, insert, List.find?_append]
  split
  next here =>
    subst here
    rw [find] at absent
    simp [absent]
  rename_i other
  have other : ¬ p.requestId = id := fun same => other same.symm
  simp [find, other]

variable {before rest : List Pending}

theorem transmit_pending (pending : l.pending = before ++ p :: rest) (q : Pending) :
    (l.transmit before.length q).pending
      = before ++ { q with sent := true, mayHaveExecuted := true } :: rest := by
  simp [transmit, pending]

theorem mem_transmit_replay (l : Ledger) (index : Nat) (q : Pending) {id : Nat} :
    id ∈ (l.transmit index q).replay ↔ id ∈ l.replay ∨ id = q.requestId := by
  unfold transmit
  dsimp only
  split
  next listed =>
    refine ⟨.inl, ?_⟩
    rintro (h | rfl)
    · exact h
    · simpa using listed
  · simp

theorem Distinct.find_transmit (h : l.Distinct) {q : Pending}
    (pending : l.pending = before ++ p :: rest) (same : q.requestId = p.requestId) (id : Nat) :
    (l.transmit before.length q).find id =
      if id = p.requestId then some { q with sent := true, mayHaveExecuted := true }
      else l.find id := by
  rw [Distinct, pending] at h
  rw [find, transmit_pending pending, find, pending, List.find?_append, List.find?_append]
  split
  next here =>
    subst here
    have earlier : before.find? (·.requestId == p.requestId) = none := by
      rw [find?_eq_none]
      intro r hr clash
      rw [Keyed.Distinct, List.map_append, List.nodup_append] at h
      exact h.2.2 _ (List.mem_map_of_mem hr) _ (List.mem_map_of_mem (.head _)) clash
    simp [earlier, same]
  next other =>
    have other : ¬ p.requestId = id := fun same => other same.symm
    simp [same, other]

/-- A request may be sent under a number of its own below the counter. -/
theorem Wf.transmit (h : l.Wf) {q : Pending} (pending : l.pending = before ++ p :: rest)
    (requestId : q.requestId = p.requestId) (transactionId : q.transactionId = p.transactionId)
    (numbered : q.sequence ≠ 0) (header : q.message.header.sequence = q.sequence)
    (below : ∀ next, l.nextOutbound = some next → q.sequence < next) :
    (l.transmit before.length q).Wf := by
  have after := transmit_pending pending q
  have other {r : Pending} (hr : r ∈ before ++ rest) : r ∈ l.pending := by
    rw [pending]
    rcases List.mem_append.mp hr with hr | hr
    · exact List.mem_append_left _ hr
    · exact List.mem_append_right _ (.tail _ hr)
  have split {P : Pending → Prop} (old : ∀ r ∈ before ++ rest, P r)
      (new : P { q with sent := true, mayHaveExecuted := true }) :
      ∀ r ∈ (l.transmit before.length q).pending, P r := by
    rw [after]
    intro r hr
    rcases List.mem_append.mp hr with hr | hr
    · exact old r (List.mem_append_left _ hr)
    rcases List.mem_cons.mp hr with rfl | hr
    · exact new
    · exact old r (List.mem_append_right _ hr)
  have hp : p ∈ l.pending := by simp [pending]
  refine ⟨?_, ?_, h.positive, ?_, ?_, ?_⟩
  · have distinct := h.distinct
    rw [Distinct, pending] at distinct
    rw [Distinct, after]
    exact distinct.replace requestId
  · exact split (fun r hr => h.each r (other hr))
      ⟨fun _ => rfl, by simpa using numbered, fun _ => header⟩
  · exact split (fun r hr => h.below r (other hr)) below
  · refine split (fun r hr => h.listed r (other hr)) ?_
    have entry := h.listed p hp
    rwa [← requestId, ← transactionId] at entry
  intro id requestId' entry
  obtain ⟨r, hr, rfl, rfl⟩ := h.owned _ _ entry
  rw [after]
  rw [pending] at hr
  rcases List.mem_append.mp hr with hr | hr
  · exact ⟨r, List.mem_append_left _ hr, rfl, rfl⟩
  rcases List.mem_cons.mp hr with rfl | hr
  · exact ⟨_, List.mem_append_right _ (.head _), requestId, transactionId⟩
  · exact ⟨r, List.mem_append_right _ (.tail _ hr), rfl, rfl⟩

/-! ## Quiet moves -/

/-- What may happen to the ledger without being the purpose of an input. -/
inductive Quiet : Ledger → List Effect → Ledger → Prop
  /-- A request fails.  Its outcome is unknown exactly if it was ever sent. -/
  | fail {l : Ledger} {p : Pending} {error : SessionError} (found : l.find p.requestId = some p)
      (cause : error = .outcomeUnknown ↔ p.mayHaveExecuted = true) :
      Quiet l [.failed p.requestId error] (l.removePending p.requestId)
  | clear {l : Ledger} (none : l.pending = []) : Quiet l [] l.cleared
  | unsend {l : Ledger} : Quiet l [] l.prepareReplay
  | trim {l : Ledger} (sequence : Nat) : Quiet l [] (l.trimReplay sequence)
  | forgetReplay {l : Ledger} : Quiet l [] { l with replay := [] }
  | forgetInbound {l : Ledger} : Quiet l [] { l with lastInbound := 0 }
  /-- The counters start over.  No request is left that uses them. -/
  | renumber {l : Ledger} (none : l.pending = []) :
      Quiet l [] { l with nextOutbound := some 1, nextTransactionId := some 1 }

/-- Any number of quiet moves. -/
abbrev Quiets : Ledger → List Effect → Ledger → Prop := Trace Quiet

variable {es : List Effect}

theorem Quiet.wf (h : Quiet l es k) (wf : l.Wf) : k.Wf := by
  cases h with
  | fail => exact wf.removePending _
  | clear => exact Wf.of_pending_nil rfl (fun _ => rfl) wf.positive
  | unsend => exact wf.prepareReplay
  | trim => exact wf.congr rfl rfl rfl
  | forgetReplay => exact wf.congr rfl rfl rfl
  | forgetInbound => exact wf.congr rfl rfl rfl
  | renumber none => exact Wf.of_pending_nil none (wf.byTransaction_eq_none none) (by simp)

/-- Quiet moves leave an empty ledger empty. -/
theorem Quiet.pending_nil (h : Quiet l es k) (none : l.pending = []) : k.pending = [] := by
  cases h with
  | fail => simp [none]
  | clear => rfl
  | unsend =>
    have kept (ids : List Nat) :
        ids.foldl (fun pending id => Ledger.unsend id pending) ([] : List Pending) = [] := by
      induction ids with
      | nil => rfl
      | cons id ids ih => exact ih
    rw [prepareReplay, none]
    exact kept _
  | trim => exact none
  | forgetReplay => exact none
  | forgetInbound => exact none
  | renumber => exact none

theorem Quiets.wf (h : Quiets l es k) (wf : l.Wf) : k.Wf :=
  Trace.invariant Wf Quiet.wf h wf

/-- Quiet moves only put out failures. -/
theorem Quiets.failed (h : Quiets l es k) :
    ∀ effect ∈ es, ∃ id error, effect = .failed id error := by
  induction h with
  | nil => simp
  | cons move _ ih =>
    intro effect mem
    rcases List.mem_append.mp mem with mem | mem
    · cases move <;> simp at mem
      exact ⟨_, _, mem⟩
    · exact ih effect mem

/-- Quiet moves add no request and change none, except that it may have to be sent again. -/
theorem Quiet.origin (h : Quiet l es k) (wf : l.Wf) :
    ∀ q ∈ k.pending, ∃ p ∈ l.pending, q = { p with sent := q.sent } ∧
      (q.sent = true → p.sent = true) := by
  have same : ∀ q ∈ l.pending, ∃ p ∈ l.pending, q = { p with sent := q.sent } ∧
      (q.sent = true → p.sent = true) := fun q hq => ⟨q, hq, rfl, id⟩
  cases h with
  | fail => exact fun q hq => same q (wf.distinct.mem_removePending.mp hq).1
  | clear => simp [cleared]
  | unsend =>
    rw [wf.distinct.prepareReplay_pending, List.forall_mem_map]
    intro p hp
    refine ⟨p, hp, ?_, l.recalled_sent p⟩
    unfold recalled
    split <;> rfl
  | trim => exact same
  | forgetReplay => exact same
  | forgetInbound => exact same
  | renumber => exact same

theorem Quiets.origin (h : Quiets l es k) (wf : l.Wf) :
    ∀ q ∈ k.pending, ∃ p ∈ l.pending, q = { p with sent := q.sent } ∧
      (q.sent = true → p.sent = true) := by
  refine (Trace.invariant
    (fun k => k.Wf ∧ ∀ q ∈ k.pending, ∃ p ∈ l.pending, q = { p with sent := q.sent } ∧
      (q.sent = true → p.sent = true)) ?_ h ⟨wf, fun q hq => ⟨q, hq, rfl, id⟩⟩).2
  rintro k es k' move ⟨wf, ih⟩
  refine ⟨move.wf wf, fun r hr => ?_⟩
  obtain ⟨q, hq, same, sent⟩ := move.origin wf r hr
  obtain ⟨p, hp, same', sent'⟩ := ih q hq
  refine ⟨p, hp, ?_, sent' ∘ sent⟩
  rw [same, same']

/-- From `l` to `k`, each counter has started over or has not changed. -/
structure Counts (l k : Ledger) : Prop where
  inbound : k.lastInbound = 0 ∨ k.lastInbound = l.lastInbound
  outbound : k.nextOutbound = some 1 ∨ k.nextOutbound = l.nextOutbound
  transaction : k.nextTransactionId = some 1 ∨ k.nextTransactionId = l.nextTransactionId

theorem Counts.refl (l : Ledger) : l.Counts l := ⟨.inr rfl, .inr rfl, .inr rfl⟩

theorem Counts.trans {j : Ledger} (h : l.Counts k) (h' : k.Counts j) : l.Counts j := by
  refine ⟨?_, ?_, ?_⟩
  · rcases h'.inbound with reset | same
    · exact .inl reset
    · rw [same]
      exact h.inbound
  · rcases h'.outbound with reset | same
    · exact .inl reset
    · rw [same]
      exact h.outbound
  rcases h'.transaction with reset | same
  · exact .inl reset
  · rw [same]
    exact h.transaction

theorem Quiet.counts (h : Quiet l es k) : l.Counts k := by
  cases h with
  | fail => exact ⟨by simp, by simp, by simp⟩
  | clear => exact ⟨.inr rfl, .inr rfl, .inr rfl⟩
  | unsend => exact ⟨.inr rfl, .inr rfl, .inr rfl⟩
  | trim => exact ⟨.inr rfl, .inr rfl, .inr rfl⟩
  | forgetReplay => exact ⟨.inr rfl, .inr rfl, .inr rfl⟩
  | forgetInbound => exact ⟨.inl rfl, .inr rfl, .inr rfl⟩
  | renumber => exact ⟨.inr rfl, .inl rfl, .inl rfl⟩

theorem Quiets.counts (h : Quiets l es k) : l.Counts k :=
  Trace.invariant l.Counts (fun move ih => ih.trans move.counts) h (.refl l)

end Ledger

end RadosRs.Msgr.Session
