import Mathlib.Algebra.BigOperators.Group.List.Basic
import RadosRs.Msgr.Session.Order

/-!
# The accounts of a session

The ledger keeps more than the pending requests: a table from transactions to
requests, the list of requests to replay, and counters for what is retained and
for the reserved control messages.  All of it can be computed from the pending
requests, and the counters stay within their limits.

Three things are proved of one move and then of every run.  `Charged` says that
the counters are sums over the pending requests.  `Tracked` says what the replay
list and the numbers refer to.  `Within` is the limits.  A removal subtracts from
the counters, and since they are sums it never takes more than is there: the step
is a sequence of `Ledger.Move`, in which every removal is covered.
-/

namespace RadosRs.Msgr.Session

open Keyed

namespace Ledger

/-! ## Sums over the pending requests -/

/-- A sum over the pending requests, where a request counts by its lane and its bytes. -/
def weigh (weight : Bool → Nat → Nat) (l : Ledger) : Nat :=
  (l.pending.map fun p => weight p.control.isSome p.bytes).sum

/-- The bytes of a request that is not a control message. -/
def plainBytes (control : Bool) (bytes : Nat) : Nat := if control then 0 else bytes

/-- The bytes of a control message. -/
def reservedBytes (control : Bool) (bytes : Nat) : Nat := if control then bytes else 0

/-- A control message. -/
def reserved (control : Bool) (_bytes : Nat) : Nat := if control then 1 else 0

/-- A request that is not a control message. -/
def plain (control : Bool) (_bytes : Nat) : Nat := if control then 0 else 1

variable {l k : Ledger} {es : List Effect} {p q : Pending} {after : Option Nat}

theorem weigh_reserved (l : Ledger) :
    l.weigh reserved = l.pending.countP (·.control.isSome) := by
  unfold weigh
  induction l.pending with
  | nil => rfl
  | cons p ps ih =>
    rw [List.map_cons, List.sum_cons, ih]
    cases control : p.control <;> simp [reserved, control, Nat.add_comm]

theorem weigh_plain (l : Ledger) : l.weigh plain = l.pending.countP (·.control.isNone) := by
  unfold weigh
  induction l.pending with
  | nil => rfl
  | cons p ps ih =>
    rw [List.map_cons, List.sum_cons, ih]
    cases control : p.control <;> simp [plain, control, Nat.add_comm]

/-- Every request is in one of the two lanes. -/
theorem weigh_lanes (l : Ledger) : l.weigh plain + l.weigh reserved = l.pending.length := by
  have other : (fun p : Pending => p.control.isNone) = fun p => decide ¬p.control.isSome = true := by
    funext p
    cases p.control <;> rfl
  rw [weigh_plain, weigh_reserved, other, Nat.add_comm]
  exact (List.length_eq_countP_add_countP _).symm

/-! What the operations do to a sum. -/

theorem weigh_removePending (found : l.find p.requestId = some p) (weight : Bool → Nat → Nat) :
    l.weigh weight
      = weight p.control.isSome p.bytes + (l.removePending p.requestId).weigh weight := by
  rw [weigh, weigh, removePending_pending, ← List.sum_cons]
  exact ((perm_of_find? found).map fun p => weight p.control.isSome p.bytes).sum_eq

theorem removePending_retainedBytes (found : l.find p.requestId = some p) :
    (l.removePending p.requestId).retainedBytes
      = l.retainedBytes - plainBytes p.control.isSome p.bytes := by
  simp only [removePending, found, plainBytes]
  split <;> rfl

theorem removePending_controlMessages (found : l.find p.requestId = some p) :
    (l.removePending p.requestId).controlMessages
      = l.controlMessages - reserved p.control.isSome p.bytes := by
  simp only [removePending, found, reserved]
  split <;> rfl

theorem removePending_controlBytes (found : l.find p.requestId = some p) :
    (l.removePending p.requestId).controlBytes
      = l.controlBytes - reservedBytes p.control.isSome p.bytes := by
  simp only [removePending, found, reservedBytes]
  split <;> rfl

theorem weigh_insert (l : Ledger) (p : Pending) (weight : Bool → Nat → Nat) :
    (l.insert p).weigh weight = l.weigh weight + weight p.control.isSome p.bytes := by
  simp [weigh, insert]

theorem weigh_prepareReplay (distinct : l.Distinct) (weight : Bool → Nat → Nat) :
    l.prepareReplay.weigh weight = l.weigh weight := by
  have same (p : Pending) : (l.recalled p).bytes = p.bytes := by
    unfold recalled
    split <;> rfl
  simp [weigh, distinct.prepareReplay_pending, Function.comp_def, same]

variable {before rest : List Pending}

theorem weigh_transmit (pending : l.pending = before ++ p :: rest)
    (control : q.control = p.control) (bytes : q.bytes = p.bytes) (weight : Bool → Nat → Nat) :
    (l.transmit before.length q).weigh weight = l.weigh weight := by
  simp [weigh, transmit_pending pending, pending, control, bytes]

/-! ## The counters -/

/-- The counters are sums over the pending requests. -/
structure Charged (l : Ledger) : Prop where
  retained : l.retainedBytes = l.weigh plainBytes
  messages : l.controlMessages = l.weigh reserved
  bytes : l.controlBytes = l.weigh reservedBytes

/-- The counters hold what the removal of a request subtracts from them. -/
def Covers (l : Ledger) (p : Pending) : Prop :=
  if p.control.isSome then 1 ≤ l.controlMessages ∧ p.bytes ≤ l.controlBytes
  else p.bytes ≤ l.retainedBytes

/-- Equal sums and equal counters. -/
structure Keeps (l k : Ledger) : Prop where
  sums : ∀ weight, k.weigh weight = l.weigh weight
  retained : k.retainedBytes = l.retainedBytes
  messages : k.controlMessages = l.controlMessages
  bytes : k.controlBytes = l.controlBytes

/-- What a step does to the counters, one thing after the other. -/
inductive Move : Ledger → List Effect → Ledger → Prop
  | remove {l : Ledger} {p : Pending} {es : List Effect} (found : l.find p.requestId = some p)
      (covered : l.Covers p) : Move l es (l.removePending p.requestId)
  | clear {l : Ledger} (none : l.pending = []) : Move l [] l.cleared
  | insert {l : Ledger} {p : Pending} {es : List Effect} : Move l es (l.insert p)
  | keep {l k : Ledger} {es : List Effect} (keeps : l.Keeps k) : Move l es k

theorem Keeps.of_pending (pending : k.pending = l.pending)
    (retained : k.retainedBytes = l.retainedBytes)
    (messages : k.controlMessages = l.controlMessages) (bytes : k.controlBytes = l.controlBytes) :
    l.Keeps k :=
  ⟨fun weight => by rw [weigh, weigh, pending], retained, messages, bytes⟩

theorem Keeps.charged (h : l.Keeps k) (charged : l.Charged) : k.Charged where
  retained := by rw [h.retained, h.sums, charged.retained]
  messages := by rw [h.messages, h.sums, charged.messages]
  bytes := by rw [h.bytes, h.sums, charged.bytes]

theorem Keeps.trace {j : Ledger} (h : l.Keeps k) (moves : Trace Move k es j) :
    Trace Move l es j :=
  have first : Move l [] k := .keep h
  Trace.cons first moves

theorem Charged.covers (h : l.Charged) (found : l.find p.requestId = some p) : l.Covers p := by
  have plain := weigh_removePending found plainBytes
  have count := weigh_removePending found Ledger.reserved
  have control := weigh_removePending found reservedBytes
  rw [← h.retained] at plain
  rw [← h.messages] at count
  rw [← h.bytes] at control
  unfold Covers
  split
  next lane =>
    rw [Ledger.reserved, if_pos lane] at count
    rw [reservedBytes, if_pos lane] at control
    omega
  rename_i lane
  rw [plainBytes, if_neg lane] at plain
  omega

theorem Charged.removePending (h : l.Charged) (id : Nat) : (l.removePending id).Charged := by
  cases found : l.find id with
  | none =>
    rw [removePending_of_absent found]
    exact h
  | some p =>
    obtain ⟨-, rfl⟩ := find_mem found
    refine ⟨?_, ?_, ?_⟩
    · rw [removePending_retainedBytes found, h.retained, weigh_removePending found]
      exact Nat.add_sub_cancel_left _ _
    · rw [removePending_controlMessages found, h.messages, weigh_removePending found]
      exact Nat.add_sub_cancel_left _ _
    · rw [removePending_controlBytes found, h.bytes, weigh_removePending found]
      exact Nat.add_sub_cancel_left _ _

theorem Charged.insert (h : l.Charged) (p : Pending) : (l.insert p).Charged := by
  refine ⟨?_, ?_, ?_⟩ <;> rw [weigh_insert]
  · rw [← h.retained]
    simp only [Ledger.insert, plainBytes]
    split <;> rfl
  · rw [← h.messages]
    simp only [Ledger.insert, Ledger.reserved]
    split <;> rfl
  rw [← h.bytes]
  simp only [Ledger.insert, reservedBytes]
  split <;> rfl

theorem Charged.empty (none : l.pending = []) (retained : l.retainedBytes = 0)
    (messages : l.controlMessages = 0) (bytes : l.controlBytes = 0) : l.Charged := by
  refine ⟨?_, ?_, ?_⟩ <;> simp [weigh, none, retained, messages, bytes]

theorem Quiet.keeps (h : Quiet l es k) (wf : l.Wf) :
    l.Keeps k ∨ (∃ p error, es = [.failed p.requestId error] ∧ l.find p.requestId = some p
        ∧ k = l.removePending p.requestId)
      ∨ l.pending = [] ∧ es = [] ∧ k = l.cleared := by
  cases h with
  | fail found => exact .inr (.inl ⟨_, _, rfl, found, rfl⟩)
  | clear none => exact .inr (.inr ⟨none, rfl, rfl⟩)
  | unsend => exact .inl ⟨weigh_prepareReplay wf.distinct, rfl, rfl, rfl⟩
  | trim => exact .inl (.of_pending rfl rfl rfl rfl)
  | forgetReplay => exact .inl (.of_pending rfl rfl rfl rfl)
  | forgetInbound => exact .inl (.of_pending rfl rfl rfl rfl)
  | renumber => exact .inl (.of_pending rfl rfl rfl rfl)

/-- A quiet move keeps the accounts and takes no more than is there. -/
theorem Quiet.charged (h : Quiet l es k) (wf : l.Wf) (charged : l.Charged) :
    k.Charged ∧ Move l es k ∧ ∀ weight, k.weigh weight ≤ l.weigh weight := by
  rcases h.keeps wf with keeps | ⟨p, error, rfl, found, rfl⟩ | ⟨none, rfl, rfl⟩
  · exact ⟨keeps.charged charged, .keep keeps, fun weight => (keeps.sums weight).le⟩
  · refine ⟨charged.removePending _, .remove found (charged.covers found), fun weight => ?_⟩
    rw [weigh_removePending found]
    exact Nat.le_add_left _ _
  · exact ⟨.empty rfl rfl rfl rfl, .clear none, fun weight => Nat.zero_le _⟩

theorem Quiets.charged (h : Quiets l es k) (wf : l.Wf) (charged : l.Charged) :
    k.Charged ∧ Trace Move l es k ∧ ∀ weight, k.weigh weight ≤ l.weigh weight := by
  induction h with
  | nil => exact ⟨charged, .nil, fun _ => le_rfl⟩
  | cons move _ ih =>
    obtain ⟨next, first, fewer⟩ := move.charged wf charged
    obtain ⟨last, rest, least⟩ := ih (move.wf wf) next
    exact ⟨last, .cons first rest, fun weight => (least weight).trans (fewer weight)⟩

/-! ## The replay list and the numbers -/

/-- What the replay list, the numbers and the transactions refer to. -/
structure Tracked (l : Ledger) : Prop where
  once : l.replay.Nodup
  replayed : ∀ id ∈ l.replay, ∃ p ∈ l.pending, p.requestId = id ∧ p.sequence ≠ 0
  numbers : ∀ p ∈ l.pending, ∀ q ∈ l.pending,
    p.sequence ≠ 0 → p.sequence = q.sequence → p.requestId = q.requestId
  transactions : ∀ p ∈ l.pending, p.transactionId ≠ 0

theorem Tracked.empty (none : l.pending = []) (replay : l.replay = []) : l.Tracked := by
  refine ⟨?_, ?_, ?_, ?_⟩ <;> simp [none, replay]

/-- A shorter replay list and the same requests. -/
theorem Tracked.sublist (h : l.Tracked) (pending : k.pending = l.pending)
    (replay : k.replay.Sublist l.replay) : k.Tracked where
  once := h.once.sublist replay
  replayed id mem := by
    rw [pending]
    exact h.replayed id (replay.subset mem)
  numbers := pending ▸ h.numbers
  transactions := pending ▸ h.transactions

theorem Tracked.removePending (h : l.Tracked) (wf : l.Wf) (id : Nat) :
    (l.removePending id).Tracked := by
  cases found : l.find id with
  | none =>
    rw [removePending_of_absent found]
    exact h
  | some p =>
    have replay : (l.removePending id).replay = l.replay.filter (· != id) := by
      simp only [Ledger.removePending, found]
    have left {q : Pending} (hq : q ∈ (l.removePending id).pending) : q ∈ l.pending :=
      (wf.distinct.mem_removePending.mp hq).1
    refine ⟨?_, fun other mem => ?_, ?_, fun q hq => h.transactions q (left hq)⟩
    · rw [replay]
      exact h.once.filter _
    · rw [replay, List.mem_filter] at mem
      obtain ⟨q, hq, rfl, numbered⟩ := h.replayed other mem.1
      exact ⟨q, wf.distinct.mem_removePending.mpr ⟨hq, by simpa using mem.2⟩, rfl, numbered⟩
    · exact fun q hq r hr => h.numbers q (left hq) r (left hr)

theorem Tracked.prepareReplay (h : l.Tracked) (wf : l.Wf) : l.prepareReplay.Tracked := by
  have pending := wf.distinct.prepareReplay_pending
  refine ⟨h.once, fun id mem => ?_, ?_, ?_⟩
  · obtain ⟨p, hp, rfl, numbered⟩ := h.replayed id mem
    rw [pending]
    exact ⟨_, List.mem_map_of_mem hp, by simp, by simpa using numbered⟩
  · rw [pending]
    simpa [List.forall_mem_map] using h.numbers
  · rw [pending]
    simpa [List.forall_mem_map] using h.transactions

theorem Quiet.tracked (h : Quiet l es k) (wf : l.Wf) (tracked : l.Tracked) : k.Tracked := by
  cases h with
  | fail => exact tracked.removePending wf _
  | clear => exact .empty rfl rfl
  | unsend => exact tracked.prepareReplay wf
  | trim => exact tracked.sublist rfl List.filter_sublist
  | forgetReplay => exact tracked.sublist rfl (List.nil_sublist _)
  | forgetInbound => exact tracked.sublist rfl (List.Sublist.refl _)
  | renumber => exact tracked.sublist rfl (List.Sublist.refl _)

theorem Quiets.tracked (h : Quiets l es k) (wf : l.Wf) (tracked : l.Tracked) : k.Tracked :=
  (Trace.invariant (fun l => l.Wf ∧ l.Tracked)
    (fun move before => ⟨move.wf before.1, move.tracked before.1 before.2⟩) h ⟨wf, tracked⟩).2

theorem Tracked.insert (h : l.Tracked) (sequence : p.sequence = 0)
    (transaction : p.transactionId ≠ 0) : (l.insert p).Tracked := by
  have cases {q : Pending} (hq : q ∈ (l.insert p).pending) : q ∈ l.pending ∨ q = p := by
    simpa [Ledger.insert] using hq
  refine ⟨h.once, fun id mem => ?_, fun q hq r hr numbered same => ?_, fun q hq => ?_⟩
  · obtain ⟨q, hq, rest⟩ := h.replayed id mem
    exact ⟨q, List.mem_append_left _ hq, rest⟩
  · rcases cases hq with hq | rfl
    · rcases cases hr with hr | rfl
      · exact h.numbers q hq r hr numbered same
      · exact absurd (same.trans sequence) numbered
    · exact absurd sequence numbered
  rcases cases hq with hq | rfl
  · exact h.transactions q hq
  · exact transaction

/-- A request that is sent is on the replay list, under a number that no other request has. -/
theorem Tracked.transmit (h : l.Tracked) (pending : l.pending = before ++ p :: rest)
    (requestId : q.requestId = p.requestId) (transactionId : q.transactionId = p.transactionId)
    (numbered : q.sequence ≠ 0) (fresh : ∀ r ∈ before ++ rest, r.sequence ≠ q.sequence) :
    (l.transmit before.length q).Tracked := by
  have after := transmit_pending pending q
  have old {r : Pending} (hr : r ∈ before ++ rest) : r ∈ l.pending := by
    rw [pending]
    simp only [List.mem_append, List.mem_cons] at hr ⊢
    exact hr.imp_right .inr
  have cases {r : Pending} (hr : r ∈ (l.transmit before.length q).pending) :
      r ∈ before ++ rest ∨ r = { q with sent := true, mayHaveExecuted := true } := by
    rw [after] at hr
    simp only [List.mem_append, List.mem_cons] at hr ⊢
    tauto
  have hp : p ∈ l.pending := by simp [pending]
  refine ⟨?_, fun id mem => ?_, fun r hr t ht nonzero same => ?_, fun r hr => ?_⟩
  · unfold Ledger.transmit
    dsimp only
    split
    · exact h.once
    rename_i absent
    refine List.Nodup.append h.once (List.nodup_singleton _) ?_
    simpa using absent
  · rw [after]
    have here : ∃ r ∈ before ++ { q with sent := true, mayHaveExecuted := true } :: rest,
        r.requestId = q.requestId ∧ r.sequence ≠ 0 :=
      ⟨_, List.mem_append_right _ (.head _), rfl, numbered⟩
    rcases (mem_transmit_replay l _ q).mp mem with listed | rfl
    · obtain ⟨r, hr, rfl, nonzero⟩ := h.replayed id listed
      rw [pending] at hr
      rcases List.mem_append.mp hr with hr | hr
      · exact ⟨r, List.mem_append_left _ hr, rfl, nonzero⟩
      rcases List.mem_cons.mp hr with rfl | hr
      · exact requestId ▸ here
      · exact ⟨r, List.mem_append_right _ (.tail _ hr), rfl, nonzero⟩
    · exact here
  · rcases cases hr with hr | rfl <;> rcases cases ht with ht | rfl
    · exact h.numbers r (old hr) t (old ht) nonzero same
    · exact absurd same (fresh r hr)
    · exact absurd same.symm (fresh t ht)
    · rfl
  · rcases cases hr with hr | rfl
    · exact h.transactions r (old hr)
    · exact fun zero => h.transactions p hp (transactionId ▸ zero)

/-- The number a request is sent under is its own. -/
theorem Numbers.fresh_among (h : l.Numbers p q after) (wf : l.Wf) (tracked : l.Tracked)
    (pending : l.pending = before ++ p :: rest) :
    ∀ r ∈ before ++ rest, r.sequence ≠ q.sequence := by
  intro r hr same
  have old : r ∈ l.pending := by
    rw [pending]
    simp only [List.mem_append, List.mem_cons] at hr ⊢
    exact hr.imp_right .inr
  cases h with
  | replayed nonzero =>
    have hp : p ∈ l.pending := by simp [pending]
    have here := tracked.numbers p hp r old nonzero same.symm
    have distinct := wf.distinct
    rw [Distinct, pending, Keyed.Distinct] at distinct
    simp only [List.map_append, List.map_cons] at distinct
    have apart := (List.nodup_middle.mp distinct).notMem
    rw [here, ← List.map_append] at apart
    exact apart (List.mem_map_of_mem hr)
  | fresh zero counter moved =>
    have below := wf.below r old _ counter
    simp only [Pending.numbered] at same
    omega

/-! ## The limits -/

/-- The pending requests stay within their limits. -/
structure Within (queued retained : Nat) (l : Ledger) : Prop where
  queued : l.weigh plain ≤ queued
  retained : l.weigh plainBytes ≤ retained
  messages : l.weigh reserved ≤ maxControlMessages
  bytes : l.weigh reservedBytes ≤ maxControlBytes

theorem Within.mono {queued retained : Nat} (h : l.Within queued retained)
    (fewer : ∀ weight, k.weigh weight ≤ l.weigh weight) : k.Within queued retained :=
  ⟨(fewer _).trans h.queued, (fewer _).trans h.retained, (fewer _).trans h.messages,
    (fewer _).trans h.bytes⟩

end Ledger

open Ledger

variable {m : Machine} {input : Input} {es : List Effect} {l : Ledger} {p : Pending}

/-- A request is only admitted where there is room for it. -/
theorem Machine.within_insert (charged : m.Charged)
    (within : m.Within m.config.maxQueuedMessages m.config.maxRetainedBytes)
    (room : m.begin.saturated p.bytes p.control.isSome = false) {l : Ledger}
    (same : l.pending = m.pending) :
    (l.insert p).Within m.config.maxQueuedMessages m.config.maxRetainedBytes := by
  have sums (weight : Bool → Nat → Nat) : (l.insert p).weigh weight
      = m.weigh weight + weight p.control.isSome p.bytes := by
    rw [weigh_insert, weigh, same]
    rfl
  have lanes := m.weigh_lanes
  have bounds := within
  obtain ⟨queued, retained, messages, bytes⟩ := bounds
  unfold Exec.saturated at room
  cases lane : p.control.isSome with
  | true =>
    simp only [lane, if_true, Bool.or_eq_false_iff, decide_eq_false_iff_not, not_le, not_lt,
      Machine.begin, charged.messages, charged.bytes] at room
    refine ⟨?_, ?_, ?_, ?_⟩ <;> rw [sums, lane] <;>
      simp only [plain, plainBytes, reserved, reservedBytes, if_true, Nat.add_zero]
    · exact queued
    · exact retained
    · omega
    · omega
  | false =>
    simp only [lane, if_false, Bool.or_eq_false_iff, decide_eq_false_iff_not, not_le, not_lt,
      Machine.begin, charged.messages, charged.retained, Bool.false_eq_true] at room
    refine ⟨?_, ?_, ?_, ?_⟩ <;> rw [sums, lane] <;>
      simp only [plain, plainBytes, reserved, reservedBytes, if_false, Bool.false_eq_true,
        Nat.add_zero]
    · omega
    · omega
    · exact messages
    · exact bytes

/-! ## Every run -/

/-- The accounts of a session are in order. -/
structure Machine.Accounted (m : Machine) : Prop where
  charged : m.Charged
  tracked : m.Tracked
  within : m.Within m.config.maxQueuedMessages m.config.maxRetainedBytes

theorem Ledger.Grants.nonzero {asked transactionId : Nat} {after : Option Nat}
    (h : l.Grants asked transactionId after) : transactionId ≠ 0 := by
  cases h with
  | chosen nonzero => exact nonzero
  | counted _ _ _ pos => exact Nat.ne_of_gt pos

/-- A turn of the ledger leaves the accounts in order, and what it removes is covered. -/
theorem Turn.accounted (h : Turn m input es l) (wf : m.toLedger.Wf) (accounted : m.Accounted) :
    l.Charged ∧ l.Tracked ∧ l.Within m.config.maxQueuedMessages m.config.maxRetainedBytes
      ∧ Trace Move m.toLedger es l := by
  obtain ⟨charged, tracked, within⟩ := accounted
  -- Quiet moves after a change that the counters and the replay list do not see.
  have settle {l k : Ledger} {es : List Effect} (quiets : Quiets l es k) (start : l.Wf)
      (keeps : m.toLedger.Keeps l) (pending : l.pending = m.pending)
      (replay : l.replay.Sublist m.replay) :
      k.Charged ∧ k.Tracked ∧ k.Within m.config.maxQueuedMessages m.config.maxRetainedBytes
        ∧ Trace Move m.toLedger es k := by
    obtain ⟨after, moves, fewer⟩ := quiets.charged start (keeps.charged charged)
    refine ⟨after, quiets.tracked start (tracked.sublist pending replay), within.mono ?_,
      keeps.trace moves⟩
    exact fun weight => (fewer weight).trans (keeps.sums weight).le
  -- Nothing more happens to the ledger, whatever is put out.
  have told {l : Ledger} (es : List Effect) : Trace Move l es l :=
    .single (.keep (.of_pending rfl rfl rfl rfl))
  cases h with
  | quiet idle quiets =>
    exact settle quiets wf (.of_pending rfl rfl rfl rfl) rfl (List.Sublist.refl _)
  | reject asked advance quiets known =>
    obtain ⟨charged, tracked, within, moves⟩ := settle quiets (wf.congr rfl rfl rfl)
      (.of_pending rfl rfl rfl rfl) rfl (List.Sublist.refl _)
    exact ⟨charged, tracked, within, moves.trans (told _)⟩
  | @admitRequest _ p request after asked absent sequence sent may grants room =>
    have keeps : m.toLedger.Keeps { m.toLedger with nextTransactionId := after } :=
      .of_pending rfl rfl rfl rfl
    have tracked : Tracked { m.toLedger with nextTransactionId := after } :=
      tracked.sublist rfl (List.Sublist.refl _)
    exact ⟨(keeps.charged charged).insert p, tracked.insert sequence grants.nonzero,
      Machine.within_insert charged within room rfl,
      keeps.trace (.single .insert)⟩
  | @send p q before rest after pending candidate first numbers =>
    have numbered := numbers.numbered wf (by simp [pending])
    have bytes : q.bytes = p.bytes := by cases numbers <;> rfl
    have keeps : m.toLedger.Keeps
        ({ m.toLedger with nextOutbound := after }.transmit before.length q) :=
      ⟨weigh_transmit (l := { m.toLedger with nextOutbound := after }) pending numbered.control
        bytes, rfl, rfl, rfl⟩
    have tracked' : Tracked { m.toLedger with nextOutbound := after } :=
      tracked.sublist rfl (List.Sublist.refl _)
    exact ⟨keeps.charged charged, tracked'.transmit pending numbered.requestId
        numbered.transactionId numbered.nonzero (numbers.fresh_among wf tracked pending),
      within.mono fun weight => (keeps.sums weight).le, .single (.keep keeps)⟩
  | written found oneWay =>
    refine ⟨charged.removePending _, tracked.removePending wf _, within.mono fun weight => ?_,
      .single (.remove found (charged.covers found))⟩
    rw [weigh_removePending found]
    exact Nat.le_add_left _ _
  | answer newer quiets kept found may twoWay same =>
    obtain ⟨charged, tracked, within, moves⟩ := settle quiets (wf.received _)
      (.of_pending rfl rfl rfl rfl) rfl List.filter_sublist
    refine ⟨charged.removePending _, tracked.removePending (quiets.wf (wf.received _)) _,
      within.mono fun weight => ?_, moves.trans (.single (.remove found (charged.covers found)))⟩
    rw [weigh_removePending found]
    exact Nat.le_add_left _ _
  | incoming newer quiets kept =>
    obtain ⟨charged, tracked, within, moves⟩ := settle quiets (wf.received _)
      (.of_pending rfl rfl rfl rfl) rfl List.filter_sublist
    exact ⟨charged, tracked, within, moves.trans (told _)⟩
  | overflow newer quiets =>
    exact settle quiets (wf.received _) (.of_pending rfl rfl rfl rfl) rfl List.filter_sublist

theorem Machine.Accounted.step (h : m.Accounted) (wf : m.Reached) (input : Input) :
    (m.step input).1.Accounted := by
  obtain ⟨charged, tracked, within, -⟩ := (Machine.step_turn wf input).accounted wf.ledger h
  have limits : (m.step input).1.config.maxQueuedMessages = m.config.maxQueuedMessages
      ∧ (m.step input).1.config.maxRetainedBytes = m.config.maxRetainedBytes := by
    have same := (Prod.mk.inj (Machine.step_of wf.sound input).limits).2
    exact ⟨(Prod.mk.inj same).1, (Prod.mk.inj (Prod.mk.inj same).2).1⟩
  exact ⟨charged, tracked, by rw [limits.1, limits.2]; exact within⟩

end RadosRs.Msgr.Session
