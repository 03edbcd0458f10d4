import RadosRs.Osd.Mutations

/-!
# The mutations as the log tells them

The log of a run says which mutations have been admitted and how they have completed, and
`answer` says what a flush is to make of it: nothing while a mutation before it has not
completed, and then whether all their outcomes are known.  The flush itself sees only
the pending mutations, the earliest unknown outcome and its watermark.

`Recorded` connects the two.  Sequence numbers and watermarks grow along the log, hence
the mutations before a flush are those up to its watermark.  One of them is pending if
and only if it has been admitted and has not completed, and the earliest unknown outcome
is up to the watermark if and only if one of their outcomes is unknown.
-/

namespace RadosRs.Osd

open Fallible Fixed

/-! ## The state -/

namespace MutationState

/-- The mutation is pending. -/
def Pending (m : MutationState) (sequence : Nat) : Prop :=
  ∃ retained, (sequence, retained) ∈ m.pending

/-- The limits are kept and the retained bytes are counted. -/
structure Accounted (m : MutationState) : Prop where
  distinct : Keyed.Distinct Prod.fst m.pending
  assigned : ∀ sequence, m.Pending sequence → sequence ≤ m.nextSequence
  retained : m.retainedBytes = (m.pending.map Prod.snd).sum
  bytes : m.retainedBytes ≤ maxMutationBytes
  count : m.pending.length ≤ maxMutations

/-- What completing a pending mutation does. -/
structure Completes (m : MutationState) (sequence : Nat) (error : Option Error)
    (m' : MutationState) : Prop where
  accounted : m'.Accounted
  nextSequence : m'.nextSequence = m.nextSequence
  pending : ∀ other, m'.Pending other ↔ m.Pending other ∧ other ≠ sequence
  unknown : ∀ watermark,
    m'.unknown watermark = true ↔
      m.unknown watermark = true ∨ leavesUnknown error = true ∧ sequence ≤ watermark

/-- What admitting a mutation does. -/
structure Admits (m : MutationState) (sequence : Nat) (m' : MutationState) : Prop where
  accounted : m'.Accounted
  assigned : sequence = m.nextSequence + 1
  nextSequence : m'.nextSequence = sequence
  pending : ∀ other, m'.Pending other ↔ m.Pending other ∨ other = sequence
  unknown : m'.earliestUnknown = m.earliestUnknown

variable {m m' : MutationState} {sequence retained : Nat}

theorem waiting_iff {watermark : Nat} :
    m.waiting watermark = true ↔ ∃ sequence, m.Pending sequence ∧ sequence ≤ watermark := by
  constructor
  · intro waiting
    obtain ⟨⟨sequence, retained⟩, mem, le⟩ := List.any_eq_true.mp waiting
    exact ⟨sequence, ⟨retained, mem⟩, of_decide_eq_true le⟩
  · rintro ⟨sequence, ⟨retained, mem⟩, le⟩
    exact List.any_eq_true.mpr ⟨(sequence, retained), mem, decide_eq_true le⟩

/-- The earliest unknown outcome stands for all of them. -/
theorem unknown_update {earliest : Option Nat} (unknown : Bool) (watermark : Nat) :
    (if unknown && earliest.all (sequence < ·) then some sequence else earliest).any
        (· ≤ watermark) = true ↔
      earliest.any (· ≤ watermark) = true ∨ unknown = true ∧ sequence ≤ watermark := by
  cases unknown <;> cases earliest <;> simp
  next earlier =>
    split
    next before =>
      simp only [Option.any_some, decide_eq_true_eq]
      omega
    rename_i after
    simp only [Option.any_some, decide_eq_true_eq]
    omega

theorem complete_of_pending (h : m.Accounted) (pending : m.Pending sequence)
    (error : Option Error) :
    ∃ m', completeMutationState m sequence error = .ok (m', true) ∧
      m.Completes sequence error m' := by
  obtain ⟨retained, mem⟩ := pending
  have found : m.pending.find? (·.1 == sequence) = some (sequence, retained) :=
    h.distinct.find?_eq mem
  have perm := Keyed.perm_of_find? found
  have total : m.retainedBytes =
      retained + ((m.pending.eraseP (·.1 == sequence)).map Prod.snd).sum := by
    rw [h.retained, (perm.map Prod.snd).sum_nat, List.map_cons, List.sum_cons]
  have left : m.retainedBytes - retained =
      ((m.pending.eraseP (·.1 == sequence)).map Prod.snd).sum := by omega
  have others (other : Nat) :
      (∃ r, (other, r) ∈ m.pending.eraseP (·.1 == sequence)) ↔
        m.Pending other ∧ other ≠ sequence := by
    constructor
    · rintro ⟨r, mem⟩
      obtain ⟨mem, ne⟩ := h.distinct.mem_eraseP.mp mem
      exact ⟨⟨r, mem⟩, ne⟩
    · rintro ⟨⟨r, mem⟩, ne⟩
      exact ⟨r, h.distinct.mem_eraseP.mpr ⟨mem, ne⟩⟩
  unfold completeMutationState
  rw [found]
  refine ⟨_, bind_eq_ok.mpr ⟨_, guarded_eq_ok.mpr ⟨by omega, rfl⟩, rfl⟩,
    ⟨h.distinct.eraseP, fun other mem => ?_, left, ?_, ?_⟩, rfl, others, ?_⟩
  · exact h.assigned other ((others other).mp mem).1
  · exact Nat.le_trans (Nat.sub_le _ _) h.bytes
  · exact Nat.le_trans (List.eraseP_sublist.length_le) h.count
  · exact unknown_update (leavesUnknown error)

theorem admit_cases (h : m.Accounted) (retained : Nat) :
    (∃ error, admitMutationState m retained = fail error) ∨
      admitMutationState m retained = .ok (m, none) ∨
      ∃ m' sequence, admitMutationState m retained = .ok (m', some sequence) ∧
        m.Admits sequence m' := by
  unfold admitMutationState
  split
  · exact .inl ⟨_, rfl⟩
  split
  · exact .inr (.inl rfl)
  next room =>
    split
    · exact .inl ⟨_, rfl⟩
    rename_i sequence added
    obtain ⟨few, small⟩ := not_or.mp room
    have few : m.pending.length < maxMutations := Nat.lt_of_not_le few
    have next := checkedAdd_eq_some added
    have bytes := h.bytes
    have fits : m.retainedBytes + retained ≤ maxMutationBytes := by omega
    have apart : ∀ entry ∈ m.pending, entry.1 ≠ sequence := by
      intro entry mem same
      have := h.assigned entry.1 ⟨entry.2, mem⟩
      omega
    have fresh : m.pending.eraseP (·.1 == sequence) = m.pending :=
      List.eraseP_of_forall_not fun entry mem => by simpa using apart entry mem
    refine .inr (.inr ⟨_, sequence, bind_eq_ok.mpr ⟨m.retainedBytes + retained,
      guarded_eq_ok.mpr ⟨Nat.le_trans fits (by decide), rfl⟩, rfl⟩, ?_⟩)
    rw [fresh]
    refine ⟨⟨Keyed.distinct_cons.mpr ⟨apart, h.distinct⟩, ?_, ?_, fits, few⟩, next, rfl, ?_,
      rfl⟩
    · rintro other ⟨r, mem⟩
      rcases List.mem_cons.mp mem with same | mem
      · cases same
        exact Nat.le_refl _
      have := h.assigned other ⟨r, mem⟩
      dsimp only
      omega
    · dsimp only
      rw [List.map_cons, List.sum_cons, ← h.retained, Nat.add_comm]
    · intro other
      constructor
      · rintro ⟨r, mem⟩
        rcases List.mem_cons.mp mem with same | mem
        · cases same
          exact .inr rfl
        · exact .inl ⟨r, mem⟩
      rintro (⟨r, mem⟩ | rfl)
      · exact ⟨r, .tail _ mem⟩
      · exact ⟨retained, .head _⟩

end MutationState

namespace Mutations

/-! ## The log -/

def Event.admission : Event → Option Nat
  | .admitted sequence => some sequence
  | _ => none

/-- The sequence numbers handed out, in order. -/
def sequences (log : List Event) : List Nat := log.filterMap Event.admission

def completed (log : List Event) (sequence : Nat) : Bool :=
  log.any fun
    | .completed other _ => other == sequence
    | _ => false

/-- The mutation has completed and its outcome is unknown. -/
def unknown (log : List Event) (sequence : Nat) : Bool :=
  log.any fun
    | .completed other error => other == sequence && leavesUnknown error
    | _ => false

/-- What a flush is to say of the mutations that it waits for: nothing while one of them has not
completed, and then whether all their outcomes are known. -/
def answer (earlier : List Nat) (log : List Event) : Option (Except Error Unit) :=
  if earlier.all (completed log) then
    some (if earlier.any (unknown log) then .error (.outcomeUnknown .transport) else .ok ())
  else none

variable {log : List Event} {sequence : Nat}

theorem mem_sequences : sequence ∈ sequences log ↔ .admitted sequence ∈ log := by
  rw [sequences, List.mem_filterMap]
  constructor
  · rintro ⟨event, mem, same⟩
    cases event with
    | admitted other =>
      cases same
      exact mem
    | _ => cases same
  · intro mem
    exact ⟨_, mem, rfl⟩

theorem completed_iff :
    completed log sequence = true ↔ ∃ error, .completed sequence error ∈ log := by
  rw [completed, List.any_eq_true]
  constructor
  · rintro ⟨event, mem, same⟩
    cases event with
    | completed other error =>
      cases eq_of_beq same
      exact ⟨error, mem⟩
    | _ => cases same
  · rintro ⟨error, mem⟩
    exact ⟨_, mem, beq_self_eq_true sequence⟩

variable {more : List Event}

theorem completed_append :
    completed (log ++ more) sequence = (completed log sequence || completed more sequence) :=
  List.any_append ..

theorem unknown_append :
    unknown (log ++ more) sequence = (unknown log sequence || unknown more sequence) :=
  List.any_append ..

theorem completed_of_unknown (h : unknown log sequence = true) : completed log sequence = true := by
  obtain ⟨event, mem, same⟩ := List.any_eq_true.mp h
  cases event with
  | completed other error =>
    exact List.any_eq_true.mpr ⟨_, mem, (Bool.and_eq_true_iff.mp same).1⟩
  | _ => cases same

/-- Sequence numbers grow, and so do the numbers of the flushes.  A watermark is not below the
sequence numbers before it and below those after it. -/
def Event.Before : Event → Event → Prop
  | .admitted a, .admitted b => a < b
  | .admitted a, .started _ watermark => a ≤ watermark
  | .started _ watermark, .admitted b => watermark < b
  | .started flush _, .started flush' _ => flush < flush'
  | _, _ => True

/-- No sequence number or watermark above this one. -/
def Event.Within (last : Nat) : Event → Prop
  | .admitted sequence => sequence ≤ last
  | .started _ watermark => watermark ≤ last
  | _ => True

/-! ### The state as the log tells it -/

/-- The pending mutations are those that have been admitted and have not completed, and the
unknown outcomes are remembered. -/
structure Recorded (log : List Event) (m : MutationState) : Prop where
  accounted : m.Accounted
  ordered : log.Pairwise Event.Before
  newest : ∀ event ∈ log, event.Within m.nextSequence
  admitted : ∀ sequence, completed log sequence = true → .admitted sequence ∈ log
  pending : ∀ sequence, m.Pending sequence ↔ .admitted sequence ∈ log ∧
    completed log sequence = false
  unknown : ∀ watermark, m.unknown watermark = true ↔
    ∃ sequence, unknown log sequence = true ∧ sequence ≤ watermark
  calm : .panicked ∉ log

theorem completed_snoc {event : Event} (other : ∀ error, event ≠ .completed sequence error) :
    completed (log ++ [event]) sequence = completed log sequence := by
  rw [completed_append, Bool.or_eq_left_iff_imp]
  intro here
  obtain ⟨error, mem⟩ := completed_iff.mp here
  exact absurd (List.mem_singleton.mp mem).symm (other error)

theorem unknown_snoc {event : Event} (other : ∀ error, event ≠ .completed sequence error) :
    unknown (log ++ [event]) sequence = unknown log sequence := by
  rw [unknown_append, Bool.or_eq_left_iff_imp]
  intro here
  obtain ⟨error, mem⟩ := completed_iff.mp (completed_of_unknown here)
  exact absurd (List.mem_singleton.mp mem).symm (other error)

namespace Recorded

variable {m m' : MutationState} {error : Option Error} {event : Event}

theorem nil : Recorded [] {} where
  accounted := ⟨List.nodup_nil, nofun, rfl, Nat.zero_le _, Nat.zero_le _⟩
  ordered := .nil
  newest := nofun
  admitted _ := nofun
  pending _ := ⟨nofun, nofun⟩
  unknown _ := ⟨nofun, nofun⟩
  calm := nofun

theorem ordered_snoc (h : Recorded log m) (later : ∀ earlier ∈ log, earlier.Before event) :
    (log ++ [event]).Pairwise Event.Before := by
  refine List.pairwise_append.mpr ⟨h.ordered, List.pairwise_singleton .., ?_⟩
  intro earlier mem last here
  rw [List.mem_singleton.mp here]
  exact later earlier mem

theorem newest_snoc (h : Recorded log m) (grows : m.nextSequence ≤ m'.nextSequence)
    (last : event.Within m'.nextSequence) :
    ∀ event' ∈ log ++ [event], event'.Within m'.nextSequence := by
  intro event' mem
  rcases List.mem_append.mp mem with mem | here
  · have within := h.newest event' mem
    cases event' with
    | admitted => exact Nat.le_trans within grows
    | started => exact Nat.le_trans within grows
    | _ => trivial
  · rw [List.mem_singleton.mp here]
    exact last

theorem calm_snoc (h : Recorded log m) (calm : event ≠ .panicked) : .panicked ∉ log ++ [event] := by
  rw [List.mem_append, List.mem_singleton, not_or]
  exact ⟨h.calm, calm.symm⟩

theorem admitting (h : Recorded log m) (admits : m.Admits sequence m') :
    Recorded (log ++ [.admitted sequence]) m' := by
  have new := admits.assigned
  have next := admits.nextSequence
  have fresh : .admitted sequence ∉ log := by
    intro mem
    have : sequence ≤ m.nextSequence := h.newest _ mem
    omega
  have completed_eq (other : Nat) :
      completed (log ++ [.admitted sequence]) other = completed log other := completed_snoc nofun
  refine ⟨admits.accounted, h.ordered_snoc ?_, h.newest_snoc (by omega) (Nat.le_of_eq next.symm),
    ?_, ?_, ?_, h.calm_snoc nofun⟩
  · intro earlier mem
    have within := h.newest earlier mem
    cases earlier with
    | admitted => exact Nat.lt_of_le_of_lt within (by omega)
    | started => exact Nat.lt_of_le_of_lt within (by omega)
    | _ => trivial
  · intro other done
    rw [completed_eq] at done
    exact List.mem_append_left _ (h.admitted other done)
  · intro other
    rw [admits.pending, h.pending, completed_eq, List.mem_append, List.mem_singleton]
    constructor
    · rintro (⟨mem, open'⟩ | rfl)
      · exact ⟨.inl mem, open'⟩
      · exact ⟨.inr rfl, Bool.eq_false_iff.mpr fun done => fresh (h.admitted _ done)⟩
    rintro ⟨mem | same, open'⟩
    · exact .inl ⟨mem, open'⟩
    · cases same
      exact .inr rfl
  · intro watermark
    have unknown_eq (other : Nat) :
        Mutations.unknown (log ++ [.admitted sequence]) other = Mutations.unknown log other :=
      unknown_snoc nofun
    rw [MutationState.unknown, admits.unknown]
    simp only [unknown_eq]
    exact h.unknown watermark

theorem complete (h : Recorded log m) (pending : m.Pending sequence)
    (completes : m.Completes sequence error m') :
    Recorded (log ++ [.completed sequence error]) m' := by
  have here : completed [.completed sequence error] = (sequence == ·) := by
    funext other
    exact Bool.or_false _
  have known : .admitted sequence ∈ log := ((h.pending sequence).mp pending).1
  refine ⟨completes.accounted, h.ordered_snoc ?_,
    h.newest_snoc (Nat.le_of_eq completes.nextSequence.symm) trivial, ?_, ?_, ?_,
    h.calm_snoc nofun⟩
  · intro earlier _
    cases earlier <;> trivial
  · intro other done
    rw [completed_append, here, Bool.or_eq_true] at done
    rcases done with before | now
    · exact List.mem_append_left _ (h.admitted other before)
    · rw [← eq_of_beq now]
      exact List.mem_append_left _ known
  · intro other
    rw [completes.pending, h.pending, completed_append, here, List.mem_append, Bool.or_eq_false_iff,
      List.mem_singleton, beq_eq_false_iff_ne]
    constructor
    · rintro ⟨⟨mem, open'⟩, ne⟩
      exact ⟨.inl mem, open', ne.symm⟩
    rintro ⟨mem | same, open', ne⟩
    · exact ⟨⟨mem, open'⟩, ne.symm⟩
    · cases same
  · intro watermark
    have unknown_here (other : Nat) : Mutations.unknown [.completed sequence error] other = true ↔
        sequence = other ∧ leavesUnknown error = true := by
      simp [Mutations.unknown]
    simp only [completes.unknown, h.unknown, unknown_append, Bool.or_eq_true, unknown_here]
    constructor
    · rintro (⟨other, lost, le⟩ | ⟨lost, le⟩)
      · exact ⟨other, .inl lost, le⟩
      · exact ⟨sequence, .inr ⟨rfl, lost⟩, le⟩
    rintro ⟨other, lost | ⟨rfl, lost⟩, le⟩
    · exact .inl ⟨other, lost, le⟩
    · exact .inr ⟨lost, le⟩

/-- An event that is not about a mutation. -/
theorem note (h : Recorded log m) (later : ∀ earlier ∈ log, earlier.Before event)
    (within : event.Within m.nextSequence) (calm : event ≠ .panicked)
    (notAdmitted : ∀ sequence, event ≠ .admitted sequence)
    (notCompleted : ∀ sequence error, event ≠ .completed sequence error) :
    Recorded (log ++ [event]) m := by
  have completed_eq (sequence : Nat) :
      completed (log ++ [event]) sequence = completed log sequence :=
    completed_snoc (notCompleted sequence)
  have unknown_eq (sequence : Nat) :
      Mutations.unknown (log ++ [event]) sequence = Mutations.unknown log sequence :=
    unknown_snoc (notCompleted sequence)
  have admitted_iff (sequence : Nat) :
      .admitted sequence ∈ log ++ [event] ↔ .admitted sequence ∈ log := by
    rw [List.mem_append, List.mem_singleton]
    exact or_iff_left fun same => notAdmitted sequence same.symm
  refine ⟨h.accounted, h.ordered_snoc later, h.newest_snoc (Nat.le_refl _) within, ?_, ?_, ?_,
    h.calm_snoc calm⟩
  · simpa only [completed_eq, admitted_iff] using h.admitted
  · simpa only [completed_eq, admitted_iff] using h.pending
  · simpa only [unknown_eq] using h.unknown

theorem refuse (h : Recorded log m) (task : Nat) (error : Error) :
    Recorded (log ++ [.refused task error]) m :=
  h.note (fun earlier _ => by cases earlier <;> trivial) trivial nofun nofun nofun

theorem flushed (h : Recorded log m) (flush : Nat) (result : Except Error Unit) :
    Recorded (log ++ [.flushed flush result]) m :=
  h.note (fun earlier _ => by cases earlier <;> trivial) trivial nofun nofun nofun

theorem start (h : Recorded log m) {flush : Nat}
    (numbered : ∀ earlier watermark, .started earlier watermark ∈ log → earlier < flush) :
    Recorded (log ++ [.started flush m.nextSequence]) m := by
  refine h.note ?_ (Nat.le_refl _) nofun nofun nofun
  intro earlier mem
  cases earlier with
  | admitted => exact h.newest _ mem
  | started before watermark => exact numbered before watermark mem
  | _ => trivial

theorem close (h : Recorded log m) : Recorded log (closeMutationAdmissionState m) :=
  ⟨⟨h.accounted.distinct, h.accounted.assigned, h.accounted.retained, h.accounted.bytes,
    h.accounted.count⟩, h.ordered, h.newest, h.admitted, h.pending, h.unknown, h.calm⟩

/-! ### The mutations before a flush -/

variable {before rest : List Event} {flush watermark : Nat}

/-- A flush starts only once. -/
theorem started_unique (h : Recorded (before ++ .started flush watermark :: rest) m)
    {watermark' : Nat}
    (mem : .started flush watermark' ∈ before ++ .started flush watermark :: rest) :
    watermark' = watermark := by
  obtain ⟨-, after, between⟩ := List.pairwise_append.mp h.ordered
  rcases List.mem_append.mp mem with earlier | mem
  · exact absurd (between _ earlier _ (.head _)) (Nat.lt_irrefl flush)
  rcases List.mem_cons.mp mem with same | later
  · cases same
    rfl
  · exact absurd ((List.pairwise_cons.mp after).1 _ later) (Nat.lt_irrefl flush)

/-- The mutations before a flush are those up to its watermark. -/
theorem mem_before (h : Recorded (before ++ .started flush watermark :: rest) m) :
    sequence ∈ sequences before ↔
      .admitted sequence ∈ before ++ .started flush watermark :: rest ∧ sequence ≤ watermark := by
  obtain ⟨-, after, between⟩ := List.pairwise_append.mp h.ordered
  rw [mem_sequences]
  constructor
  · intro mem
    exact ⟨List.mem_append_left _ mem, between _ mem _ (.head _)⟩
  rintro ⟨mem, le⟩
  rcases List.mem_append.mp mem with mem | later
  · exact mem
  rcases List.mem_cons.mp later with same | later
  · cases same
  · have above : watermark < sequence := (List.pairwise_cons.mp after).1 _ later
    omega

theorem waiting_iff (h : Recorded (before ++ .started flush watermark :: rest) m) :
    m.waiting watermark = true ↔ ∃ sequence ∈ sequences before,
      completed (before ++ .started flush watermark :: rest) sequence = false := by
  rw [MutationState.waiting_iff]
  constructor
  · rintro ⟨sequence, pending, le⟩
    obtain ⟨mem, open'⟩ := (h.pending sequence).mp pending
    exact ⟨sequence, h.mem_before.mpr ⟨mem, le⟩, open'⟩
  rintro ⟨sequence, mem, open'⟩
  obtain ⟨mem, le⟩ := h.mem_before.mp mem
  exact ⟨sequence, (h.pending sequence).mpr ⟨mem, open'⟩, le⟩

theorem unknown_iff (h : Recorded (before ++ .started flush watermark :: rest) m) :
    m.unknown watermark = (sequences before).any
      (Mutations.unknown (before ++ .started flush watermark :: rest)) := by
  rw [Bool.eq_iff_iff, h.unknown, List.any_eq_true]
  constructor
  · rintro ⟨sequence, lost, le⟩
    have mem := h.admitted sequence (completed_of_unknown lost)
    exact ⟨sequence, h.mem_before.mpr ⟨mem, le⟩, lost⟩
  · rintro ⟨sequence, mem, lost⟩
    exact ⟨sequence, lost, (h.mem_before.mp mem).2⟩

/-- The watermark tells a flush what the log of the mutations before it tells. -/
theorem answer_eq (h : Recorded (before ++ .started flush watermark :: rest) m) :
    answer (sequences before) (before ++ .started flush watermark :: rest) =
      if m.waiting watermark then none
      else some (if m.unknown watermark then .error (.outcomeUnknown .transport) else .ok ()) := by
  rw [answer, h.unknown_iff]
  by_cases waiting : m.waiting watermark = true
  · obtain ⟨sequence, mem, open'⟩ := h.waiting_iff.mp waiting
    rw [if_pos waiting, if_neg]
    intro all
    rw [List.all_eq_true.mp all sequence mem] at open'
    cases open'
  rw [if_neg waiting, if_pos]
  refine List.all_eq_true.mpr fun sequence mem => ?_
  by_contra open'
  exact waiting (h.waiting_iff.mpr ⟨sequence, mem, Bool.eq_false_iff.mpr open'⟩)

end Recorded

end Mutations

end RadosRs.Osd
