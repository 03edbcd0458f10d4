import RadosRs.Osd.MutationLog

/-!
# What a flush waits for

A task relies on facts that the accesses of other tasks must not destroy: a mutation that
it has to complete is pending, and a flush that waits will be told when the last of the
mutations before it completes.  `Keeps` says what an access does to these facts, and
`Accesses` what it does to the task itself.  `Tracks` puts them together for the system
and the log of its run.

A flush therefore answers what `answer` says, in every state that can be reached, and
mutations that are admitted after it has started do not matter to it.
-/

namespace RadosRs.Osd.Mutations

open Fallible Fixed

variable {log : List Event} {sequence : Nat}

/-! ## Tasks -/

/-- The mutation that a task has to complete. -/
def Task.owes : Task → Option Nat
  | .admitted sequence | .unidentified sequence | .spawned sequence => some sequence
  | .executing completion | .executed completion => completion.sequence
  | _ => none

/-- What a task relies on.  A flush that waits either has been told of a change or waits for a
mutation that is pending. -/
def Task.Relies (log : List Event) (c : Client) (number : Nat) : Task → Prop
  | .flushing watermark => .started number watermark ∈ log
  | .awaiting watermark unknown announced =>
    .started number watermark ∈ log ∧
      (unknown = true → c.mutations.unknown watermark = true) ∧
      announced ≤ c.mutationChanged.announced ∧
      (announced = c.mutationChanged.announced → c.mutations.waiting watermark = true)
  | .interrupted watermark unknown _ =>
    .started number watermark ∈ log ∧
      (unknown = true → c.mutations.unknown watermark = true)
  | _ => True

/-- What an access may do to what the other tasks rely on.  A mutation is pending until the task
that has to completes it, and then there is an announcement. -/
structure Keeps (own : Option Nat) (log log' : List Event) (c c' : Client) : Prop where
  log : log ⊆ log'
  pending : ∀ sequence, c.mutations.Pending sequence → own ≠ some sequence →
    c'.mutations.Pending sequence
  unknown : ∀ watermark, c.mutations.unknown watermark = true →
    c'.mutations.unknown watermark = true
  announced : c.mutationChanged.announced ≤ c'.mutationChanged.announced
  quiet : c'.mutationChanged.announced = c.mutationChanged.announced →
    ∀ sequence, c.mutations.Pending sequence → c'.mutations.Pending sequence

section Tasks

variable {c c' : Client} {log' : List Event} {own : Option Nat} {task : Task} {number : Nat}

theorem Task.Relies.keep (h : task.Relies log c number) (keeps : Keeps own log log' c c') :
    task.Relies log' c' number := by
  cases task with
  | flushing watermark => exact keeps.log h
  | awaiting watermark unknown announced =>
    obtain ⟨started, lost, seen, waits⟩ := h
    refine ⟨keeps.log started, fun known => keeps.unknown _ (lost known),
      Nat.le_trans seen keeps.announced, fun current => ?_⟩
    have same : c'.mutationChanged.announced = c.mutationChanged.announced :=
      Nat.le_antisymm (current ▸ seen) keeps.announced
    obtain ⟨sequence, pending, le⟩ := MutationState.waiting_iff.mp (waits (current.trans same))
    exact MutationState.waiting_iff.mpr ⟨sequence, keeps.quiet same sequence pending, le⟩
  | interrupted watermark unknown error =>
    exact ⟨keeps.log h.1, fun known => keeps.unknown _ (h.2 known)⟩
  | _ => trivial

/-- Nothing of the state changes. -/
theorem Keeps.same (grows : log ⊆ log') (mutations : c'.mutations = c.mutations)
    (announced : c.mutationChanged.announced ≤ c'.mutationChanged.announced) :
    Keeps own log log' c c' where
  log := grows
  pending _ h _ := mutations ▸ h
  unknown _ h := mutations ▸ h
  announced := announced
  quiet _ _ h := mutations ▸ h

theorem Keeps.grow {log'' : List Event} (h : Keeps own log log' c c') (grows : log' ⊆ log'') :
    Keeps own log log'' c c' :=
  ⟨List.Subset.trans h.log grows, h.pending, h.unknown, h.announced, h.quiet⟩

/-- How a flush ends. -/
def Task.Concludes (c : Client) : Task → Except Error Unit → Prop
  | .flushing watermark, result =>
    c.mutations.waiting watermark = false ∧
      result =
        if c.mutations.unknown watermark then .error (.outcomeUnknown .transport) else .ok ()
  | .interrupted watermark unknown error, result =>
    result = .error (if unknown || c.mutations.unknown watermark then
      .outcomeUnknown (unknownCause error) else error)
  | _, _ => False

/-- What a task may say. -/
def Task.MaySay (c : Client) (number : Nat) (task : Task) : Event → Prop
  | .started _ _ => False
  | .flushed flush result => flush = number ∧ task.Concludes c result
  | _ => True

/-- What an access of a task comes to. -/
structure Accesses (log : List Event) (c : Client) (number : Nat) (task : Task)
    (access : Access) : Prop where
  recorded : Recorded (log ++ access.2.2) access.1.mutations
  keeps : Keeps task.owes log (log ++ access.2.2) c access.1
  relies : access.2.1.Relies (log ++ access.2.2) access.1 number
  owes : ∀ sequence, access.2.1.owes = some sequence →
    access.1.mutations.Pending sequence ∧
      (task.owes = some sequence ∨ ¬ c.mutations.Pending sequence)
  spoken : ∀ event ∈ access.2.2, task.MaySay c number event

variable {task' : Task}

/-- An access that leaves the state as it is and says nothing. -/
theorem Accesses.silent (recorded : Recorded log c.mutations) (same : c'.mutations = c.mutations)
    (quiet : c'.mutationChanged = c.mutationChanged) (relies : task'.Relies log c' number)
    (owes : ∀ sequence, task'.owes = some sequence →
      task.owes = some sequence ∧ c.mutations.Pending sequence) :
    Accesses log c number task (c', task', []) where
  recorded := by
    rw [List.append_nil, same]
    exact recorded
  keeps := .same (List.subset_append_left _ _) same (quiet ▸ Nat.le_refl _)
  relies := by
    rw [List.append_nil]
    exact relies
  owes sequence here := ⟨same ▸ (owes sequence here).2, .inl (owes sequence here).1⟩
  spoken _ mem := absurd mem List.not_mem_nil

/-- The task has nothing to complete. -/
theorem Accesses.idle (recorded : Recorded log c.mutations) (relies : task'.Relies log c number)
    (free : task'.owes = none) : Accesses log c number task (c, task', []) :=
  .silent recorded rfl rfl relies fun _ here => nomatch free.symm.trans here

/-- An access that ends a task with a word to the outside. -/
theorem Accesses.ends {event : Event} (recorded : Recorded (log ++ [event]) c.mutations)
    (spoken : task.MaySay c number event) : Accesses log c number task (c, .ended, [event]) where
  recorded := recorded
  keeps := .same (List.subset_append_left _ _) rfl (Nat.le_refl _)
  relies := trivial
  owes _ := nofun
  spoken _ mem := List.mem_singleton.mp mem ▸ spoken

theorem completeMutation_keeps (recorded : Recorded log c.mutations)
    (pending : c.mutations.Pending sequence) (error : Option Error) :
    ∃ c', c.completeMutation sequence error = .ok c' ∧
      Recorded (log ++ [.completed sequence error]) c'.mutations ∧
      Keeps (some sequence) log (log ++ [.completed sequence error]) c c' := by
  obtain ⟨m, run, completes⟩ :=
    MutationState.complete_of_pending recorded.accounted pending error
  refine ⟨_, bind_eq_ok.mpr ⟨_, run, rfl⟩, recorded.complete pending completes,
    List.subset_append_left _ _, ?_, ?_, ?_, ?_⟩
  · intro other here ne
    exact (completes.pending other).mpr ⟨here, fun same => ne (same ▸ rfl)⟩
  · intro watermark lost
    exact (completes.unknown watermark).mpr (.inl lost)
  · exact Nat.le_succ _
  · intro same
    exact absurd same (Nat.succ_ne_self _)

/-- A completion finishes at most once. -/
theorem finish_accesses {completion : MutationCompletion} (recorded : Recorded log c.mutations)
    (pending : ∀ sequence, completion.sequence = some sequence → c.mutations.Pending sequence)
    (error : Option Error) (task task' : Task) (same : task.owes = completion.sequence)
    (relies : ∀ log c, task'.Relies log c number) (free : task'.owes = none) :
    ∃ c' events, completion.finish c error = .ok (c', ⟨none⟩, events) ∧
      Accesses log c number task (c', task', events) := by
  obtain ⟨_ | sequence⟩ := completion
  · exact ⟨c, [], rfl, .idle recorded (relies log c) free⟩
  obtain ⟨c', run, recorded', keeps⟩ :=
    completeMutation_keeps recorded (pending sequence rfl) error
  refine ⟨c', [.completed sequence error], bind_eq_ok.mpr ⟨c', run, rfl⟩, recorded',
    same ▸ keeps, relies _ _, fun _ here => (nomatch free.symm.trans here), fun event mem => ?_⟩
  rw [List.mem_singleton.mp mem]
  trivial

theorem admitMutation_accesses (recorded : Recorded log c.mutations) (retained : Nat)
    (options : OptionsView) :
    ∃ access, admitMutation c number retained options = .ok access ∧
      Accesses log c number task access := by
  have refused (error : Error) : Accesses log c number task (c, .ended, [.refused number error]) :=
    .ends (recorded.refuse number error) trivial
  unfold admitMutation
  split
  next error _ => exact ⟨_, rfl, refused error⟩
  split
  · exact ⟨_, rfl, refused .closed⟩
  · rcases MutationState.admit_cases recorded.accounted retained with
      ⟨error, run⟩ | run | ⟨m, sequence, run, admits⟩
    · rw [run]
      exact ⟨_, rfl, refused error⟩
    · rw [run]
      exact ⟨_, rfl, .silent recorded rfl rfl trivial nofun⟩
    · rw [run]
      refine ⟨_, rfl, recorded.admitting admits,
        ⟨List.subset_append_left _ _, ?_, ?_, Nat.le_refl _, ?_⟩, trivial, ?_, ?_⟩
      · intro other here _
        exact (admits.pending other).mpr (.inl here)
      · intro watermark lost
        rw [MutationState.unknown] at lost ⊢
        rw [admits.unknown]
        exact lost
      · intro _ other here
        exact (admits.pending other).mpr (.inl here)
      · intro other here
        cases here
        refine ⟨(admits.pending sequence).mpr (.inr rfl), .inr fun pending => ?_⟩
        have := recorded.accounted.assigned sequence pending
        have := admits.assigned
        omega
      · intro event mem
        rw [List.mem_singleton.mp mem]
        trivial

theorem flush_accesses {watermark : Nat} (recorded : Recorded log c.mutations)
    (started : .started number watermark ∈ log) :
    Accesses log c number (.flushing watermark) (flush c number watermark) := by
  unfold flush
  dsimp only
  split
  next waiting =>
    exact .silent recorded rfl rfl ⟨started, id, Nat.le_refl _, fun _ => waiting⟩ nofun
  next free =>
    exact .ends (recorded.flushed number _) ⟨rfl, Bool.eq_false_iff.mpr free, rfl⟩

theorem waitForChange_accesses (recorded : Recorded log c.mutations) (task next : Task)
    (relies : task.Relies log c number) (relies' : next.Relies log c number)
    (free : task.owes = none) (free' : next.owes = none) (announced : Nat) :
    Accesses log c number task (waitForChange c task next announced) := by
  unfold waitForChange
  split
  · exact .idle recorded relies' free'
  · exact .idle recorded relies free

theorem turn_accesses (recorded : Recorded log c.mutations) (relies : task.Relies log c number)
    (owes : ∀ sequence, task.owes = some sequence → c.mutations.Pending sequence)
    (answer : Answer) :
    ∃ access, task.turn c number answer = .ok access ∧
      Accesses log c number task access := by
  -- the mutation stays with the task
  have stays {later : Task} (same : later.owes = task.owes) (sequence : Nat)
      (here : later.owes = some sequence) :
      task.owes = some sequence ∧ c.mutations.Pending sequence :=
    ⟨same ▸ here, owes sequence (same ▸ here)⟩
  cases task with
  | admitting retained => exact admitMutation_accesses recorded retained answer.options
  | crowded retained announced =>
    unfold Task.turn
    dsimp only
    split
    next error _ => exact ⟨_, rfl, .ends (recorded.refuse number error) trivial⟩
    · exact ⟨_, rfl, waitForChange_accesses recorded (.crowded retained announced)
        (.admitting retained) trivial trivial rfl rfl announced⟩
  | admitted sequence =>
    unfold Task.turn
    dsimp only
    split
    · exact ⟨_, rfl, .silent recorded rfl rfl trivial (stays rfl)⟩
    rename_i taken
    obtain ⟨_, -, same⟩ := Option.map_eq_some_iff.mp taken
    cases same
    exact ⟨_, rfl, .silent recorded rfl rfl trivial (stays rfl)⟩
  | unidentified sequence =>
    obtain ⟨c', run, recorded', keeps⟩ :=
      completeMutation_keeps recorded (owes sequence rfl) (some .limitExceeded)
    have refused := recorded'.refuse number .limitExceeded
    rw [List.append_assoc] at refused
    refine ⟨_, bind_eq_ok.mpr ⟨c', run, rfl⟩, refused, keeps.grow ?_, trivial, nofun, ?_⟩
    · exact ((List.sublist_append_left [_] [_]).append_left log).subset
    intro event mem
    rcases List.mem_pair.mp mem with rfl | rfl
    · trivial
    · trivial
  | spawned sequence => exact ⟨_, rfl, .silent recorded rfl rfl trivial (stays rfl)⟩
  | executing completion =>
    obtain ⟨c', events, run, accesses⟩ := finish_accesses recorded owes answer.error
      (.executing completion) (.executed ⟨none⟩) rfl (fun _ _ => trivial) rfl
    exact ⟨_, bind_eq_ok.mpr ⟨_, run, rfl⟩, accesses⟩
  | executed completion =>
    obtain ⟨c', events, run, accesses⟩ := finish_accesses recorded owes
      (some (.outcomeUnknown .transport)) (.executed completion) .ended rfl
      (fun _ _ => trivial) rfl
    exact ⟨_, bind_eq_ok.mpr ⟨_, run, rfl⟩, accesses⟩
  | flushing watermark => exact ⟨_, rfl, flush_accesses recorded relies⟩
  | awaiting watermark unknown announced =>
    unfold Task.turn
    dsimp only
    split
    · exact ⟨_, rfl, .silent recorded rfl rfl ⟨relies.1, relies.2.1⟩ nofun⟩
    · exact ⟨_, rfl, waitForChange_accesses recorded (.awaiting watermark unknown announced)
        (.flushing watermark) relies relies.1 rfl rfl announced⟩
  | interrupted watermark unknown error =>
    exact ⟨_, rfl, .ends (recorded.flushed number _) ⟨rfl, rfl⟩⟩
  | ended => exact ⟨_, rfl, .silent recorded rfl rfl trivial nofun⟩

theorem drop_accesses (recorded : Recorded log c.mutations) (relies : task.Relies log c number)
    (owes : ∀ sequence, task.owes = some sequence → c.mutations.Pending sequence) :
    ∃ access, task.drop c = .ok access ∧ Accesses log c number task access := by
  cases task with
  | executing completion =>
    obtain ⟨c', events, run, accesses⟩ := finish_accesses recorded owes
      (some (.outcomeUnknown .transport)) (.executing completion) .ended rfl
      (fun _ _ => trivial) rfl
    exact ⟨_, bind_eq_ok.mpr ⟨_, run, rfl⟩, accesses⟩
  | crowded => exact ⟨_, rfl, .idle recorded trivial rfl⟩
  | spawned => exact ⟨_, rfl, .idle recorded trivial rfl⟩
  | awaiting => exact ⟨_, rfl, .idle recorded trivial rfl⟩
  | _ => exact ⟨_, rfl, .silent recorded rfl rfl relies fun sequence here => ⟨here, owes _ here⟩⟩

end Tasks

/-! ## The system -/

/-- What holds of the system and of what it has put out so far. -/
structure Tracks (log : List Event) (s : System) : Prop where
  recorded : Recorded log s.client.mutations
  numbered : ∀ flush watermark, .started flush watermark ∈ log → flush < s.tasks.length
  relies : ∀ (number : Nat) (task : Task), s.tasks[number]? = some task →
    task.Relies log s.client number
  owes : ∀ (number : Nat) (task : Task) (sequence : Nat), s.tasks[number]? = some task →
    task.owes = some sequence → s.client.mutations.Pending sequence
  apart : ∀ (i j : Nat) (a b : Task) (sequence : Nat), s.tasks[i]? = some a →
    s.tasks[j]? = some b → a.owes = some sequence → b.owes = some sequence → i = j

namespace Tracks

variable {s : System}

theorem nil : Tracks [] {} where
  recorded := .nil
  numbered _ _ mem := absurd mem List.not_mem_nil
  relies _ _ here := nomatch here
  owes _ _ _ here := nomatch here
  apart _ _ _ _ _ here := nomatch here

/-- A new task that has nothing to complete yet. -/
theorem call (h : Tracks log s) {task : Task} (free : task.owes = none) {more : List Event}
    (recorded : Recorded (log ++ more) s.client.mutations)
    (relies : task.Relies (log ++ more) s.client s.tasks.length)
    (numbered : ∀ flush watermark, .started flush watermark ∈ more → flush = s.tasks.length) :
    Tracks (log ++ more) { s with tasks := s.tasks ++ [task] } := by
  have keeps : Keeps none log (log ++ more) s.client s.client :=
    .same (List.subset_append_left _ _) rfl (Nat.le_refl _)
  have known {number : Nat} {found : Task} (here : (s.tasks ++ [task])[number]? = some found) :
      s.tasks[number]? = some found ∨ number = s.tasks.length ∧ found = task := by
    rw [List.getElem?_append] at here
    split at here
    · exact .inl here
    rename_i past
    rw [List.getElem?_singleton] at here
    split at here
    · exact .inr ⟨by omega, (Option.some.inj here).symm⟩
    · cases here
  refine ⟨recorded, fun flush watermark mem => ?_, fun number found here => ?_,
    fun number found sequence here owes => ?_, ?_⟩
  · rw [List.length_append, List.length_singleton]
    rcases List.mem_append.mp mem with before | now
    · exact Nat.lt_succ_of_lt (h.numbered flush watermark before)
    · exact Nat.lt_succ_of_le (Nat.le_of_eq (numbered flush watermark now))
  · rcases known here with here | ⟨rfl, rfl⟩
    · exact (h.relies number found here).keep keeps
    · exact relies
  · rcases known here with here | ⟨rfl, rfl⟩
    · exact h.owes number found sequence here owes
    · cases free.symm.trans owes
  intro number number' found found' sequence here here' owes owes'
  rcases known here with here | ⟨-, rfl⟩
  · rcases known here' with here' | ⟨-, rfl⟩
    · exact h.apart number number' found found' sequence here here' owes owes'
    · cases free.symm.trans owes'
  · cases free.symm.trans owes

/-- An access of a task. -/
theorem access (h : Tracks log s) {number : Nat} {task : Task} {access : Access}
    (here : s.tasks[number]? = some task)
    (accesses : Accesses log s.client number task access) :
    Tracks (log ++ (s.settle number (.ok access)).2) (s.settle number (.ok access)).1 := by
  obtain ⟨client, later, events⟩ := access
  have known {number' : Nat} {found : Task}
      (there : (s.tasks.set number later)[number']? = some found) :
      number' = number ∧ found = later ∨ number' ≠ number ∧ s.tasks[number']? = some found := by
    rw [List.getElem?_set] at there
    split at there
    next same =>
      split at there
      · exact .inl ⟨same.symm, (Option.some.inj there).symm⟩
      · cases there
    next ne => exact .inr ⟨Ne.symm ne, there⟩
  -- what another task has to complete is not what this one had to
  have other {number' : Nat} {found : Task} {sequence : Nat} (ne : number' ≠ number)
      (there : s.tasks[number']? = some found) (owes : found.owes = some sequence) :
      task.owes ≠ some sequence := fun same =>
    ne (h.apart number' number found task sequence there here owes same)
  refine ⟨accesses.recorded, fun flush watermark mem => ?_, fun number' found there => ?_,
    fun number' found sequence there owes => ?_, ?_⟩
  · show flush < (s.tasks.set number later).length
    rw [List.length_set]
    rcases List.mem_append.mp mem with before | now
    · exact h.numbered flush watermark before
    · exact (accesses.spoken _ now).elim
  · rcases known there with ⟨rfl, rfl⟩ | ⟨-, there⟩
    · exact accesses.relies
    · exact (h.relies number' found there).keep accesses.keeps
  · rcases known there with ⟨rfl, rfl⟩ | ⟨ne, there⟩
    · exact (accesses.owes sequence owes).1
    · exact accesses.keeps.pending sequence (h.owes number' found sequence there owes)
        (other ne there owes)
  intro i j a b sequence atI atJ owesA owesB
  -- a task that has just been given its mutation does not share it
  have fresh {j : Nat} {b : Task} (ne : j ≠ number) (atJ : s.tasks[j]? = some b)
      (owesB : b.owes = some sequence) (given : later.owes = some sequence) : False :=
    (accesses.owes sequence given).2.elim (other ne atJ owesB) fun absent =>
      absent (h.owes j b sequence atJ owesB)
  rcases known atI with ⟨rfl, rfl⟩ | ⟨neI, stillI⟩
  · rcases known atJ with ⟨rfl, -⟩ | ⟨neJ, stillJ⟩
    · rfl
    · exact (fresh neJ stillJ owesB owesA).elim
  rcases known atJ with ⟨rfl, rfl⟩ | ⟨neJ, stillJ⟩
  · exact (fresh neI stillI owesA owesB).elim
  · exact h.apart i j a b sequence stillI stillJ owesA owesB

/-- Something that is no access of a task and leaves the pending mutations. -/
theorem change (h : Tracks log s) {c : Client} (recorded : Recorded log c.mutations)
    (keeps : Keeps none log log s.client c) : Tracks (log ++ []) { s with client := c } := by
  rw [List.append_nil]
  exact ⟨recorded, h.numbered, fun number task here => (h.relies number task here).keep keeps,
    fun number task sequence here owes =>
      keeps.pending sequence (h.owes number task sequence here owes) nofun, h.apart⟩

/-- A step is an access of a task, or it says nothing of a flush but that it starts. -/
theorem step_cases (h : Tracks log s) (input : Input) :
    (∃ number task access, s.tasks[number]? = some task ∧
      Accesses log s.client number task access ∧
      Mutations.step s input = s.settle number (.ok access)) ∨
    Tracks (log ++ (Mutations.step s input).2) (Mutations.step s input).1 ∧
      ∀ flush result, .flushed flush result ∉ (Mutations.step s input).2 := by
  have stays : Tracks (log ++ []) s := by rwa [List.append_nil]
  have silent (flush : Nat) (result : Except Error Unit) : Event.flushed flush result ∉ [] :=
    List.not_mem_nil
  cases input with
  | mutate retained =>
    unfold Mutations.step
    dsimp only
    split
    · refine .inr ⟨h.call rfl (h.recorded.refuse _ _) trivial nofun, fun flush result mem => ?_⟩
      cases List.mem_singleton.mp mem
    have recorded : Recorded (log ++ []) s.client.mutations := by
      rw [List.append_nil]
      exact h.recorded
    exact .inr ⟨h.call rfl recorded trivial nofun, silent⟩
  | flush =>
    refine .inr ⟨h.call rfl (h.recorded.start h.numbered) (List.mem_append_right _ (.head _)) ?_,
      fun flush result mem => ?_⟩
    · intro flush watermark mem
      cases List.mem_singleton.mp mem
      rfl
    · cases List.mem_singleton.mp mem
  | turn number answer =>
    unfold Mutations.step
    dsimp only
    split
    · exact .inr ⟨stays, silent⟩
    rename_i task here
    obtain ⟨access, run, accesses⟩ := turn_accesses h.recorded (h.relies number task here)
      (fun sequence => h.owes number task sequence here) answer
    exact .inl ⟨number, task, access, here, accesses, by rw [run]⟩
  | drop number =>
    unfold Mutations.step
    dsimp only
    split
    · exact .inr ⟨stays, silent⟩
    rename_i task here
    obtain ⟨access, run, accesses⟩ := drop_accesses h.recorded (h.relies number task here)
      (fun sequence => h.owes number task sequence here)
    exact .inl ⟨number, task, access, here, accesses, by rw [run]⟩
  | beginShutdown =>
    have keeps : Keeps none log log s.client s.client.beginShutdown :=
      ⟨fun _ => id, fun _ pending _ => pending, fun _ => id, Nat.le_succ _, fun _ _ => id⟩
    exact .inr ⟨h.change h.recorded.close keeps, silent⟩
  | close =>
    have keeps : Keeps none log log s.client { s.client with closed := true } :=
      .same (fun _ => id) rfl (Nat.le_refl _)
    exact .inr ⟨h.change h.recorded keeps, silent⟩

theorem step (h : Tracks log s) (input : Input) :
    Tracks (log ++ (Mutations.step s input).2) (Mutations.step s input).1 := by
  rcases h.step_cases input with ⟨number, task, access, here, accesses, taken⟩ | ⟨tracks, -⟩
  · rw [taken]
    exact h.access here accesses
  · exact tracks

/-- Only a flush that is at its turn ends. -/
theorem concludes (h : Tracks log s) {input : Input} {flush : Nat} {result : Except Error Unit}
    (mem : .flushed flush result ∈ (Mutations.step s input).2) :
    ∃ task, s.tasks[flush]? = some task ∧ task.Concludes s.client result := by
  rcases h.step_cases input with ⟨number, task, access, here, accesses, taken⟩ | ⟨-, silent⟩
  · rw [taken] at mem
    obtain ⟨rfl, concludes⟩ := accesses.spoken _ mem
    exact ⟨task, here, concludes⟩
  · exact absurd mem (silent flush result)

end Tracks

theorem tracks_run (inputs : List Input) :
    Tracks (Mealy.log step {} inputs) (Mealy.after step {} inputs) :=
  Mealy.run_invariant step (fun _ log s => Tracks log s) .nil
    (fun _ _ _ input tracks => tracks.step input) inputs

/-- The flush does what the mutations before it ask for, and nothing depends on the others.  It
succeeds only if all of them have completed with a known outcome, it has its answer at the first
turn after the last of them has completed, and it is not left waiting then. -/
structure System.Flushes (s : System) (log : List Event) (flush : Nat) (earlier : List Nat) :
    Prop where
  ok : ∀ input, .flushed flush (.ok ()) ∈ (step s input).2 →
    ∀ sequence ∈ earlier, completed log sequence = true ∧ unknown log sequence = false
  turn : ∀ watermark a, s.tasks[flush]? = some (.flushing watermark) →
    (step s (.turn flush a)).2 = ((answer earlier log).map (Event.flushed flush)).toList
  woken : ∀ watermark unknown announced,
    s.tasks[flush]? = some (.awaiting watermark unknown announced) →
    (answer earlier log).isSome → announced < s.client.mutationChanged.announced
  interrupted : ∀ watermark prior error a,
    s.tasks[flush]? = some (.interrupted watermark prior error) →
    (step s (.turn flush a)).2 = [.flushed flush (.error
      (if earlier.any (unknown log) then .outcomeUnknown (unknownCause error) else error))]

theorem Tracks.flushes {s : System} {before rest : List Event} {flush watermark : Nat}
    (h : Tracks (before ++ .started flush watermark :: rest) s) :
    s.Flushes (before ++ .started flush watermark :: rest) flush (sequences before) := by
  have recorded := h.recorded
  have answer_eq := recorded.answer_eq
  refine ⟨fun input mem => ?_, fun watermark' a here => ?_,
    fun watermark' prior announced here => ?_, fun watermark' prior error a here => ?_⟩
  · obtain ⟨task, here, concludes⟩ := h.concludes mem
    have relies := h.relies flush task here
    cases task with
    | flushing watermark' =>
      obtain ⟨free, known⟩ := concludes
      rw [recorded.started_unique relies] at free known
      rw [recorded.unknown_iff] at known
      intro sequence mem
      constructor
      · by_contra open'
        exact Bool.eq_false_iff.mp free
          (recorded.waiting_iff.mpr ⟨sequence, mem, Bool.eq_false_iff.mpr open'⟩)
      by_contra lost
      have lost := List.any_eq_true.mpr ⟨sequence, mem, Bool.eq_true_of_not_eq_false lost⟩
      rw [if_pos lost] at known
      cases known
    | interrupted => cases concludes
    | _ => exact concludes.elim
  · have same := recorded.started_unique (h.relies flush _ here)
    rw [answer_eq, Mutations.step, here, same]
    show (Mutations.flush s.client flush watermark).2.2 = _
    unfold Mutations.flush
    dsimp only
    split
    · rfl
    · rfl
  · obtain ⟨started, -, seen, waits⟩ := h.relies flush _ here
    rw [recorded.started_unique started] at waits
    intro answered
    refine Nat.lt_of_le_of_ne seen fun current => ?_
    rw [answer_eq, if_pos (waits current)] at answered
    cases answered
  · obtain ⟨started, lost⟩ := h.relies flush _ here
    rw [recorded.started_unique started] at here lost
    have same : (prior || s.client.mutations.unknown watermark) =
        s.client.mutations.unknown watermark := Bool.or_eq_right_iff_imp.mpr lost
    rw [← recorded.unknown_iff, Mutations.step, here]
    show [Event.flushed flush (.error (if (prior || s.client.mutations.unknown watermark) = true
      then .outcomeUnknown (unknownCause error) else error))] = _
    rw [same]

/-- Whatever the order in which the tasks have their turns: the retained bytes are counted and
limited, as are the pending mutations, and nothing underflows.  Sequence numbers grow.  A flush
does what the mutations admitted before it ask for. -/
theorem mutations_flushed (inputs : List Input) :
    let s := Mealy.after step {} inputs
    let log := Mealy.log step {} inputs
    s.client.mutations.retainedBytes = (s.client.mutations.pending.map Prod.snd).sum ∧
    s.client.mutations.retainedBytes ≤ maxMutationBytes ∧
    s.client.mutations.pending.length ≤ maxMutations ∧
    (∀ sequence, s.client.mutations.Pending sequence ↔
      sequence ∈ sequences log ∧ completed log sequence = false) ∧
    .panicked ∉ log ∧
    (sequences log).Pairwise (· < ·) ∧
    ∀ before rest flush watermark, log = before ++ .started flush watermark :: rest →
      s.Flushes log flush (sequences before) := by
  intro s log
  have tracks : Tracks log s := tracks_run inputs
  have recorded := tracks.recorded
  refine ⟨recorded.accounted.retained, recorded.accounted.bytes, recorded.accounted.count,
    fun sequence => ?_, recorded.calm, ?_, fun before rest flush watermark split => ?_⟩
  · rw [recorded.pending, mem_sequences]
  · refine recorded.ordered.filterMap _ fun event event' before a here a' here' => ?_
    cases event with
    | admitted =>
      cases here
      cases event' with
      | admitted =>
        cases here'
        exact before
      | _ => cases here'
    | _ => cases here
  · rw [split] at tracks ⊢
    exact tracks.flushes

/-- A turn in which nothing fails. -/
def smooth : Answer := ⟨⟨false, false⟩, ⟨⟨false, false⟩, .finished (.ok ())⟩, none⟩

/-- A flush comes between two mutations, and the first of them completes. -/
def overtaken : List Input :=
  [.mutate 3, .turn 0 smooth, .turn 0 smooth, .turn 0 smooth, .flush, .turn 1 smooth, .mutate 5,
    .turn 2 smooth, .turn 0 smooth, .turn 1 smooth]

theorem mutations_flushed_overtaken :
    (Mealy.after step {} overtaken).client.mutations.pending = [(2, 5)] ∧
      (step (Mealy.after step {} overtaken) (.turn 1 smooth)).2 = [.flushed 1 (.ok ())] := by
  obtain ⟨-, -, -, -, -, -, flushes⟩ := mutations_flushed overtaken
  have first := flushes [.admitted 1] [.admitted 2, .completed 1 none] 1 1 (by decide)
  refine ⟨by decide, (first.turn 1 smooth (by decide)).trans ?_⟩
  decide

end RadosRs.Osd.Mutations
