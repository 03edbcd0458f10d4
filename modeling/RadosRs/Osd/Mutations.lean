import RadosRs.Lib.Fallible
import RadosRs.Lib.Keyed
import RadosRs.Lib.Mealy
import RadosRs.Osd.Client

/-!
# Mutations in progress, and flushes

A mutation is admitted under the next sequence number, if there is room for the bytes it
retains, and is pending until it completes.  A flush takes the last sequence number as
its watermark and waits until no mutation up to it is pending.  Of the mutations whose
outcome is unknown only the earliest is remembered, for good, and a flush fails if it is
not after the watermark.

The state is behind a lock that is held for one access at a time, and the tasks that
call `admit_mutation`, `execute_mutation` and `flush` run in any order between two
accesses.  `Task` has a case for each place where another task may come in: before each
access, and while a task waits for a change of the state.  One step of the system is the
beginning of a call, a turn of a task up to the next such place, or the end of a task
that is dropped.  What the surroundings decide comes with the turn in an `Answer`.

The changes are announced in a channel.  A task that waits for one has subscribed under
the lock and can go on as soon as the channel has had another announcement since.
-/

namespace RadosRs.Osd

open Fallible Fixed

def maxMutations : Nat := 64

def maxMutationBytes : Nat := 64 * 32 * 1024 * 1024

/-! ## The state -/

/-- A pending mutation is listed with the bytes it retains. -/
structure MutationState where
  admissionClosed : Bool := false
  nextSequence : Nat := 0
  pending : List (Nat × Nat) := []
  retainedBytes : Nat := 0
  earliestUnknown : Option Nat := none
  deriving DecidableEq, Repr

/-- The outcome of the mutation is unknown. -/
def leavesUnknown : Option Error → Bool
  | some (.outcomeUnknown _) => true
  | _ => false

/-- The mutation is not pending any more.  The answer is whether it was. -/
def completeMutationState (state : MutationState) (sequence : Nat) (error : Option Error) :
    Run Error (MutationState × Bool) :=
  match state.pending.find? (·.1 == sequence) with
  | none => .ok (state, false)
  | some (_, retained) => do
      let retainedBytes ← minus state.retainedBytes retained
      let earliestUnknown :=
        if leavesUnknown error && state.earliestUnknown.all (sequence < ·) then some sequence
        else state.earliestUnknown
      let pending := state.pending.eraseP (·.1 == sequence)
      return ({ state with pending, retainedBytes, earliestUnknown }, true)

/-- The sequence number of a new mutation, if there is room for it. -/
def admitMutationState (state : MutationState) (retained : Nat) :
    Run Error (MutationState × Option Nat) :=
  if state.admissionClosed then fail .closed
  else if state.pending.length ≥ maxMutations
      ∨ retained > maxMutationBytes - state.retainedBytes then .ok (state, none)
  else
    match checkedAdd u64Max state.nextSequence 1 with
    | none => fail .limitExceeded
    | some sequence => do
        let retainedBytes ← within u64Max (state.retainedBytes + retained)
        let pending := (sequence, retained) :: state.pending.eraseP (·.1 == sequence)
        return ({ state with nextSequence := sequence, pending, retainedBytes }, some sequence)

def closeMutationAdmissionState (state : MutationState) : MutationState :=
  { state with admissionClosed := true }

/-- A mutation up to the watermark is pending. -/
def MutationState.waiting (state : MutationState) (watermark : Nat) : Bool :=
  state.pending.any (·.1 ≤ watermark)

/-- The outcome of a mutation up to the watermark is unknown. -/
def MutationState.unknown (state : MutationState) (watermark : Nat) : Bool :=
  state.earliestUnknown.any (· ≤ watermark)

/-! ## The client -/

/-- The channel has had so many announcements, the last of them of the revision. -/
structure Channel where
  revision : Nat := 0
  announced : Nat := 0
  deriving DecidableEq, Repr

/-- What the tasks share. -/
structure Client where
  nextTransaction : Nat := 1
  mutations : MutationState := {}
  mutationChanged : Channel := {}
  closed : Bool := false
  deriving DecidableEq, Repr

def Client.announce (c : Client) : Client :=
  { c with
    mutationChanged :=
      ⟨(c.mutationChanged.revision + 1) % 2 ^ 64, c.mutationChanged.announced + 1⟩ }

def Client.completeMutation (c : Client) (sequence : Nat) (error : Option Error) :
    Run Error Client := do
  let (mutations, changed) ← completeMutationState c.mutations sequence error
  let c := { c with mutations }
  return if changed then c.announce else c

def Client.beginShutdown (c : Client) : Client :=
  { c with mutations := closeMutationAdmissionState c.mutations }.announce

def Client.takeTransactionId (c : Client) : Option (Client × Nat) :=
  (checkedAdd u64Max c.nextTransaction 1).map fun later =>
    ({ c with nextTransaction := later }, c.nextTransaction)

namespace Mutations

/-- What the outside sees. -/
inductive Event where
  | refused (task : Nat) (error : Error)
  | admitted (sequence : Nat)
  | completed (sequence : Nat) (error : Option Error)
  | started (flush watermark : Nat)
  | flushed (flush : Nat) (result : Except Error Unit)
  | panicked
  deriving DecidableEq

/-- Completes a mutation once. -/
structure MutationCompletion where
  sequence : Option Nat
  deriving DecidableEq, Repr

namespace MutationCompletion

def finish (completion : MutationCompletion) (c : Client) (error : Option Error) :
    Run Error (Client × MutationCompletion × List Event) :=
  match completion.sequence with
  | none => .ok (c, completion, [])
  | some sequence => do
      let c ← c.completeMutation sequence error
      return (c, ⟨none⟩, [.completed sequence error])

/-- A completion that is dropped finishes, and its mutation's outcome is unknown. -/
def drop (completion : MutationCompletion) (c : Client) :
    Run Error (Client × MutationCompletion × List Event) :=
  completion.finish c (some (.outcomeUnknown .transport))

end MutationCompletion

/-! ## Tasks -/

inductive Task where
  /-- The next turn of the loop in `admit_mutation`. -/
  | admitting (retained : Nat)
  /-- There was no room, and a change is waited for. -/
  | crowded (retained announced : Nat)
  /-- Admitted, but without a transaction id yet. -/
  | admitted (sequence : Nat)
  /-- There was no transaction id. -/
  | unidentified (sequence : Nat)
  /-- The task that is to execute the mutation has not run yet. -/
  | spawned (sequence : Nat)
  | executing (completion : MutationCompletion)
  /-- Executed, with the completion still to be dropped. -/
  | executed (completion : MutationCompletion)
  /-- The next turn of the loop in `flush`. -/
  | flushing (watermark : Nat)
  /-- A mutation up to the watermark was pending, and a change is waited for. -/
  | awaiting (watermark : Nat) (unknown : Bool) (announced : Nat)
  /-- The wait of a flush has failed. -/
  | interrupted (watermark : Nat) (unknown : Bool) (error : Error)
  | ended
  deriving DecidableEq, Repr

/-- The options at the beginning of a turn, how a wait ends, and the error of the executed
mutation, if there is one. -/
structure Answer where
  options : OptionsView
  wait : Wait
  error : Option Error
  deriving DecidableEq, Repr

/-- What an access leaves: what is shared, the task, and what the outside has seen of it. -/
abbrev Access := Client × Task × List Event

/-- One turn of the loop in `admit_mutation`. -/
def admitMutation (c : Client) (task retained : Nat) (options : OptionsView) :
    Run Error Access :=
  match checkOptions options with
  | .error error => .ok (c, .ended, [.refused task error])
  | .ok () =>
    if c.closed then .ok (c, .ended, [.refused task .closed])
    else
      match admitMutationState c.mutations retained with
      | .error (.error error) => .ok (c, .ended, [.refused task error])
      | .error fault => .error fault
      | .ok (mutations, none) =>
        .ok ({ c with mutations }, .crowded retained c.mutationChanged.announced, [])
      | .ok (mutations, some sequence) =>
        .ok ({ c with mutations }, .admitted sequence, [.admitted sequence])

/-- One turn of the loop in `flush`. -/
def flush (c : Client) (task watermark : Nat) : Access :=
  let unknown := c.mutations.unknown watermark
  if c.mutations.waiting watermark then
    (c, .awaiting watermark unknown c.mutationChanged.announced, [])
  else
    (c, .ended, [.flushed task (if unknown then .error (.outcomeUnknown .transport) else .ok ())])

/-- The cause of an unknown outcome when the wait of a flush fails. -/
def unknownCause : Error → UnknownCause
  | .cancelled => .cancelled
  | .timeout => .timeout
  | _ => .transport

/-- A wait for a change goes on until there is one. -/
def waitForChange (c : Client) (task next : Task) (announced : Nat) : Access :=
  if announced < c.mutationChanged.announced then (c, next, []) else (c, task, [])

/-- A turn of a task. -/
def Task.turn (c : Client) (number : Nat) (task : Task) (answer : Answer) : Run Error Access :=
  match task with
  | .admitting retained => admitMutation c number retained answer.options
  | .crowded retained announced =>
    match waitFor answer.wait with
    | .error error => .ok (c, .ended, [.refused number error])
    | .ok () => .ok (waitForChange c task (.admitting retained) announced)
  | .admitted sequence =>
    match c.takeTransactionId with
    | none => .ok (c, .unidentified sequence, [])
    | some (c, _) => .ok (c, .spawned sequence, [])
  | .unidentified sequence => do
      let c ← c.completeMutation sequence (some .limitExceeded)
      return (c, .ended,
        [.completed sequence (some .limitExceeded), .refused number .limitExceeded])
  | .spawned sequence => .ok (c, .executing ⟨some sequence⟩, [])
  | .executing completion => do
      let (c, completion, events) ← completion.finish c answer.error
      return (c, .executed completion, events)
  | .executed completion => do
      let (c, _, events) ← completion.drop c
      return (c, .ended, events)
  | .flushing watermark => .ok (flush c number watermark)
  | .awaiting watermark unknown announced =>
    match waitFor answer.wait with
    | .error error => .ok (c, .interrupted watermark unknown error, [])
    | .ok () => .ok (waitForChange c task (.flushing watermark) announced)
  | .interrupted watermark unknown error =>
    let unknown := unknown || c.mutations.unknown watermark
    .ok (c, .ended,
      [.flushed number
        (.error (if unknown then .outcomeUnknown (unknownCause error) else error))])
  | .ended => .ok (c, .ended, [])

/-- A task that is dropped.  It can be only where it waits, and before it has run. -/
def Task.drop (c : Client) (task : Task) : Run Error Access :=
  match task with
  | .executing completion => do
      let (c, _, events) ← completion.drop c
      return (c, .ended, events)
  | .crowded .. | .spawned _ | .awaiting .. => .ok (c, .ended, [])
  | _ => .ok (c, task, [])

/-! ## The system -/

structure System where
  client : Client := {}
  tasks : List Task := []
  deriving DecidableEq, Repr

inductive Input where
  | mutate (retained : Nat)
  | flush
  | turn (task : Nat) (answer : Answer)
  | drop (task : Nat)
  | beginShutdown
  | close
  deriving DecidableEq, Repr

/-- The system after an access of a task. -/
def System.settle (s : System) (task : Nat) : Run Error Access → System × List Event
  | .ok (client, later, events) => (⟨client, s.tasks.set task later⟩, events)
  | .error _ => (s, [.panicked])

def step (s : System) : Input → System × List Event
  | .mutate retained =>
    if retained > maxMutationBytes then
      ({ s with tasks := s.tasks ++ [.ended] }, [.refused s.tasks.length .limitExceeded])
    else ({ s with tasks := s.tasks ++ [.admitting retained] }, [])
  | .flush =>
    let watermark := s.client.mutations.nextSequence
    ({ s with tasks := s.tasks ++ [.flushing watermark] }, [.started s.tasks.length watermark])
  | .turn number answer =>
    match s.tasks[number]? with
    | none => (s, [])
    | some task => s.settle number (task.turn s.client number answer)
  | .drop number =>
    match s.tasks[number]? with
    | none => (s, [])
    | some task => s.settle number (task.drop s.client)
  | .beginShutdown => ({ s with client := s.client.beginShutdown }, [])
  | .close => ({ s with client := { s.client with closed := true } }, [])

end Mutations

end RadosRs.Osd
