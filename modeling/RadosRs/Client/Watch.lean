import RadosRs.Error
import RadosRs.Lib.Fixed
import RadosRs.Lib.Mealy

/-!
# Watches

A watch is registered with the OSD under a cookie.  A worker hands on what the OSD
notifies it of, keeps the registration alive and recovers it when it may be lost, and
any number of tasks may call `close`.  They meet at a lock, under which every operation
on the object is made.

One step is what a task does up to the next place where it waits: for the lock, for the
answer to an operation, or, in the worker's loop, for whatever comes first.  The order
of the steps, the answers and the room in the queue of events come with the inputs.
-/

namespace RadosRs.Client

open Fixed

inductive Opcode where
  | notify
  | complete
  | disconnect
  deriving DecidableEq, Repr

structure Notification where
  cookie : Nat
  notifyId : Nat
  opcode : Opcode
  data : List UInt8
  notifier : Nat
  deriving DecidableEq, Repr

structure WatchEvent where
  notifyId : Nat
  cookie : Nat
  notifier : Nat
  data : List UInt8
  deriving DecidableEq, Repr

inductive RecvError where
  | lagged
  | closed
  deriving DecidableEq, Repr

/-- Where the worker is: in its loop, waiting for the lock for a ping or in
`recover_watch`, or waiting for the answer to its operation. -/
inductive Worker where
  | starting
  | selecting
  | pingDue
  | recovering
  | operating
  | ended
  deriving DecidableEq, Repr

/-- An operation is made by the worker, or by a call of `close`. -/
inductive WatchOperation where
  | ping
  | reconnect
  | register
  | unwatch (call : Nat)
  deriving DecidableEq, Repr

/-- What the tasks share, and where they are.  The lock is held as long as `operation` is
under way.  `waiting` are the calls of `close` that wait for the lock. -/
structure Watch where
  cookie : Nat
  timeoutSeconds : Nat
  stop : Bool := false
  status : Option Error := none
  done : Bool := false
  operation : Option WatchOperation := none
  unwatched : Bool := false
  worker : Worker := .starting
  generation : Nat := 0
  waiting : List Nat := []
  deriving DecidableEq, Repr

namespace Watch

/-- What is asked of the OSD and granted by it, and what comes out of the watch. -/
inductive Output where
  | sent (operation : WatchOperation) (generation timeout : Nat)
  | accepted (operation : WatchOperation) (generation : Nat)
  | took (received : Except RecvError Notification)
  | event (event : WatchEvent)
  | closed (call : Nat) (result : Except Error Unit)
  deriving DecidableEq

inductive Input where
  | begin (clientStopped : Bool)
  | stopChanged
  | clientStopChanged (stopped : Bool)
  | received (received : Except RecvError Notification) (room : Bool)
  | tick
  | locked
  | answered (result : Except Error Unit)
  | close (call : Nat) (options : Except Error Unit)
  | closeLocked (call : Nat)
  | abandoned (call : Nat) (error : Option Error)
  deriving DecidableEq

/-! ## The worker -/

@[grind] def reportWatchError (w : Watch) (kind : ErrorKind) : Watch :=
  { w with status := w.status.or (some ((Error.new kind).withOperation "ObjectRef::watch")) }

/-- The worker leaves its loop. -/
@[grind] def finish (w : Watch) : Watch := { w with worker := .ended, done := true }

/-- `recover_watch`, up to the lock. -/
@[grind] def recoverWatch (w : Watch) : Watch :=
  match checkedAdd u32Max w.generation 1 with
  | none => (w.reportWatchError .watchInterrupted).finish
  | some generation => { w with generation, worker := .recovering }

def event (n : Notification) : WatchEvent := ⟨n.notifyId, n.cookie, n.notifier, n.data⟩

/-- What the worker does with what it takes from the channel. -/
def receive (w : Watch) (room : Bool) : Except RecvError Notification → Watch × List Output
  | .ok n =>
    if n.cookie = 0 ∧ n.opcode = .disconnect then (w.recoverWatch, [.took (.ok n)])
    else if n.cookie ≠ w.cookie then (w, [.took (.ok n)])
    else
      match n.opcode with
      | .notify =>
        if room then (w, [.took (.ok n), .event (event n)])
        else ((w.reportWatchError .watchInterrupted).finish, [.took (.ok n)])
      | .disconnect => ((w.reportWatchError .watchInterrupted).recoverWatch, [.took (.ok n)])
      | .complete => (w, [.took (.ok n)])
  | .error .lagged =>
    ((w.reportWatchError .watchInterrupted).finish, [.took (.error .lagged)])
  | .error .closed => ((w.reportWatchError .closed).finish, [.took (.error .closed)])

/-- The lock is free, and the worker gets it. -/
def lock (w : Watch) : Watch × List Output :=
  match w.worker with
  | .pingDue =>
    ({ w with worker := .operating, operation := some .ping }, [.sent .ping w.generation 0])
  | .recovering =>
    if w.stop then (w.finish, [])
    else ({ w with worker := .operating, operation := some .reconnect },
      [.sent .reconnect w.generation w.timeoutSeconds])
  | _ => (w, [])

/-- The answer to the operation that is under way.  A reconnect that fails is followed by a
registration under the same lock. -/
def answer (w : Watch) (result : Except Error Unit) : Watch × List Output :=
  let released := { w with operation := none }
  match w.operation, result with
  | none, _ => (w, [])
  | some .ping, .ok _ => ({ released with worker := .selecting }, [])
  | some .ping, .error _ => ((released.reportWatchError .watchInterrupted).recoverWatch, [])
  | some .reconnect, .ok _ =>
    ({ released with worker := .selecting }, [.accepted .reconnect w.generation])
  | some .reconnect, .error _ =>
    ({ w with generation := 0, operation := some .register },
      [.sent .register 0 w.timeoutSeconds])
  | some .register, .ok _ =>
    ({ released with worker := .selecting }, [.accepted .register w.generation])
  | some .register, .error error =>
    ({ released with status := w.status.or (some error) }.finish, [])
  | some (.unwatch call), .ok _ =>
    ({ released with unwatched := true }, [.accepted (.unwatch call) 0, .closed call (.ok ())])
  | some (.unwatch call), .error error => (released, [.closed call (.error error)])

/-! ## Closing -/

def close (w : Watch) (call : Nat) (options : Except Error Unit) : Watch × List Output :=
  let w := { w with stop := true, done := true }
  if w.unwatched then (w, [.closed call (.ok ())])
  else
    match options with
    | .error error => (w, [.closed call (.error error)])
    | .ok _ => ({ w with waiting := call :: w.waiting }, [])

/-- The lock is free, and a call gets it. -/
def closeLocked (w : Watch) (call : Nat) : Watch × List Output :=
  let w := { w with waiting := w.waiting.erase call }
  if w.unwatched then (w, [.closed call (.ok ())])
  else ({ w with operation := some (.unwatch call) }, [.sent (.unwatch call) 0 0])

/-- A call fails while it waits, or is dropped by its caller. -/
def abandon (w : Watch) (call : Nat) (error : Option Error) : Watch × List Output :=
  let operation := if w.operation = some (.unwatch call) then none else w.operation
  ({ w with operation, waiting := w.waiting.erase call },
    match error with
    | none => []
    | some error => [.closed call (.error error)])

/-- An input that cannot come now does nothing. -/
def step (w : Watch) : Input → Watch × List Output
  | .begin clientStopped =>
    (if w.worker ≠ .starting then w
      else if w.stop || clientStopped then w.finish else { w with worker := .selecting }, [])
  | .stopChanged => (if w.worker = .selecting ∧ w.stop then w.finish else w, [])
  | .clientStopChanged stopped =>
    (if w.worker = .selecting ∧ stopped then w.finish else w, [])
  | .received received room =>
    if w.worker = .selecting then w.receive room received else (w, [])
  | .tick => (if w.worker = .selecting then { w with worker := .pingDue } else w, [])
  | .locked => if w.operation = none then w.lock else (w, [])
  | .answered result => w.answer result
  | .close call options => w.close call options
  | .closeLocked call =>
    if w.operation = none ∧ call ∈ w.waiting then w.closeLocked call else (w, [])
  | .abandoned call error => w.abandon call error

/-- A watch that has been registered. -/
def new (cookie timeoutSeconds : Nat) : Watch := { cookie, timeoutSeconds }

variable {w : Watch} {log : List Output}

/-! ## A watch that is closed is not registered again -/

/-- An operation that registers the watch is under way. -/
@[grind] def registering (w : Watch) : Prop :=
  w.operation = some .reconnect ∨ w.operation = some .register

/-- The watch is registered, perhaps anew. -/
@[grind] def Output.registers : Output → Bool
  | .sent .register _ _ | .sent .reconnect _ _ => true
  | _ => false

/-- The watch is given up, or a call of `close` says so. -/
@[grind] def Output.ends : Output → Bool
  | .sent (.unwatch _) _ _ | .accepted (.unwatch _) _ | .closed _ (.ok _) => true
  | _ => false

/-- The OSD has let the watch go. -/
@[grind] def Output.grants : Output → Bool
  | .accepted (.unwatch _) _ => true
  | _ => false

/-- What a step can do to the registration. -/
structure Turn (w : Watch) (turn : Watch × List Output) : Prop where
  stop : w.stop = true → turn.1.stop = true
  waiting : turn.1.waiting ≠ [] → w.waiting ≠ [] ∨ turn.1.stop = true
  unwatching : ∀ call, turn.1.operation = some (.unwatch call) →
    w.operation = some (.unwatch call) ∨ w.waiting ≠ []
  unwatched : turn.1.unwatched = true → w.unwatched = true ∨ turn.2.any Output.grants = true
  closed : ∀ call, .closed call (.ok ()) ∈ turn.2 →
    w.unwatched = true ∨ turn.2.any Output.grants = true
  registering : turn.1.registering → w.registering ∨ w.stop = false
  registers : ∀ e ∈ turn.2, e.registers = true → turn.2 = [e] ∧ (w.registering ∨ w.stop = false)
  ends : ∀ e ∈ turn.2, e.ends = true → w.unwatched = true ∨
    (∃ call, w.operation = some (.unwatch call)) ∨ w.operation = none ∧ w.waiting ≠ []

theorem turn_step (input : Input) : w.Turn (w.step input) := by
  cases input with
  | answered result =>
    simp only [step, answer]
    split <;> constructor <;> grind
  | received received room =>
    simp only [step, receive]
    constructor <;> grind
  | _ =>
    simp only [step, lock, close, closeLocked, abandon]
    constructor <;> grind

/-- What holds of a watch and of what it has put out, however often it is closed. -/
structure Closing (log : List Output) (w : Watch) : Prop where
  waiting : w.waiting ≠ [] → w.stop = true
  unwatching : ∀ call, w.operation = some (.unwatch call) → w.stop = true
  unwatched : w.unwatched = true → log.any Output.grants = true
  closed : ∀ call, .closed call (.ok ()) ∈ log → log.any Output.grants = true
  ended : ∀ e ∈ log, e.ends = true → w.stop = true ∧ ¬ w.registering
  final : log.Pairwise fun earlier later => earlier.ends = true → later.registers = false

theorem Output.ends_of_grants {e : Output} (grants : e.grants = true) : e.ends = true := by
  unfold Output.grants at grants
  split at grants
  · rfl
  · cases grants

theorem Closing.step (h : Closing log w) (input : Input) :
    Closing (log ++ (w.step input).2) (w.step input).1 := by
  have turn := w.turn_step input
  have given (e : Output) (mem : e ∈ (w.step input).2) (ends : e.ends = true) :
      w.stop = true ∧ ¬ w.registering := by
    rcases turn.ends e mem ends with unwatched | ⟨call, unwatching⟩ | ⟨free, waiting⟩
    · obtain ⟨e, mem, grants⟩ := List.any_eq_true.mp (h.unwatched unwatched)
      exact h.ended e mem (Output.ends_of_grants grants)
    · exact ⟨h.unwatching call unwatching, by simp [Watch.registering, unwatching]⟩
    · exact ⟨h.waiting waiting, by simp [Watch.registering, free]⟩
  have keeps (closed : w.stop = true ∧ ¬ w.registering) :
      (w.step input).1.stop = true ∧ ¬ (w.step input).1.registering := by
    refine ⟨turn.stop closed.1, fun registering => ?_⟩
    rcases turn.registering registering with before | running
    · exact closed.2 before
    · cases running.symm.trans closed.1
  have granted (now : log.any Output.grants = true ∨ (w.step input).2.any Output.grants = true) :
      (log ++ (w.step input).2).any Output.grants = true := by
    rw [List.any_append, Bool.or_eq_true]
    exact now
  constructor
  · intro waiting
    rcases turn.waiting waiting with before | stop
    · exact turn.stop (h.waiting before)
    · exact stop
  · intro call unwatching
    rcases turn.unwatching call unwatching with before | waiting
    · exact turn.stop (h.unwatching call before)
    · exact turn.stop (h.waiting waiting)
  · exact fun unwatched => granted ((turn.unwatched unwatched).imp_left h.unwatched)
  · intro call mem
    rcases List.mem_append.mp mem with mem | mem
    · exact granted (.inl (h.closed call mem))
    · exact granted ((turn.closed call mem).imp_left h.unwatched)
  · intro e mem ends
    rcases List.mem_append.mp mem with mem | mem
    · exact keeps (h.ended e mem ends)
    · exact keeps (given e mem ends)
  · refine List.pairwise_append.mpr ⟨h.final, ?_, fun a mem b mem' ends => ?_⟩
    · refine List.pairwise_iff_forall_sublist.mpr fun {a b} sub _ => ?_
      by_contra registers
      have only := (turn.registers b (sub.subset (by simp)) (by simpa using registers)).1
      simpa [only] using sub.length_le
    · by_contra registers
      have closed := h.ended a mem ends
      rcases (turn.registers b mem' (by simpa using registers)).2 with before | running
      · exact closed.2 before
      · cases running.symm.trans closed.1

/-- A call of `close` says that the watch is closed only if the OSD has let it go, and once the
watch is given up nothing registers it again, in whatever order the worker and the calls come. -/
theorem unregistered_for_good (cookie timeoutSeconds : Nat) (inputs : List Input) :
    let log := Mealy.log Watch.step (.new cookie timeoutSeconds) inputs
    (∀ call, .closed call (.ok ()) ∈ log → log.any Output.grants = true) ∧
      log.Pairwise fun earlier later => earlier.ends = true → later.registers = false := by
  have closing := Mealy.run_invariant Watch.step (fun _ => Closing)
    (s := .new cookie timeoutSeconds)
    ⟨fun asked => absurd rfl asked, fun _ => nofun, nofun, fun _ => nofun, fun _ => nofun, .nil⟩
    (fun _ _ _ input h => h.step input) inputs
  exact ⟨closing.closed, closing.final⟩

/-! ## Generations -/

/-- The generation of the last registration, after one of the generation `last`. -/
@[grind] def registered (last : Nat) : List Output → Nat
  | [] => last
  | .accepted .register generation :: log | .accepted .reconnect generation :: log =>
    registered generation log
  | _ :: log => registered last log

theorem registered_append (last : Nat) (log os : List Output) :
    registered last (log ++ os) = registered (registered last log) os := by
  induction last, log using registered.induct with
  | case1 => rfl
  | case2 _ _ _ ih => exact ih
  | case3 _ _ _ ih => exact ih
  | case4 last e log register reconnect ih => grind

/-- The operation has the generation that belongs to it. -/
@[grind] def Output.fits (last : Nat) : Output → Prop
  | .sent .ping generation _ => generation = last
  | .sent .reconnect generation _ => generation = last + 1 ∧ generation ≤ u32Max
  | .sent _ generation _ => generation = 0
  | _ => True

/-- The worker's generation is that of the last registration or the next one, and while an
operation of the worker is under way the worker waits for its answer. -/
structure Agrees (w : Watch) (last : Nat) : Prop where
  operating : w.operation = some .ping ∨ w.registering → w.worker = .operating
  registering : w.operation = some .register → w.generation = 0
  recovering : w.worker = .recovering ∨ w.operation = some .reconnect →
    w.generation = last + 1 ∧ w.generation ≤ u32Max
  loop : w.worker = .starting ∨ w.worker = .selecting ∨ w.worker = .pingDue ∨
    w.operation = some .ping → w.generation = last

theorem agrees_new (cookie timeoutSeconds : Nat) : (new cookie timeoutSeconds).Agrees 0 :=
  ⟨by grind [new], nofun, by simp [new], fun _ => rfl⟩

theorem Agrees.step {last : Nat} (h : w.Agrees last) (input : Input) :
    (w.step input).1.Agrees (registered last (w.step input).2) ∧
      ∀ e ∈ (w.step input).2, e.fits last := by
  obtain ⟨operating, registering, recovering, loop⟩ := h
  cases input with
  | answered result =>
    simp only [Watch.step, answer]
    split <;> refine ⟨?_, by grind⟩ <;> constructor <;> grind [checkedAdd]
  | received received room =>
    simp only [Watch.step, receive]
    refine ⟨?_, by grind⟩
    constructor <;> grind [checkedAdd]
  | _ =>
    simp only [Watch.step, lock, close, closeLocked, abandon]
    refine ⟨?_, by grind⟩
    constructor <;> grind [checkedAdd]

/-- In any run, what is asked of the OSD has the generation that the OSD expects: a ping that
of the last registration, a reconnect the next one. -/
theorem generations_agree (cookie timeoutSeconds : Nat) (inputs : List Input) (input : Input) :
    ∀ e ∈ ((Mealy.after Watch.step (.new cookie timeoutSeconds) inputs).step input).2,
      e.fits (registered 0 (Mealy.log Watch.step (.new cookie timeoutSeconds) inputs)) := by
  have agrees := Mealy.run_invariant Watch.step (fun _ log w => w.Agrees (registered 0 log))
    (s := .new cookie timeoutSeconds) (agrees_new cookie timeoutSeconds)
    (fun _ _ _ input h => registered_append _ _ _ ▸ (h.step input).1) inputs
  exact (agrees.step input).2

/-- The OSD has lost the watch, and the worker reconnects. -/
theorem generations_agree_reconnect :
    let inputs : List Input := [.begin false, .received (.ok ⟨0, 0, .disconnect, [], 0⟩) true]
    (Output.sent .reconnect 1 30).fits
      (registered 0 (Mealy.log Watch.step (.new 5 30) inputs)) :=
  generations_agree 5 30 _ .locked _ (by decide)

/-! ## Nothing is lost in silence -/

/-- What came for the watch. -/
@[grind] def Output.came (cookie : Nat) : Output → Option WatchEvent
  | .took (.ok n) => if n.cookie = cookie ∧ n.opcode = .notify then some (Watch.event n) else none
  | _ => none

@[grind] def Output.handed : Output → Option WatchEvent
  | .event e => some e
  | _ => none

/-- What a step can do with what comes. -/
structure Passes (w : Watch) (turn : Watch × List Output) : Prop where
  cookie : turn.1.cookie = w.cookie
  status : turn.1.status = none → w.status = none
  ended : w.worker = .ended → turn.1.worker = .ended ∧ turn.2.filterMap Output.handed = [] ∧
    turn.2.filterMap (Output.came w.cookie) = []
  passes : turn.2.filterMap (Output.came w.cookie) = turn.2.filterMap Output.handed ∧
      .took (.error .lagged) ∉ turn.2 ∨
    turn.2.filterMap Output.handed = [] ∧ turn.1.worker = .ended ∧ turn.1.status ≠ none

theorem Agrees.passes {last : Nat} (h : w.Agrees last) (input : Input) :
    w.Passes (w.step input) := by
  obtain ⟨operating, -, -, -⟩ := h
  cases input with
  | answered result =>
    simp only [Watch.step, answer]
    split <;> constructor <;> grind
  | received received room =>
    simp only [Watch.step, receive]
    repeat' split
    all_goals constructor <;> grind
  | _ =>
    simp only [Watch.step, lock, close, closeLocked, abandon]
    constructor <;> grind

structure Hands (log : List Output) (w : Watch) : Prop where
  agrees : w.Agrees (registered 0 log)
  handed : log.filterMap Output.handed <+: log.filterMap (Output.came w.cookie)
  whole : w.worker ≠ .ended ∨ w.status = none →
    log.filterMap (Output.came w.cookie) = log.filterMap Output.handed ∧
      .took (.error .lagged) ∉ log

theorem Hands.step (h : Hands log w) (input : Input) :
    Hands (log ++ (w.step input).2) (w.step input).1 := by
  obtain ⟨cookie, status, ended, passes⟩ := h.agrees.passes input
  refine ⟨registered_append _ _ _ ▸ (h.agrees.step input).1, ?_, fun running => ?_⟩
  all_goals rw [List.filterMap_append, List.filterMap_append, cookie]
  · by_cases past : w.worker = .ended
    · obtain ⟨-, handed, came⟩ := ended past
      rw [handed, came, List.append_nil, List.append_nil]
      exact h.handed
    · rw [(h.whole (.inl past)).1]
      rcases passes with ⟨same, -⟩ | ⟨none, -⟩
      · exact same ▸ List.prefix_rfl
      · rw [none, List.append_nil]
        exact List.prefix_append _ _
  · have before : w.worker ≠ .ended ∨ w.status = none := by
      by_contra! past
      exact running.elim (fun up => up (ended past.1).1) fun silent => past.2 (status silent)
    obtain ⟨whole, unlagged⟩ := h.whole before
    rcases passes with ⟨same, lagged⟩ | ⟨-, past, told⟩
    · rw [whole, same]
      exact ⟨rfl, fun mem => (List.mem_append.mp mem).elim unlagged lagged⟩
    · exact (running.elim (absurd past) told).elim

end Watch

end RadosRs.Client
