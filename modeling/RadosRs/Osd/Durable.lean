import RadosRs.Osd.Outcome

/-!
# Mutations that are on disk

An OSD answers a mutation as soon as it has it and once more when it is on disk, and only
the second reply has the flag for it.  A call with a mutation that changes an object is
to succeed only with such a reply, and the outcome is unknown if the reply that ends the
call does not have the flag.

The check is made of replies with the result zero alone.  A reply with a positive result
counts as a success as well and passes without the flag.  The call keeps its promise
exactly if no reply of this kind ends it, and `Attempt.confirms` is this condition for
one attempt.
-/

namespace RadosRs.Osd

open Bytes Msgr
open Maps (Pg)

/-! ## Replies -/

/-- What the reply answers is on disk. -/
def Reply.onDisk (reply : Reply) : Bool := twos 8 reply.flags &&& flagOnDisk != 0

/-- The reply answers the operations.  It neither redirects the request nor asks to try again. -/
def Reply.settles (reply : Reply) (operations : List Operation) : Bool :=
  reply.redirect.isNone && reply.result != -11 && validateOperations reply operations
    && !reply.operations.any (·.code == -11)

/-- The reply in a message, if it is one for the target. -/
def Call.replyIn (call : Call) (s : Loop) (route : Route) (message : Message) : Option Reply :=
  (decodeReply message call.limits).toOption.filter fun reply =>
    validateTarget reply s.target.object route.placement.pg s.attempt

/-- The reply to a request. -/
def Attempt.sentReply (call : Call) (s : Loop) (a : Attempt) (route : Route) : Option Reply := do
  let encoded ← encodeRequest (a.requestFor call s route) call.limits
  let _ ← encoded.toOption
  guard a.representable
  let message ← (submitRouted call.mutation a.rounds).2.toOption
  call.replyIn s route message

/-- The reply that an attempt gets. -/
def Attempt.reply (call : Call) (s : Loop) (a : Attempt) : Option Reply := do
  guard (!a.closed)
  (checkOptions a.options).toOption
  let route ← (waitForUsableRoute s.target call.routeHash a.looks).toOption
  let flags := if s.attempt > 0 then s.flags ||| flagRetry else s.flags
  a.session.toOption
  a.sentReply call { s with flags } route

/-- If the reply answers the operations and its result is positive, they are on disk. -/
def Attempt.confirms (call : Call) (s : Loop) (a : Attempt) : Bool :=
  (a.reply call s).all fun reply =>
    !(reply.settles call.operations && 0 < reply.result) || reply.onDisk

/-- The call succeeds only with a reply that says that the operations are on disk, and if the
reply does not say so, the outcome is unknown. -/
structure Confirmed (call : Call) (log : List Event) (outcome : Outcome) : Prop where
  ok : ∀ result, outcome = some (.ok result) → ∃ before reply,
    log = before ++ [.validated reply] ∧ reply.settles call.operations = true ∧
      0 ≤ reply.result ∧ reply.onDisk = true ∧ result = ⟨reply.operations, reply.version⟩
  unknown : ∀ before reply, log = before ++ [.validated reply] →
    reply.settles call.operations = true → 0 ≤ reply.result → reply.onDisk = false →
    ∃ cause, outcome = some (.error (.outcomeUnknown cause))

variable {call : Call} {s : Loop} {a : Attempt} {reply : Reply} {log more : List Event}
  {outcome : Outcome}

/-! ## After a reply -/

/-- The outcome of a call that ends with a reply. -/
def Call.conclusion (call : Call) (reply : Reply) : Outcome :=
  if reply.result = 0 ∧ reply.onDisk = false then some (.error (.outcomeUnknown .transport))
  else if reply.result < 0 then some (.error (.wireErrno reply.result))
  else
    match firstFailure call.operations reply with
    | some code => some (.error (.wireErrno code))
    | none => some (.ok ⟨reply.operations, reply.version⟩)

theorem validateDurableReply_eq_false :
    validateDurableReply reply = false ↔ reply.result = 0 ∧ reply.onDisk = false := by
  simp [validateDurableReply, Reply.onDisk]

theorem settles_iff {operations : List Operation} :
    reply.settles operations = true ↔
      reply.redirect = none ∧ reply.result ≠ -11 ∧ validateOperations reply operations = true ∧
        reply.operations.any (·.code == -11) = false := by
  simp only [Reply.settles, Bool.and_eq_true, Option.isNone_iff_eq_none, bne_iff_ne,
    Bool.not_eq_true', and_assoc]

theorem settle_of_settles (durable : containsDurableMutation call.operations = true)
    (settles : reply.settles call.operations = true) :
    a.settle call s reply = .done (call.conclusion reply) := by
  obtain ⟨direct, result, answered, code⟩ := settles_iff.mp settles
  unfold Attempt.settle Call.conclusion
  rw [direct]
  dsimp only
  rw [if_neg result, answered, code, durable]
  simp only [Bool.not_true, Bool.false_eq_true, if_false, Bool.true_and, Bool.not_eq_true',
    validateDurableReply_eq_false]
  split_ifs
  · rfl
  · rfl
  cases firstFailure call.operations reply with
  | none => rfl
  | some code => rfl

/-- The call does not succeed here. -/
def NotOk : Step → Prop
  | .done (some (.ok _)) => False
  | _ => True

theorem tryAgain_notOk : NotOk (a.tryAgain s) := by
  unfold Attempt.tryAgain
  split
  · trivial
  · trivial

theorem settle_of_not_settles (open' : reply.settles call.operations = false) :
    NotOk (a.settle call s reply) := by
  unfold Attempt.settle
  dsimp only
  split
  · split
    · split
      · trivial
      · trivial
    · trivial
  rename_i direct
  split
  · exact tryAgain_notOk
  rename_i result
  split
  · trivial
  rename_i answered
  split
  · exact tryAgain_notOk
  rename_i code
  have settles := settles_iff.mpr ⟨direct, result, by simpa using answered,
    Bool.eq_false_iff.mpr code⟩
  cases open'.symm.trans settles

theorem recover_notOk (error : Error) : NotOk (a.recover call s error) := by
  unfold Attempt.recover
  dsimp only
  split
  · trivial
  split
  · trivial
  · split
    · split
      · trivial
      · trivial
    · trivial
    · trivial
    · split
      · trivial
      · trivial

/-! ## One attempt -/

/-- What an attempt comes to, with a reply and without one. -/
def Attempt.Replied (call : Call) (a : Attempt) (result : List Event × Step) :
    Option Reply → Prop
  | some reply => ∃ before s, result = (before ++ [.validated reply], a.settle call s reply)
  | none => (∀ reply, .validated reply ∉ result.1) ∧ NotOk result.2

variable {message : Message}

theorem validated_notMem_reports {attempt : Nat} (reports : List SessionResult) (reply : Reply) :
    .validated reply ∉ Event.encoded attempt message :: reports.map .reported := by
  intro mem
  rcases List.mem_cons.mp mem with head | tail
  · cases head
  · obtain ⟨_, -, same⟩ := List.mem_map.mp tail
    cases same

theorem conclude_eq {route : Route} :
    a.conclude call s route message =
      match call.replyIn s route message with
      | some reply => ([.validated reply], a.settle call s reply)
      | none => ([], .fail call.malformed) := by
  unfold Attempt.conclude Call.replyIn
  cases decodeReply message call.limits with
  | error => rfl
  | ok reply =>
    by_cases right : validateTarget reply s.target.object route.placement.pg s.attempt = true
    · simp [Except.toOption, Option.filter, right]
    · simp [Except.toOption, Option.filter, right]

theorem send_replied (call : Call) (s : Loop) (a : Attempt) (route : Route) :
    a.Replied call (a.send call s route) (a.sentReply call s route) := by
  unfold Attempt.send Attempt.sentReply Attempt.requestFor
  dsimp only
  cases encodeRequest (call.request s route (a.authority.getD 0)) call.limits with
  | none => exact ⟨fun _ => List.not_mem_nil, trivial⟩
  | some encoded =>
    cases encoded with
    | error => exact ⟨fun _ => List.not_mem_nil, trivial⟩
    | ok message =>
      cases a.representable with
      | false => exact ⟨fun _ mem => (nomatch List.mem_singleton.mp mem), trivial⟩
      | true =>
        rcases submitRouted call.mutation a.rounds with ⟨reports, result⟩
        cases result with
        | error error => exact ⟨validated_notMem_reports reports, recover_notOk error⟩
        | ok answer =>
          dsimp only
          rw [conclude_eq]
          show a.Replied call _ (call.replyIn s route answer)
          cases call.replyIn s route answer with
          | none =>
            refine ⟨?_, trivial⟩
            show ∀ reply, Event.validated reply ∉ _ ++ []
            rw [List.append_nil]
            exact validated_notMem_reports reports
          | some reply => exact ⟨_, s, rfl⟩

theorem run_replied (call : Call) (s : Loop) (a : Attempt) :
    a.Replied call (a.run call s) (a.reply call s) := by
  have silent (error : Error) : a.Replied call ([], .fail error) none :=
    ⟨fun _ => List.not_mem_nil, trivial⟩
  unfold Attempt.run Attempt.reply
  cases a.closed with
  | true => exact silent _
  | false =>
    cases checkOptions a.options with
    | error => exact silent _
    | ok =>
      cases waitForUsableRoute s.target call.routeHash a.looks with
      | error => exact silent _
      | ok route =>
        cases a.session with
        | error => exact silent _
        | ok => exact send_replied call _ a route

/-! ## The call -/

theorem confirmed_conclusion (settles : reply.settles call.operations = true) :
    Confirmed call (log ++ [.validated reply]) (call.conclusion reply) ↔
      (0 < reply.result → reply.onDisk = true) := by
  have last {before : List Event} {other : Reply}
      (same : log ++ [.validated reply] = before ++ [.validated other]) : other = reply := by
    cases (List.append_inj' same rfl).2
    rfl
  constructor
  · intro confirmed positive
    by_contra lost
    have absent : reply.onDisk = false := Bool.eq_false_iff.mpr lost
    obtain ⟨cause, unknown⟩ :=
      confirmed.unknown log reply rfl settles (Int.le_of_lt positive) absent
    unfold Call.conclusion at unknown
    rw [if_neg (fun zero => by omega), if_neg (by omega)] at unknown
    split at unknown
    · cases unknown
    · cases unknown
  · intro condition
    refine ⟨fun result ok => ?_, fun before other same _ accepted absent => ?_⟩
    · unfold Call.conclusion at ok
      split at ok
      · cases ok
      rename_i durable
      split at ok
      · cases ok
      rename_i accepted
      split at ok
      · cases ok
      cases ok
      refine ⟨log, reply, rfl, settles, by omega, ?_, rfl⟩
      by_cases positive : 0 < reply.result
      · exact condition positive
      · by_contra lost
        exact durable ⟨by omega, Bool.eq_false_iff.mpr lost⟩
    · cases last same
      have zero : reply.result = 0 := by
        by_contra other
        rw [condition (by omega)] at absent
        cases absent
      unfold Call.conclusion
      rw [if_pos ⟨zero, absent⟩]
      exact ⟨_, rfl⟩

/-- The log does not end with a reply that settles the call. -/
def Open (call : Call) (log : List Event) : Prop :=
  ∀ before reply, log = before ++ [.validated reply] → reply.settles call.operations = false

/-- The last event of a log after one that is open. -/
theorem Open.last_iff (h : Open call log) (settles : reply.settles call.operations = true) :
    (∃ before, log ++ more = before ++ [.validated reply]) ↔
      ∃ before, more = before ++ [.validated reply] := by
  constructor
  · rintro ⟨before, same⟩
    rcases List.eq_nil_or_concat more with rfl | ⟨rest, event, rfl⟩
    · rw [List.append_nil] at same
      rw [h before reply same] at settles
      cases settles
    rw [List.concat_eq_append, ← List.append_assoc] at same
    obtain ⟨-, last⟩ := List.append_inj' same rfl
    exact ⟨rest, by rw [List.concat_eq_append, last]⟩
  · rintro ⟨before, rfl⟩
    exact ⟨log ++ before, (List.append_assoc ..).symm⟩

theorem Open.confirmed_iff (h : Open call log) :
    Confirmed call (log ++ more) outcome ↔ Confirmed call more outcome := by
  constructor
  · intro confirmed
    refine ⟨fun result ok => ?_, fun before reply same settles => ?_⟩
    · obtain ⟨before, reply, same, settles, rest⟩ := confirmed.ok result ok
      obtain ⟨before, same⟩ := (h.last_iff settles).mp ⟨before, same⟩
      exact ⟨before, reply, same, settles, rest⟩
    · obtain ⟨before, same⟩ := (h.last_iff settles).mpr ⟨before, same⟩
      exact confirmed.unknown before reply same settles
  · intro confirmed
    refine ⟨fun result ok => ?_, fun before reply same settles => ?_⟩
    · obtain ⟨before, reply, same, settles, rest⟩ := confirmed.ok result ok
      obtain ⟨before, same⟩ := (h.last_iff settles).mpr ⟨before, same⟩
      exact ⟨before, reply, same, settles, rest⟩
    · obtain ⟨before, same⟩ := (h.last_iff settles).mp ⟨before, same⟩
      exact confirmed.unknown before reply same settles

theorem Open.confirmed (h : Open call log) (failed : NotOk (.done outcome)) :
    Confirmed call log outcome := by
  refine ⟨fun result ok => ?_, fun before reply same settles => ?_⟩
  · rw [ok] at failed
    exact failed.elim
  · rw [h before reply same] at settles
    cases settles

/-- An attempt ends the call with a reply that settles it, or it leaves the matter open. -/
theorem run_cases (durable : containsDurableMutation call.operations = true) (s : Loop)
    (a : Attempt) :
    (∃ before reply, reply.settles call.operations = true ∧
      a.run call s = (before ++ [.validated reply], .done (call.conclusion reply)) ∧
      (a.confirms call s = true ↔ (0 < reply.result → reply.onDisk = true))) ∨
    Open call (a.run call s).1 ∧ NotOk (a.run call s).2 ∧ a.confirms call s = true := by
  have replied := run_replied call s a
  unfold Attempt.confirms
  generalize a.reply call s = found at replied
  cases found with
  | none =>
    obtain ⟨unsaid, failed⟩ := replied
    refine .inr ⟨fun before reply same => ?_, failed, rfl⟩
    rw [same] at unsaid
    exact absurd (List.mem_append_right _ (.head _)) (unsaid reply)
  | some reply =>
    obtain ⟨before, s', ran⟩ := replied
    by_cases settles : reply.settles call.operations = true
    · refine .inl ⟨before, reply, settles, ?_, ?_⟩
      · rw [ran, settle_of_settles durable settles]
      · simp [settles, imp_iff_not_or]
    have open' := Bool.eq_false_iff.mpr settles
    refine .inr ⟨fun before' other same => ?_, ?_, ?_⟩
    · rw [ran] at same
      cases (List.append_inj' same rfl).2
      exact open'
    · rw [ran]
      exact settle_of_not_settles open'
    · simp [open']

theorem confirmed_run (durable : containsDurableMutation call.operations = true)
    (attempts : List Attempt) (s : Loop) :
    Confirmed call (Retry.run (Attempt.run call) giveUp s attempts).1
        (Retry.run (Attempt.run call) giveUp s attempts).2 ↔
      Retry.Every (Attempt.run call) (fun s a => a.confirms call s = true) s attempts := by
  induction attempts generalizing s with
  | nil =>
    have nothing : Open call [] := fun before _ same => by cases before <;> cases same
    exact iff_of_true (nothing.confirmed trivial) trivial
  | cons a attempts ih =>
    rcases run_cases durable s a with
      ⟨before, reply, settles, ran, condition⟩ | ⟨open', failed, holds⟩
    · rw [Retry.run, Retry.Every, ran]
      dsimp only
      rw [confirmed_conclusion settles, condition, and_true]
    rw [Retry.run, Retry.Every, holds]
    generalize a.run call s = result at open' failed
    obtain ⟨log, next⟩ := result
    cases next with
    | done outcome => exact iff_of_true (open'.confirmed failed) ⟨rfl, trivial⟩
    | again s' =>
      have open' : Open call log := open'
      dsimp only
      rw [open'.confirmed_iff, ih, eq_self_iff_true, true_and]

/-- The call gets to its attempts. -/
def Call.starts (call : Call) : Bool :=
  call.incarnation.isOk
    && !call.operations.tail.any fun operation => operation.routeHash != call.routeHash

/-- A call with a mutation that changes an object keeps the promise exactly if at no attempt a
reply with a positive result, which is not on disk, answers the operations. -/
theorem executeRouted_confirmed_iff (call : Call) (target : Target) (transactionId : Nat)
    (attempts : Vector Attempt maxAttempts)
    (durable : containsDurableMutation call.operations = true) :
    Confirmed call (executeRouted call target transactionId attempts).1
        (executeRouted call target transactionId attempts).2 ↔
      (call.starts = true → Retry.Every (Attempt.run call) (fun s a => a.confirms call s = true)
        (call.start target transactionId) attempts.toList) := by
  have nothing : Open call [] := fun before _ same => by cases before <;> cases same
  unfold executeRouted Call.starts
  cases call.incarnation with
  | error error => exact iff_of_true (nothing.confirmed trivial) nofun
  | ok incarnation =>
    dsimp only
    split
    next wrong =>
      rw [wrong]
      exact iff_of_true (nothing.confirmed trivial) nofun
    rename_i right
    rw [Bool.eq_false_iff.mpr right, confirmed_run durable]
    exact ⟨fun every _ => every, fun every => every rfl⟩

/-! ## A reply that is not on disk -/

/-- The OSD answers the append with a result and flags. -/
def appendReply (result flags : Nat) : Message where
  header := { messageType := messageOsdOpReply, version := 4 }
  front := leBytes 4 1 ++ [111] ++ ([1] ++ leBytes 8 1 ++ leBytes 4 0 ++ leBytes 4 (twos 4 (-1)))
    ++ leBytes 8 flags ++ leBytes 4 result ++ zeros 12 ++ leBytes 4 1 ++ leBytes 4 1
    ++ (leBytes 2 (Operation.append [1]).code ++ zeros 32 ++ leBytes 4 0)
    ++ leBytes 4 (twos 4 (-1)) ++ leBytes 4 0 ++ zeros 12 ++ leBytes 8 7

def answeredCall (result flags : Nat) : Vector Attempt maxAttempts :=
  #v[sentAttempt 1 (.finished (.ok (some (appendReply result flags)))), closedAttempt,
    closedAttempt, closedAttempt]

set_option maxRecDepth 1000

theorem executeRouted_confirmed_iff_positive :
    ∃ result, (executeRouted appendCall appendTarget 1 (answeredCall 5 4)).2 = some (.ok result) ∧
      Confirmed appendCall (executeRouted appendCall appendTarget 1 (answeredCall 5 4)).1
        (executeRouted appendCall appendTarget 1 (answeredCall 5 4)).2 := by
  refine ⟨⟨[⟨(Operation.append [1]).code, 0, []⟩], 7⟩, by decide, ?_⟩
  exact (executeRouted_confirmed_iff _ _ _ _ (by decide)).mpr fun _ => by decide

/-- An acknowledgment with a positive result makes the append a success. -/
theorem not_confirmed_positive :
    ¬ ∀ (call : Call) (target : Target) (transactionId : Nat)
      (attempts : Vector Attempt maxAttempts), containsDurableMutation call.operations = true →
      Confirmed call (executeRouted call target transactionId attempts).1
        (executeRouted call target transactionId attempts).2 := by
  intro h
  have confirmed := h appendCall appendTarget 1 (answeredCall 5 1) (by decide)
  have ok : (executeRouted appendCall appendTarget 1 (answeredCall 5 1)).2 =
      some (.ok ⟨[⟨(Operation.append [1]).code, 0, []⟩], 7⟩) := by decide
  obtain ⟨before, reply, log, -, -, onDisk, -⟩ := confirmed.ok _ ok
  have last : (executeRouted appendCall appendTarget 1 (answeredCall 5 1)).1.getLast? =
      some (.validated reply) := by rw [log, List.getLast?_concat]
  have absent : (executeRouted appendCall appendTarget 1 (answeredCall 5 1)).1.getLast?.all
      (·.answers (!·.onDisk)) = true := by decide
  rw [last] at absent
  rw [Option.all_some, Event.answers, onDisk] at absent
  cases absent

end RadosRs.Osd
