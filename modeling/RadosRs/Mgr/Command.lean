import RadosRs.Mgr.Client

/-!
# A manager command is executed at most once

Once the session has a reply to a command, or has lost it, the manager may have
executed it.  The command is then not to be submitted again, and the caller is to
get the reply or to be told that the outcome is unknown.

A submission that is given up is cancelled, and the session may have the reply at
that moment already.  Its reply is thrown away in all four cases: cancellation and
the deadline turn it into `cancelled`, closing turns it into `closed`, and after a
change of the target the command is even submitted again.  In every call in which
no such reply is there when a submission is given up, the command is reported as
it should be.
-/

namespace RadosRs.Mgr

open Bytes Msgr
open Session (SessionError)

/-! ## One submission -/

/-- The turn gives the submission up: the caller has cancelled, the deadline has passed, the
client is closed, or the published target is another one. -/
def Turn.givesUp (target : ActiveTarget) (turn : Turn) : Bool :=
  turn.options.canceled || turn.options.expired ||
    match turn.wake with
    | .finished => false
    | .closed | .deadline => true
    | .poll canceled => canceled
    | .tick snapshot =>
      match currentTarget snapshot with
      | .ok (current, _) => !sameTarget current target
      | .error _ => true

/-- No reply is there when the turn gives the submission up. -/
def Turn.Keeps (target : ActiveTarget) (turn : Turn) : Prop :=
  turn.givesUp target = true → ∀ reply, turn.submit.returned ≠ .ok reply

/-- What the session returned reaches the attempt if it is a reply or an unknown outcome. -/
structure Faithful (returned : Except SessionError Message)
    (result : Except ManagerError (Option Message)) : Prop where
  reply : ∀ reply, returned = .ok reply → result = .ok (some reply)
  unknown : returned = .error .outcomeUnknown → result = .error (.session .outcomeUnknown)

theorem faithful_finished (returned : Except SessionError Message) :
    Faithful returned ((returned.map some).mapError .session) where
  reply := by
    rintro reply rfl
    rfl
  unknown := by
    rintro rfl
    rfl

variable {returned : Except SessionError Message}

theorem faithful_cancel (noReply : ∀ reply, returned ≠ .ok reply) :
    Faithful returned (.error (classifyCancelResult returned)) where
  reply reply answered := absurd answered (noReply reply)
  unknown := by
    rintro rfl
    rfl

theorem faithful_afterGivingUp (noReply : ∀ reply, returned ≠ .ok reply)
    (otherwise : Except ManagerError (Option Message)) :
    Faithful returned (afterGivingUp returned otherwise) where
  reply reply answered := absurd answered (noReply reply)
  unknown := by
    rintro rfl
    rfl

variable {target : ActiveTarget}

/-- A turn either goes on without a word from the session or ends with one. -/
theorem Turn.run_faithful {turn : Turn} (keeps : turn.Keeps target) :
    turn.run target = ([], .again ()) ∨
      ∃ result, turn.run target = ([turn.submit.returned], .done result) ∧
        Faithful turn.submit.returned result := by
  unfold Turn.Keeps Turn.givesUp at keeps
  unfold Turn.run
  dsimp only
  split
  next canceled => exact .inr ⟨_, rfl, faithful_cancel (keeps (by simp [canceled]))⟩
  split
  next expired => exact .inr ⟨_, rfl, faithful_cancel (keeps (by simp [expired]))⟩
  · split
    · exact .inr ⟨_, rfl, faithful_finished _⟩
    next wake => exact .inr ⟨_, rfl, faithful_afterGivingUp (keeps (by simp [wake])) _⟩
    next wake => exact .inr ⟨_, rfl, faithful_cancel (keeps (by simp [wake]))⟩
    next wake =>
      split
      next canceled =>
        exact .inr ⟨_, rfl, faithful_cancel (keeps (by simp [wake, canceled]))⟩
      · exact .inl rfl
    next snapshot wake =>
      split
      next current _ published =>
        split
        · exact .inl rfl
        rename_i other
        refine .inr ⟨_, rfl, faithful_afterGivingUp (keeps ?_) _⟩
        simp [wake, published, other]
      next published =>
        refine .inr ⟨_, rfl, faithful_afterGivingUp (keeps ?_) _⟩
        simp [wake, published]

/-- A submission either ends without a word from the session or passes on what it said. -/
theorem submitPendingAware_faithful {turns : List Turn}
    (keeps : Retry.Every (fun _ turn => turn.run target) (fun _ turn => turn.Keeps target) ()
      turns) :
    (submitPendingAware target turns).1 = [] ∨
      ∃ returned, (submitPendingAware target turns).1 = [returned] ∧
        Faithful returned (submitPendingAware target turns).2 := by
  refine Retry.run_rule (fun os _ => os = [])
    (fun os result => os = [] ∨ ∃ returned, os = [returned] ∧ Faithful returned result)
    ?again ?done (fun _ _ empty => .inl empty) [] rfl turns keeps
  case again =>
    rintro os s turn s' keeps rfl next
    rcases Turn.run_faithful keeps with goesOn | ⟨result, ends, -⟩
    · rw [goesOn]
      rfl
    · rw [ends] at next
      cases next
  case done =>
    rintro os s turn result keeps rfl next
    rcases Turn.run_faithful keeps with goesOn | ⟨result', ends, faithful⟩
    · rw [goesOn] at next
      cases next
    rw [ends] at next ⊢
    cases next
    exact .inr ⟨_, rfl, faithful⟩

/-! ## The attempts -/

/-- The manager may have executed the command. -/
def MayHaveExecuted (returned : Except SessionError Message) : Prop :=
  (∃ reply, returned = .ok reply) ∨ returned = .error .outcomeUnknown

/-- After the manager may have executed the command it is not submitted again, and the caller
gets the reply, or the error of a reply that cannot be read, or is told that the outcome
is unknown. -/
def Honest (call : Call) (log : List Event) (outcome : Outcome) : Prop :=
  ∀ before returned after, log = before ++ .returned returned :: after →
    MayHaveExecuted returned →
    (∀ request, .submitted request ∉ after) ∧
      (outcome = .error (.session .outcomeUnknown) ∨
        ∃ reply, returned = .ok reply ∧ outcome = call.conclude reply)

/-- No reply is there when the submission of the attempt is given up. -/
def Attempt.Keeps (a : Attempt) : Prop :=
  ∀ target fsid, currentTarget a.snapshot = .ok (target, fsid) →
    Retry.Every (fun _ turn => turn.run target) (fun _ turn => turn.Keeps target) () a.turns

/-- The ways an attempt ends: before anything is submitted, or by submitting. -/
inductive Attempt.Ran (call : Call) (s : Loop) (a : Attempt) : List Event × Step → Prop where
  | early (next : Step) : Ran call s a ([], next)
  | submitted (target : ActiveTarget) (fsid : List UInt8) (request : Message)
      (published : currentTarget a.snapshot = .ok (target, fsid)) :
      Ran call s a (a.submit call s target request)

theorem Attempt.ran (call : Call) (s : Loop) (a : Attempt) : a.Ran call s (a.run call s) := by
  unfold Attempt.run
  split
  · exact .early _
  split
  · exact .early _
  · split
    · exact .early _
    · exact .early _
    next target fsid published =>
      split
      · exact .early _
      split
      · exact .early _
      · exact .early _
      · exact .early _
      · exact .submitted target fsid _ published

variable {call : Call} {s : Loop} {a : Attempt}

/-- An attempt under which the manager may have executed the command ends the call, with
what the session said. -/
theorem settle_faithful {result : Except ManagerError (Option Message)}
    (faithful : Faithful returned result) (may : MayHaveExecuted returned) :
    ∃ outcome, a.settle call s result = .done outcome ∧
      (outcome = .error (.session .outcomeUnknown) ∨
        ∃ reply, returned = .ok reply ∧ outcome = call.conclude reply) := by
  rcases may with ⟨reply, answered⟩ | unknown
  · rw [faithful.reply reply answered]
    exact ⟨_, rfl, .inr ⟨reply, answered, rfl⟩⟩
  · rw [faithful.unknown unknown]
    exact ⟨_, rfl, .inl rfl⟩

/-- What an attempt says of the session's word in its log. -/
theorem Attempt.run_faithful (keeps : a.Keeps) {result : List Event × Step}
    (ran : a.Ran call s result) (seen : .returned returned ∈ result.1)
    (may : MayHaveExecuted returned) :
    (∃ request, result.1 = [.submitted request, .returned returned]) ∧
      ∃ outcome, result.2 = .done outcome ∧
        (outcome = .error (.session .outcomeUnknown) ∨
          ∃ reply, returned = .ok reply ∧ outcome = call.conclude reply) := by
  cases ran with
  | early next => cases seen
  | submitted target fsid request published =>
    unfold Attempt.submit at seen ⊢
    rcases submitPendingAware_faithful (keeps target fsid published) with
      silent | ⟨word, said, faithful⟩
    · simp [silent] at seen
    have same : returned = word := by simpa [said] using seen
    cases same
    exact ⟨⟨request, by simp [said]⟩, settle_faithful faithful may⟩

/-- So far the manager has not executed the command. -/
def NotExecuted (log : List Event) : Prop :=
  ∀ returned, .returned returned ∈ log → ¬ MayHaveExecuted returned

variable {log : List Event}

theorem honest_of_notExecuted (h : NotExecuted log) (outcome : Outcome) :
    Honest call log outcome := by
  rintro before returned after rfl may
  exact absurd may (h returned (List.mem_append_right _ (List.mem_cons_self ..)))

theorem notExecuted_append (h : NotExecuted log) (keeps : a.Keeps) {s' : Loop}
    (next : (a.run call s).2 = .again s') : NotExecuted (log ++ (a.run call s).1) := by
  intro returned seen may
  rcases List.mem_append.mp seen with before | now
  · exact h returned before may
  · obtain ⟨-, outcome, ends, -⟩ := Attempt.run_faithful keeps (a.ran call s) now may
    cases next.symm.trans ends

theorem honest_append (h : NotExecuted log) (keeps : a.Keeps) {outcome : Outcome}
    (next : (a.run call s).2 = .done outcome) : Honest call (log ++ (a.run call s).1) outcome := by
  intro before returned after split may
  have seen : .returned returned ∈ log ++ (a.run call s).1 :=
    split ▸ List.mem_append_right _ (List.mem_cons_self ..)
  have now := (List.mem_append.mp seen).resolve_left fun old => h returned old may
  obtain ⟨⟨request, only⟩, outcome', ends, told⟩ :=
    Attempt.run_faithful keeps (a.ran call s) now may
  cases next.symm.trans ends
  refine ⟨?_, told⟩
  -- The session's word stands at the end of the log and nowhere before.
  rw [only] at split
  rcases List.eq_nil_or_concat after with rfl | ⟨rest, event, rfl⟩
  · exact fun _ => List.not_mem_nil
  have early : log ++ [.submitted request] = before ++ .returned returned :: rest := by
    refine (List.append_inj' (?_ : _ ++ [.returned returned] = _ ++ [event]) rfl).1
    simpa using split
  have old : Event.returned returned ∈ log ++ [.submitted request] :=
    early ▸ List.mem_append_right _ (List.mem_cons_self ..)
  have old : Event.returned returned ∈ log := by simpa using old
  exact absurd may (h returned old)

/-- In every call in which no reply is there when a submission is given up, the command is
executed at most once and reported as it was. -/
theorem command_honest (closed : Bool) (call : Call) (attempts : Vector Attempt call.maxAttempts)
    (keeps : Retry.Every (Attempt.run call) (fun _ a => a.Keeps) ⟨0, none⟩ attempts.toList) :
    Honest call (command closed call attempts).1 (command closed call attempts).2 := by
  have nothing : NotExecuted [] := fun _ seen => nomatch seen
  unfold command
  split
  · exact honest_of_notExecuted nothing _
  split
  · exact honest_of_notExecuted nothing _
  · refine Retry.run_rule (fun log _ => NotExecuted log) (Honest call) ?again ?done ?stop []
      nothing attempts.toList keeps
    case again =>
      intro log s a s' keeps known next
      exact notExecuted_append known keeps next
    case done =>
      intro log s a outcome keeps known next
      exact honest_append known keeps next
    case stop =>
      intro log s known
      exact honest_of_notExecuted known _

/-! ## A change of the target -/

/-- A command of one word, in at most two attempts. -/
def sampleCall : Call := ⟨[[123]], [], 4096, 2, 1⟩

def sampleRequest : Message where
  header := { messageType := messageMgrCommand, version := 1, transactionId := 1 }
  lengths := { front := 25 }
  front := List.replicate 16 0 ++ leBytes 4 1 ++ leBytes 4 1 ++ [123]

def sampleReply : Message where
  header :=
    { messageType := messageMgrCommandReply, version := 1, compatVersion := 1, transactionId := 1 }
  lengths := { front := 8 }
  front := leBytes 4 0 ++ leBytes 4 0

def manager (gid : Nat) : ActiveTarget := ⟨gid, [], []⟩

def published (gid : Nat) : Snapshot := ⟨some (List.replicate 16 0), some (manager gid), false⟩

/-- An attempt with an open session and one turn, in which the session has a result. -/
def sampleAttempt (gid : Nat) (wake : Wake) (result : Except SessionError (Option Message)) :
    Attempt where
  closed := false
  options := ⟨false, false⟩
  snapshot := published gid
  opening :=
    { closed := false, cached := some (manager gid), options := ⟨false, false⟩, created := .ok ()
      snapshot := published gid, closedAfter := false }
  turns := [⟨⟨false, false⟩, wake, ⟨.ok (), false, some result⟩⟩]
  waitOptions := ⟨false, false⟩
  waited := .elapsed

/-- Another manager becomes active while the first one is asked, and is asked then. -/
def changedTarget (result : Except SessionError (Option Message)) : Vector Attempt 2 :=
  #v[sampleAttempt 1 (.tick (published 2)) result,
    sampleAttempt 2 .finished (.ok (some sampleReply))]

theorem keeps_changedTarget :
    Retry.Every (Attempt.run sampleCall) (fun _ a => a.Keeps) ⟨0, none⟩
      (changedTarget (.error .cancelled)).toList := by
  refine Retry.every_of_forall (fun a here _ target fsid _ => ?_) _
  refine Retry.every_of_forall (fun turn there _ givesUp reply => ?_) _
  rcases List.mem_pair.mp here with rfl | rfl
  · cases List.mem_singleton.mp there
    exact nofun
  · cases List.mem_singleton.mp there
    cases givesUp

theorem command_honest_changedTarget :
    .returned (.ok sampleReply) ∈
        (command false sampleCall (changedTarget (.error .cancelled))).1 ∧
      Honest sampleCall (command false sampleCall (changedTarget (.error .cancelled))).1
        (command false sampleCall (changedTarget (.error .cancelled))).2 :=
  ⟨by decide, command_honest false sampleCall _ keeps_changedTarget⟩

/-- The first manager has replied at the moment when the other one becomes active, and the
command is submitted again. -/
theorem not_command_honest :
    ¬ ∀ (closed : Bool) (call : Call) (attempts : Vector Attempt call.maxAttempts),
      Honest call (command closed call attempts).1 (command closed call attempts).2 := by
  intro h
  have honest := h false sampleCall (changedTarget (.ok (some sampleReply)))
    [.submitted sampleRequest] (.ok sampleReply)
    [.submitted sampleRequest, .returned (.ok sampleReply)] (by decide)
    (.inl ⟨sampleReply, rfl⟩)
  exact honest.1 sampleRequest (List.mem_cons_self ..)

end RadosRs.Mgr
