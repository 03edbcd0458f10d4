import RadosRs.Osd.Client

/-!
# What becomes of an unknown outcome

When the session has lost a mutation that it had sent, nobody can say whether the
OSD has carried it out.  The call is then to end with `outcomeUnknown`, unless a
reply settles the matter.  This module follows such a report through both loops.

Inside one submission a round leaves the uncertainty to the next one, and every
error of a later round is replaced by it.  An attempt leaves it to the next
attempt in `priorUnknown` in the same way, and the first valid reply takes it
away, whatever the reply says: one that redirects the request or asks to try
again means that the OSD has not carried out the mutation under this request id.

Four exits do not look at the uncertainty.  The mark of a stale map on the session
replaces the error of the round in which the mutation is lost.  A client that is
closed when the submission fails, a failing look-up of the session and a deadline
that the clock cannot represent end the call with an error of their own.
`Round.Straight` and `Attempt.Straight` leave these out.
-/

namespace RadosRs.Osd

open Bytes Msgr
open Maps (Pg)
open Session (SessionError)

/-! ## One submission -/

/-- The session has lost the request. -/
abbrev lost : SessionResult := .error .outcomeUnknown

/-- A reply, or the admission that the outcome is unknown. -/
def Honest (result : Except Error Message) : Prop :=
  (∃ reply, result = .ok reply) ∨ ∃ cause, result = .error (.outcomeUnknown cause)

/-- The request is lost and the submission is not going to be repeated for the caller. -/
def SubmissionWait.Loses : SubmissionWait → Prop
  | .finished result | .interrupted _ result | .routeChanged result => result = lost
  | .unblocked _ | .abandoned => False

/-- The round in which a request is lost does not end with the mark of a stale map. -/
def Round.Straight (prior : Option UnknownCause) (round : Round) : Prop :=
  prior = none → round.wait.Loses → round.failureAtEnd ≠ some .staleMap

theorem Honest.preserve {result : Except Error Message} (h : Honest result)
    (prior : Option UnknownCause) : Honest (result.mapError (preserveUnknown · prior)) := by
  rcases h with ⟨reply, rfl⟩ | ⟨cause, rfl⟩
  · exact .inl ⟨reply, rfl⟩
  cases prior with
  | none => exact .inr ⟨cause, rfl⟩
  | some earlier => exact .inr ⟨earlier, rfl⟩

variable {prior : Option UnknownCause}

theorem honest_of_prior (h : prior.isSome) (result : Except Error Message) :
    Honest (result.mapError (preserveUnknown · prior)) := by
  obtain ⟨cause, rfl⟩ := Option.isSome_iff_exists.mp h
  cases result with
  | ok reply => exact .inl ⟨reply, rfl⟩
  | error error => exact .inr ⟨cause, rfl⟩

/-- A mutation that is lost while it is handed to the session is reported as such. -/
theorem admitWithCancellation_lost (admission : Admission)
    (h : lost ∈ (admitWithCancellation admission true).1) :
    ∃ cause, (admitWithCancellation admission true).2 = .error (.outcomeUnknown cause) := by
  unfold admitWithCancellation at h ⊢
  split at h
  · cases h
  split at h
  · cases h
  · cases h
  next cause _ _ =>
    have last : admission.cancelled = lost := (List.mem_singleton.mp h).symm
    rw [last]
    exact ⟨cause, rfl⟩
  · cases h
  · cases h

/-- A mutation that is lost while it is waited for is reported as such or sent again. -/
theorem waitForSubmission_lost (wait : SubmissionWait)
    (h : lost ∈ (waitForSubmission wait true).1) :
    (wait.Loses ∧ ∃ cause, (waitForSubmission wait true).2 = .error (.outcomeUnknown cause)) ∨
      (waitForSubmission wait true).2 = .ok (.resend true) := by
  cases wait with
  | finished result =>
    cases List.mem_singleton.mp h
    exact .inl ⟨rfl, .transport, rfl⟩
  | interrupted cause result =>
    cases List.mem_singleton.mp h
    exact .inl ⟨rfl, cause, rfl⟩
  | routeChanged result =>
    cases List.mem_singleton.mp h
    exact .inl ⟨rfl, .transport, rfl⟩
  | unblocked result =>
    cases List.mem_singleton.mp h
    exact .inr rfl
  | abandoned => cases h

/-- What a round that knows of a lost mutation may come to. -/
def RoundHonest : Retry.Next (Option UnknownCause) (Except Error Message) → Prop
  | .again prior => prior.isSome
  | .done result => Honest result

variable {round : Round}

theorem Round.submit_lost (straight : round.Straight none)
    (h : lost ∈ (round.submit true prior).1) : RoundHonest (round.submit true prior).2 := by
  have admission := admitWithCancellation_lost round.admission
  have wait := waitForSubmission_lost round.wait
  unfold Round.submit at h ⊢
  split at h
  · cases h
  split at h
  next reports admitted =>
    -- Saturation is not what a lost mutation is answered with.
    rw [admitted] at admission
    obtain ⟨cause, other⟩ := admission h
    cases other
  next reports error _ admitted =>
    rw [admitted] at admission
    obtain ⟨cause, unknown⟩ := admission h
    cases unknown
    exact .inr ⟨cause, rfl⟩
  next reports reply admitted => exact .inl ⟨reply, rfl⟩
  next reports admitted =>
    rw [admitted] at admission
    rcases List.mem_append.mp h with before | now
    · obtain ⟨cause, other⟩ := admission before
      cases other
    dsimp only
    rcases wait now with ⟨loses, cause, unknown⟩ | again
    · rw [unknown]
      dsimp only
      rw [if_neg (straight rfl loses)]
      exact .inr ⟨cause, rfl⟩
    · rw [again]
      exact rfl

theorem Round.attempt_lost (straight : round.Straight none)
    (h : lost ∈ (round.attempt true prior).1) : RoundHonest (round.attempt true prior).2 := by
  unfold Round.attempt at h ⊢
  split at h
  · cases h
  split at h
  · cases h
  · split at h
    · cases h
    · split at h
      · split at h
        · cases h
        · cases h
      next clear =>
        rw [if_neg clear]
        exact submit_lost straight h

theorem Round.submit_again {later : Option UnknownCause}
    (h : (round.submit true prior).2 = .again later) (unknown : prior.isSome) : later.isSome := by
  unfold Round.submit at h
  split at h
  · cases h
  split at h
  · cases h
    exact unknown
  · cases h
  · cases h
  · dsimp only at h
    split at h
    next uncertain _ =>
      cases h
      cases uncertain with
      | false => exact unknown
      | true => rfl
    · cases h
    split at h
    · cases h
    · cases h

theorem Round.attempt_again {later : Option UnknownCause}
    (h : (round.attempt true prior).2 = .again later) (unknown : prior.isSome) : later.isSome := by
  unfold Round.attempt at h
  split at h
  · cases h
  split at h
  · cases h
  · split at h
    · cases h
    · split at h
      · split at h
        · cases h
        · cases h
          exact unknown
      · exact submit_again h unknown

theorem Round.run_eq (mutation : Bool) (prior : Option UnknownCause) (round : Round) :
    round.run mutation prior =
      ((round.attempt mutation prior).1,
        match (round.attempt mutation prior).2 with
        | .again prior => .again prior
        | .done result => .done (result.mapError (preserveUnknown · prior))) := by
  unfold Round.run
  split
  next attempted => rw [attempted]
  next attempted => rw [attempted]

/-- A round that knows of a lost mutation, from before or from itself, is honest about it. -/
theorem Round.run_honest (straight : round.Straight prior)
    (h : prior.isSome ∨ lost ∈ (round.run true prior).1) :
    RoundHonest (round.run true prior).2 := by
  rw [run_eq] at h ⊢
  dsimp only at h ⊢
  cases prior with
  | some cause =>
    cases attempted : (round.attempt true (some cause)).2 with
    | again later => exact attempt_again attempted rfl
    | done result => exact honest_of_prior rfl result
  | none =>
    rcases h with known | here
    · cases known
    have honest := attempt_lost straight here
    cases attempted : (round.attempt true none).2 with
    | again later =>
      rw [attempted] at honest
      exact honest
    | done result =>
      rw [attempted] at honest
      exact Honest.preserve honest none

/-- A submission that loses the mutation gets a reply nevertheless or says so. -/
theorem submitRouted_honest {rounds : List Round}
    (straight : Retry.Every (Round.run true) Round.Straight none rounds)
    (h : lost ∈ (submitRouted true rounds).1) : Honest (submitRouted true rounds).2 := by
  refine Retry.run_rule (fun os prior => lost ∈ os → prior.isSome)
    (fun os result => lost ∈ os → Honest result) ?again ?done ?stop [] nofun rounds straight h
  case again =>
    intro os prior round later straight known next seen
    have honest := Round.run_honest straight ((List.mem_append.mp seen).imp_left known)
    rw [next] at honest
    exact honest
  case done =>
    intro os prior round result straight known next seen
    have honest := Round.run_honest straight ((List.mem_append.mp seen).imp_left known)
    rw [next] at honest
    exact honest
  case stop =>
    intro os prior known seen
    exact honest_of_prior (known seen) (.error .timeout)

/-! ## The attempts -/

/-- A valid reply of a certain kind. -/
def Event.answers (kind : Reply → Bool) : Event → Bool
  | .validated reply => kind reply
  | _ => false

/-- A request was lost, and no later reply of a certain kind settles what became of it. -/
def Unsettled (kind : Reply → Bool) (log : List Event) : Prop :=
  ∃ before after, log = before ++ .reported lost :: after ∧
    ∀ event ∈ after, event.answers kind = false

def anyReply (_ : Reply) : Bool := true

variable {kind : Reply → Bool}

theorem Unsettled.of_append {log more : List Event} (h : Unsettled kind (log ++ more)) :
    Unsettled kind more ∨
      Unsettled kind log ∧ ∀ event ∈ more, event.answers kind = false := by
  obtain ⟨before, after, split, open'⟩ := h
  rcases List.append_eq_append_iff.mp split with ⟨middle, rfl, rfl⟩ | ⟨middle, rfl, rest⟩
  · exact .inl ⟨middle, after, rfl, open'⟩
  cases middle with
  | nil => exact .inl ⟨[], after, rest.symm, open'⟩
  | cons event middle =>
    cases rest
    refine .inr ⟨⟨before, middle, rfl, fun event seen => ?_⟩, fun event seen => ?_⟩
    · exact open' event (List.mem_append_left _ seen)
    · exact open' event (List.mem_append_right _ seen)

theorem Unsettled.mem {log : List Event} (h : Unsettled kind log) : .reported lost ∈ log := by
  obtain ⟨before, after, rfl, -⟩ := h
  exact List.mem_append_right _ (List.mem_cons_self ..)

/-- What an attempt that knows of a lost mutation may come to. -/
def StepUnknown : Step → Prop
  | .again s => s.priorUnknown.isSome
  | .done outcome => ∃ cause, outcome = some (.error (.outcomeUnknown cause))

/-- While an outcome is unknown the session can be looked up and the deadline represented.
The attempt in which it becomes unknown has straight rounds, and the client is still
open after it. -/
structure Attempt.Straight (call : Call) (s : Loop) (a : Attempt) : Prop where
  session : s.priorUnknown.isSome → a.session = .ok ()
  representable : s.priorUnknown.isSome → a.representable
  rounds : s.priorUnknown = none →
    Retry.Every (Round.run call.mutation) Round.Straight none a.rounds
  stillOpen : s.priorUnknown = none → lost ∈ (submitRouted call.mutation a.rounds).1 →
    a.closedAfter = false

variable {call : Call} {s : Loop} {a : Attempt}

theorem unknown_keep (h : s.priorUnknown.isSome) (error : Error) :
    StepUnknown (.fail (preserveUnknown error s.priorUnknown)) := by
  obtain ⟨cause, known⟩ := Option.isSome_iff_exists.mp h
  rw [known]
  exact ⟨cause, rfl⟩

theorem unknown_recover_prior (h : s.priorUnknown.isSome) (error : Error) :
    StepUnknown (a.recover call s error) := by
  unfold Attempt.recover
  dsimp only
  split
  · exact unknown_keep h _
  split
  · exact unknown_keep h _
  · split
    · split
      · exact rfl
      · exact ⟨_, rfl⟩
    · exact unknown_keep h _
    · exact unknown_keep h _
    · split
      · exact unknown_keep h _
      · exact h

theorem unknown_recover_lost (stillOpen : a.closedAfter = false) (cause : UnknownCause) :
    StepUnknown (a.recover call s (.outcomeUnknown cause)) := by
  unfold Attempt.recover
  rw [stillOpen]
  dsimp only
  split
  next saturated => cases saturated
  split
  next closed => cases closed
  · split
    · exact rfl
    · exact ⟨_, rfl⟩

variable {route : Route} {message : Message}

/-- An answer to a mutation that is not valid says nothing. -/
theorem unknown_conclude (mutation : call.mutation = true)
    (h : ∀ event ∈ (a.conclude call s route message).1, event.answers anyReply = false) :
    StepUnknown (a.conclude call s route message).2 := by
  have malformed : StepUnknown (.fail call.malformed) :=
    ⟨.transport, by simp [Call.malformed, mutation]⟩
  unfold Attempt.conclude at h ⊢
  split at h
  · exact malformed
  rename_i reply _
  split at h
  next wrong =>
    rw [if_pos wrong]
    exact malformed
  · cases h (.validated reply) (List.mem_singleton_self _)

theorem reported_notMem_conclude (result : SessionResult) :
    .reported result ∉ (a.conclude call s route message).1 := by
  unfold Attempt.conclude
  split
  · exact List.not_mem_nil
  split
  · exact List.not_mem_nil
  · exact fun h => nomatch List.mem_singleton.mp h

/-- The log of a submission reports what the session reported. -/
theorem mem_submission {result : SessionResult}
    (h : .reported result ∈ a.submission call s message) :
    result ∈ (submitRouted call.mutation a.rounds).1 := by
  rcases List.mem_cons.mp h with head | tail
  · cases head
  obtain ⟨report, seen, same⟩ := List.mem_map.mp tail
  cases same
  exact seen

/-- There is a request for this target that can be encoded. -/
def Encodable (call : Call) (target : Target) : Prop :=
  ∃ s route globalId message, s.target = target ∧
    encodeRequest (call.request s route globalId) call.limits = some (.ok message)

/-- Then every request for this target can be. -/
theorem Encodable.every (h : Encodable call s.target) (route : Route) (globalId : UInt64) :
    ∃ message, encodeRequest (call.request s route globalId) call.limits = some (.ok message) := by
  obtain ⟨earlier, route', globalId', message, same, encoded⟩ := h
  have alike : (call.request earlier route' globalId').Alike (call.request s route globalId) :=
    ⟨congrArg Target.poolId same, congrArg Target.object same, congrArg Target.locator same,
      congrArg Target.nameSpace same, congrArg Target.snapshotSequence same,
      congrArg Target.writeSnapshots same, rfl⟩
  exact alike.encodeRequest encoded

variable {result : List Event × Step}

/-- An attempt that gets as far as sending is honest about a lost mutation. -/
theorem unknown_send (mutation : call.mutation = true) (straight : a.Straight call s)
    (encodable : s.priorUnknown.isSome → Encodable call s.target)
    (sent : a.Sent call s route result) (h : Unsettled anyReply result.1 ∨
      s.priorUnknown.isSome ∧ ∀ event ∈ result.1, event.answers anyReply = false) :
    StepUnknown result.2 := by
  cases sent with
  | unencoded outcome fails =>
    rcases h with lost | ⟨known, -⟩
    · cases lost.mem
    · obtain ⟨message, encoded⟩ := (encodable known).every route (a.authority.getD 0)
      exact absurd encoded (fails message)
  | late message encoded late =>
    rcases h with lost | ⟨known, -⟩
    · cases List.mem_singleton.mp lost.mem
    · rw [straight.representable known] at late
      cases late
  | failed message error encoded submitted =>
    by_cases known : s.priorUnknown.isSome
    · exact unknown_recover_prior known error
    have here : lost ∈ (submitRouted call.mutation a.rounds).1 := by
      rcases h with lost | ⟨known', -⟩
      · exact mem_submission lost.mem
      · exact absurd known' known
    have first : s.priorUnknown = none := Option.not_isSome_iff_eq_none.mp known
    have rounds := straight.rounds first
    have stillOpen := straight.stillOpen first here
    rw [mutation] at rounds here submitted
    rcases submitRouted_honest rounds here with ⟨reply, answered⟩ | ⟨cause, unknown⟩
    · cases submitted.symm.trans answered
    · cases submitted.symm.trans unknown
      exact unknown_recover_lost stillOpen cause
  | answered message reply encoded submitted =>
    refine unknown_conclude mutation fun event seen => ?_
    rcases h with lost | ⟨-, noReply⟩
    · rcases lost.of_append with after | ⟨-, noReply⟩
      · exact absurd after.mem (reported_notMem_conclude _)
      · exact noReply event seen
    · exact noReply event (List.mem_append_right _ seen)

theorem unknown_run (mutation : call.mutation = true) (straight : a.Straight call s)
    (encodable : s.priorUnknown.isSome → Encodable call s.target) (ran : a.Ran call s result)
    (h : Unsettled anyReply result.1 ∨
      s.priorUnknown.isSome ∧ ∀ event ∈ result.1, event.answers anyReply = false) :
    StepUnknown result.2 := by
  cases ran with
  | kept error =>
    rcases h with lost | ⟨known, -⟩
    · cases lost.mem
    · exact unknown_keep known error
  | noSession error missing =>
    rcases h with lost | ⟨known, -⟩
    · cases lost.mem
    · rw [straight.session known] at missing
      cases missing
  | sent flags route =>
    have flagged : a.Straight call { s with flags } :=
      ⟨straight.session, straight.representable, straight.rounds, straight.stillOpen⟩
    exact unknown_send mutation flagged encodable (a.sent call _ route) h

/-! ### Going on -/

variable {s' : Loop}

theorem recover_again {error : Error} (h : a.recover call s error = .again s') :
    s'.attempt = s.attempt + 1 ∧ s'.target = s.target ∧ s'.transactionId = s.transactionId := by
  unfold Attempt.recover at h
  dsimp only at h
  split at h
  · cases h
  split at h
  · cases h
  · split at h
    · split at h
      · cases h
        exact ⟨rfl, rfl, rfl⟩
      · cases h
    · cases h
    · cases h
    · split at h
      · cases h
      · cases h
        exact ⟨rfl, rfl, rfl⟩

theorem tryAgain_again (h : a.tryAgain s = .again s') :
    s' = { s with attempt := s.attempt + 1 } := by
  unfold Attempt.tryAgain at h
  split at h
  · cases h
  · cases h
    rfl

theorem settle_again {reply : Reply} (h : a.settle call s reply = .again s') :
    s'.attempt = s.attempt + 1 ∧ s'.priorUnknown = none := by
  unfold Attempt.settle at h
  dsimp only at h
  split at h
  · split at h
    · split at h
      · cases h
      · cases h
        exact ⟨rfl, rfl⟩
    · cases h
      exact ⟨rfl, rfl⟩
  · split at h
    · rw [tryAgain_again h]
      exact ⟨rfl, rfl⟩
    · split at h
      · cases h
      · split at h
        · rw [tryAgain_again h]
          exact ⟨rfl, rfl⟩
        · split at h
          · cases h
          · split at h
            · cases h
            · split at h
              · cases h
              · cases h

theorem conclude_again {reply : Message} (h : (a.conclude call s route reply).2 = .again s') :
    s'.attempt = s.attempt + 1 ∧ s'.priorUnknown = none := by
  unfold Attempt.conclude at h
  split at h
  · cases h
  split at h
  · cases h
  · exact settle_again h

theorem send_again (sent : a.Sent call s route result) (h : result.2 = .again s') :
    s'.attempt = s.attempt + 1 ∧ (s'.priorUnknown.isSome → Encodable call s'.target) := by
  cases sent with
  | unencoded outcome fails => cases h
  | late message encoded late => cases h
  | failed message error encoded submitted =>
    obtain ⟨counted, target, -⟩ := recover_again h
    rw [target]
    exact ⟨counted, fun _ => ⟨s, route, _, message, rfl, encoded⟩⟩
  | answered message reply encoded submitted =>
    obtain ⟨counted, known⟩ := conclude_again h
    rw [known]
    exact ⟨counted, nofun⟩

/-- The attempts are counted, and whenever one leaves an outcome unknown to the next, the
request of the next one can be encoded. -/
theorem run_again (h : (a.run call s).2 = .again s') :
    s'.attempt = s.attempt + 1 ∧ (s'.priorUnknown.isSome → Encodable call s'.target) := by
  have ran := a.ran call s
  generalize a.run call s = result at ran h
  cases ran with
  | kept error => cases h
  | noSession error missing => cases h
  | sent flags route => exact send_again (s := { s with flags }) (a.sent call _ route) h

/-! ### The call -/

/-- In a call for a mutation whose attempts are all straight, a lost request that no valid
reply follows makes the outcome of the call unknown. -/
theorem executeRouted_unknown (call : Call) (target : Target) (transactionId : Nat)
    (attempts : Vector Attempt maxAttempts) (mutation : call.mutation = true)
    (straight : Retry.Every (Attempt.run call) (fun s a => a.Straight call s)
      (call.start target transactionId) attempts.toList)
    (lost : Unsettled anyReply (executeRouted call target transactionId attempts).1) :
    ∃ cause, (executeRouted call target transactionId attempts).2 =
      some (.error (.outcomeUnknown cause)) := by
  unfold executeRouted at lost ⊢
  split at lost
  · cases lost.mem
  split at lost
  · cases lost.mem
  next routable =>
    rw [if_neg routable]
    refine Retry.run_rule
      (fun log s => (Unsettled anyReply log → s.priorUnknown.isSome) ∧
        (s.priorUnknown.isSome → Encodable call s.target))
      (fun log outcome => Unsettled anyReply log →
        ∃ cause, outcome = some (.error (.outcomeUnknown cause)))
      ?again ?done ?stop [] ⟨fun h => (nomatch h.mem), nofun⟩ attempts.toList straight lost
    case again =>
      rintro log s a s' straight ⟨known, encodable⟩ next
      refine ⟨fun unsettled => ?_, (run_again next).2⟩
      have honest := unknown_run mutation straight encodable (a.ran call s)
        (unsettled.of_append.imp_right fun ⟨before, noReply⟩ =>
          ⟨known before, noReply⟩)
      rw [next] at honest
      exact honest
    case done =>
      rintro log s a outcome straight ⟨known, encodable⟩ next unsettled
      have honest := unknown_run mutation straight encodable (a.ran call s)
        (unsettled.of_append.imp_right fun ⟨before, noReply⟩ =>
          ⟨known before, noReply⟩)
      rw [next] at honest
      exact honest
    case stop =>
      rintro log s ⟨known, -⟩ unsettled
      obtain ⟨cause, prior⟩ := Option.isSome_iff_exists.mp (known unsettled)
      exact ⟨cause, by rw [giveUp, prior]; rfl⟩

/-! ## Two calls -/

/-- A call that appends a byte to an object. -/
def appendCall : Call where
  operations := [.append [1]]
  mutation := true
  incarnation := .ok 7
  limits := ⟨4096, 16⟩
  features := 0

def appendTarget : Target := ⟨1, [111], [], [], 0, 0, []⟩

def calm : OptionsView := ⟨false, false⟩

def calmRefresh : Refresh := ⟨calm, true, .ok (), calm⟩

def appendPlacement : ObjectPlacement where
  rawHash := 0
  pg := ⟨1, 0, -1⟩
  actingPrimary := 0
  primaryShard := -1
  sharded := false

/-- A map with one OSD. -/
def oneOsd : MapView where
  epoch := 1
  placeObject _ _ _ _ := some appendPlacement
  placeRawHash _ _ := none
  reachable _ := true

/-- A round in which the request is sent and waited for. -/
def sentRound (wait : SubmissionWait) : Round where
  failure := none
  capacity := .waited ⟨calm, .finished (.ok ())⟩
  failureAfterWait := none
  failureLocked := none
  blocked := false
  change := .waited ⟨calm, .finished (.ok ())⟩
  nextSubmission := 1
  admission := ⟨calm, none, .ok (), .error .cancelled⟩
  wait
  failureAtEnd := none

/-- An attempt under an authority that sends the request once. -/
def sentAttempt (authority : UInt64) (wait : SubmissionWait) : Attempt where
  closed := false
  options := calm
  looks := [⟨calm, false, some oneOsd, calmRefresh⟩]
  session := .ok ()
  authority := some authority
  representable := true
  rounds := [sentRound wait]
  closedAfter := false
  primaryChanged := true
  refresh := calmRefresh
  nextTransaction := 2

def closedAttempt : Attempt := { sentAttempt 1 .abandoned with closed := true }

/-- The OSD asks to try again. -/
def tryAgainReply : Message where
  header := { messageType := messageOsdOpReply, version := 4 }
  front := leBytes 4 1 ++ [111] ++ ([1] ++ leBytes 8 1 ++ leBytes 4 0 ++ leBytes 4 (twos 4 (-1)))
    ++ leBytes 8 0 ++ leBytes 4 (twos 4 (-11)) ++ zeros 12 ++ leBytes 4 1 ++ leBytes 4 0
    ++ leBytes 4 (twos 4 (-1)) ++ zeros 12 ++ leBytes 8 0

/-- The append is lost and the client is closed before it can be sent again. -/
def closedCall : Vector Attempt maxAttempts :=
  #v[sentAttempt 1 (.finished lost), closedAttempt, closedAttempt, closedAttempt]

theorem straight_sentAttempt (call : Call) (authority : UInt64) (wait : SubmissionWait)
    (closed : Bool) (s : Loop) :
    { sentAttempt authority wait with closed }.Straight call s where
  session _ := rfl
  representable _ := rfl
  rounds _ := Retry.every_of_forall
    (fun _ here _ _ _ => by rw [List.mem_singleton.mp here]; exact nofun) none
  stillOpen _ _ := rfl

theorem straight_closedCall :
    Retry.Every (Attempt.run appendCall) (fun s a => a.Straight appendCall s)
      (appendCall.start appendTarget 1) closedCall.toList := by
  refine Retry.every_of_forall (fun a here s => ?_) _
  rcases List.mem_cons.mp here with rfl | here
  · exact straight_sentAttempt appendCall 1 (.finished lost) false s
  · rw [List.eq_of_mem_replicate (n := 3) here]
    exact straight_sentAttempt appendCall 1 .abandoned true s

set_option maxRecDepth 1000

theorem executeRouted_unknown_closed :
    ∃ cause, (executeRouted appendCall appendTarget 1 closedCall).2 =
      some (.error (.outcomeUnknown cause)) :=
  executeRouted_unknown _ _ _ _ rfl straight_closedCall
    ⟨(executeRouted appendCall appendTarget 1 closedCall).1.take 1, [], by decide, nofun⟩

/-- The reply redirects the request, or asks to try again. -/
def Reply.retries (reply : Reply) : Bool :=
  reply.redirect.isSome || reply.result == -11 || reply.operations.any (·.code == -11)

/-- The append is lost, the OSD asks to try again, and then the client is closed. -/
def retriedCall : Vector Attempt maxAttempts :=
  #v[sentAttempt 1 (.finished lost), sentAttempt 1 (.finished (.ok (some tryAgainReply))),
    closedAttempt, closedAttempt]

/-- A reply that asks to try again settles a lost mutation as well. -/
theorem not_unknown_after_retry :
    ¬ ∀ (call : Call) (target : Target) (transactionId : Nat)
      (attempts : Vector Attempt maxAttempts), call.mutation = true →
      Unsettled (!·.retries) (executeRouted call target transactionId attempts).1 →
      ∃ cause, (executeRouted call target transactionId attempts).2 =
        some (.error (.outcomeUnknown cause)) := by
  intro h
  let log := (executeRouted appendCall appendTarget 1 retriedCall).1
  have lost : log = log.take 1 ++ .reported lost :: log.drop 2 := by decide
  have retried : ∀ event ∈ log.drop 2, event.answers (!·.retries) = false := by decide
  obtain ⟨cause, unknown⟩ := h appendCall appendTarget 1 retriedCall rfl ⟨_, _, lost, retried⟩
  have closed :
      (executeRouted appendCall appendTarget 1 retriedCall).2 = some (.error .closed) := by
    decide
  cases closed.symm.trans unknown

end RadosRs.Osd
