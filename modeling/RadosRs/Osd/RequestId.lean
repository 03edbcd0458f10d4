import RadosRs.Osd.Outcome

/-!
# The request id across attempts

An OSD recognises a request that it has seen before by its request id, and does
not carry it out again.  A mutation that is sent again because its outcome is
unknown is carried out at most once, then, if it is sent under the same request
id.

The transaction id changes only when a valid reply redirects the request, and the
incarnation of the client never does.  The global id, however, is read from the
slot of the authority anew at every attempt, and a new monitor session may have
replaced the authority there.  Two requests with no valid reply between them
therefore have the same request id exactly if the slot had the same global id at
both attempts.
-/

namespace RadosRs.Osd

open Bytes Msgr
open Maps (Pg)

/-- The global id that is in the slot at an attempt. -/
def globalIdAt (attempts : List Attempt) (attempt : Nat) : UInt64 :=
  ((attempts[attempt]?).bind Attempt.authority).getD 0

/-- The bytes of a request id. -/
def idBytes (globalId : UInt64) (transactionId : Nat) (incarnation : Int) : List UInt8 :=
  leBytes 8 globalId.toNat ++ leBytes 8 transactionId ++ leBytes 4 (twos 4 incarnation)

theorem idBytes_inj {globalId globalId' : UInt64} (transactionId : Nat) (incarnation : Int) :
    idBytes globalId transactionId incarnation = idBytes globalId' transactionId incarnation ↔
      globalId = globalId' := by
  constructor
  · intro same
    have bytes := List.append_cancel_right (List.append_cancel_right same)
    exact UInt64.toNat_inj.mp (leBytes_inj globalId.toNat_lt globalId'.toNat_lt bytes)
  · rintro rfl
    rfl

section Log

variable (id : Nat → Nat → List UInt8)

/-- The requests up to the next valid reply are made with the given transaction id, and those
after a valid reply with one that the reply leaves behind. -/
def Numbered : Nat → List Event → Prop
  | _, [] => True
  | transactionId, .encoded attempt message :: log =>
    requestId message = id attempt transactionId ∧ Numbered transactionId log
  | transactionId, .reported _ :: log => Numbered transactionId log
  | _, .validated _ :: log => ∃ transactionId, Numbered transactionId log

variable {id} {transactionId : Nat} {log more : List Event}

theorem Numbered.drop (h : Numbered id transactionId (log ++ more)) :
    ∃ transactionId, Numbered id transactionId more := by
  induction log generalizing transactionId with
  | nil => exact ⟨transactionId, h⟩
  | cons event log ih =>
    cases event with
    | encoded => exact ih h.2
    | reported => exact ih h
    | validated =>
      obtain ⟨_, h⟩ := h
      exact ih h

theorem Numbered.drop_noReply (h : Numbered id transactionId (log ++ more))
    (noReply : ∀ event ∈ log, event.answers anyReply = false) :
    Numbered id transactionId more := by
  induction log with
  | nil => exact h
  | cons event log ih =>
    obtain ⟨here, later⟩ := List.forall_mem_cons.mp noReply
    cases event with
    | encoded => exact ih h.2 later
    | reported => exact ih h later
    | validated => cases here

theorem numbered_reports {reports : List SessionResult}
    (h : Numbered id transactionId more) :
    Numbered id transactionId (reports.map .reported ++ more) := by
  induction reports with
  | nil => exact h
  | cons _ _ ih => exact ih

/-- What may follow an attempt: nothing if it ends the call, and otherwise requests with the
transaction id that it passes on. -/
def Follows (id : Nat → Nat → List UInt8) (log : List Event) : Step → Prop
  | .again s => Numbered id s.transactionId log
  | .done _ => log = []

end Log

section Call

variable {call : Call} {s : Loop} {a : Attempt} {attempts : List Attempt} {log : List Event}

/-- The request id of a call at an attempt. -/
def Call.idAt (call : Call) (attempts : List Attempt) (attempt transactionId : Nat) : List UInt8 :=
  idBytes (globalIdAt attempts attempt) transactionId call.clientIncarnation

variable {route : Route} {message : Message}

theorem numbered_conclude
    (h : Follows (call.idAt attempts) log (a.conclude call s route message).2) :
    Numbered (call.idAt attempts) s.transactionId
      ((a.conclude call s route message).1 ++ log) := by
  unfold Attempt.conclude at h ⊢
  split at h
  · cases h
    trivial
  rename_i reply _
  split at h
  next wrong =>
    cases h
    rw [if_pos wrong]
    trivial
  rename_i right
  rw [if_neg right]
  dsimp only at h ⊢
  cases settled : a.settle call s reply with
  | again later =>
    rw [settled] at h
    exact ⟨later.transactionId, h⟩
  | done outcome =>
    rw [settled] at h
    cases h
    exact ⟨0, trivial⟩

theorem requestId_requestFor (here : attempts[s.attempt]? = some a)
    (encoded : encodeRequest (a.requestFor call s route) call.limits = some (.ok message)) :
    requestId message = call.idAt attempts s.attempt s.transactionId := by
  rw [requestId_encodeRequest encoded, Call.idAt, globalIdAt, here]
  rfl

variable {result : List Event × Step}

theorem numbered_send (sent : a.Sent call s route result) (here : attempts[s.attempt]? = some a)
    (h : Follows (call.idAt attempts) log result.2) :
    Numbered (call.idAt attempts) s.transactionId (result.1 ++ log) := by
  cases sent with
  | unencoded outcome fails =>
    cases h
    trivial
  | late message encoded late =>
    cases h
    exact ⟨requestId_requestFor here encoded, trivial⟩
  | failed message error encoded submitted =>
    refine ⟨requestId_requestFor here encoded, numbered_reports ?_⟩
    dsimp only at h
    cases recovered : a.recover call s error with
    | again later =>
      rw [recovered] at h
      exact (recover_again recovered).2.2 ▸ h
    | done outcome =>
      rw [recovered] at h
      cases h
      trivial
  | answered message reply encoded submitted =>
    dsimp only at h ⊢
    rw [List.append_assoc]
    exact ⟨requestId_requestFor here encoded, numbered_reports (numbered_conclude h)⟩

theorem numbered_run (ran : a.Ran call s result) (here : attempts[s.attempt]? = some a)
    (h : Follows (call.idAt attempts) log result.2) :
    Numbered (call.idAt attempts) s.transactionId (result.1 ++ log) := by
  cases ran with
  | kept error =>
    cases h
    trivial
  | noSession error missing =>
    cases h
    trivial
  | sent flags route =>
    exact numbered_send (s := { s with flags }) (a.sent call _ route) here h

theorem numbered_executeRouted (call : Call) (target : Target) (transactionId : Nat)
    (attempts : Vector Attempt maxAttempts) :
    ∃ first, Numbered (call.idAt attempts.toList) first
      (executeRouted call target transactionId attempts).1 := by
  unfold executeRouted
  split
  · exact ⟨0, trivial⟩
  split
  · exact ⟨0, trivial⟩
  · have every := Retry.every_numbered Loop.attempt
      (fun s a s' (next : (a.run call s).2 = .again s') => (run_again next).1) [] attempts.toList
      (s := call.start target transactionId) rfl
    refine ⟨(call.start target transactionId).transactionId,
      Retry.run_rule_rest
        (fun s log _ => Numbered (call.idAt attempts.toList) s.transactionId log)
        ?again ?done (fun _ => trivial) _ _ every⟩
    case again =>
      intro s a s' log outcome here next rest
      refine numbered_run (a.ran call s) here ?_
      rw [next]
      exact rest
    case done =>
      intro s a outcome here next
      have nothing : Follows (call.idAt attempts.toList) [] (a.run call s).2 := by
        rw [next]
        rfl
      simpa using numbered_run (a.ran call s) here nothing

/-- Two requests with no valid reply between them have the same request id if and only if the
authority in the slot had the same global id at both attempts. -/
theorem requestId_eq_iff (call : Call) (target : Target) (transactionId : Nat)
    (attempts : Vector Attempt maxAttempts) (before between after : List Event)
    (first second : Nat) (earlier later : Message)
    (log : (executeRouted call target transactionId attempts).1 =
      before ++ .encoded first earlier :: (between ++ .encoded second later :: after))
    (noReply : ∀ event ∈ between, event.answers anyReply = false) :
    requestId earlier = requestId later ↔
      globalIdAt attempts.toList first = globalIdAt attempts.toList second := by
  obtain ⟨start, numbered⟩ := numbered_executeRouted call target transactionId attempts
  rw [log] at numbered
  obtain ⟨transactionId, here, rest⟩ := numbered.drop
  obtain ⟨there, -⟩ := rest.drop_noReply noReply
  rw [here, there]
  exact idBytes_inj transactionId call.clientIncarnation

end Call

/-! ## A mutation that is sent twice -/

/-- The append is lost under one authority and sent again under another. -/
def resentCall (second : UInt64) : Vector Attempt maxAttempts :=
  #v[sentAttempt 1 (.finished lost), sentAttempt second (.finished lost), closedAttempt,
    closedAttempt]

def resentLog (second : UInt64) : List Event :=
  (executeRouted appendCall appendTarget 1 (resentCall second)).1

/-- The request that stands at some place of the log. -/
def requestAt (log : List Event) (place : Nat) : Message :=
  match log[place]? with
  | some (.encoded _ message) => message
  | _ => {}

set_option maxRecDepth 1000

theorem requestId_eq_resent :
    requestId (requestAt (resentLog 1) 0) = requestId (requestAt (resentLog 1) 2) :=
  (requestId_eq_iff appendCall appendTarget 1 (resentCall 1) [] [.reported lost]
    ((resentLog 1).drop 3) 0 1 _ _ (by decide) (by decide)).mpr rfl

/-- A monitor session is opened between the two attempts, and the OSD does not recognise the
append when it comes again. -/
theorem not_same_requestId :
    ¬ ∀ (call : Call) (target : Target) (transactionId : Nat)
      (attempts : Vector Attempt maxAttempts) (before between after : List Event)
      (first second : Nat) (earlier later : Message), call.mutation = true →
      (executeRouted call target transactionId attempts).1 =
        before ++ .encoded first earlier :: (between ++ .encoded second later :: after) →
      (∀ event ∈ between, event.answers anyReply = false) →
      requestId earlier = requestId later := by
  intro h
  have same := h appendCall appendTarget 1 (resentCall 2) [] [.reported lost]
    ((resentLog 2).drop 3) 0 1 (requestAt (resentLog 2) 0) (requestAt (resentLog 2) 2) rfl
    (by decide) (by decide)
  exact absurd same (by decide)

end RadosRs.Osd
