import RadosRs.Mon.Owner

/-!
# Every monitor request that was sent is answered

Once a command or a pool operation is sent, the monitor may execute it.  Its caller
is to get what a reply with its transaction id says, or to be told that the outcome
is unknown.

The custody of the owner is who waits in which slot.  `Custody.Move` says what may
happen to it: a caller is answered and leaves its slot, or one that is not going to
execute anything is left without an answer, or a new caller arrives.  Whatever is
made of such moves answers every caller as it should, and `step_moves` shows that a
turn of the loop is, unless

* the owner is stopped while a command or a pool operation is under way, or
* another request cannot be sent then: both ends of the session leave the slots
  as they are, and close the channels of those who wait in them.

The caller of a pool operation goes on to wait for the map that has the change in it,
and gets an error after all if this wait is cut short.
-/

namespace RadosRs.Mon

open Msgr hiding Limits
open Maps (Fsid Limits)
open Session (SessionError)

/-- The monitor changes something when it is asked for it. -/
def Kind.executes : Kind → Bool
  | .command | .poolOperation => true
  | .statFs | .poolStats => false

/-- What a caller is told of a reply. -/
def Kind.read (limits : Limits) (pinned : Option Fsid) (message : Message) (kind : Kind) :
    Except MonitorError Answer :=
  match kind.decode limits message with
  | .error error => .error error
  | .ok answer => if answer.foreign pinned then .error .foreignCluster else answer.settle

/-- The outcome is unknown, or this is what a reply with the transaction id of the request
says. -/
def Genuine (limits : Limits) (log : List Event) (kind : Kind) (transactionId : Nat)
    (result : Except MonitorError Answer) : Prop :=
  result = .error (.session .outcomeUnknown) ∨
    ∃ reply pinned, .received reply ∈ log ∧ reply.header.messageType = kind.replyType ∧
      reply.header.transactionId = transactionId ∧ result = kind.read limits pinned reply

variable {kind : Kind} {log : List Event} {transactionId : Nat} {limits : Limits}
  {result : Except MonitorError Answer}

theorem Genuine.append (h : Genuine limits log kind transactionId result) (more : List Event) :
    Genuine limits (log ++ more) kind transactionId result := by
  rcases h with unknown | ⟨reply, pinned, received, type, id, read⟩
  · exact .inl unknown
  · exact .inr ⟨reply, pinned, List.mem_append_left _ received, type, id, read⟩

/-! ## Moves -/

/-- Nobody is sent or told anything. -/
def Event.Silent : Event → Prop
  | .received _ | .reported _ => True
  | _ => False

/-- What may happen to those who wait. -/
inductive Custody.Move (limits : Limits) : Custody → List Event → Custody → Prop where
  | quiet {c : Custody} {log : List Event} (silent : ∀ event ∈ log, event.Silent) :
      Move limits c log c
  | unknown {c : Custody} {kind : Kind} {p : Pending} (here : c.slots kind = some p) :
      Move limits c [.answered p.caller (.error (.session .outcomeUnknown))] (c.take kind)
  | reply {c : Custody} {kind : Kind} {p : Pending} (here : c.slots kind = some p)
      {message : Message} (type : message.header.messageType = kind.replyType)
      (id : message.header.transactionId = p.transactionId) (pinned : Option Fsid) :
      Move limits c [.received message, .answered p.caller (kind.read limits pinned message)]
        (c.take kind)
  | leave {c : Custody} {kind : Kind} {p : Pending} (here : c.slots kind = some p)
      (harmless : kind.executes = false) : Move limits c [.dropped p.caller] (c.take kind)
  | refuse {c : Custody} (result : Except MonitorError Answer) :
      Move limits c [.answered c.arrivals result] { c with arrivals := c.arrivals + 1 }
  | send {c : Custody} {kind : Kind} (free : c.slots kind = none) (message : Message) :
      Move limits c [.sent kind c.arrivals message]
        ({ c with arrivals := c.arrivals + 1 }.put kind
          ⟨c.arrivals, message.header.transactionId⟩)
  | trans {c c' c'' : Custody} {log log' : List Event} (first : Move limits c log c')
      (second : Move limits c' log' c'') : Move limits c (log ++ log') c''

/-! ## What moves keep -/

variable (c : Custody)

@[simp] theorem slots_take (kind : Kind) : (c.take kind).slots kind = none := by
  simp [Custody.take]

theorem slots_take_of_ne {other : Kind} (h : other ≠ kind) :
    (c.take kind).slots other = c.slots other := by
  simp [Custody.take, h]

@[simp] theorem slots_put (kind : Kind) (p : Pending) : (c.put kind p).slots kind = some p := by
  simp [Custody.put]

theorem slots_put_of_ne {other : Kind} (h : other ≠ kind) (p : Pending) :
    (c.put kind p).slots other = c.slots other := by
  simp [Custody.put, h]

variable (caller : Nat)

@[simp] theorem heard_nil : heard caller [] = none := rfl

@[simp] theorem heard_cons (event : Event) (log : List Event) :
    heard caller (event :: log) = (event.heardBy caller).or (heard caller log) := by
  unfold heard
  rw [List.findSome?_cons]
  cases event.heardBy caller <;> rfl

theorem heard_append (log more : List Event) :
    heard caller (log ++ more) = (heard caller log).or (heard caller more) :=
  List.findSome?_append

/-- Who waits has not heard anything, no two callers share a number, and whoever has sent
something that is executed waits in its slot or has been answered. -/
structure Custody.Kept (limits : Limits) (log : List Event) (c : Custody) : Prop where
  arrived : ∀ kind p, c.slots kind = some p → p.caller < c.arrivals
  apart : ∀ kind kind' p p', c.slots kind = some p → c.slots kind' = some p' →
    p.caller = p'.caller → kind = kind'
  unheard : ∀ caller, c.arrivals ≤ caller → heard caller log = none
  waiting : ∀ kind p, c.slots kind = some p → heard p.caller log = none
  told : ∀ kind caller message, kind.executes = true → .sent kind caller message ∈ log →
    c.slots kind = some ⟨caller, message.header.transactionId⟩ ∨
      ∃ result, heard caller log = some (.answered result) ∧
        Genuine limits log kind message.header.transactionId result

namespace Custody.Kept

variable {limits : Limits} {log more : List Event} {c : Custody}

/-- A caller that was told stays told. -/
theorem told_append {caller : Nat} (h : ∃ result, heard caller log = some (.answered result) ∧
      Genuine limits log kind transactionId result) :
    ∃ result, heard caller (log ++ more) = some (.answered result) ∧
      Genuine limits (log ++ more) kind transactionId result := by
  obtain ⟨result, told, genuine⟩ := h
  exact ⟨result, by rw [heard_append, told, Option.some_or], genuine.append more⟩

theorem empty (arrivals : Nat) : Kept limits [] ⟨fun _ => none, arrivals⟩ where
  arrived := nofun
  apart := nofun
  unheard _ _ := rfl
  waiting := nofun
  told := nofun

theorem quiet (h : Kept limits log c) (silent : ∀ event ∈ more, event.Silent) :
    Kept limits (log ++ more) c := by
  have nothing (caller : Nat) : heard caller more = none := by
    refine List.findSome?_eq_none_iff.mpr fun event seen => ?_
    have quiet := silent event seen
    cases event with
    | received => rfl
    | reported => rfl
    | sent => cases quiet
    | answered => cases quiet
    | dropped => cases quiet
  have same (caller : Nat) : heard caller (log ++ more) = heard caller log := by
    rw [heard_append, nothing, Option.or_none]
  refine ⟨h.arrived, h.apart, fun caller late => ?_, fun kind p here => ?_, ?_⟩
  · rw [same, h.unheard caller late]
  · rw [same, h.waiting kind p here]
  intro kind caller message executes sent
  rcases List.mem_append.mp sent with before | now
  · exact (h.told kind caller message executes before).imp_right told_append
  · cases silent _ now

/-- Somebody leaves its slot, and was answered if the monitor executes something for it. -/
theorem take (h : Kept limits log c) {p : Pending} (here : c.slots kind = some p)
    (others : ∀ caller ≠ p.caller, heard caller more = none)
    (unsent : ∀ kind caller message, .sent kind caller message ∉ more)
    (answered : kind.executes = true → ∃ result, heard p.caller more = some (.answered result) ∧
      Genuine limits (log ++ more) kind p.transactionId result) :
    Kept limits (log ++ more) (c.take kind) := by
  have slots {other : Kind} {q : Pending} (there : (c.take kind).slots other = some q) :
      other ≠ kind ∧ c.slots other = some q := by
    by_cases same : other = kind
    · rw [same, slots_take] at there
      cases there
    · exact ⟨same, slots_take_of_ne c same ▸ there⟩
  refine ⟨fun other q there => ?_, fun other other' q q' there there' => ?_, fun caller late => ?_,
    fun other q there => ?_, fun other caller message executes sent => ?_⟩
  · exact h.arrived other q (slots there).2
  · exact h.apart other other' q q' (slots there).2 (slots there').2
  · have different : caller ≠ p.caller := by
      have early := h.arrived kind p here
      rintro rfl
      exact absurd early (not_lt.mpr late)
    rw [heard_append, h.unheard caller late, others caller different, Option.or_none]
  · obtain ⟨different, there⟩ := slots there
    have apart : q.caller ≠ p.caller := fun same => different (h.apart _ _ _ _ there here same)
    rw [heard_append, h.waiting other q there, others q.caller apart, Option.or_none]
  have before := (List.mem_append.mp sent).resolve_right (unsent other caller message)
  rcases h.told other caller message executes before with there | told
  · by_cases same : other = kind
    · subst same
      cases here.symm.trans there
      obtain ⟨result, told, genuine⟩ := answered executes
      refine .inr ⟨result, ?_, genuine⟩
      rw [heard_append, h.waiting _ _ here, Option.none_or, told]
    · exact .inl (by rw [slots_take_of_ne c same, there])
  · exact .inr (told_append told)

/-- Somebody arrives and is answered at once. -/
theorem refuse (h : Kept limits log c) (result : Except MonitorError Answer) :
    Kept limits (log ++ [.answered c.arrivals result]) { c with arrivals := c.arrivals + 1 } := by
  have others (caller : Nat) (different : caller ≠ c.arrivals) :
      heard caller (log ++ [.answered c.arrivals result]) = heard caller log := by
    rw [heard_append]
    simp [Event.heardBy, different.symm]
  refine ⟨fun kind p here => ?_, h.apart, fun caller late => ?_, fun kind p here => ?_, ?_⟩
  · exact (h.arrived kind p here).trans (Nat.lt_succ_self _)
  · have late : c.arrivals < caller := late
    rw [others caller late.ne', h.unheard caller late.le]
  · rw [others p.caller (h.arrived kind p here).ne, h.waiting kind p here]
  intro kind caller message executes sent
  have before := (List.mem_append.mp sent).resolve_right fun now => nomatch List.mem_singleton.mp now
  exact (h.told kind caller message executes before).imp_right told_append

/-- Somebody arrives and its request is sent. -/
theorem send (h : Kept limits log c) (free : c.slots kind = none) (message : Message) :
    Kept limits (log ++ [.sent kind c.arrivals message])
      ({ c with arrivals := c.arrivals + 1 }.put kind
        ⟨c.arrivals, message.header.transactionId⟩) := by
  have same (caller : Nat) :
      heard caller (log ++ [.sent kind c.arrivals message]) = heard caller log := by
    rw [heard_append]
    exact Option.or_none
  have slots {other : Kind} {q : Pending}
      (there : ({ c with arrivals := c.arrivals + 1 }.put kind
        ⟨c.arrivals, message.header.transactionId⟩).slots other = some q) :
      (other = kind ∧ q.caller = c.arrivals) ∨ c.slots other = some q := by
    by_cases new : other = kind
    · subst new
      rw [slots_put] at there
      cases there
      exact .inl ⟨rfl, rfl⟩
    · rw [slots_put_of_ne _ new] at there
      exact .inr there
  refine ⟨fun other q there => ?_, fun other other' q q' there there' same => ?_,
    fun caller late => ?_, fun other q there => ?_, fun other caller sentMessage executes sent => ?_⟩
  · rcases slots there with ⟨-, new⟩ | old
    · exact new ▸ Nat.lt_succ_self _
    · exact (h.arrived other q old).trans (Nat.lt_succ_self _)
  · rcases slots there with ⟨first, new⟩ | old
    · rcases slots there' with ⟨second, -⟩ | old'
      · rw [first, second]
      · exact absurd (h.arrived other' q' old') (by rw [← same, new]; exact lt_irrefl _)
    · rcases slots there' with ⟨-, new'⟩ | old'
      · exact absurd (h.arrived other q old) (by rw [same, new']; exact lt_irrefl _)
      · exact h.apart other other' q q' old old' same
  · rw [same, h.unheard caller (Nat.le_of_succ_le late)]
  · rcases slots there with ⟨-, new⟩ | old
    · rw [same, new, h.unheard _ le_rfl]
    · rw [same, h.waiting other q old]
  · rcases List.mem_append.mp sent with before | now
    · rcases h.told other caller sentMessage executes before with there | told
      · have different : other ≠ kind := by
          rintro rfl
          cases free.symm.trans there
        exact .inl (by rw [slots_put_of_ne _ different, there])
      · exact .inr (told_append told)
    · cases List.mem_singleton.mp now
      exact .inl (slots_put ..)

theorem move {c' : Custody} (h : Kept limits log c) (m : Move limits c more c') :
    Kept limits (log ++ more) c' := by
  induction m generalizing log with
  | quiet silent => exact h.quiet silent
  | @unknown c kind p here =>
    refine h.take here (fun caller different => ?_) (fun _ _ _ sent => ?_) fun _ => ?_
    · simp [Event.heardBy, different.symm]
    · cases List.mem_singleton.mp sent
    · exact ⟨_, by simp [Event.heardBy], .inl rfl⟩
  | @reply c kind p here message type id pinned =>
    refine h.take here (fun caller different => ?_) (fun _ _ _ sent => ?_) fun _ => ?_
    · simp [Event.heardBy, different.symm]
    · simp at sent
    · exact ⟨kind.read limits pinned message, by simp [Event.heardBy],
        .inr ⟨message, pinned, by simp, type, id, rfl⟩⟩
  | @leave c kind p here harmless =>
    refine h.take here (fun caller different => ?_) (fun _ _ _ sent => ?_) fun executes => ?_
    · simp [Event.heardBy, different.symm]
    · cases List.mem_singleton.mp sent
    · rw [harmless] at executes
      cases executes
  | refuse result => exact h.refuse result
  | send free message => exact h.send free message
  | trans _ _ first second =>
    rw [← List.append_assoc]
    exact second (first h)

end Custody.Kept

/-! ## A turn of the loop -/

section Step

variable {limits : Limits} {c : Custody}

theorem nodup_all : Kind.all.Nodup := by decide

theorem mem_all (kind : Kind) : kind ∈ Kind.all := by cases kind <;> decide

variable {kinds : List Kind}

theorem each_congr {c' : Custody} (same : ∀ kind ∈ kinds, c.slots kind = c'.slots kind)
    (event : Nat → Event) : c.each event kinds = c'.each event kinds := by
  unfold Custody.each
  refine congrArg List.flatten (List.map_congr_left fun kind here => ?_)
  rw [same kind here]

/-- What is a move for each of those who wait is one for all of them. -/
theorem each_moves (limits : Limits) (c : Custody) (event : Nat → Event) (nodup : kinds.Nodup)
    (moves : ∀ kind ∈ kinds, ∀ p, c.slots kind = some p → ∀ c' : Custody,
      c'.slots kind = some p → Custody.Move limits c' [event p.caller] (c'.take kind)) :
    ∃ c', Custody.Move limits c (c.each event kinds) c' ∧
      ∀ kind, c'.slots kind = if kind ∈ kinds then none else c.slots kind := by
  induction kinds generalizing c with
  | nil => exact ⟨c, .quiet nofun, fun _ => rfl⟩
  | cons first kinds ih =>
    obtain ⟨notIn, nodup⟩ := List.nodup_cons.mp nodup
    have rest {kind : Kind} (here : kind ∈ kinds) :
        (c.take first).slots kind = c.slots kind :=
      slots_take_of_ne c (by rintro rfl; exact notIn here)
    cases slot : c.slots first with
    | none =>
      obtain ⟨c', move, slots⟩ := ih c nodup fun kind here =>
        moves kind (List.mem_cons_of_mem _ here)
      refine ⟨c', ?_, fun kind => ?_⟩
      · simpa [Custody.each, slot] using move
      rw [slots kind]
      by_cases same : kind = first
      · simp [same, slot]
      · simp [same]
    | some p =>
      have now := moves first (List.mem_cons_self ..) p slot c slot
      obtain ⟨c', move, slots⟩ := ih (c.take first) nodup fun kind here q there =>
        moves kind (List.mem_cons_of_mem _ here) q (rest here ▸ there)
      refine ⟨c', ?_, fun kind => ?_⟩
      · have log : c.each event (first :: kinds) =
            [event p.caller] ++ (c.take first).each event kinds := by
          rw [each_congr (fun kind here => rest here)]
          simp [Custody.each, slot]
        rw [log]
        exact now.trans move
      · rw [slots kind]
        by_cases same : kind = first
        · simp [same]
        · simp [same, slots_take_of_ne c same]

/-- Everybody can be told that the outcome is unknown. -/
theorem failPending_moves (limits : Limits) (c : Custody) :
    ∃ c', Custody.Move limits c (c.failPending Kind.all) c' ∧ ∀ kind, c'.slots kind = none := by
  obtain ⟨c', move, slots⟩ := each_moves limits c
    (.answered · (.error (.session .outcomeUnknown))) nodup_all
    fun kind _ p _ c' here => .unknown here
  exact ⟨c', move, fun kind => by rw [slots, if_pos (mem_all kind)]⟩

/-- Nobody waits for something that is executed. -/
def Custody.Idle (c : Custody) : Prop := ∀ kind, kind.executes = true → c.slots kind = none

/-- Everybody can be left then. -/
theorem dropPending_moves (limits : Limits) {c : Custody} (idle : c.Idle) :
    ∃ c', Custody.Move limits c (c.dropPending Kind.all) c' ∧ ∀ kind, c'.slots kind = none := by
  obtain ⟨c', move, slots⟩ := each_moves limits c .dropped nodup_all
    fun kind _ p waits c' here => .leave here (by
      by_contra executes
      cases (idle kind (by simpa using executes)).symm.trans waits)
  exact ⟨c', move, fun kind => by rw [slots, if_pos (mem_all kind)]⟩

/-- A turn is a move; one that ends the session leaves nobody behind. -/
def Owner.Moves (limits : Limits) (s : Owner) (turn : List Event × Next) : Prop :=
  match turn.2 with
  | .again s' => Custody.Move limits s.toCustody turn.1 s'.toCustody
  | .done _ => ∃ c', Custody.Move limits s.toCustody turn.1 c' ∧ ∀ kind, c'.slots kind = none

/-- Neither the end of the owner nor a request that cannot be sent comes while a command or a
pool operation is under way. -/
def Owner.Careful (limits : Limits) (s : Owner) : Input → Prop
  | .stop => s.Idle
  | .request request options (.error _) =>
    s.slots request.kind = none → (∃ message, s.prepare limits request options = .ok message) →
      s.Idle
  | _ => True

variable {s : Owner}

theorem silent_reportError (subscribed : Except MonitorError Unit) :
    ∀ event ∈ reportError subscribed, event.Silent := by
  intro event here
  cases subscribed with
  | ok => cases here
  | error error =>
    cases List.mem_singleton.mp here
    trivial

/-- Everybody is told that the outcome is unknown, and errors are reported. -/
theorem Custody.Move.failAll {c c' : Custody} (first : Move limits c log c') {more : List Event}
    (silent : ∀ event ∈ more, event.Silent) :
    ∃ c'', Move limits c (log ++ (c'.failPending Kind.all ++ more)) c'' ∧
      ∀ kind, c''.slots kind = none := by
  obtain ⟨c'', move, free⟩ := failPending_moves limits c'
  exact ⟨c'', first.trans (move.trans (.quiet silent)), free⟩

variable {message : Message}

theorem reply_moves (type : message.header.messageType = kind.replyType) :
    s.Moves limits (.received message :: (s.reply limits kind message).1,
      (s.reply limits kind message).2) := by
  have uncorrelated (error : MonitorError) :
      Custody.Move limits s.toCustody [.received message, .reported error] s.toCustody :=
    .quiet (by simp [Event.Silent])
  unfold Owner.reply
  split
  · exact uncorrelated _
  rename_i p here
  split
  · exact uncorrelated _
  rename_i same
  have move : Custody.Move limits s.toCustody _ _ :=
    .reply here type (not_not.mp same).symm s.pinnedFsid
  unfold Kind.read at move
  dsimp only
  split
  next error decoded =>
    rw [decoded] at move
    exact move
  rename_i answer decoded
  rw [decoded] at move
  dsimp only at move
  split
  next foreign =>
    rw [if_pos foreign] at move
    exact move.failAll (by simp [Event.Silent])
  rename_i own
  rw [if_neg own] at move
  exact move

theorem handle_moves (message : Message) (handled : Handled) :
    s.Moves limits (.received message :: (s.handle handled).1, (s.handle handled).2) := by
  have start {log : List Event} (silent : ∀ event ∈ log, event.Silent) :
      Custody.Move limits s.toCustody (.received message :: log) s.toCustody :=
    .quiet (List.forall_mem_cons.mpr ⟨trivial, silent⟩)
  have received := start (List.forall_mem_nil _)
  have reported (error : MonitorError) : ∀ event ∈ [Event.reported error], event.Silent :=
    List.forall_mem_singleton.mpr trivial
  unfold Owner.handle
  dsimp only
  split
  · exact received
  · exact start (silent_reportError _)
  · split
    · exact start (reported _)
    · exact start (List.forall_mem_cons.mpr ⟨trivial, silent_reportError _⟩)
  · exact received.failAll (reported _)
  · exact received.failAll (reported _)

variable {request : Request} {options : OptionsView}

theorem prepare_transactionId (h : s.prepare limits request options = .ok message) :
    message.header.transactionId = s.nextTransactionId := by
  unfold Owner.prepare at h
  split at h
  · cases h
  split at h
  · cases h
  · split at h
    · cases h
    · split at h
      · cases h
      · cases h
        rfl

theorem request_moves {sent : Except SessionError Unit}
    (careful : s.Careful limits (.request request options sent)) :
    s.Moves limits (s.request limits request options sent) := by
  unfold Owner.request
  split
  · exact .quiet nofun
  rename_i free
  dsimp only
  split
  next error _ => exact .refuse _
  rename_i message prepared
  split
  next error =>
    -- The slots are left as they are, which harms nobody if nothing is executed.
    have idle : s.Idle := careful free ⟨message, prepared⟩
    have still : (Custody.mk s.slots (s.arrivals + 1)).Idle := idle
    obtain ⟨c', move, empty⟩ := dropPending_moves limits still
    exact ⟨c', (Custody.Move.refuse _).trans move, empty⟩
  · have move : Custody.Move limits s.toCustody _ _ := .send free message
    rw [prepare_transactionId prepared] at move
    exact move

theorem step_moves {input : Input} (careful : s.Careful limits input) :
    s.Moves limits (s.step limits input) := by
  cases input with
  | stop => exact dropPending_moves limits careful
  | incoming message handled =>
    dsimp only [Owner.step]
    split
    next kind found =>
      have type : kind.replyType = message.header.messageType := by
        simpa using List.find?_some found
      exact reply_moves type.symm
    · exact handle_moves message handled
  | incomingEnd => exact failPending_moves limits s.toCustody
  | failure error =>
    obtain ⟨c', move, empty⟩ := failPending_moves limits s.toCustody
    exact ⟨c', move.trans (.quiet (List.forall_mem_singleton.mpr trivial)), empty⟩
  | subscribe subscribed => exact .quiet (silent_reportError subscribed)
  | refresh epoch subscribed => exact .quiet (silent_reportError subscribed)
  | request request options sent => exact request_moves careful
  | requestCheck expired =>
    dsimp only [Owner.step]
    split
    · exact failPending_moves limits s.toCustody
    · exact .quiet nofun

end Step

/-! ## The session -/

/-- What a caller sees after its answer: the error of the owner, and the published maps. -/
structure Caller where
  terminal : Option MonitorError
  looks : List Look

/-- Whoever has sent something that is executed has been answered when the session has ended,
and gets nothing but what `Allowed` allows for its transaction id. -/
def CallersTold (callers : Nat → Caller) (session : List Event × Option SessionOutcome)
    (Allowed : Kind → Nat → Caller → Except MonitorError Answer → Prop) : Prop :=
  ∀ kind caller message, kind.executes = true → .sent kind caller message ∈ session.1 →
    (session.2.isSome → (heard caller session.1).isSome) ∧
      ∀ word result, heard caller session.1 = some word →
        callerGets kind (callers caller).terminal (callers caller).looks word = some result →
        Allowed kind message.header.transactionId (callers caller) result

/-- Something cuts the wait for the map short, and this is the error it ends with. -/
def Look.CutsShort (look : Look) (error : MonitorError) : Prop :=
  (look.options.canceled = true ∧ error = .session .cancelled) ∨
    (look.options.expired = true ∧ error = .connectTimeout) ∨
    look.terminal = some error ∨ ∃ left, look.gone = some left ∧ error = left.getD .closed

/-- What the caller gets is genuine, or it has been told that its pool operation was carried
out and its wait for the map was cut short. -/
def GenuineOrCutShort (limits : Limits) (log : List Event) (kind : Kind) (transactionId : Nat)
    (caller : Caller) (result : Except MonitorError Answer) : Prop :=
  Genuine limits log kind transactionId result ∨
    ∃ reply error, kind = .poolOperation ∧
      Genuine limits log kind transactionId (.ok (.poolOperation reply)) ∧
      (∃ look ∈ caller.looks, look.CutsShort error) ∧ result = .error error

/-- The wait for the map ends with the reply, unless it is cut short. -/
theorem awaitMap_ends {reply : PoolOperationReply} {looks : List Look}
    {result : Except MonitorError PoolOperationReply} (h : awaitMap reply looks = some result) :
    result = .ok reply ∨ ∃ error, (∃ look ∈ looks, look.CutsShort error) ∧
      result = .error error := by
  induction looks with
  | nil => cases h
  | cons look looks ih =>
    have first {error : MonitorError} (cut : look.CutsShort error) :
        ∃ l ∈ look :: looks, l.CutsShort error := ⟨look, List.mem_cons_self .., cut⟩
    unfold awaitMap at h
    split at h
    next canceled =>
      cases h
      exact .inr ⟨_, first (.inl ⟨canceled, rfl⟩), rfl⟩
    split at h
    next expired =>
      cases h
      exact .inr ⟨_, first (.inr (.inl ⟨expired, rfl⟩)), rfl⟩
    · split at h
      · cases h
        exact .inl rfl
      · split at h
        next error terminal =>
          cases h
          exact .inr ⟨error, first (.inr (.inr (.inl terminal))), rfl⟩
        next left _ gone =>
          cases h
          exact .inr ⟨_, first (.inr (.inr (.inr ⟨left, gone, rfl⟩))), rfl⟩
        · rcases ih h with reached | ⟨error, ⟨l, here, cut⟩, failed⟩
          · exact .inl reached
          · exact .inr ⟨error, ⟨l, List.mem_cons_of_mem _ here, cut⟩, failed⟩

/-- A caller gets what it is told, unless it waits for a map. -/
theorem callerGets_told {caller : Caller} {told : Except MonitorError Answer}
    (genuine : Genuine limits log kind transactionId told)
    (h : callerGets kind caller.terminal caller.looks (.answered told) = some result) :
    GenuineOrCutShort limits log kind transactionId caller result := by
  unfold callerGets at h
  split at h
  next reply answered =>
    have told : told = .ok (.poolOperation reply) := answered
    subst told
    obtain ⟨found, waited, rfl⟩ := Option.map_eq_some_iff.mp h
    rcases awaitMap_ends waited with rfl | ⟨error, cut, rfl⟩
    · exact .inl genuine
    · exact .inr ⟨reply, error, rfl, genuine, cut, rfl⟩
  · cases h
    exact .inl genuine

theorem runSession_kept (limits : Limits) (s : Owner)
    (subscribed resubscribed : Except MonitorError Unit) (inputs : List Input)
    (careful : Retry.Every (Owner.step limits) (Owner.Careful limits)
      { s with slots := fun _ => none } inputs) :
    ∃ c, Custody.Kept limits (runSession limits s subscribed resubscribed inputs).1 c ∧
      ((runSession limits s subscribed resubscribed inputs).2.isSome →
        ∀ kind, c.slots kind = none) := by
  have start : Custody.Kept limits [] ⟨fun _ => none, s.arrivals⟩ := .empty s.arrivals
  unfold runSession
  split
  next error =>
    exact ⟨_, start.quiet (List.forall_mem_singleton.mpr trivial), fun _ _ => rfl⟩
  have silent : ∀ event ∈ if s.refreshEpoch.isSome then reportError resubscribed else [],
      event.Silent := by
    split
    · exact silent_reportError resubscribed
    · exact nofun
  refine Retry.run_rule (fun log t => Custody.Kept limits log t.toCustody)
    (fun log outcome => ∃ c, Custody.Kept limits log c ∧
      (outcome.isSome → ∀ kind, c.slots kind = none))
    ?again ?done ?stop _ (start.quiet silent) inputs careful
  case again =>
    intro log t input t' careful kept next
    have moves := step_moves careful
    unfold Owner.Moves at moves
    rw [next] at moves
    exact kept.move moves
  case done =>
    intro log t input outcome careful kept next
    have moves := step_moves careful
    unfold Owner.Moves at moves
    rw [next] at moves
    obtain ⟨c, move, empty⟩ := moves
    exact ⟨c, kept.move move, fun _ => empty⟩
  case stop =>
    intro log t kept
    exact ⟨t.toCustody, kept, nofun⟩

/-- In every session in which no command or pool operation is under way when the owner is
stopped or a request cannot be sent, every caller that has sent one gets what a reply
with its transaction id says, or is told that the outcome is unknown; the caller of a
pool operation that was carried out may get the error that cuts its wait for the map
short. -/
theorem callers_told (limits : Limits) (s : Owner)
    (subscribed resubscribed : Except MonitorError Unit) (inputs : List Input)
    (callers : Nat → Caller)
    (careful : Retry.Every (Owner.step limits) (Owner.Careful limits)
      { s with slots := fun _ => none } inputs) :
    CallersTold callers (runSession limits s subscribed resubscribed inputs)
      (GenuineOrCutShort limits (runSession limits s subscribed resubscribed inputs).1) := by
  obtain ⟨c, kept, ended⟩ := runSession_kept limits s subscribed resubscribed inputs careful
  intro kind caller message executes sent
  rcases kept.told kind caller message executes sent with waits | ⟨told, answered, genuine⟩
  · refine ⟨fun outcome => ?_, fun word result word' => ?_⟩
    · cases (ended outcome kind).symm.trans waits
    · cases (kept.waiting kind _ waits).symm.trans word'
  refine ⟨fun _ => by rw [answered]; rfl, fun word result word' gets => ?_⟩
  cases answered.symm.trans word'
  exact callerGets_told genuine gets

/-! ## A pool operation -/

def sampleLimits : Limits :=
  { maxBytes := 4096, maxPools := 16, maxCollectionEntries := 16, text := id }

def sampleOwner : Owner where
  slots _ := none
  arrivals := 0
  nextTransactionId := 1
  pinnedFsid := some (List.replicate 16 0)
  osdmapEpoch := some 1
  refreshEpoch := none

def sampleReply : PoolOperationReply := ⟨List.replicate 16 0, 0, 2, []⟩

/-- The monitor has carried out the operation in the map of epoch 2. -/
def sampleReplyMessage : Message where
  header := { messageType := messagePoolOperationReply, transactionId := 1 }
  lengths := { front := 43 }
  front := List.replicate 38 0 ++ Bytes.leBytes 4 2 ++ [0]

/-- The request to create a snapshot. -/
def sampleOperation : Message where
  header :=
    { messageType := messagePoolOperation, version := 4, compatVersion := 2, transactionId := 1 }
  lengths := { front := 65 }
  front := Bytes.leBytes 8 1 ++ [255, 255] ++ Bytes.leBytes 8 0 ++ List.replicate 16 0
    ++ Bytes.leBytes 4 3 ++ Bytes.leBytes 4 0x21 ++ List.replicate 23 0

/-- A snapshot is created, and the monitor replies. -/
def sampleInputs : List Input :=
  [.request (.poolOperation 3 .createSelfManaged 0 []) ⟨false, false⟩ (.ok ()),
    .incoming sampleReplyMessage ⟨.ok .none, none, none, none, .ok ()⟩]

def sampleSession : List Event × Option SessionOutcome :=
  runSession sampleLimits sampleOwner (.ok ()) (.ok ()) sampleInputs

theorem callers_told_sample :
    heard 0 sampleSession.1 = some (.answered (.ok (.poolOperation sampleReply))) ∧
      CallersTold (fun _ => ⟨none, []⟩) sampleSession
        (GenuineOrCutShort sampleLimits sampleSession.1) := by
  refine ⟨by decide, callers_told _ _ _ _ _ _ ?_⟩
  refine Retry.every_of_forall (fun input here s => ?_) _
  rcases List.mem_pair.mp here with rfl | rfl <;> trivial

/-- The operation was carried out, and the deadline passes before its map is there. -/
theorem not_callers_genuine :
    ¬ ∀ (limits : Limits) (s : Owner) (subscribed resubscribed : Except MonitorError Unit)
      (inputs : List Input) (callers : Nat → Caller),
      CallersTold callers (runSession limits s subscribed resubscribed inputs)
        fun kind transactionId _ result =>
          Genuine limits (runSession limits s subscribed resubscribed inputs).1 kind transactionId
            result := by
  intro h
  have told := h sampleLimits sampleOwner (.ok ()) (.ok ()) sampleInputs
    fun _ => ⟨none, [⟨⟨false, true⟩, some 1, none, none⟩]⟩
  have log : sampleSession.1 =
      [.sent .poolOperation 0 sampleOperation, .received sampleReplyMessage,
        .answered 0 (.ok (.poolOperation sampleReply))] := by decide
  have decoded : Kind.decode sampleLimits sampleReplyMessage .poolOperation =
      .ok (.poolOperation sampleReply) := by decide
  obtain ⟨-, gets⟩ := told .poolOperation 0 sampleOperation rfl (by
    show _ ∈ sampleSession.1
    simp [log])
  rcases gets _ (.error .connectTimeout) (by show heard 0 sampleSession.1 = _; rw [log]; rfl) rfl with
    unknown | ⟨reply, pinned, received, -, -, read⟩
  · cases unknown
  have same : reply = sampleReplyMessage := by
    have received : .received reply ∈ sampleSession.1 := received
    simpa [log] using received
  rw [same, Kind.read, decoded] at read
  dsimp only at read
  split at read
  · cases read
  · cases read

end RadosRs.Mon
