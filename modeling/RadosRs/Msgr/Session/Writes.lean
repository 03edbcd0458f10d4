import RadosRs.Msgr.Session.Attempts

/-!
# Generations and writes

Every transport has a generation.  The effects of a session name the generation
they are meant for, and a transport is written to one message at a time: the next
one waits for the report that the last one is written.

A run is recorded as the inputs that were taken and the effects that were put out,
in one list (`Machine.recorded`).  One effect is left out: the session closes a
transport that it did not ask for, and the generation of that effect is the one
that the input came with.
-/

namespace RadosRs.Msgr.Session

open Link

/-! ## The record of a run -/

/-- A report of a new transport that the session does not take. -/
def Machine.refuses (m : Machine) : Input → Bool
  | .connected generation globalId identity => !m.takes (.connected generation globalId identity)
  | _ => false

inductive Moment where
  | took (input : Input)
  | did (effect : Effect)

def Effect.generation : Effect → Option Nat
  | .connect generation => some generation
  | .closeTransport generation => some generation
  | .sendControl generation _ => some generation
  | .sendMessage generation _ _ => some generation
  | _ => none

/-- The transport that an effect writes to. -/
def Effect.writes : Effect → Option Nat
  | .sendControl generation _ => some generation
  | .sendMessage generation _ _ => some generation
  | _ => none

/-- A step with what is recorded of it. -/
def Machine.recorded (m : Machine) (input : Input) : Machine × List Moment :=
  ((m.step input).1,
    .took input :: if m.refuses input then [] else (m.step input).2.map .did)

/-- Generations do not go back, and an attempt at a connection has a new one. -/
def Ordered (before after : Moment) : Prop :=
  ∀ earlier later g h, before = .did earlier → after = .did later →
    earlier.generation = some g → later.generation = some h →
      g ≤ h ∧ (later = .connect h → g < h)

/-- A write to the transport has not been reported yet. -/
def Outstanding (generation : Nat) (record : List Moment) : Prop :=
  ∃ before effect after, record = before ++ .did effect :: after
    ∧ effect.writes = some generation
    ∧ ∀ requestId result, .took (.writeComplete generation requestId result) ∉ after

variable {m : Machine} {generation : Nat}

/-- The session closes a transport that it does not take and is not changed by it. -/
theorem Machine.step_of_refuses {globalId : Option Nat} {identity : Option Identity}
    (refused : m.refuses (.connected generation globalId identity)) :
    m.step (.connected generation globalId identity) = (m, [.closeTransport generation]) := by
  have refused : (generation != m.generation || !m.connectPending) = true := by
    simpa [Machine.refuses, Machine.takes, Bool.and_eq_false_iff, imp_iff_not_or] using refused
  unfold Machine.step
  simp only [Exec.perform, Exec.connected]
  rw [if_pos refused]
  rfl

variable {input : Input} {l k : Link} {es : List Effect} {record : List Moment}

/-! ## One act -/

variable {effect : Effect}

theorem Effect.generation_of_inert (inert : effect.inert = true) : effect.generation = none := by
  cases effect <;> first | rfl | cases inert

theorem generation_enters (l : Link) (state : State) :
    ∀ e ∈ l.enters state, e.generation = none := by
  intro e told
  unfold enters at told
  split at told
  · cases told
  · rw [List.mem_singleton.mp told]
    rfl

theorem Effect.generation_of_writes {g : Nat} (sends : effect.writes = some g) :
    effect.generation = some g := by
  cases effect <;> first | exact sends | cases sends

/-- An act on a transport of the session is about the present generation, unless it asks for
a new one. -/
theorem Link.Act.present (act : Act input l es k)
    (own : ∀ generation globalId identity, input ≠ .connected generation globalId identity) :
    (k.generation = l.generation + 1 ∧ es = [.connect (l.generation + 1)])
      ∨ ∀ e ∈ es, ∀ g, e.generation = some g → g = l.generation ∧ e ≠ .connect g := by
  have told (state : State) : ∀ e ∈ l.enters state, ∀ g, e.generation = some g →
      g = l.generation ∧ e ≠ .connect g := by
    intro e mem g has
    rw [generation_enters l state e mem] at has
    cases has
  cases act with
  | connect => exact .inl ⟨rfl, rfl⟩
  | note inert =>
    right
    intro e mem g has
    rw [List.mem_singleton.mp mem, Effect.generation_of_inert inert] at has
    cases has
  | close mine =>
    right
    rcases mine with rfl | ⟨_, _, here⟩
    · simp [Effect.generation]
    · exact absurd here (own _ _ _)
  | terminal =>
    exact .inr (List.forall_mem_append.mpr ⟨by simp [Effect.generation], told _⟩)
  | drop => exact .inr (List.forall_mem_append.mpr ⟨by simp [Effect.generation], told _⟩)
  | advance => exact .inr (told _)
  | renew =>
    right
    split <;> simp [Effect.generation]
  | _ => simp [Effect.generation]

/-- Only a dispatch writes, and only where no write is under way. -/
theorem Link.Act.writes (act : Act input l es k) :
    (∀ e ∈ es, e.writes = none)
      ∨ ∃ e, es = [e] ∧ e.writes = some l.generation ∧ input = .dispatch ∧ l.writeBusy = false
        ∧ (l.Handshaking ∨ l.state = .ready) ∧ k.writeBusy = true
        ∧ k.generation = l.generation := by
  have told (state : State) : ∀ e ∈ l.enters state, e.writes = none := by
    intro e mem
    have none := generation_enters l state e mem
    cases e <;> first | rfl | cases none
  cases act with
  | sendControl asked up free => exact .inr ⟨_, rfl, rfl, asked, free, up, rfl, rfl⟩
  | sendMessage asked ready free => exact .inr ⟨_, rfl, rfl, asked, free, .inr ready, rfl, rfl⟩
  | @note effect inert =>
    refine .inl (List.forall_mem_singleton.mpr ?_)
    cases effect <;> first | rfl | cases inert
  | terminal => exact .inl (List.forall_mem_append.mpr ⟨by simp [Effect.writes], told _⟩)
  | drop => exact .inl (List.forall_mem_append.mpr ⟨by simp [Effect.writes], told _⟩)
  | advance => exact .inl (told _)
  | renew =>
    left
    split <;> simp [Effect.writes]
  | _ => simp [Effect.writes]

/-- Nothing can be written to the present transport. -/
def Link.Occupied (l : Link) : Prop :=
  l.writeBusy = true ∨ l.state = .disconnected ∨ l.state = .stopped

theorem Link.Occupied.busy (h : l.Occupied) (up : l.Handshaking ∨ l.state = .ready) :
    l.writeBusy = true := by
  rcases h with busy | down | stopped
  · exact busy
  · rcases up with up | up
    · exact absurd down up.ne.1
    · cases down.symm.trans up
  rcases up with up | up
  · exact absurd stopped up.ne.2
  · cases stopped.symm.trans up

/-- The transport is free again when its write is reported, and not before. -/
theorem Link.Act.occupied (act : Act input l es k) (same : k.generation = l.generation)
    (h : l.Occupied) :
    k.Occupied ∨ ∃ requestId result, input = .writeComplete l.generation requestId result := by
  cases act with
  | written asked => exact .inr ⟨_, _, asked⟩
  | terminal => exact .inl (.inr (.inl rfl))
  | drop => exact .inl (.inr (.inl rfl))
  | connect => exact absurd same (Nat.succ_ne_self _)
  | «open» => exact absurd same (Nat.succ_ne_self _)
  | start => exact absurd same (Nat.succ_ne_self _)
  | @compare identity =>
    obtain ⟨candidate, change, same⟩ := l.compared_eq identity
    rw [same]
    exact .inl h
  | advance handshaking => exact .inl (.inl (h.busy (.inl handshaking)))
  | wait handshaking => exact .inl (.inl (h.busy (.inl handshaking)))
  | ready handshaking => exact .inl (.inl (h.busy (.inl handshaking)))
  | sendControl => exact .inl (.inl rfl)
  | sendMessage => exact .inl (.inl rfl)
  | stop => exact .inl (.inr (.inr rfl))
  | _ => exact .inl h

/-! ## Generations of a run -/

/-- The effects so far are in order, and none is ahead of the connection. -/
structure Dated (record : List Moment) (l : Link) : Prop where
  ordered : record.Pairwise Ordered
  past : ∀ e g, .did e ∈ record → e.generation = some g → g ≤ l.generation

theorem Dated.took (h : Dated record l) (input : Input) : Dated (record ++ [.took input]) l where
  ordered := by
    refine List.pairwise_append.mpr ⟨h.ordered, List.pairwise_singleton _ _, fun a _ b mem => ?_⟩
    rw [List.mem_singleton.mp mem]
    intro _ _ _ _ _ here
    cases here
  past e g mem := by
    rcases List.mem_append.mp mem with before | here
    · exact h.past e g before
    · cases List.mem_singleton.mp here

theorem Dated.did (h : Dated record l) (act : Act input l es k)
    (own : ∀ generation globalId identity, input ≠ .connected generation globalId identity) :
    Dated (record ++ es.map .did) k := by
  -- What an act puts out is not behind anything recorded, and a new attempt is ahead of it.
  have ahead : ∀ e ∈ es, ∀ g, e.generation = some g →
      l.generation ≤ g ∧ g ≤ k.generation ∧ (e = .connect g → l.generation < g) := by
    rcases act.present own with ⟨later, rfl⟩ | present
    · intro e mem g has
      obtain rfl := List.mem_singleton.mp mem
      obtain rfl := Option.some.inj has
      exact ⟨Nat.le_succ _, later.ge, fun _ => Nat.lt_succ_self _⟩
    intro e mem g has
    obtain ⟨rfl, other⟩ := present e mem g has
    exact ⟨le_rfl, act.generation_le, fun connects => absurd connects other⟩
  have inside : es.Pairwise fun a b => Ordered (.did a) (.did b) := by
    rcases act.present own with ⟨_, rfl⟩ | present
    · exact List.pairwise_singleton _ _
    refine List.pairwise_of_forall_mem_list fun a memA b memB => ?_
    rintro _ _ g h ⟨⟩ ⟨⟩ hasA hasB
    obtain ⟨rfl, -⟩ := present a memA g hasA
    obtain ⟨rfl, other⟩ := present b memB h hasB
    exact ⟨le_rfl, fun connects => absurd connects other⟩
  refine ⟨List.pairwise_append.mpr ⟨h.ordered, List.pairwise_map.mpr inside, ?_⟩, ?_⟩
  · intro a mem b new
    rintro earlier later g i rfl rfl hasA hasB
    obtain ⟨_, new, ⟨⟩⟩ := List.mem_map.mp new
    have past := h.past earlier g mem hasA
    obtain ⟨reached, -, connects⟩ := ahead later new i hasB
    exact ⟨past.trans reached, fun here => past.trans_lt (connects here)⟩
  · intro e g mem has
    rcases List.mem_append.mp mem with before | new
    · exact (h.past e g before has).trans act.generation_le
    · obtain ⟨_, new, ⟨⟩⟩ := List.mem_map.mp new
      exact (ahead e new g has).2.1

/-! ## Writes of a run -/

/-- An element of two lists in a row lies in one of them. -/
theorem append_eq_append_cons {α : Type} {xs ys before after : List α} {x : α}
    (h : xs ++ ys = before ++ x :: after) :
    (∃ middle, xs = before ++ x :: middle ∧ after = middle ++ ys)
      ∨ ∃ middle, ys = middle ++ x :: after ∧ before = xs ++ middle := by
  rcases List.append_eq_append_iff.mp h with ⟨middle, rfl, eq⟩ | ⟨middle, rfl, eq⟩
  · exact .inr ⟨middle, eq, rfl⟩
  cases middle with
  | nil => exact .inr ⟨[], eq.symm, by simp⟩
  | cons y middle =>
    obtain ⟨rfl, rfl⟩ := List.cons.inj eq
    exact .inl ⟨middle, rfl, rfl⟩

variable {new : List Moment}

theorem Outstanding.of_append (quiet : ∀ e, .did e ∈ new → e.writes ≠ some generation)
    (h : Outstanding generation (record ++ new)) :
    Outstanding generation record
      ∧ ∀ requestId result, .took (.writeComplete generation requestId result) ∉ new := by
  obtain ⟨before, effect, after, split, sends, none⟩ := h
  rcases append_eq_append_cons split with ⟨middle, rfl, rfl⟩ | ⟨middle, rfl, rfl⟩
  · refine ⟨⟨before, effect, middle, rfl, sends, fun requestId result mem => ?_⟩,
      fun requestId result mem => ?_⟩
    · exact none requestId result (List.mem_append_left _ mem)
    · exact none requestId result (List.mem_append_right _ mem)
  · exact absurd sends (quiet effect (by simp))

/-- One write at a time: no effect writes while another write is outstanding, and the
connection knows of a write that is. -/
structure Serial (record : List Moment) (l : Link) : Prop where
  alone : ∀ before effect after g, record = before ++ .did effect :: after →
    effect.writes = some g → ¬ Outstanding g before
  busy : ∀ g, Outstanding g record → g ≤ l.generation ∧ (g = l.generation → l.Occupied)

/-- An extension of the record that writes nothing. -/
theorem Serial.alone_append (h : Serial record l) (quiet : ∀ e, .did e ∈ new → e.writes = none) :
    ∀ before effect after g, record ++ new = before ++ .did effect :: after →
      effect.writes = some g → ¬ Outstanding g before := by
  intro before effect after g split sends
  rcases append_eq_append_cons split with ⟨middle, rfl, rfl⟩ | ⟨middle, rfl, rfl⟩
  · exact h.alone before effect middle g rfl sends
  · rw [quiet effect (by simp)] at sends
    cases sends

theorem Serial.took (h : Serial record l) (input : Input) :
    Serial (record ++ [.took input]) l
      ∧ ∀ g requestId result, input = .writeComplete g requestId result →
        ¬ Outstanding g (record ++ [.took input]) := by
  have quiet (e : Effect) (mem : Moment.did e ∈ [Moment.took input]) : False := by
    cases List.mem_singleton.mp mem
  refine ⟨⟨h.alone_append fun e mem => (quiet e mem).elim, fun g out => ?_⟩, ?_⟩
  · exact h.busy g (out.of_append fun e mem => (quiet e mem).elim).1
  rintro g requestId result rfl out
  exact (out.of_append fun e mem => (quiet e mem).elim).2 requestId result
    (List.mem_singleton.mpr rfl)

theorem Serial.did (h : Serial record l) (act : Act input l es k)
    (reported : ∀ g requestId result, input = .writeComplete g requestId result →
      ¬ Outstanding g record) :
    Serial (record ++ es.map .did) k
      ∧ ∀ g requestId result, input = .writeComplete g requestId result →
        ¬ Outstanding g (record ++ es.map .did) := by
  rcases act.writes with quiet | ⟨e, rfl, sends, asked, free, up, busy, same⟩
  · have quiet (e : Effect) (mem : Moment.did e ∈ es.map .did) : e.writes = none := by
      obtain ⟨_, mem, ⟨⟩⟩ := List.mem_map.mp mem
      exact quiet e mem
    have before {g : Nat} (out : Outstanding g (record ++ es.map .did)) : Outstanding g record :=
      (out.of_append fun e mem => by rw [quiet e mem]; nofun).1
    refine ⟨⟨h.alone_append quiet, fun g out => ?_⟩, fun g requestId result here out =>
      reported g requestId result here (before out)⟩
    obtain ⟨past, occupied⟩ := h.busy g (before out)
    refine ⟨past.trans act.generation_le, fun here => ?_⟩
    have same : k.generation = l.generation :=
      le_antisymm (here ▸ past) act.generation_le
    rcases act.occupied same (occupied (here.trans same)) with occupied | ⟨_, _, written⟩
    · exact occupied
    refine absurd (before out) ?_
    rw [here.trans same]
    exact reported _ _ _ written
  · have idle : ¬ Outstanding l.generation record := fun out => by
      have taken := ((h.busy _ out).2 rfl).busy up
      rw [free] at taken
      cases taken
    refine ⟨⟨fun before effect after g split writes => ?_, fun g out => ?_⟩, ?_⟩
    · rcases append_eq_append_cons split with ⟨middle, rfl, rfl⟩ | ⟨middle, new, rfl⟩
      · exact h.alone before effect middle g rfl writes
      · cases middle with
        | nil =>
          obtain ⟨⟨⟩, -⟩ := List.cons.inj new
          rw [List.append_nil, ← Option.some.inj (sends.symm.trans writes)]
          exact idle
        | cons => simp at new
    · by_cases here : g = l.generation
      · exact ⟨here.le.trans same.ge, fun _ => .inl busy⟩
      · have other : ∀ e', Moment.did e' ∈ [e].map Moment.did → e'.writes ≠ some g := by
          intro e' mem here'
          obtain ⟨⟩ := List.mem_singleton.mp mem
          exact here (Option.some.inj (here'.symm.trans sends))
        have past := (h.busy g (out.of_append other).1).1
        exact ⟨past.trans same.ge, fun now => absurd (now.trans same) here⟩
    · rintro g requestId result rfl
      cases asked

/-! ## Every run -/

/-- Without the closing of unwanted transports, a step is a number of acts on the transport
of the session. -/
theorem Machine.step_own_acts (sound : m.link.Sound) (own : m.refuses input = false) :
    ∃ asked, (∀ generation globalId identity, asked ≠ .connected generation globalId identity)
      ∧ (∀ g requestId result, asked = .writeComplete g requestId result → input = asked)
      ∧ Trace (Act asked) (m.opened input) ((m.step input).2.filter Effect.linked)
        (m.step input).1.link := by
  by_cases fresh : ∃ generation globalId identity, input = .connected generation globalId identity
  · -- A transport that is taken is treated like one that was there from the start.
    obtain ⟨generation, globalId, identity, rfl⟩ := fresh
    have taken : m.takes (.connected generation globalId identity) = true := by
      simpa [Machine.refuses] using own
    refine ⟨.initialConnection globalId identity, nofun, nofun, ?_⟩
    have openedSound := Machine.opened_sound sound (.connected generation globalId identity)
    unfold Machine.opened at openedSound ⊢
    rw [if_pos taken] at openedSound ⊢
    simp only [Machine.takes, Bool.and_eq_true, beq_iff_eq] at taken
    have runs : Exec.Runs (.initialConnection globalId identity) _
        (m.begin.connected generation globalId identity) :=
      Exec.runs_connected globalId rfl taken.1 taken.2 (sound.dialing taken.2).1
    obtain ⟨es, effects, acts⟩ := runs.goes openedSound
    rw [show (m.step (.connected generation globalId identity)).2.filter Effect.linked = es
      from effects]
    exact acts
  · exact ⟨input, fun generation globalId identity here => fresh ⟨_, _, _, here⟩,
      fun _ _ _ _ => rfl, m.step_acts sound input⟩

/-- Everything but the failure of a request. -/
def Moment.linked : Moment → Bool
  | .took _ => true
  | .did effect => effect.linked

theorem linked_recorded (m : Machine) (input : Input) :
    (m.recorded input).2.filter Moment.linked
      = .took input ::
        (if m.refuses input then [] else (m.step input).2.filter Effect.linked).map .did := by
  have same (es : List Effect) :
      (es.map Moment.did).filter Moment.linked = (es.filter Effect.linked).map .did :=
    List.filter_map
  unfold Machine.recorded
  rw [List.filter_cons_of_pos (by rfl)]
  split
  · rfl
  · rw [same]

/-- What the record of a run says of the connection it leads to. -/
structure Told (record : List Moment) (l : Link) : Prop where
  sound : l.Sound
  dated : Dated record l
  serial : Serial record l

theorem Told.step (h : Told record m.link) (input : Input) :
    Told (record ++ (m.recorded input).2.filter Moment.linked) (m.step input).1.link := by
  rw [linked_recorded, ← List.singleton_append, ← List.append_assoc]
  have dated := h.dated.took input
  obtain ⟨serial, reported⟩ := h.serial.took input
  split
  next refused =>
    unfold Machine.refuses at refused
    split at refused
    · rw [Machine.step_of_refuses refused, List.map_nil, List.append_nil]
      exact ⟨h.sound, dated, serial⟩
    · cases refused
  next own =>
    obtain ⟨asked, own, report, acts⟩ :=
      Machine.step_own_acts h.sound (Bool.eq_false_iff.mpr own)
    have reported (g : Nat) (requestId : Option Nat) (result : Except SessionError Unit)
        (here : asked = .writeComplete g requestId result) :=
      reported g requestId result ((report g requestId result here).trans here)
    -- Taking the transport changes neither the generation nor what can be written.
    have opened : Dated (record ++ [.took input]) (m.opened input)
        ∧ Serial (record ++ [.took input]) (m.opened input) := by
      unfold Machine.opened
      split
      next taken =>
        have down := Machine.down_of_takes h.sound taken
        exact ⟨⟨dated.ordered, dated.past⟩, serial.alone,
          fun g out => ⟨(serial.busy g out).1, fun _ => .inr (.inl down)⟩⟩
      · exact ⟨dated, serial⟩
    let Inv (log : List Effect) (l : Link) : Prop :=
      Dated (record ++ [.took input] ++ log.map .did) l
        ∧ Serial (record ++ [.took input] ++ log.map .did) l
        ∧ ∀ g requestId result, asked = .writeComplete g requestId result →
          ¬ Outstanding g (record ++ [.took input] ++ log.map .did)
    have init : Inv [] (m.opened input) := by simpa [Inv] using ⟨opened.1, opened.2, reported⟩
    have acted {log : List Effect} {l k : Link} {es : List Effect} (act : Act asked l es k)
        (before : Inv log l) : Inv (log ++ es) k := by
      dsimp only [Inv]
      rw [List.map_append, ← List.append_assoc]
      exact ⟨before.1.did act own, before.2.1.did act before.2.2⟩
    obtain ⟨dated, serial, -⟩ := Trace.log_invariant Inv acted acts init
    exact ⟨Machine.step_sound h.sound input, dated, serial⟩

theorem told_reached (config : Config) (inputs : List Input) :
    Told ((Mealy.log Machine.recorded (.initial config) inputs).filter Moment.linked)
      (Mealy.after Machine.recorded (.initial config) inputs).link := by
  refine Mealy.run_invariant Machine.recorded
    (fun _ record m => Told (record.filter Moment.linked) m.link) ?_ ?_ inputs
  · have empty (g : Nat) : ¬ Outstanding g [] := by
      rintro ⟨before, effect, after, split, -⟩
      simp at split
    exact ⟨Machine.initial_sound config, ⟨.nil, nofun⟩, by simp, fun g out => absurd out (empty g)⟩
  intro _ record m input h
  rw [List.filter_append]
  exact h.step input

theorem Effect.linked_of_generation {g : Nat} (has : effect.generation = some g) :
    effect.linked = true := by
  cases effect <;> first | rfl | cases has

/-- The effects of a session are in the order of their generations, an attempt at a
connection has a generation that no effect had before it, and two writes to a transport
have the report of the first one between them.  What is left out is the closing of a
transport that the session does not take, which changes nothing. -/
theorem generations_ordered {config : Config} {m : Machine} (new : Machine.new config = .ok m)
    (inputs : List Input) :
    let record := Mealy.log Machine.recorded m inputs
    record.Pairwise Ordered
      ∧ (∀ before first between second after g,
          record = before ++ .did first :: between ++ .did second :: after →
          first.writes = some g → second.writes = some g →
          ∃ requestId result, .took (.writeComplete g requestId result) ∈ between)
      ∧ ∀ generation globalId identity,
          let last := Mealy.after Machine.recorded m inputs
          last.refuses (.connected generation globalId identity) →
          last.step (.connected generation globalId identity)
            = (last, [.closeTransport generation]) := by
  obtain rfl := Machine.new_eq_ok new
  intro record
  have told := told_reached config inputs
  refine ⟨?_, ?_, fun _ _ _ => Machine.step_of_refuses⟩
  · refine (List.pairwise_filter.mp told.dated.ordered).imp fun ordered => ?_
    rintro earlier later g h rfl rfl hasA hasB
    exact ordered (Effect.linked_of_generation hasA) (Effect.linked_of_generation hasB) _ _ g h
      rfl rfl hasA hasB
  intro before first between second after g split sendsA sendsB
  by_contra none
  have linkedA := Effect.linked_of_generation (Effect.generation_of_writes sendsA)
  have linkedB := Effect.linked_of_generation (Effect.generation_of_writes sendsB)
  have part : record.filter Moment.linked
      = (before.filter Moment.linked ++ .did first :: between.filter Moment.linked)
        ++ .did second :: after.filter Moment.linked := by
    rw [split, List.filter_append, List.filter_append,
      List.filter_cons_of_pos (by exact linkedA), List.filter_cons_of_pos (by exact linkedB)]
  refine told.serial.alone _ second _ g part sendsB ⟨_, first, _, rfl, sendsA, ?_⟩
  intro requestId result mem
  exact none ⟨requestId, result, (List.mem_filter.mp mem).1⟩

/-- A write that fails, the attempt after it, and a transport that comes late. -/
def lateTransport : List Input :=
  [.start true, .admitRequest 1 {} false, .dispatch, .fault 1 .disconnected,
    .connected 0 none none]

theorem generations_ordered_late :
    Machine.new sampleConfig = .ok (.initial sampleConfig)
      ∧ (Mealy.log Machine.recorded (.initial sampleConfig) lateTransport).Pairwise Ordered :=
  ⟨new_sample, (generations_ordered new_sample lateTransport).1⟩

/-- The session has gone on to its second transport when it is told of another one, and what
it closes then has an older generation. -/
theorem not_generations_ordered_late :
    let generations :=
      (Mealy.log Machine.step (.initial sampleConfig) lateTransport).filterMap Effect.generation
    Machine.new sampleConfig = .ok (.initial sampleConfig) ∧ generations = [1, 1, 2, 0]
      ∧ ¬ generations.Pairwise (· ≤ ·) := by
  refine ⟨rfl, ?_, ?_⟩ <;> decide

end RadosRs.Msgr.Session
