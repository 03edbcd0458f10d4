import RadosRs.Lib.Mealy
import RadosRs.Lib.Table
import RadosRs.Osd.Client
import RadosRs.Protocol.Address

/-!
# The sessions with the OSDs

A client has one session with an OSD at a time.  A session that no longer fits is told
to close and retired, and it stays among the retired ones until its task is seen to
have ended.  `close` first sets a flag and then takes the lock of the table.  A call
of `session` looks at the flag before it takes the lock and again when it has spawned
a session.

A step is what a call does without waiting for a lock or for a task.  What it reads of
the sessions and of the monitor's connector comes with the input.
-/

namespace RadosRs.Osd

open Std (ExtTreeMap)
open IpText (SocketAddr)
open Msgr (EntityAddr)

def maxRetiredSessions : Nat := 16

structure SessionEntry where
  endpoint : SocketAddr
  authority : Nat
  session : Nat
  deriving DecidableEq, Repr

/-- A call of `session` that waits for the lock. -/
@[ext]
structure SessionCall where
  osd : Int
  endpoint : SocketAddr
  deriving DecidableEq, Repr

/-- Sessions are numbered as they are spawned.  `told` are those that were told to close,
`ended` those whose task has ended, and `swept` says that a call of `close` has told all
there were. -/
structure Sessions where
  closed : Bool := false
  swept : Bool := false
  sessions : ExtTreeMap Int SessionEntry := ∅
  retired : List Nat := []
  spawned : Nat := 0
  told : List Nat := []
  ended : List Nat := []
  waiting : List SessionCall := []

namespace Sessions

/-- What a call of `session` reads under the lock: the connector, the sessions that have
a terminal error, those whose task nobody waits for, and what spawning comes to. -/
structure Reading where
  authority : Option Nat
  terminal : List Nat
  idle : List Nat
  spawn : Except Error Unit

inductive Output where
  | spawned (session : Nat) (call : SessionCall) (authority : Nat)
  | handed (session : Nat) (call : SessionCall) (authority : Nat)
  | refused (error : Error)
  deriving DecidableEq, Repr

inductive Input where
  | session (osd : Int) (addresses : List EntityAddr)
  | locked (call : SessionCall) (reading : Reading)
  | invalidate (osd : Int) (failed : Nat) (idle : List Nat)
  | ends (session : Nat)
  | close
  | sweep
  | clearSessions
  | clearRetired

/-- The first address that can be dialled. -/
def firstEndpoint (addresses : List EntityAddr) : Option SocketAddr :=
  addresses.findSome? fun address => (Protocol.endpoint address).filter (·.port != 0)

variable (s : Sessions)

def isFinished (idle : List Nat) (session : Nat) : Bool :=
  s.ended.contains session && idle.contains session

/-- The session is told to close, and the retired sessions that are finished are let go. -/
def retiring (session : Nat) (idle : List Nat) : Sessions :=
  { s with
    told := session :: s.told
    retired := s.retired.filter fun entry => !s.isFinished idle entry }

def retire (session : Nat) (idle : List Nat) : Except Error Unit × Sessions :=
  let s := s.retiring session idle
  if s.retired.length ≥ maxRetiredSessions then (.error .queueSaturated, s)
  else (.ok (), { s with retired := s.retired ++ [session] })

/-- The end of `session`, from `spawn_session` on. -/
def spawnInto (call : SessionCall) (authority : Nat) :
    Except Error Unit → Sessions × List Output
  | .error error => (s, [.refused error])
  | .ok () =>
    let session := s.spawned
    let entry := { endpoint := call.endpoint, authority, session }
    let s := { s with spawned := session + 1, sessions := s.sessions.insert call.osd entry }
    if s.closed then
      ({ s with told := session :: s.told },
        [.spawned session call authority, .refused .closed])
    else (s, [.spawned session call authority, .handed session call authority])

def session (call : SessionCall) (reading : Reading) : Sessions × List Output :=
  match reading.authority with
  | none => (s, [.refused .notConnected])
  | some authority =>
    match s.sessions[call.osd]? with
    | none => s.spawnInto call authority reading.spawn
    | some existing =>
      if existing.endpoint = call.endpoint ∧ existing.authority = authority ∧
          existing.session ∉ reading.terminal then
        (s, [.handed existing.session call authority])
      else
        match s.retire existing.session reading.idle with
        | (.error error, s) => (s, [.refused error])
        | (.ok (), s) =>
          spawnInto { s with sessions := s.sessions.erase call.osd } call authority reading.spawn

def invalidate (osd : Int) (failed : Nat) (idle : List Nat) : Sessions :=
  match s.sessions[osd]? with
  | none => s
  | some entry =>
    if entry.session = failed then
      match s.retire entry.session idle with
      | (.error _, s) => s
      | (.ok (), s) => { s with sessions := s.sessions.erase osd }
    else s

/-- The sessions of the table and the retired ones. -/
def held : List Nat := s.sessions.toList.map (·.2.session) ++ s.retired

def step : Input → Sessions × List Output
  | .session osd addresses =>
    if s.closed then (s, [.refused .closed])
    else
      match firstEndpoint addresses with
      | none => (s, [.refused .noPrimary])
      | some endpoint => ({ s with waiting := ⟨osd, endpoint⟩ :: s.waiting }, [])
  | .locked call reading =>
    if call ∈ s.waiting then session { s with waiting := s.waiting.erase call } call reading
    else (s, [])
  | .invalidate osd failed idle => (s.invalidate osd failed idle, [])
  | .ends session =>
    (if session < s.spawned then { s with ended := session :: s.ended } else s, [])
  | .close => ({ s with closed := true }, [])
  | .sweep => (if s.closed then { s with swept := true, told := s.held ++ s.told } else s, [])
  -- `shutdown` comes to these after a `close` of its own and a wait for what it found.
  | .clearSessions => (if s.swept then { s with sessions := ∅ } else s, [])
  | .clearRetired => (if s.swept then { s with retired := [] } else s, [])

/-! ## No session is lost -/

variable {s} {osd : Int} {number authority : Nat} {idle : List Nat} {call : SessionCall}

/-- The session is the one of some OSD. -/
def Tabled (table : ExtTreeMap Int SessionEntry) (session : Nat) : Prop :=
  ∃ (osd : Int) (entry : SessionEntry), table[osd]? = some entry ∧ entry.session = session

section

variable {table : ExtTreeMap Int SessionEntry} {entry : SessionEntry}

theorem Tabled.erase (h : Tabled table number) (found : table[osd]? = some entry) :
    Tabled (table.erase osd) number ∨ number = entry.session := by
  obtain ⟨osd', entry', found', rfl⟩ := h
  by_cases same : osd = osd'
  · subst same
    rw [found] at found'
    exact .inr (congrArg _ (Option.some.inj found'.symm))
  · exact .inl ⟨osd', entry', by rw [Table.lookup_erase, if_neg same, found'], rfl⟩

theorem Tabled.insert (h : Tabled table number) (free : table[osd]? = none) :
    Tabled (table.insert osd entry) number := by
  obtain ⟨osd', entry', found', rfl⟩ := h
  have other : osd ≠ osd' := by
    rintro rfl
    rw [free] at found'
    cases found'
  exact ⟨osd', entry', by rw [Table.lookup_insert, if_neg other, found'], rfl⟩

theorem tabled_insert : Tabled (table.insert osd entry) entry.session :=
  ⟨osd, entry, by rw [Table.lookup_insert, if_pos rfl], rfl⟩

end

theorem mem_held : number ∈ s.held ↔ Tabled s.sessions number ∨ number ∈ s.retired := by
  have tabled : number ∈ s.sessions.toList.map (·.2.session) ↔ Tabled s.sessions number := by
    simp only [List.mem_map, Prod.exists, ExtTreeMap.mem_toList_iff_getElem?_eq_some, Tabled]
  rw [held, List.mem_append, tabled]

/-- Where the sessions are that were spawned. -/
@[grind cases]
structure Kept (s : Sessions) : Prop where
  running : ∀ session < s.spawned, session ∉ s.ended →
    Tabled s.sessions session ∨ session ∈ s.retired ∨ s.swept = true
  untold : ∀ session < s.spawned, session ∉ s.told → Tabled s.sessions session
  swept : s.swept = true → s.closed = true ∧ ∀ session < s.spawned, session ∈ s.told
  bounded : s.retired.length ≤ maxRetiredSessions

namespace Kept

theorem retiring (h : Kept s) : Kept (s.retiring number idle) := by
  constructor <;> grind [Sessions.retiring, isFinished, List.length_filter_le]

/-- A session of the table that was told to close may be moved to the retired ones. -/
theorem moved (h : Kept s) {entry : SessionEntry} (found : s.sessions[osd]? = some entry)
    (told : entry.session ∈ s.told) (room : s.retired.length < maxRetiredSessions) :
    Kept { s with
      retired := s.retired ++ [entry.session]
      sessions := s.sessions.erase osd } := by
  constructor <;> grind [Tabled.erase]

theorem spawnInto (h : Kept s) (free : s.sessions[call.osd]? = none) (spawn : Except Error Unit) :
    Kept (s.spawnInto call authority spawn).1 := by
  cases spawn with
  | error error => exact h
  | ok =>
    unfold Sessions.spawnInto
    dsimp only
    have tabled (endpoint : SocketAddr) : Tabled (s.sessions.insert call.osd
        { endpoint, authority, session := s.spawned }) s.spawned := tabled_insert
    split <;> constructor <;> grind [Tabled.insert]

theorem session (h : Kept s) (call : SessionCall) (reading : Reading) :
    Kept (s.session call reading).1 := by
  unfold Sessions.session Sessions.retire
  dsimp only
  split
  · exact h
  split
  · exact h.spawnInto ‹_› _
  split
  · exact h
  split
  · split at * <;> grind [Kept.retiring]
  split at * <;> cases ‹_ = (_, _)›
  refine (h.retiring.moved ‹_› List.mem_cons_self (not_le.mp ‹_›)).spawnInto ?_ _
  exact (Table.lookup_erase _ _ _).trans (if_pos rfl)

theorem invalidate (h : Kept s) : Kept (s.invalidate osd number idle) := by
  unfold Sessions.invalidate Sessions.retire
  dsimp only
  split
  · exact h
  split
  · split
    · split at * <;> grind [Kept.retiring]
    split at * <;> cases ‹_ = (_, _)›
    exact h.retiring.moved ‹_› List.mem_cons_self (not_le.mp ‹_›)
  · exact h

theorem step (h : Kept s) (i : Input) : Kept (s.step i).1 := by
  have same (waiting : List SessionCall) : Kept { s with waiting } := ⟨h.1, h.2, h.3, h.4⟩
  cases i with
  | session => grind [Sessions.step]
  | locked =>
    simp only [Sessions.step]
    split
    · exact (same _).session _ _
    · exact h
  | invalidate => exact h.invalidate
  | ends | close | sweep | clearSessions | clearRetired =>
    constructor <;> grind [Sessions.step, mem_held]

end Kept

/-! ## No session serves two -/

/-- The log knows what the sessions of the table were spawned for. -/
@[grind cases]
structure Known (os : List Output) (s : Sessions) : Prop where
  tabled : ∀ (call : SessionCall) (entry : SessionEntry), s.sessions[call.osd]? = some entry →
    entry.endpoint = call.endpoint → .spawned entry.session call entry.authority ∈ os
  handed : ∀ session call authority, .handed session call authority ∈ os →
    .spawned session call authority ∈ os
  numbered : ∀ session call authority, .spawned session call authority ∈ os → session < s.spawned
  once : ∀ session call authority call' authority', .spawned session call authority ∈ os →
    .spawned session call' authority' ∈ os → call = call' ∧ authority = authority'

namespace Known

variable {os : List Output}

theorem spawnInto (h : Known os s) (spawn : Except Error Unit) :
    Known (os ++ (s.spawnInto call authority spawn).2) (s.spawnInto call authority spawn).1 := by
  cases spawn with
  | error error => constructor <;> grind [Sessions.spawnInto]
  | ok =>
    unfold Sessions.spawnInto
    dsimp only
    split <;> constructor <;> grind [Table.lookup_insert, SessionCall.ext]

theorem session (h : Known os s) (call : SessionCall) (reading : Reading) :
    Known (os ++ (s.session call reading).2) (s.session call reading).1 := by
  unfold Sessions.session Sessions.retire
  dsimp only
  split
  · constructor <;> grind
  split
  · exact h.spawnInto _
  split
  · constructor <;> grind
  split
  · split at * <;> constructor <;> grind [retiring]
  split at * <;> cases ‹_ = (_, _)›
  refine spawnInto ?_ _
  constructor <;> grind [retiring, Table.lookup_erase]

theorem step (h : Known os s) (i : Input) : Known (os ++ (s.step i).2) (s.step i).1 := by
  have same (waiting : List SessionCall) : Known os { s with waiting } := ⟨h.1, h.2, h.3, h.4⟩
  cases i with
  | locked =>
    simp only [Sessions.step]
    split
    · exact (same _).session _ _
    · constructor <;> grind
  | invalidate =>
    constructor <;> grind [Sessions.step, invalidate, retire, retiring, Table.lookup_erase]
  | session | ends | close | sweep | clearSessions | clearRetired =>
    constructor <;> grind [Sessions.step]

end Known

/-! ## Every run -/

theorem kept (inputs : List Input) : Kept (Mealy.after step {} inputs) :=
  Mealy.run_invariant step (fun _ _ s => Kept s) ⟨by simp, by simp, by simp, by simp⟩
    (fun _ _ _ i h => h.step i) inputs

theorem known (inputs : List Input) :
    Known (Mealy.log step {} inputs) (Mealy.after step {} inputs) :=
  Mealy.run_invariant step (fun _ os s => Known os s) ⟨by simp, by simp, by simp, by simp⟩
    (fun _ _ _ i h => h.step i) inputs

/-- Once a call of `close` is through, every session was told to close, also one that a call
which was under way has spawned or handed out since. -/
theorem sessions_closed (inputs : List Input) (swept : (Mealy.after step {} inputs).swept = true) :
    (∀ session < (Mealy.after step {} inputs).spawned,
        session ∈ (Mealy.after step {} inputs).told) ∧
      ∀ session call authority, .handed session call authority ∈ Mealy.log step {} inputs →
        session ∈ (Mealy.after step {} inputs).told := by
  have told := ((kept inputs).swept swept).2
  refine ⟨told, fun session call authority handed => told session ?_⟩
  exact (known inputs).numbered _ _ _ ((known inputs).handed _ _ _ handed)

/-- A call that waits for the lock while the client is closed. -/
theorem sessions_closed_late :
    let address : EntityAddr := ⟨2, 0, 2, [0, 80, 10, 0, 0, 1, 0, 0, 0, 0, 0, 0, 0, 0]⟩
    let call : SessionCall := ⟨3, ⟨.v4 0x0a000001, 80, 0⟩⟩
    let inputs : List Input :=
      [.session 3 [address], .close, .sweep, .locked call ⟨some 1, [], [], .ok ()⟩]
    (Mealy.after step {} inputs).spawned = 1 ∧ 0 ∈ (Mealy.after step {} inputs).told := by
  intro address call inputs
  have swept : (Mealy.after step {} inputs).swept = true := by decide
  have spawned : (Mealy.after step {} inputs).spawned = 1 := by decide
  exact ⟨spawned, (sessions_closed inputs swept).1 0 (by omega)⟩

/-- No session is handed to callers that want different OSDs, sockets or connectors. -/
theorem sessions_apart (inputs : List Input) (session : Nat) :
    Set.Subsingleton {wanted : SessionCall × Nat |
      .handed session wanted.1 wanted.2 ∈ Mealy.log step {} inputs} := by
  have h := known inputs
  intro wanted handed wanted' handed'
  have same := h.once _ _ _ _ _ (h.handed _ _ _ handed) (h.handed _ _ _ handed')
  exact Prod.ext same.1 same.2

end Sessions

end RadosRs.Osd
