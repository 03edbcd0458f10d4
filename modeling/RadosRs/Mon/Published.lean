import RadosRs.Mon.MapOwner

/-!
# What the owner publishes

Whatever messages come, in however many sessions: the cluster stays the one that was
pinned first, the published maps get newer and never older, and those with an identifier
have the one of the cluster.  A map of the storage daemons that is new follows from the
one before it, or from a newer whole map of the message, by incrementals of the message.

`Turn` says what one step may do, and the facts about runs follow from it alone.
-/

namespace RadosRs.Mon

open Fallible
open Msgr hiding Limits
open Maps

/-! ## Older and newer states -/

/-- A map is not lost, and not replaced by an older one. -/
def Grows {α : Type} (epoch : α → Nat) (before after : Option α) : Prop :=
  ∀ map ∈ before, ∃ map' ∈ after, epoch map ≤ epoch map'

variable {α : Type}

theorem Grows.refl {epoch : α → Nat} (map : Option α) : Grows epoch map map :=
  fun map mem => ⟨map, mem, Nat.le_refl _⟩

theorem Grows.trans {epoch : α → Nat} {a b c : Option α} (h : Grows epoch a b)
    (h' : Grows epoch b c) : Grows epoch a c := by
  intro map mem
  obtain ⟨map', mem', le⟩ := h map mem
  obtain ⟨map'', mem'', le'⟩ := h' map' mem'
  exact ⟨map'', mem'', Nat.le_trans le le'⟩

theorem Grows.of_all {epoch : α → Nat} {before : Option α} {map : α}
    (h : before.all (epoch · < epoch map) = true) : Grows epoch before (some map) := by
  intro old mem
  cases mem
  exact ⟨map, rfl, Nat.le_of_lt (of_decide_eq_true h)⟩

namespace MonitorState

/-- No map of the second state is older than that of the first. -/
structure Older (a b : MonitorState) : Prop where
  monmap : Grows MonMap.epoch a.monmap b.monmap
  osdmap : Grows OsdMap.epoch a.osdmap b.osdmap
  mgrmap : Grows MgrMap.epoch a.mgrmap b.mgrmap

/-- The states have the same maps. -/
structure SameMaps (a b : MonitorState) : Prop where
  monmap : a.monmap = b.monmap
  osdmap : a.osdmap = b.osdmap
  mgrmap : a.mgrmap = b.mgrmap

/-- The maps with an identifier belong to the cluster. -/
structure Of (fsid : Option Fsid) (a : MonitorState) : Prop where
  monmap : ∀ map ∈ a.monmap, fsid = some map.fsid
  osdmap : ∀ map ∈ a.osdmap, fsid = some map.fsid

variable {a b c : MonitorState}

theorem Older.refl (a : MonitorState) : a.Older a := ⟨.refl _, .refl _, .refl _⟩

theorem Older.trans (h : a.Older b) (h' : b.Older c) : a.Older c :=
  ⟨h.monmap.trans h'.monmap, h.osdmap.trans h'.osdmap, h.mgrmap.trans h'.mgrmap⟩

theorem SameMaps.refl (a : MonitorState) : a.SameMaps a := ⟨rfl, rfl, rfl⟩

theorem SameMaps.trans (h : a.SameMaps b) (h' : b.SameMaps c) : a.SameMaps c :=
  ⟨h.monmap.trans h'.monmap, h.osdmap.trans h'.osdmap, h.mgrmap.trans h'.mgrmap⟩

theorem SameMaps.older (h : a.SameMaps b) : a.Older b :=
  ⟨h.monmap ▸ .refl _, h.osdmap ▸ .refl _, h.mgrmap ▸ .refl _⟩

theorem Of.congr {fsid : Option Fsid} (h : Of fsid a) (same : a.SameMaps b) : Of fsid b :=
  ⟨same.monmap ▸ h.monmap, same.osdmap ▸ h.osdmap⟩

end MonitorState

open MonitorState (Older SameMaps Of)

/-! ## One step -/

/-- What a step may do.  Either it publishes, once and the state it leaves, or the maps stay. -/
structure Turn (s s' : MapOwner) (out : List MonitorState) : Prop where
  pinned : ∀ fsid, s.pinnedFsid = some fsid → s'.pinnedFsid = some fsid
  older : s.state.Older s'.state
  cluster : Of s.pinnedFsid s.state → Of s'.pinnedFsid s'.state
  out : out = [s'.published] ∧ s'.published = s'.state ∨
    out = [] ∧ s'.published = s.published ∧ s.state.SameMaps s'.state

namespace Turn

variable {s t u : MapOwner} {out : List MonitorState} {config : MonitorConfig}

theorem refl (s : MapOwner) : Turn s s [] :=
  ⟨fun _ => id, .refl _, id, .inr ⟨rfl, rfl, .refl _⟩⟩

/-- Something quiet first. -/
theorem after (h : Turn s t []) (h' : Turn t u out) : Turn s u out where
  pinned fsid pinned := h'.pinned fsid (h.pinned fsid pinned)
  older := h.older.trans h'.older
  cluster of := h'.cluster (h.cluster of)
  out := by
    rcases h.out with ⟨impossible, -⟩ | ⟨-, published, same⟩
    · cases impossible
    · exact h'.out.imp_right fun ⟨quiet, published', same'⟩ =>
        ⟨quiet, published'.trans published, same.trans same'⟩

theorem refreshEpoch (h : Turn s t out) (epoch : Option Nat) :
    Turn s { t with refreshEpoch := epoch } out :=
  ⟨h.pinned, h.older, h.cluster, h.out⟩

theorem publishes (pinned : t.pinnedFsid = s.pinnedFsid) (older : s.state.Older t.state)
    (cluster : Of s.pinnedFsid s.state → Of s.pinnedFsid t.state) :
    Turn s (t.publishes config).owner (t.publishes config).published where
  pinned _ h := pinned.trans h
  older := older.trans (SameMaps.older ⟨rfl, rfl, rfl⟩)
  cluster of := (pinned ▸ cluster of : Of t.pinnedFsid t.state).congr ⟨rfl, rfl, rfl⟩
  out := .inl ⟨rfl, rfl⟩

end Turn

section Batches

variable {config : MonitorConfig} {message : Message} {walks : Walks}

/-! ## Batches -/

/-- The map follows from the one before it, or from a newer whole map of the batch, by
incrementals of the batch with consecutive epochs, and reaches the epochs the batch asks for. -/
def DecodedOsdMapBatch.Leads (maps : DecodedOsdMapBatch) (limits : Limits) (walks : Walks)
    (previous : Option OsdMap) (new : OsdMap) : Prop :=
  ∃ (base : OsdMap) (applied : List (Nat × OsdMapIncremental)),
    (previous = some base ∨
      base ∈ maps.fullMaps.map Prod.snd ∧ ∀ old ∈ previous, old.epoch < base.epoch) ∧
    applied.Sublist maps.incrementals ∧
    applied.map Prod.fst = List.range' (base.epoch + 1) applied.length ∧
    applied.foldlM (fun map entry =>
      map.applyOsdmapIncremental (walks.order entry.2) limits) base = .ok new ∧
    maps.newestMap ≤ new.epoch ∧ maps.trimLowerBound ≤ new.epoch

variable {maps : DecodedOsdMapBatch} {limits : Limits}

/-- The whole maps leave the map at hand or a newer one of theirs. -/
theorem takeFull_cases (genuine : maps.Genuine) (current : Option OsdMap) :
    maps.fullMaps.foldl takeFull current = current ∨
      ∃ entry ∈ maps.fullMaps, maps.fullMaps.foldl takeFull current = some entry.2 ∧
        ∀ old ∈ current, old.epoch < entry.2.epoch := by
  refine List.foldlRecOn (motive := fun base => base = current ∨ ∃ entry ∈ maps.fullMaps,
    base = some entry.2 ∧ ∀ old ∈ current, old.epoch < entry.2.epoch) _ _ (.inl rfl) ?_
  intro base known entry mem
  unfold takeFull
  split
  next newer =>
    have epoch := (genuine.fullMaps entry mem).2
    refine .inr ⟨entry, mem, rfl, fun old here => ?_⟩
    rcases known with rfl | ⟨other, -, rfl, above⟩
    · cases here
      exact epoch ▸ of_decide_eq_true newer
    · exact Nat.lt_trans (above old here) (epoch ▸ of_decide_eq_true newer)
  · exact known

variable {result : Option OsdMap}

theorem takeIncremental_eq_ok {base : OsdMap} {entry : Nat × OsdMapIncremental}
    (h : takeIncremental limits walks (some base) entry = .ok result) :
    result = some base ∨
      ∃ new, result = some new ∧ entry.1 = base.epoch + 1 ∧
        base.applyOsdmapIncremental (walks.order entry.2) limits = .ok new := by
  unfold takeIncremental at h
  split at h
  · cases h
  rename_i same
  cases same
  split at h
  · cases h
    exact .inl rfl
  split at h
  · cases h
  next next =>
    have applied := mapError_eq_ok.mp h
    cases run : base.applyOsdmapIncremental (walks.order entry.2) limits with
    | error fault =>
      rw [run] at applied
      cases applied
    | ok new =>
      rw [run] at applied
      cases applied
      exact .inr ⟨new, rfl, (not_not.mp (not_or.mp next).2).symm, rfl⟩

variable {entries : List (Nat × OsdMapIncremental)}

/-- The incrementals that are not skipped are applied one epoch after the other. -/
theorem takeIncrementals_eq_ok {base : OsdMap}
    (h : entries.foldlM (takeIncremental limits walks) (some base) = .ok result) :
    ∃ (applied : List (Nat × OsdMapIncremental)) (new : OsdMap),
      result = some new ∧ applied.Sublist entries ∧
      applied.map Prod.fst = List.range' (base.epoch + 1) applied.length ∧
      applied.foldlM (fun map entry =>
        map.applyOsdmapIncremental (walks.order entry.2) limits) base = .ok new ∧
      new.fsid = base.fsid := by
  induction entries generalizing base with
  | nil =>
    cases h
    exact ⟨[], base, rfl, .slnil, rfl, rfl, rfl⟩
  | cons entry entries ih =>
    rw [List.foldlM_cons] at h
    obtain ⟨between, first, rest⟩ := bind_eq_ok.mp h
    rcases takeIncremental_eq_ok first with rfl | ⟨next, rfl, epoch, applied_eq⟩
    · obtain ⟨applied, new, result_eq, sub, known⟩ := ih rest
      exact ⟨applied, new, result_eq, sub.cons entry, known⟩
    obtain ⟨applied, new, result_eq, sub, epochs, run, cluster⟩ := ih rest
    obtain ⟨advanced, same, -⟩ := OsdMap.applyOsdmapIncremental_identity applied_eq
    refine ⟨entry :: applied, new, result_eq, sub.cons_cons entry, ?_, ?_, cluster.trans same⟩
    · rw [List.map_cons, List.length_cons, List.range'_succ, epochs, epoch, advanced]
    · rw [List.foldlM_cons]
      exact bind_eq_ok.mpr ⟨next, applied_eq, run⟩

theorem takeIncrementals_none
    (h : entries.foldlM (takeIncremental limits walks) none = .ok result) : result = none := by
  cases entries with
  | nil =>
    cases h
    rfl
  | cons entry entries => cases h

/-- What a batch leads to. -/
theorem advance_eq_ok (genuine : maps.Genuine) {previous : Option OsdMap} {new : OsdMap}
    (h : maps.advance limits walks previous = .ok (some new)) :
    maps.Leads limits walks previous new ∧
      ((∀ old ∈ previous, old.fsid = maps.fsid) → new.fsid = maps.fsid) := by
  rw [DecodedOsdMapBatch.advance] at h
  obtain ⟨current, run, h⟩ := bind_eq_ok.mp h
  dsimp only at h
  split at h
  · cases h
  rename_i reached
  cases h
  obtain ⟨newest, trim⟩ := not_or.mp reached
  have reaches {bound : Nat} (h : ¬ (bound ≠ 0 ∧ new.epoch < bound)) : bound ≤ new.epoch := by
    omega
  cases start : maps.fullMaps.foldl takeFull previous with
  | none =>
    rw [start] at run
    cases takeIncrementals_none run
  | some base =>
    rw [start] at run
    obtain ⟨applied, _, same, sub, epochs, folded, cluster⟩ := takeIncrementals_eq_ok run
    cases same
    rcases takeFull_cases genuine previous with kept | ⟨entry, mem, taken, newer⟩
    · have kept : previous = some base := kept.symm.trans start
      exact ⟨⟨base, applied, .inl kept, sub, epochs, folded, reaches newest, reaches trim⟩,
        fun of => cluster.trans (of base kept)⟩
    cases taken.symm.trans start
    exact ⟨⟨entry.2, applied, .inr ⟨List.mem_map_of_mem mem, newer⟩, sub, epochs, folded,
      reaches newest, reaches trim⟩, fun _ => cluster.trans (genuine.fullMaps entry mem).1⟩

theorem decodeMaps_genuine (h : decodeMaps config message = .ok maps) : maps.Genuine := by
  obtain ⟨batch, -, h⟩ := bind_eq_ok.mp h
  exact (decodeOsdmapBatchMaps_genuine h).1

end Batches

/-! ## Messages -/

/-- What handling a message may do.  A message that is refused publishes nothing, and a map of the
storage daemons that is published is the one at hand or follows from the message. -/
structure Handles (config : MonitorConfig) (walks : Walks) (message : Message) (s : MapOwner)
    (outcome : Outcome) : Prop where
  turn : Turn s outcome.owner outcome.published
  refused : ∀ fault, outcome.result = .error fault → outcome.published = []
  follows : ∀ state ∈ outcome.published, state.osdmap = s.state.osdmap ∨
    ∃ map maps, state.osdmap = some map ∧ decodeMaps config message = .ok maps ∧
      maps.Leads config.mapLimits walks s.state.osdmap map

section Handlers

variable {config : MonitorConfig} {s t : MapOwner} {message : Message} {walks : Walks}
  {maps : DecodedOsdMapBatch}

theorem Handles.quiet (turn : Turn s t []) (result : Run MonitorError MessageAction) :
    Handles config walks message s ⟨result, t, []⟩ :=
  ⟨turn, fun _ _ => rfl, fun _ mem => absurd mem List.not_mem_nil⟩

/-- Something that leaves the maps first. -/
theorem Handles.after {outcome : Outcome} (quiet : Turn s t [])
    (h : Handles config walks message t outcome) : Handles config walks message s outcome where
  turn := quiet.after h.turn
  refused := h.refused
  follows := by
    rcases quiet.out with ⟨impossible, -⟩ | ⟨-, -, same⟩
    · cases impossible
    · rw [same.osdmap]
      exact h.follows

/-- The published state has a new map of another kind, or none. -/
theorem Handles.publishes (pinned : t.pinnedFsid = s.pinnedFsid) (older : s.state.Older t.state)
    (cluster : Of s.pinnedFsid s.state → Of s.pinnedFsid t.state)
    (same : t.state.osdmap = s.state.osdmap) :
    Handles config walks message s (t.publishes config) where
  turn := .publishes pinned older cluster
  refused := nofun
  follows state mem := by
    cases List.mem_singleton.mp mem
    exact .inl same

theorem pinFsid_eq_ok {fsid : Fsid} (h : s.pinFsid fsid = .ok t) :
    (∀ old, s.pinnedFsid = some old → old = fsid) ∧
      t = { s with
        pinnedFsid := some fsid
        state := { s.state with connectedFsid := some fsid } } := by
  unfold MapOwner.pinFsid at h
  split at h
  · cases h
  rename_i same
  cases h
  refine ⟨fun old pinned => ?_, rfl⟩
  rw [pinned] at same
  simpa using same

theorem turn_pinFsid {fsid : Fsid} (h : s.pinFsid fsid = .ok t) :
    Turn s t [] ∧ t.pinnedFsid = some fsid := by
  obtain ⟨pinned, rfl⟩ := pinFsid_eq_ok h
  have same : s.pinnedFsid = some fsid ∨ s.pinnedFsid = none := by
    cases here : s.pinnedFsid with
    | none => exact .inr rfl
    | some old => exact .inl (congrArg some (pinned old here))
  refine ⟨⟨fun old here => ?_, SameMaps.older ⟨rfl, rfl, rfl⟩, fun of => ?_, ?_⟩, rfl⟩
  · rw [pinned old here]
  · -- without a pinned cluster there is no map with an identifier yet
    have some_of {map : Fsid} (h : s.pinnedFsid = some map) : some fsid = some map :=
      same.elim (fun here => here.symm.trans h) fun none => by cases none.symm.trans h
    exact ⟨fun map mem => some_of (of.monmap map mem), fun map mem => some_of (of.osdmap map mem)⟩
  · exact .inr ⟨rfl, rfl, rfl, rfl, rfl⟩

theorem handles_subscribeAck :
    Handles config walks message s (s.handleSubscribeAck config message) := by
  unfold MapOwner.handleSubscribeAck
  split
  · exact .quiet (.refl s) _
  split
  · exact .quiet (.refl s) _
  next t h => exact .after (turn_pinFsid h).1 (.publishes rfl (.refl _) id rfl)

theorem handles_monmap : Handles config walks message s (s.handleMonmap config message) := by
  unfold MapOwner.handleMonmap
  split
  · exact .quiet (.refl s) _
  rename_i map _
  split
  · exact .quiet (.refl s) _
  rename_i t h
  obtain ⟨turn, fsid⟩ := turn_pinFsid h
  refine .after turn ?_
  split
  next newer =>
    refine .publishes rfl ⟨.of_all newer, .refl _, .refl _⟩ (fun of => ⟨?_, of.osdmap⟩) rfl
    intro other mem
    cases mem
    exact fsid
  · exact .quiet (.refl t) _

theorem handles_mgrmap : Handles config walks message s (s.handleMgrmap config message) := by
  unfold MapOwner.handleMgrmap
  split
  · exact .quiet (.refl s) _
  split
  · exact .quiet (.refl s) _
  · split
    next newer =>
      exact .publishes rfl ⟨.refl _, .refl _, .of_all newer⟩
        (fun of => ⟨of.monmap, of.osdmap⟩) rfl
    · exact .quiet (.refl s) _

/-- The map that a batch leads to is published if it is newer. -/
theorem handles_offer (decoded : decodeMaps config message = .ok maps)
    (pinned : s.pinnedFsid = some maps.fsid) {current : Option OsdMap}
    (advanced : maps.advance config.mapLimits walks s.state.osdmap = .ok current) :
    Handles config walks message s (s.offer config current) := by
  cases current with
  | none => exact .quiet (.refl s) _
  | some map =>
    obtain ⟨leads, cluster⟩ := advance_eq_ok (decodeMaps_genuine decoded) advanced
    unfold MapOwner.offer
    dsimp only
    split
    next newer =>
      refine ⟨.publishes rfl ⟨.refl _, .of_all newer, .refl _⟩ fun of => ⟨of.monmap, ?_⟩, nofun,
        ?_⟩
      · intro other mem
        cases mem
        rw [pinned, cluster fun old mem =>
          Option.some.inj ((of.osdmap old mem).symm.trans pinned)]
      intro state mem
      cases List.mem_singleton.mp mem
      exact .inr ⟨map, maps, rfl, decoded, leads⟩
    · exact .quiet (.refl s) _

theorem handles_osdmap : Handles config walks message s (s.handleOsdmap config walks message) := by
  unfold MapOwner.handleOsdmap
  split
  · exact .quiet (.refl s) _
  rename_i maps decoded
  split
  · exact .quiet (.refl s) _
  rename_i t h
  obtain ⟨turn, fsid⟩ := turn_pinFsid h
  refine .after turn ?_
  split
  · exact .quiet (.refl t) _
  rename_i current advanced
  have offered := handles_offer decoded fsid advanced
  dsimp only
  split
  · exact ⟨offered.turn.refreshEpoch none, nofun, offered.follows⟩
  · exact offered

theorem handles_message :
    Handles config walks message s (s.handleMessage config walks message) := by
  unfold MapOwner.handleMessage
  split_ifs
  · exact handles_subscribeAck
  · exact handles_monmap
  · exact handles_osdmap
  · exact handles_mgrmap
  · exact .quiet (.refl s) _

/-- A newer map that a batch of the cluster leads to is published. -/
theorem publishes_of_advance (type : message.header.messageType = messageOsdMap)
    (decoded : decodeMaps config message = .ok maps) (pinned : s.pinFsid maps.fsid = .ok t)
    {map : OsdMap} (advanced : maps.advance config.mapLimits walks t.state.osdmap = .ok (some map))
    (newer : t.state.osdmap.all (·.epoch < map.epoch) = true) :
    ∃ state ∈ (s.handleMessage config walks message).published, state.osdmap = some map := by
  have handled : s.handleMessage config walks message = s.handleOsdmap config walks message := by
    unfold MapOwner.handleMessage
    rw [type]
    rfl
  rw [handled, MapOwner.handleOsdmap, decoded]
  dsimp only
  rw [pinned]
  dsimp only
  rw [advanced]
  dsimp only [MapOwner.offer]
  rw [if_pos newer]
  split
  · exact ⟨_, List.mem_singleton_self _, rfl⟩
  · exact ⟨_, List.mem_singleton_self _, rfl⟩

theorem turn_step (input : MapInput) : Turn s (s.step config input).1 (s.step config input).2 := by
  cases input with
  | opened globalId addresses =>
    exact .publishes rfl (SameMaps.older ⟨rfl, rfl, rfl⟩) fun of => ⟨of.monmap, of.osdmap⟩
  | message message walks =>
    have handles : Handles config walks message s (s.handleMessage config walks message) :=
      handles_message
    have turn := handles.turn
    show Turn s ((s.handleMessage config walks message).owner.noteGap _) _
    unfold MapOwner.noteGap
    split
    · split
      · exact turn
      · exact turn.refreshEpoch _
    · exact turn
  | refresh epoch => exact (Turn.refl s).refreshEpoch _

end Handlers

/-! ## Runs -/

/-- What holds of the owner and of what has been published so far. -/
structure Kept (config : MonitorConfig) (log : List MonitorState) (s : MapOwner) : Prop where
  expected : ∀ fsid, config.expectedFsid = some fsid → s.pinnedFsid = some fsid
  cluster : Of s.pinnedFsid s.state
  current : s.published.SameMaps s.state
  sorted : log.Pairwise Older
  newest : ∀ state ∈ log, state.Older s.state
  genuine : ∀ state ∈ log, Of s.pinnedFsid state

section Runs

variable {config : MonitorConfig} {log out : List MonitorState} {s s' : MapOwner}

theorem kept_new : Kept config [] (.new config) where
  expected _ := id
  cluster := ⟨nofun, nofun⟩
  current := ⟨rfl, rfl, rfl⟩
  sorted := .nil
  newest _ mem := absurd mem List.not_mem_nil
  genuine _ mem := absurd mem List.not_mem_nil

theorem Kept.turn (h : Kept config log s) (turn : Turn s s' out) : Kept config (log ++ out) s' := by
  have before (state : MonitorState) (mem : state ∈ log) : Of s'.pinnedFsid state :=
    ⟨fun map here => turn.pinned _ ((h.genuine state mem).monmap map here),
      fun map here => turn.pinned _ ((h.genuine state mem).osdmap map here)⟩
  have older (state : MonitorState) (mem : state ∈ log) : state.Older s'.state :=
    (h.newest state mem).trans turn.older
  have expected (fsid : Fsid) (configured : config.expectedFsid = some fsid) :
      s'.pinnedFsid = some fsid := turn.pinned fsid (h.expected fsid configured)
  rcases turn.out with ⟨rfl, published⟩ | ⟨rfl, published, same⟩
  · refine ⟨expected, turn.cluster h.cluster, published ▸ .refl _, ?_, ?_, ?_⟩
    · refine List.pairwise_append.mpr
        ⟨h.sorted, List.pairwise_singleton .., fun state mem last here => ?_⟩
      rw [List.mem_singleton.mp here, published]
      exact older state mem
    · intro state mem
      rcases List.mem_append.mp mem with mem | last
      · exact older state mem
      · rw [List.mem_singleton.mp last, published]
        exact .refl _
    · intro state mem
      rcases List.mem_append.mp mem with mem | last
      · exact before state mem
      · rw [List.mem_singleton.mp last, published]
        exact turn.cluster h.cluster
  · rw [List.append_nil]
    exact ⟨expected, turn.cluster h.cluster, published ▸ h.current.trans same, h.sorted, older,
      before⟩

theorem kept_run (config : MonitorConfig) (inputs : List MapInput) :
    Kept config (Mealy.log (MapOwner.step config) (.new config) inputs)
      (Mealy.after (MapOwner.step config) (.new config) inputs) :=
  Mealy.run_invariant _ (fun _ log s => Kept config log s) kept_new
    (fun _ _ _ input kept => kept.turn (turn_step input)) inputs

/-- A cluster that is pinned stays pinned. -/
theorem pinned_run {fsid : Fsid} (pinned : s.pinnedFsid = some fsid) (inputs : List MapInput) :
    (Mealy.after (MapOwner.step config) s inputs).pinnedFsid = some fsid :=
  Mealy.run_invariant _ (fun _ _ (s : MapOwner) => s.pinnedFsid = some fsid) pinned
    (fun _ _ _ input pinned => (turn_step input).pinned fsid pinned) inputs

end Runs

/-! ### A batch -/

def Walks.asListed : Walks := ⟨id, .refl⟩

def sampleConfig : MonitorConfig := ⟨none, Maps.sampleLimits, ⟨4096, 4⟩, 2⟩

/-- A map and the incremental after it. -/
def sampleFull : List UInt8 := bareData [(1, [97]), (2, [98])] 2988944942

def sampleNext : List UInt8 :=
  encodeSampleIncremental (encodeSampleChange 2 2 [barePool 3 []] [(3, [99])] [] [(0, 3)])
    2927489750

def encodeSampleBlobs (entries : List (Nat × List UInt8)) : List UInt8 :=
  encodeSampleList entries fun entry =>
    Bytes.leBytes 4 entry.1 ++ Bytes.leBytes 4 entry.2.length ++ entry.2

def sampleBatch : Message :=
  let front := List.replicate 16 7 ++ encodeSampleBlobs [(2, sampleNext)]
    ++ encodeSampleBlobs [(1, sampleFull)] ++ Bytes.leBytes 4 1 ++ Bytes.leBytes 4 2
  { header := { messageType := messageOsdMap, version := 3, compatVersion := 3 }
    lengths := { front := front.length }, front }

def sampleMaps : DecodedOsdMapBatch where
  fsid := List.replicate 16 7
  incrementals := [(2, growth)]
  fullMaps := [(1, { pairMap with crc := 2988944942, crcVerified := true })]
  trimLowerBound := 1
  newestMap := 2

theorem decodeMaps_sampleBatch : decodeMaps sampleConfig sampleBatch = .ok sampleMaps := by
  have batch : decodeOsdmapBatch sampleBatch sampleConfig.messageLimits =
      .ok ⟨List.replicate 16 7, .ofList [(2, sampleNext)], .ofList [(1, sampleFull)], 1, 2⟩ := by
    decide +kernel
  have whole : decodeOsdmap sampleFull Maps.sampleLimits =
      .ok { pairMap with crc := 2988944942, crcVerified := true } :=
    decode_bareData (by decide +kernel) (by decide +kernel) (by decide +kernel)
  have following : decodeOsdmapIncremental sampleNext Maps.sampleLimits = .ok growth :=
    decodeOsdmapIncremental_of_checksum rfl (by decide +kernel) (by decide +kernel)
      (by decide +kernel)
  refine bind_eq_ok.mpr ⟨_, batch, bind_eq_ok.mpr ⟨[(2, growth)], ?_, bind_eq_ok.mpr
    ⟨[(1, { pairMap with crc := 2988944942, crcVerified := true })], ?_, rfl⟩⟩⟩
  · show [(2, sampleNext)].mapM _ = _
    rw [List.mapM_cons]
    exact bind_eq_ok.mpr ⟨(2, growth), bind_eq_ok.mpr ⟨_, mapError_eq_ok.mpr following, rfl⟩, rfl⟩
  show [(1, sampleFull)].mapM _ = _
  rw [List.mapM_cons]
  exact bind_eq_ok.mpr ⟨(1, _), bind_eq_ok.mpr ⟨_, mapError_eq_ok.mpr whole, rfl⟩, rfl⟩

/-- Whatever comes from the monitors: the cluster that is pinned stays the same and is the
configured one, if there is one.  No published state has an older map than one before it, and the
maps belong to the cluster.  A message that is refused leaves the maps, and a new map of the
storage daemons follows from the one published before and the message. -/
theorem published_maps (config : MonitorConfig) (inputs : List MapInput) :
    (∀ before fsid, before <+: inputs →
      (Mealy.after (MapOwner.step config) (.new config) before).pinnedFsid = some fsid →
      (Mealy.after (MapOwner.step config) (.new config) inputs).pinnedFsid = some fsid) ∧
    (∀ fsid, config.expectedFsid = some fsid →
      (Mealy.after (MapOwner.step config) (.new config) inputs).pinnedFsid = some fsid) ∧
    (Mealy.log (MapOwner.step config) (.new config) inputs).Pairwise Older ∧
    (∀ state ∈ Mealy.log (MapOwner.step config) (.new config) inputs,
      Of (Mealy.after (MapOwner.step config) (.new config) inputs).pinnedFsid state) ∧
    ∀ message walks, let s := Mealy.after (MapOwner.step config) (.new config) inputs
      let outcome := s.handleMessage config walks message
      (∀ fault, outcome.result = .error fault →
        s.state.SameMaps outcome.owner.state ∧ outcome.published = []) ∧
      ∀ state ∈ outcome.published, state.osdmap ≠ s.published.osdmap →
        ∃ map maps, state.osdmap = some map ∧ decodeMaps config message = .ok maps ∧
          maps.Leads config.mapLimits walks s.published.osdmap map := by
  have kept := kept_run config inputs
  refine ⟨fun before fsid inside pinned => ?_, kept.expected, kept.sorted, kept.genuine, ?_⟩
  · obtain ⟨rest, rfl⟩ := inside
    rw [Mealy.after_append]
    exact pinned_run pinned rest
  intro message walks s outcome
  have handles : Handles config walks message s outcome := handles_message
  refine ⟨fun fault failed => ?_, fun state mem new => ?_⟩
  · have quiet := handles.refused fault failed
    rcases handles.turn.out with ⟨published, -⟩ | ⟨-, -, same⟩
    · cases quiet.symm.trans published
    · exact ⟨same, quiet⟩
  · rw [kept.current.osdmap] at new ⊢
    exact (handles.follows state mem).resolve_left new

theorem published_maps_batch :
    ∃ state ∈ ((MapOwner.new sampleConfig).handleMessage sampleConfig .asListed
        sampleBatch).published,
      ∃ map maps, state.osdmap = some map ∧ map.epoch = 2 ∧
        decodeMaps sampleConfig sampleBatch = .ok maps ∧
        maps.Leads Maps.sampleLimits .asListed none map := by
  have advanced : (sampleMaps.advance Maps.sampleLimits .asListed none).map (·.map OsdMap.epoch) =
      .ok (some 2) := by
    decide
  cases reached : sampleMaps.advance Maps.sampleLimits .asListed none with
  | error fault =>
    rw [reached] at advanced
    cases advanced
  | ok current =>
    rw [reached] at advanced
    obtain ⟨map, rfl, epoch⟩ := Option.map_eq_some_iff.mp (Except.ok.inj advanced)
    have pinned : (MapOwner.new sampleConfig).pinFsid sampleMaps.fsid =
        .ok { MapOwner.new sampleConfig with
          pinnedFsid := some sampleMaps.fsid
          state := { connectedFsid := some sampleMaps.fsid } } := rfl
    obtain ⟨state, mem, osdmap⟩ :=
      publishes_of_advance rfl decodeMaps_sampleBatch pinned reached rfl
    obtain ⟨-, -, -, -, handled⟩ := published_maps sampleConfig []
    obtain ⟨-, follows⟩ := handled sampleBatch .asListed
    have new : state.osdmap ≠ none := by rw [osdmap]; exact Option.some_ne_none map
    obtain ⟨_, maps, same, decoded, leads⟩ := follows state mem new
    cases osdmap.symm.trans same
    exact ⟨state, mem, map, maps, osdmap, epoch, decoded, leads⟩

end RadosRs.Mon
