import RadosRs.Lib.Mealy
import RadosRs.Maps.WellFormed
import RadosRs.Mon.MapMessage
import RadosRs.Mon.Owner

/-!
# The maps the owner has

The owner keeps the newest map of each kind and publishes its state whenever one of
them changes.  The first message that names a cluster pins it, unless the configuration
has done so, and a message of another cluster is refused.

A batch of maps of the storage daemons is worked through before anything is kept.  It
starts from the map at hand or from a whole map that is newer, and applies the
incrementals of the batch one epoch after the other.  If it does not reach the newest
epoch, or there is a gap, the maps stay as they were.

`MapOwner` is the part of the owner's state that this concerns.  `handleMessage` follows
the function of that name in `src/mon/client.rs`, and a step of the machine is the
beginning of a session, a message, or a request for a newer map.  The order in which an
incremental's tables are walked is left open in the source and comes with the message.
-/

namespace RadosRs.Mon

open Fallible Fixed
open Msgr hiding Limits
open Maps

structure MonitorConfig where
  expectedFsid : Option Fsid
  mapLimits : Limits
  messageLimits : MessageLimits
  historyLimit : Nat

structure MonitorState where
  generation : Nat := 0
  connectedFsid : Option Fsid := none
  globalId : Option Nat := none
  clientAddresses : Option (List EntityAddr) := none
  monmap : Option MonMap := none
  osdmap : Option OsdMap := none
  mgrmap : Option MgrMap := none
  deriving DecidableEq

/-- The published state is the one in the channel that the clients watch. -/
structure MapOwner where
  pinnedFsid : Option Fsid
  state : MonitorState
  published : MonitorState
  history : List MonitorState
  refreshEpoch : Option Nat
  deriving DecidableEq

/-- How the tables of incrementals are walked. -/
structure Walks where
  order : OsdMapIncremental → OsdMapIncremental
  reordered : ∀ incremental : OsdMapIncremental, incremental.Reordered (order incremental)

/-- What handling a message comes to, what it leaves, and what it has published. -/
structure Outcome where
  result : Run MonitorError MessageAction
  owner : MapOwner
  published : List MonitorState

namespace MapOwner

variable (config : MonitorConfig)

def new : MapOwner where
  pinnedFsid := config.expectedFsid
  state := {}
  published := { connectedFsid := config.expectedFsid }
  history := []
  refreshEpoch := none

def publish (s : MapOwner) : MapOwner :=
  let state := { s.state with generation := min (s.state.generation + 1) u64Max }
  { s with
    state
    history :=
      if config.historyLimit ≠ 0 ∧ s.published.generation ≠ 0 then
        (s.published :: s.history).take config.historyLimit
      else s.history
    published := state }

def pinFsid (s : MapOwner) (fsid : Fsid) : Except MonitorError MapOwner :=
  if s.pinnedFsid.any (· ≠ fsid) then .error .foreignCluster
  else .ok { s with pinnedFsid := some fsid, state := { s.state with connectedFsid := some fsid } }

/-! ## Messages -/

def rejects (s : MapOwner) (fault : Fault MonitorError) : Outcome := ⟨.error fault, s, []⟩

def keeps (s : MapOwner) : Outcome := ⟨.ok .none, s, []⟩

def publishes (s : MapOwner) : Outcome :=
  let s := s.publish config
  ⟨.ok .none, s, [s.published]⟩

def handleSubscribeAck (s : MapOwner) (message : Message) : Outcome :=
  match decodeSubscribeAck message config.messageLimits.maxBytes with
  | .error fault => s.rejects (fault.map .message)
  | .ok ack =>
    match s.pinFsid ack.fsid with
    | .error error => s.rejects (.error error)
    | .ok s => s.publishes config

def handleMonmap (s : MapOwner) (message : Message) : Outcome :=
  match decodeMonmapMessage message config.mapLimits with
  | .error fault => s.rejects (fault.map .message)
  | .ok map =>
    match s.pinFsid map.fsid with
    | .error error => s.rejects (.error error)
    | .ok s =>
      if s.state.monmap.all (·.epoch < map.epoch) then
        publishes config { s with state := { s.state with monmap := some map } }
      else s.keeps

def handleMgrmap (s : MapOwner) (message : Message) : Outcome :=
  if s.pinnedFsid.isNone then s.rejects (.error .identityUnavailable)
  else
    match decodeMgrmapMessage message config.mapLimits with
    | .error fault => s.rejects (fault.map .message)
    | .ok map =>
      if s.state.mgrmap.all (·.epoch < map.epoch) then
        publishes config { s with state := { s.state with mgrmap := some map } }
      else s.keeps

end MapOwner

/-! ### Batches -/

/-- The maps of a batch. -/
def decodeMaps (config : MonitorConfig) (message : Message) :
    Run MessageError DecodedOsdMapBatch := do
  let batch ← decodeOsdmapBatch message config.messageLimits
  decodeOsdmapBatchMaps batch config.mapLimits

/-- A whole map takes the place of an older one. -/
def takeFull (current : Option OsdMap) (entry : Nat × OsdMap) : Option OsdMap :=
  if current.all (·.epoch < entry.1) then some entry.2 else current

/-- An incremental is skipped if it is not newer than the map, and has to be the next one
otherwise. -/
def takeIncremental (limits : Limits) (walks : Walks) (current : Option OsdMap)
    (entry : Nat × OsdMapIncremental) : Run MonitorError (Option OsdMap) :=
  match current with
  | none => fail .mapGap
  | some base =>
    if entry.1 ≤ base.epoch then .ok (some base)
    else if base.epoch + 1 > u32Max ∨ base.epoch + 1 ≠ entry.1 then fail .mapGap
    else
      ((base.applyOsdmapIncremental (walks.order entry.2) limits).map some).mapError
        (Fault.map .map)

/-- The newest map that a batch leads to. -/
def DecodedOsdMapBatch.advance (maps : DecodedOsdMapBatch) (limits : Limits) (walks : Walks)
    (current : Option OsdMap) : Run MonitorError (Option OsdMap) := do
  let base := maps.fullMaps.foldl takeFull current
  let current ← maps.incrementals.foldlM (takeIncremental limits walks) base
  let epoch := current.elim 0 OsdMap.epoch
  if (maps.newestMap ≠ 0 ∧ epoch < maps.newestMap)
      ∨ (maps.trimLowerBound ≠ 0 ∧ epoch < maps.trimLowerBound) then fail .mapGap
  else return current

namespace MapOwner

variable (config : MonitorConfig)

/-- Publishes a map that is newer than the one at hand. -/
def offer (s : MapOwner) : Option OsdMap → Outcome
  | none => s.keeps
  | some map =>
    if s.state.osdmap.all (·.epoch < map.epoch) then
      publishes config { s with state := { s.state with osdmap := some map } }
    else s.keeps

/-- The whole map that was asked for has come. -/
def refreshed (s : MapOwner) (maps : DecodedOsdMapBatch) : Bool :=
  s.refreshEpoch.any fun required => maps.fullMaps.getLast?.any (required ≤ ·.1)

def handleOsdmap (walks : Walks) (s : MapOwner) (message : Message) : Outcome :=
  match decodeMaps config message with
  | .error fault => s.rejects (fault.map .message)
  | .ok maps =>
    match s.pinFsid maps.fsid with
    | .error error => s.rejects (.error error)
    | .ok s =>
      match maps.advance config.mapLimits walks s.state.osdmap with
      | .error fault => s.rejects fault
      | .ok current =>
        let offered := s.offer config current
        if s.refreshed maps then
          { offered with
            result := .ok .resubscribe
            owner := { offered.owner with refreshEpoch := none } }
        else offered

def handleMessage (walks : Walks) (s : MapOwner) (message : Message) : Outcome :=
  if message.header.messageType = messageMonSubscribeAck then s.handleSubscribeAck config message
  else if message.header.messageType = messageMonMap then s.handleMonmap config message
  else if message.header.messageType = messageOsdMap then s.handleOsdmap config walks message
  else if message.header.messageType = messageMgrMap then s.handleMgrmap config message
  else s.keeps

end MapOwner

/-! ## Sessions -/

inductive MapInput where
  | opened (globalId : Nat) (addresses : List EntityAddr)
  | message (message : Message) (walks : Walks)
  | refresh (epoch : Nat)

namespace MapOwner

/-- After a gap a newer whole map is asked for. -/
def noteGap (s : MapOwner) (result : Run MonitorError MessageAction) : MapOwner :=
  match result with
  | .error (.error .mapGap) =>
    if s.refreshEpoch.isSome then s
    else
      { s with refreshEpoch := some (s.state.osdmap.elim 1 fun map => min (map.epoch + 1) u32Max) }
  | _ => s

def step (config : MonitorConfig) (s : MapOwner) : MapInput → MapOwner × List MonitorState
  | .opened globalId addresses =>
    let outcome := publishes config
      { s with
        state := { s.state with globalId := some globalId, clientAddresses := some addresses } }
    (outcome.owner, outcome.published)
  | .message message walks =>
    let outcome := s.handleMessage config walks message
    (outcome.owner.noteGap outcome.result, outcome.published)
  | .refresh epoch =>
    ({ s with refreshEpoch := some (s.refreshEpoch.elim epoch (max epoch)) }, [])

end MapOwner

end RadosRs.Mon
