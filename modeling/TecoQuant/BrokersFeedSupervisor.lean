import TecoQuant.BaseBinary64
import TecoQuant.BaseDict

/-! The fields of the live-feed supervisor behind its lock, and its locked sections. Telemetry that no
decision reads (wall-clock times, trade epochs, the last error) is left out. -/

namespace TecoQuant.Brokers

def DHAN_MAX_INSTRUMENTS_PER_CONNECTION : Nat := 5000

def DHAN_EXCHANGE_SEGMENT_CODES : List (String × Int) := [
  ("IDX_I", 0), ("NSE_EQ", 1), ("NSE_FNO", 2), ("NSE_CURRENCY", 3), ("BSE_EQ", 4), ("MCX_COMM", 5),
  ("BSE_CURRENCY", 7), ("BSE_FNO", 8)]

/-- An instrument of a known exchange segment. -/
structure DhanFeedInstrument where
  exchangeSegment : String
  securityId : String
  known : (DHAN_EXCHANGE_SEGMENT_CODES.lookup exchangeSegment).isSome
  deriving DecidableEq

/-- The segment code and the security id of an instrument. -/
abbrev FeedKey := Int × String

instance : LawfulBEq FeedKey := inferInstance

def DhanFeedInstrument.segmentCode (instrument : DhanFeedInstrument) : Int :=
  (DHAN_EXCHANGE_SEGMENT_CODES.lookup instrument.exchangeSegment).get instrument.known

def DhanFeedInstrument.key (instrument : DhanFeedInstrument) : FeedKey :=
  (instrument.segmentCode, instrument.securityId)

/-- The instruments that normalization returns. -/
@[ext]
structure InstrumentSet where
  items : List DhanFeedInstrument
  nonempty : items ≠ []
  distinct : items.Nodup
  bounded : items.length ≤ DHAN_MAX_INSTRUMENTS_PER_CONNECTION
  deriving DecidableEq

inductive DhanFeedMode where
  | ticker | quote | full
  deriving DecidableEq, Repr

def DhanFeedMode.requestCode : DhanFeedMode → Nat
  | .ticker => 15
  | .quote => 17
  | .full => 21

/-- `_primary_response_code`. -/
def DhanFeedMode.primaryResponseCode : DhanFeedMode → Nat
  | .ticker => 2
  | .quote => 4
  | .full => 8

structure SubscriptionMessage where
  requestCode : Nat
  instrumentList : List (String × String)
  deriving DecidableEq, Repr

/-- `subscription_messages`: one request for each hundred instruments. -/
def subscriptionMessages (mode : DhanFeedMode) (instruments : InstrumentSet) : List SubscriptionMessage :=
  ((instruments.items.map fun item => (item.exchangeSegment, item.securityId)).toChunks 100).map fun batch =>
    ⟨mode.requestCode, batch⟩

inductive DhanFeedState where
  | stopped | connecting | subscribing | warming | healthy | stale | backingOff | stopping
  deriving DecidableEq, Repr

inductive DhanMarketStatus where
  | unknown | «open» | closed
  deriving DecidableEq, Repr

/-- A value of a packet's fields. -/
inductive FieldValue where
  | boolean (value : Bool)
  | number (value : Binary64)
  | other
  deriving DecidableEq

/-- A packet as the supervisor reads it. -/
structure FeedPacket where
  responseCode : Nat
  exchangeSegmentCode : Int
  securityId : String
  fields : List (String × FieldValue)
  deriving DecidableEq

def FeedPacket.key (packet : FeedPacket) : FeedKey := (packet.exchangeSegmentCode, packet.securityId)

/-- `_positive_trade_timestamp`, whether there is one: its seconds lie in the calendar. -/
def FeedPacket.positiveTradeTimestamp (packet : FeedPacket) : Bool :=
  match packet.fields.lookup "last_trade_epoch" with
  | some (.number value) =>
      value.IsFinite ∧ 0 < value ∧ Binary64.roundHalfEven (value.toRat * 10 ^ 6) < 253402300800000000
  | _ => false

/-- `_explicit_market_status`. -/
def FeedPacket.explicitMarketStatus (packet : FeedPacket) : Option DhanMarketStatus :=
  match packet.fields.lookup "market_open" with
  | some (.boolean value) => some (if value then .open else .closed)
  | some (.number value) =>
      if value.Equal 1 then some .open else if value.Equal 0 then some .closed else none
  | _ => none

/-- What a supervisor is configured with. -/
structure SupervisorConfig where
  mode : DhanFeedMode
  dataStaleSeconds : Binary64
  positive : dataStaleSeconds.IsFinite ∧ 0 < dataStaleSeconds

/-- The fields behind the lock. -/
structure Supervisor where
  instruments : InstrumentSet
  subscriptionMessages : List SubscriptionMessage
  socket : Option Nat
  state : DhanFeedState
  connected : Bool
  generation : Nat
  readyAt : List (FeedKey × Binary64)
  everComplete : Bool
  packetsReceived : Nat
  packetsRejected : Nat
  tradeTimestampRejections : Nat
  marketStatusPackets : Nat
  reconnectCount : Nat
  consecutiveFailures : Nat
  marketStatus : DhanMarketStatus
  deriving DecidableEq

namespace Supervisor

def new (config : SupervisorConfig) (instruments : InstrumentSet) : Supervisor :=
  ⟨instruments, Brokers.subscriptionMessages config.mode instruments, none, .stopped, false, 0, [], false, 0, 0, 0, 0, 0,
    0, .unknown⟩

def expectedKeys (supervisor : Supervisor) : List FeedKey := supervisor.instruments.items.map DhanFeedInstrument.key

variable (config : SupervisorConfig)

/-- `0 <= now - received_at <= data_stale_seconds`. -/
def Fresh (now receivedAt : Binary64) : Prop :=
  0 ≤ now.sub receivedAt ∧ now.sub receivedAt ≤ config.dataStaleSeconds

instance (now receivedAt : Binary64) : Decidable (Fresh config now receivedAt) := inferInstanceAs (Decidable (_ ∧ _))

/-- `_fresh_ready_keys_locked`. -/
def freshReadyKeys (now : Binary64) (supervisor : Supervisor) : List FeedKey :=
  (supervisor.readyAt.filter fun item => Fresh config now item.2).map Prod.fst

/-- The set of fresh keys is the set of expected ones, on a connection to a market not known to be closed. -/
def Complete (now : Binary64) (supervisor : Supervisor) : Prop :=
  supervisor.connected = true ∧ supervisor.marketStatus ≠ .closed ∧
    (∀ key ∈ supervisor.freshReadyKeys config now, key ∈ supervisor.expectedKeys) ∧
    ∀ key ∈ supervisor.expectedKeys, key ∈ supervisor.freshReadyKeys config now

instance (now : Binary64) (supervisor : Supervisor) : Decidable (supervisor.Complete config now) :=
  inferInstanceAs (Decidable (_ ∧ _ ∧ _ ∧ _))

/-- `_refresh_health_locked`. -/
def refreshHealth (now : Binary64) (supervisor : Supervisor) : Supervisor × Bool :=
  if supervisor.Complete config now then
    ({ supervisor with state := .healthy, everComplete := true, consecutiveFailures := 0 }, true)
  else if supervisor.connected ∧ supervisor.state ∉ [.connecting, .subscribing, .stopping] then
    ({ supervisor with state := if supervisor.everComplete then .stale else .warming }, false)
  else (supervisor, false)

/-- What `health_snapshot` reports as healthy. -/
def healthy (now : Binary64) (supervisor : Supervisor) : Bool := (supervisor.refreshHealth config now).2

/-- `instruments_healthy`, for normalized instruments. -/
def instrumentsHealthy (now : Binary64) (requested : InstrumentSet) (supervisor : Supervisor) : Bool :=
  let refreshed := (supervisor.refreshHealth config now).1
  refreshed.connected ∧ refreshed.marketStatus ≠ .closed ∧
    (∀ item ∈ requested.items, item.key ∈ refreshed.expectedKeys) ∧
    ∀ item ∈ requested.items, item.key ∈ refreshed.freshReadyKeys config now

/-- `_begin_connection_attempt`. -/
def beginConnectionAttempt (supervisor : Supervisor) : Supervisor :=
  { supervisor with
    reconnectCount := if 0 < supervisor.generation then supervisor.reconnectCount + 1 else supervisor.reconnectCount
    state := .connecting
    connected := false
    readyAt := []
    marketStatus := .unknown
    everComplete := false }

/-- `_connected_socket`. -/
def connectedSocket (socket : Nat) (supervisor : Supervisor) : Supervisor :=
  { supervisor with
    socket := some socket
    connected := true
    generation := supervisor.generation + 1
    state := .subscribing }

def reject (supervisor : Supervisor) : Supervisor :=
  { supervisor with packetsRejected := supervisor.packetsRejected + 1 }

/-- A primary packet without a trade timestamp. -/
def rejectTimestamp (supervisor : Supervisor) : Supervisor :=
  { supervisor with
    packetsRejected := supervisor.packetsRejected + 1
    tradeTimestampRejections := supervisor.tradeTimestampRejections + 1 }

/-- The locked section that ends the acceptance of a packet. -/
def recordPacket (packet : FeedPacket) (receivedAt : Binary64) (supervisor : Supervisor) : Supervisor :=
  if packet.key ∉ supervisor.expectedKeys then supervisor.reject
  else
    let readyAt :=
      if packet.responseCode = config.mode.primaryResponseCode then
        Dict.assign packet.key receivedAt supervisor.readyAt
      else supervisor.readyAt
    (refreshHealth config receivedAt { supervisor with
      packetsReceived := supervisor.packetsReceived + 1
      readyAt := readyAt }).1

/-- `_accept_market_status`: a transition invalidates what is ready. -/
def acceptMarketStatus (packet : FeedPacket) (receivedAt : Binary64) (supervisor : Supervisor) : Supervisor :=
  let counted := { supervisor with marketStatusPackets := supervisor.marketStatusPackets + 1 }
  match packet.explicitMarketStatus with
  | none => (refreshHealth config receivedAt counted).1
  | some status =>
      if status = supervisor.marketStatus then (refreshHealth config receivedAt counted).1
      else (refreshHealth config receivedAt { counted with marketStatus := status, readyAt := [] }).1

/-- `_record_failure`. -/
def recordFailure (supervisor : Supervisor) : Supervisor :=
  { supervisor with
    connected := false
    readyAt := []
    everComplete := false
    consecutiveFailures := supervisor.consecutiveFailures + 1 }

/-- `_clear_socket`. -/
def clearSocket (socket : Option Nat) (supervisor : Supervisor) : Supervisor :=
  { supervisor with
    socket := if supervisor.socket = socket then none else supervisor.socket
    connected := false
    readyAt := [] }

/-- The locked section that ends `run_forever`. -/
def finishRun (supervisor : Supervisor) : Supervisor :=
  { supervisor with socket := none, connected := false, readyAt := [], state := .stopped }

/-- The locked section of `stop`. -/
def stopLocked (running : Bool) (supervisor : Supervisor) : Supervisor :=
  { supervisor with
    state := if ¬running ∧ supervisor.socket = none then .stopped else .stopping
    connected := false
    readyAt := [] }

/-- The locked section of `replace_instruments`, for another set. -/
def replaceInstruments (instruments : InstrumentSet) (running : Bool) (supervisor : Supervisor) : Supervisor :=
  { supervisor with
    instruments := instruments
    subscriptionMessages := Brokers.subscriptionMessages config.mode instruments
    readyAt := []
    everComplete := false
    state := if running ∧ supervisor.connected then .warming else supervisor.state }

/-! ### What the sections leave alone -/

section

variable {config} {now : Binary64} {supervisor : Supervisor}

/-- A refresh writes the state, and what the state summarizes. -/
theorem refreshHealth_cases (config : SupervisorConfig) (now : Binary64) (supervisor : Supervisor) :
    ∃ state everComplete failures, (supervisor.refreshHealth config now).1 = { supervisor with
      state := state, everComplete := everComplete, consecutiveFailures := failures } := by
  unfold refreshHealth
  by_cases hcomplete : supervisor.Complete config now
  · rw [if_pos hcomplete]
    exact ⟨_, _, _, rfl⟩
  · rw [if_neg hcomplete]
    by_cases hsettled : supervisor.connected ∧ supervisor.state ∉ [.connecting, .subscribing, .stopping]
    · rw [if_pos hsettled]
      exact ⟨_, _, _, rfl⟩
    · rw [if_neg hsettled]
      exact ⟨_, _, _, rfl⟩

@[simp] theorem refreshHealth_connected :
    (supervisor.refreshHealth config now).1.connected = supervisor.connected := by
  obtain ⟨_, _, _, heq⟩ := refreshHealth_cases config now supervisor
  rw [heq]

@[simp] theorem refreshHealth_readyAt :
    (supervisor.refreshHealth config now).1.readyAt = supervisor.readyAt := by
  obtain ⟨_, _, _, heq⟩ := refreshHealth_cases config now supervisor
  rw [heq]

@[simp] theorem refreshHealth_marketStatus :
    (supervisor.refreshHealth config now).1.marketStatus = supervisor.marketStatus := by
  obtain ⟨_, _, _, heq⟩ := refreshHealth_cases config now supervisor
  rw [heq]

@[simp] theorem refreshHealth_instruments :
    (supervisor.refreshHealth config now).1.instruments = supervisor.instruments := by
  obtain ⟨_, _, _, heq⟩ := refreshHealth_cases config now supervisor
  rw [heq]

@[simp] theorem refreshHealth_subscriptionMessages :
    (supervisor.refreshHealth config now).1.subscriptionMessages = supervisor.subscriptionMessages := by
  obtain ⟨_, _, _, heq⟩ := refreshHealth_cases config now supervisor
  rw [heq]

@[simp] theorem refreshHealth_socket :
    (supervisor.refreshHealth config now).1.socket = supervisor.socket := by
  obtain ⟨_, _, _, heq⟩ := refreshHealth_cases config now supervisor
  rw [heq]

theorem healthy_iff : supervisor.healthy config now = true ↔ supervisor.Complete config now := by
  unfold healthy refreshHealth
  split_ifs with hcomplete <;> simp [hcomplete]

theorem mem_freshReadyKeys {key : FeedKey} : key ∈ supervisor.freshReadyKeys config now ↔
    ∃ receivedAt, (key, receivedAt) ∈ supervisor.readyAt ∧ Fresh config now receivedAt := by
  simp [freshReadyKeys]

theorem expectedKeys_ne_nil (supervisor : Supervisor) : supervisor.expectedKeys ≠ [] := by
  simpa [expectedKeys] using supervisor.instruments.nonempty

/-- Recording an accepted packet keeps what is ready, or adds the packet's key when the packet is primary. -/
theorem recordPacket_readyAt (packet : FeedPacket) (receivedAt : Binary64) :
    (supervisor.recordPacket config packet receivedAt).readyAt = supervisor.readyAt ∨
      packet.key ∈ supervisor.expectedKeys ∧ packet.responseCode = config.mode.primaryResponseCode ∧
        (supervisor.recordPacket config packet receivedAt).readyAt =
          Dict.assign packet.key receivedAt supervisor.readyAt := by
  unfold recordPacket
  by_cases hexpected : packet.key ∈ supervisor.expectedKeys
  · rw [if_neg (not_not.mpr hexpected), refreshHealth_readyAt]
    by_cases hprimary : packet.responseCode = config.mode.primaryResponseCode
    · exact .inr ⟨hexpected, hprimary, if_pos hprimary⟩
    · exact .inl (if_neg hprimary)
  · rw [if_pos hexpected]
    exact .inl rfl

@[simp] theorem recordPacket_connected (packet : FeedPacket) (receivedAt : Binary64) :
    (supervisor.recordPacket config packet receivedAt).connected = supervisor.connected := by
  unfold recordPacket
  split_ifs <;> simp [reject]

@[simp] theorem recordPacket_marketStatus (packet : FeedPacket) (receivedAt : Binary64) :
    (supervisor.recordPacket config packet receivedAt).marketStatus = supervisor.marketStatus := by
  unfold recordPacket
  split_ifs <;> simp [reject]

@[simp] theorem recordPacket_instruments (packet : FeedPacket) (receivedAt : Binary64) :
    (supervisor.recordPacket config packet receivedAt).instruments = supervisor.instruments := by
  unfold recordPacket
  split_ifs <;> simp [reject]

@[simp] theorem recordPacket_subscriptionMessages (packet : FeedPacket) (receivedAt : Binary64) :
    (supervisor.recordPacket config packet receivedAt).subscriptionMessages = supervisor.subscriptionMessages := by
  unfold recordPacket
  split_ifs <;> simp [reject]

@[simp] theorem recordPacket_socket (packet : FeedPacket) (receivedAt : Binary64) :
    (supervisor.recordPacket config packet receivedAt).socket = supervisor.socket := by
  unfold recordPacket
  split_ifs <;> simp [reject]

@[simp] theorem acceptMarketStatus_connected (packet : FeedPacket) (receivedAt : Binary64) :
    (supervisor.acceptMarketStatus config packet receivedAt).connected = supervisor.connected := by
  unfold acceptMarketStatus
  split
  · simp
  · split_ifs <;> simp

@[simp] theorem acceptMarketStatus_instruments (packet : FeedPacket) (receivedAt : Binary64) :
    (supervisor.acceptMarketStatus config packet receivedAt).instruments = supervisor.instruments := by
  unfold acceptMarketStatus
  split
  · simp
  · split_ifs <;> simp

@[simp] theorem acceptMarketStatus_subscriptionMessages (packet : FeedPacket) (receivedAt : Binary64) :
    (supervisor.acceptMarketStatus config packet receivedAt).subscriptionMessages =
      supervisor.subscriptionMessages := by
  unfold acceptMarketStatus
  split
  · simp
  · split_ifs <;> simp

@[simp] theorem acceptMarketStatus_socket (packet : FeedPacket) (receivedAt : Binary64) :
    (supervisor.acceptMarketStatus config packet receivedAt).socket = supervisor.socket := by
  unfold acceptMarketStatus
  split
  · simp
  · split_ifs <;> simp

/-- A status packet without an explicit status changes neither the status nor what is ready. -/
theorem acceptMarketStatus_none {packet : FeedPacket} (receivedAt : Binary64)
    (h : packet.explicitMarketStatus = none) :
    (supervisor.acceptMarketStatus config packet receivedAt).marketStatus = supervisor.marketStatus ∧
      (supervisor.acceptMarketStatus config packet receivedAt).readyAt = supervisor.readyAt := by
  simp [acceptMarketStatus, h]

/-- An explicit status is the new status, and empties what is ready when it is another one. -/
theorem acceptMarketStatus_some {packet : FeedPacket} (receivedAt : Binary64) {status : DhanMarketStatus}
    (h : packet.explicitMarketStatus = some status) :
    (supervisor.acceptMarketStatus config packet receivedAt).marketStatus = status ∧
      (supervisor.acceptMarketStatus config packet receivedAt).readyAt =
        if status = supervisor.marketStatus then supervisor.readyAt else [] := by
  by_cases hsame : status = supervisor.marketStatus
  · simp [acceptMarketStatus, h, hsame]
  · simp [acceptMarketStatus, h, hsame]

end

end Supervisor

end TecoQuant.Brokers
