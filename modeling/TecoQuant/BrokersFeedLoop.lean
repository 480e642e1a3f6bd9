import TecoQuant.BaseRun
import TecoQuant.BrokersFeedSupervisor

/-! The supervisor's threads. The run loop is at one of its phases; callers of `start`, `stop`,
`replace_instruments` and the health readers run their locked sections in between, and close the sockets
they captured later. What the theorems speak about is logged, newest first. -/

namespace TecoQuant.Brokers

/-- Where the thread of `run_forever` is, with its local variables. A failing step knows whether it is the
use of a socket that a replacement closed. -/
inductive LoopPhase where
  | absent
  | starting
  | top
  | attempting
  | connecting
  | connectReturned (socket : Nat)
  | publishing (socket : Nat)
  | subscribing (socket : Nat)
  | sending (socket : Nat) (pending : List SubscriptionMessage)
  | polling (socket : Nat)
  | receiving (socket : Nat)
  | handling (socket : Nat) (packets : List FeedPacket) (receivedAt : Binary64)
  | consuming (socket : Nat) (packet : FeedPacket) (packets : List FeedPacket) (receivedAt : Binary64)
  | recording (socket : Nat) (packet : FeedPacket) (packets : List FeedPacket) (receivedAt : Binary64)
  | raising (socket : Option Nat) (replaced : Bool)
  | restarting (socket : Option Nat) (replaced : Bool)
  | failing (socket : Option Nat) (replaced : Bool)
  | counting (socket : Option Nat) (replaced : Bool)
  | clearing (socket : Option Nat) (requestedRestart replaced : Bool)
  | settling (requestedRestart replaced : Bool)
  | backingOff (replaced : Bool)
  | waiting
  | leaving
  | releasing
  | exited
  deriving DecidableEq

/-- The phases of the loop's `try` whose step can raise, with the socket they hold: the section that begins
an attempt only assigns fields. -/
def LoopPhase.tried : LoopPhase → Option (Option Nat)
  | .connecting => some none
  | .connectReturned socket | .publishing socket | .subscribing socket | .sending socket _ | .polling socket
  | .receiving socket | .handling socket _ _ | .consuming socket _ _ _ | .recording socket _ _ _ =>
      some (some socket)
  | _ => none

/-- What happened. -/
inductive LogEntry where
  | attempted
  | published (socket : Nat)
  | subscribed (socket : Nat)
  | status (explicit : DhanMarketStatus) (changed : Bool)
  | consumed (packet : FeedPacket) (accepted : Bool)
  | recorded (packet : FeedPacket) (receivedAt : Binary64) (socket : Nat)
  | failed
  | waited
  | replaced
  deriving DecidableEq

structure FeedLoop where
  supervisor : Supervisor
  phase : LoopPhase
  stopEvent : Bool
  restartEvent : Bool
  /-- How many sockets there were. -/
  sockets : Nat
  /-- What was sent on the published socket. -/
  sent : List SubscriptionMessage
  /-- The sockets that calls of `replace_instruments` have captured, and those they closed. -/
  replaceClosing : List Nat
  replaceClosed : List Nat
  /-- The sockets that calls of `stop` have captured, and those they closed. -/
  stopClosing : List Nat
  stopClosed : List Nat
  /-- The calls of `stop` before their locked section: those called since the last start, and others. -/
  currentStops : Nat
  earlierStops : Nat
  /-- A `stop` called since the last start has passed its locked section. -/
  halted : Bool
  log : List LogEntry
  deriving DecidableEq

namespace FeedLoop

def new (config : SupervisorConfig) (instruments : InstrumentSet) : FeedLoop :=
  ⟨.new config instruments, .absent, false, false, 0, [], [], [], [], [], 0, 0, false, []⟩

/-- A step of the loop's thread, or of a caller. -/
inductive Event where
  | start
  | acquire
  | runForever
  | enter
  | attempt
  | connected
  | checkStop
  | publish
  | readMessages
  | send
  | subscribed
  | poll
  | receiveTimeout (now : Binary64)
  | receiveRejected
  | receive (packets : List FeedPacket) (now : Binary64)
  | lookup
  | consumed (accepted : Bool)
  | record
  | handled
  | fail
  | ioFail
  | readRestart
  | clearRestart
  | readStop
  | countFailure
  | clear
  | settle
  | backOff
  | wake
  | leave
  | release
  | exit
  | stopRequest
  | stopLocked (current : Bool)
  | stopCloses (socket : Nat)
  | replace (instruments : InstrumentSet)
  | replaceCloses (socket : Nat)
  | health (now : Binary64)
  deriving DecidableEq

variable (config : SupervisorConfig) (s : FeedLoop)

/-- `_run_lock.locked()`. -/
def running : Bool :=
  match s.phase with
  | .absent | .starting | .exited => false
  | _ => true

/-- The socket in use was closed by another thread. -/
def Dead (socket : Nat) : Prop := socket ∈ s.replaceClosed ∨ socket ∈ s.stopClosed

instance (socket : Nat) : Decidable (s.Dead socket) := inferInstanceAs (Decidable (_ ∨ _))

/-- The next packet of a message up to its consumer: a disconnect raises, a status is accepted, an
unexpected packet and a primary one without a trade timestamp are rejected. -/
def lookup (socket : Nat) (packet : FeedPacket) (packets : List FeedPacket) (receivedAt : Binary64) : FeedLoop :=
  if packet.responseCode = 50 then { s with phase := .raising (some socket) false }
  else if packet.responseCode = 7 then
    { s with
      supervisor := s.supervisor.acceptMarketStatus config packet receivedAt
      phase := .handling socket packets receivedAt
      log :=
        match packet.explicitMarketStatus with
        | none => s.log
        | some status => .status status (status ≠ s.supervisor.marketStatus) :: s.log }
  else if packet.key ∉ s.supervisor.expectedKeys then
    { s with supervisor := s.supervisor.reject, phase := .handling socket packets receivedAt }
  else if packet.responseCode ∈ [2, 4, 8] ∧ packet.positiveTradeTimestamp = false then
    { s with supervisor := s.supervisor.rejectTimestamp, phase := .handling socket packets receivedAt }
  else { s with phase := .consuming socket packet packets receivedAt }

/-- The section that records an accepted packet. -/
def record (socket : Nat) (packet : FeedPacket) (packets : List FeedPacket) (receivedAt : Binary64) : FeedLoop :=
  { s with
    supervisor := s.supervisor.recordPacket config packet receivedAt
    phase := .handling socket packets receivedAt
    log :=
      if packet.key ∈ s.supervisor.expectedKeys then .recorded packet receivedAt socket :: s.log else s.log }

/-- A step, when it is enabled. -/
def step : Event → Option FeedLoop
  | .start =>
      if s.phase = .absent then
        some { s with
          supervisor := { s.supervisor with state := .connecting }
          phase := .starting
          stopEvent := false
          restartEvent := false
          currentStops := 0
          earlierStops := s.earlierStops + s.currentStops
          halted := false }
      else none
  | .acquire => if s.phase = .starting then some { s with phase := .top } else none
  | .runForever => if s.running then none else some { s with phase := .top }
  | .enter =>
      if s.phase = .top then some { s with phase := if s.stopEvent then .leaving else .attempting } else none
  | .attempt =>
      if s.phase = .attempting then
        some { s with
          supervisor := s.supervisor.beginConnectionAttempt
          phase := .connecting
          restartEvent := false
          log := .attempted :: s.log }
      else none
  | .connected =>
      if s.phase = .connecting then
        some { s with phase := .connectReturned s.sockets, sockets := s.sockets + 1 }
      else none
  | .checkStop =>
      match s.phase with
      | .connectReturned socket =>
          some { s with phase := if s.stopEvent then .clearing (some socket) false false else .publishing socket }
      | _ => none
  | .publish =>
      match s.phase with
      | .publishing socket =>
          some { s with
            supervisor := s.supervisor.connectedSocket socket
            phase := .subscribing socket
            restartEvent := false
            sent := []
            log := .published socket :: s.log }
      | _ => none
  | .readMessages =>
      match s.phase with
      | .subscribing socket =>
          some { s with phase := .sending socket s.supervisor.subscriptionMessages }
      | _ => none
  | .send =>
      match s.phase with
      | .sending socket (message :: pending) =>
          if s.Dead socket then none
          else some { s with phase := .sending socket pending, sent := s.sent ++ [message] }
      | _ => none
  | .subscribed =>
      match s.phase with
      | .sending socket [] =>
          some { s with
            supervisor := { s.supervisor with state := .warming }
            phase := .polling socket
            log := .subscribed socket :: s.log }
      | _ => none
  | .poll =>
      match s.phase with
      | .polling socket =>
          some { s with phase := if s.stopEvent then .clearing (some socket) false false else .receiving socket }
      | _ => none
  | .receiveTimeout now =>
      match s.phase with
      | .receiving socket =>
          if s.Dead socket then none
          else some { s with supervisor := (s.supervisor.refreshHealth config now).1, phase := .polling socket }
      | _ => none
  | .receiveRejected =>
      match s.phase with
      | .receiving socket =>
          if s.Dead socket then none else some { s with supervisor := s.supervisor.reject, phase := .polling socket }
      | _ => none
  | .receive packets now =>
      match s.phase with
      | .receiving socket => if s.Dead socket then none else some { s with phase := .handling socket packets now }
      | _ => none
  | .lookup =>
      match s.phase with
      | .handling socket (packet :: packets) receivedAt => some (s.lookup config socket packet packets receivedAt)
      | _ => none
  | .consumed accepted =>
      match s.phase with
      | .consuming socket packet packets receivedAt =>
          let log := .consumed packet accepted :: s.log
          some (if accepted then { s with phase := .recording socket packet packets receivedAt, log := log }
            else { s with
              supervisor := s.supervisor.reject
              phase := .handling socket packets receivedAt
              log := log })
      | _ => none
  | .record =>
      match s.phase with
      | .recording socket packet packets receivedAt => some (s.record config socket packet packets receivedAt)
      | _ => none
  | .handled =>
      match s.phase with
      | .handling socket [] _ => some { s with phase := .polling socket }
      | _ => none
  | .fail =>
      match s.phase.tried with
      | some socket => some { s with phase := .raising socket false }
      | none => none
  | .ioFail =>
      match s.phase with
      | .sending socket _ => some { s with phase := .raising (some socket) (socket ∈ s.replaceClosed) }
      | .receiving socket => some { s with phase := .raising (some socket) (socket ∈ s.replaceClosed) }
      | _ => none
  | .readRestart =>
      match s.phase with
      | .raising socket replaced =>
          some { s with phase := if s.restartEvent then .restarting socket replaced else .failing socket replaced }
      | _ => none
  | .clearRestart =>
      match s.phase with
      | .restarting socket replaced =>
          some { s with phase := .clearing socket true replaced, restartEvent := false }
      | _ => none
  | .readStop =>
      match s.phase with
      | .failing socket replaced =>
          some { s with
            phase := if s.stopEvent then .clearing socket false replaced else .counting socket replaced }
      | _ => none
  | .countFailure =>
      match s.phase with
      | .counting socket replaced =>
          some { s with
            supervisor := s.supervisor.recordFailure
            phase := .clearing socket false replaced
            log := .failed :: s.log }
      | _ => none
  | .clear =>
      match s.phase with
      | .clearing socket requestedRestart replaced =>
          some { s with supervisor := s.supervisor.clearSocket socket, phase := .settling requestedRestart replaced }
      | _ => none
  | .settle =>
      match s.phase with
      | .settling requestedRestart replaced =>
          some { s with
            phase := if s.stopEvent then .leaving else if requestedRestart then .top else .backingOff replaced }
      | _ => none
  | .backOff =>
      match s.phase with
      | .backingOff _ =>
          some { s with
            supervisor := { s.supervisor with state := .backingOff }
            phase := .waiting
            log := .waited :: s.log }
      | _ => none
  | .wake => if s.phase = .waiting then some { s with phase := .top } else none
  | .leave =>
      if s.phase = .leaving then some { s with supervisor := s.supervisor.finishRun, phase := .releasing } else none
  | .release => if s.phase = .releasing then some { s with phase := .exited } else none
  | .exit => if s.phase = .exited then some { s with phase := .absent } else none
  | .stopRequest => some { s with stopEvent := true, currentStops := s.currentStops + 1 }
  | .stopLocked current =>
      if (if current then s.currentStops else s.earlierStops) = 0 then none
      else
        some { s with
          supervisor := s.supervisor.stopLocked (s.phase ≠ .absent)
          currentStops := if current then s.currentStops - 1 else s.currentStops
          earlierStops := if current then s.earlierStops else s.earlierStops - 1
          stopClosing := s.supervisor.socket.toList ++ s.stopClosing
          halted := s.halted || current }
  | .stopCloses socket =>
      if socket ∈ s.stopClosing then
        some { s with stopClosing := s.stopClosing.erase socket, stopClosed := socket :: s.stopClosed }
      else none
  | .replace instruments =>
      if instruments.items = s.supervisor.instruments.items then some s
      else
        some { s with
          supervisor := s.supervisor.replaceInstruments config instruments s.running
          restartEvent := s.restartEvent || s.running
          replaceClosing := s.supervisor.socket.toList ++ s.replaceClosing
          log := .replaced :: s.log }
  | .replaceCloses socket =>
      if socket ∈ s.replaceClosing then
        some { s with replaceClosing := s.replaceClosing.erase socket, replaceClosed := socket :: s.replaceClosed }
      else none
  | .health now => some { s with supervisor := (s.supervisor.refreshHealth config now).1 }

/-- The set after an event. -/
def Event.requested (current : InstrumentSet) : Event → InstrumentSet
  | .replace instruments => instruments
  | _ => current

/-- The set that was asked for last. -/
def requested (instruments : InstrumentSet) (events : List Event) : InstrumentSet :=
  events.foldl Event.requested instruments

/-- A run from a new supervisor. -/
def run (config : SupervisorConfig) (instruments : InstrumentSet) (events : List Event) : Option FeedLoop :=
  Run.attempt (step config) (.new config instruments) events

/-- The lookup of a packet leaves the sockets and the set alone, and ends, skips or consumes the packet. -/
theorem lookup_cases (socket : Nat) (packet : FeedPacket) (packets : List FeedPacket) (receivedAt : Binary64) :
    ∃ supervisor phase log, s.lookup config socket packet packets receivedAt =
        { s with supervisor := supervisor, phase := phase, log := log } ∧
      supervisor.socket = s.supervisor.socket ∧ supervisor.instruments = s.supervisor.instruments ∧
      supervisor.subscriptionMessages = s.supervisor.subscriptionMessages ∧
      (phase = .raising (some socket) false ∨ phase = .handling socket packets receivedAt ∨
        phase = .consuming socket packet packets receivedAt) := by
  unfold lookup
  split_ifs
  · exact ⟨_, _, _, rfl, rfl, rfl, rfl, .inl rfl⟩
  · exact ⟨_, _, _, rfl, Supervisor.acceptMarketStatus_socket packet receivedAt,
      Supervisor.acceptMarketStatus_instruments packet receivedAt,
      Supervisor.acceptMarketStatus_subscriptionMessages packet receivedAt, .inr (.inl rfl)⟩
  · exact ⟨_, _, _, rfl, rfl, rfl, rfl, .inr (.inl rfl)⟩
  · exact ⟨_, _, _, rfl, rfl, rfl, rfl, .inr (.inr rfl)⟩
  · exact ⟨_, _, _, rfl, rfl, rfl, rfl, .inr (.inl rfl)⟩

/-- A loop from its start to its first poll, when one message subscribes. -/
def warmUp : List Event :=
  [.start, .acquire, .enter, .attempt, .connected, .checkStop, .publish, .readMessages, .send, .subscribed]

/-- One packet from its receipt to its recording. -/
def accept (packet : FeedPacket) (now : Binary64) : List Event :=
  [.poll, .receive [packet] now, .lookup, .consumed true, .record]

end FeedLoop

/-! ### A supervisor of a future, and of a future and an option -/

def sampleSupervision : SupervisorConfig := ⟨.full, 15, by decide⟩

def sampleFuture : DhanFeedInstrument := ⟨"NSE_FNO", "60001", by decide⟩

def futureSet : InstrumentSet := ⟨[sampleFuture], by decide, by decide, by decide⟩

def sampleOption : DhanFeedInstrument := ⟨"NSE_FNO", "60002", by decide⟩

def pairSet : InstrumentSet := ⟨[sampleFuture, sampleOption], by decide, by decide, by decide⟩

def futureTick : FeedPacket := ⟨8, 2, "60001", [("last_trade_epoch", .number 1770000000)]⟩

end TecoQuant.Brokers
