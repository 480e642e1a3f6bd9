import Mathlib.Tactic.MkIffOfInductiveProp
import TecoQuant.BrokersFeedLoop

/-! Readiness. In every run a healthy report rests on packets that were accepted and recorded after the
last connection attempt, market-status change and failure, and none follows a `stop` before the next start. -/

namespace TecoQuant.Brokers

/-- A connection attempt, a market-status change, a failure and a replacement reset readiness. -/
def LogEntry.resets : LogEntry → Bool
  | .attempted | .failed | .replaced => true
  | .status _ changed => changed
  | _ => false

/-- The last explicit market status since the connection attempt. -/
def lastStatus : List LogEntry → Option DhanMarketStatus
  | [] | .attempted :: _ => none
  | .status explicit _ :: _ => some explicit
  | _ :: log => lastStatus log

/-- The packet last given to the consumer, and whether it was accepted. -/
def lastConsumed : List LogEntry → Option (FeedPacket × Bool)
  | [] => none
  | .consumed packet accepted :: _ => some (packet, accepted)
  | _ :: log => lastConsumed log

section

variable (config : SupervisorConfig) (Source : FeedPacket → Nat → List LogEntry → Prop)

/-- A primary packet of the key, received at `receivedAt` and from a good source, was recorded on its socket
after whatever reset readiness. -/
def RecordedSince (key : FeedKey) (receivedAt : Binary64) (log : List LogEntry) : Prop :=
  ∃ packet socket, ∃ newer older : List LogEntry, log = newer ++ .recorded packet receivedAt socket :: older ∧
    packet.key = key ∧ packet.responseCode = config.mode.primaryResponseCode ∧ Source packet socket older ∧
    ∀ entry ∈ newer, entry.resets = false

variable {config} {Source} {key : FeedKey} {receivedAt : Binary64} {log : List LogEntry}

theorem RecordedSince.cons {entry : LogEntry} (h : RecordedSince config Source key receivedAt log)
    (hentry : entry.resets = false) : RecordedSince config Source key receivedAt (entry :: log) := by
  obtain ⟨packet, socket, newer, older, rfl, hkey, hprimary, hsource, hnewer⟩ := h
  refine ⟨packet, socket, entry :: newer, older, rfl, hkey, hprimary, hsource, fun other hother => ?_⟩
  rcases List.mem_cons.mp hother with rfl | hother
  · exact hentry
  · exact hnewer other hother

theorem RecordedSince.recorded {packet : FeedPacket} {socket : Nat} (hkey : packet.key = key)
    (hprimary : packet.responseCode = config.mode.primaryResponseCode) (hsource : Source packet socket log) :
    RecordedSince config Source key receivedAt (.recorded packet receivedAt socket :: log) :=
  ⟨packet, socket, [], log, rfl, hkey, hprimary, hsource, by simp⟩

end

/-- The phases of a connection before its receive loop. -/
def LoopPhase.Opening : LoopPhase → Prop
  | .connecting | .connectReturned _ | .publishing _ | .subscribing _ | .sending _ _ => True
  | _ => False

/-- The phases of the receive loop from a receive on. -/
def LoopPhase.Receiving : LoopPhase → Prop
  | .receiving _ | .handling _ _ _ | .consuming _ _ _ _ | .recording _ _ _ _ => True
  | _ => False

namespace FeedLoop

variable {config : SupervisorConfig} {s s' : FeedLoop} {event : Event}

/-! ### What is ready -/

/-- A step clears what is ready, keeps it and logs nothing that resets it, or records a primary packet. -/
theorem step_readyAt (hstep : s.step config event = some s') :
    s'.supervisor.readyAt = [] ∨
      (s'.supervisor.readyAt = s.supervisor.readyAt ∧
        (s'.log = s.log ∨ ∃ entry : LogEntry, entry.resets = false ∧ s'.log = entry :: s.log)) ∨
      ∃ socket packet packets receivedAt, event = .record ∧ s.phase = .recording socket packet packets receivedAt ∧
        packet.key ∈ s.supervisor.expectedKeys ∧ packet.responseCode = config.mode.primaryResponseCode ∧
        s'.supervisor.readyAt = Dict.assign packet.key receivedAt s.supervisor.readyAt ∧
        s'.log = .recorded packet receivedAt socket :: s.log := by
  cases event
  case lookup =>
    simp only [FeedLoop.step] at hstep
    split at hstep
    · rename_i socket packet packets receivedAt hphase
      cases hstep
      unfold FeedLoop.lookup
      split_ifs
      · exact .inr (.inl ⟨rfl, .inl rfl⟩)
      · -- A status that changes is the only one that clears what is ready.
        cases hstatus : packet.explicitMarketStatus with
        | none => exact .inr (.inl ⟨(Supervisor.acceptMarketStatus_none receivedAt hstatus).2, .inl rfl⟩)
        | some status =>
            have hready := (@Supervisor.acceptMarketStatus_some config s.supervisor packet receivedAt status hstatus).2
            by_cases hsame : status = s.supervisor.marketStatus
            · rw [if_pos hsame] at hready
              exact .inr (.inl ⟨hready, .inr ⟨_, by simp [LogEntry.resets, hsame], rfl⟩⟩)
            · rw [if_neg hsame] at hready
              exact .inl hready
      · exact .inr (.inl ⟨rfl, .inl rfl⟩)
      · exact .inr (.inl ⟨rfl, .inl rfl⟩)
      · exact .inr (.inl ⟨rfl, .inl rfl⟩)
    · cases hstep
  case record =>
    simp only [FeedLoop.step] at hstep
    split at hstep
    · rename_i socket packet packets receivedAt hphase
      cases hstep
      unfold FeedLoop.record
      rcases @Supervisor.recordPacket_readyAt config s.supervisor packet receivedAt with
        hkept | ⟨hexpected, hprimary, hready⟩
      · by_cases hexpected : packet.key ∈ s.supervisor.expectedKeys
        · exact .inr (.inl ⟨hkept, .inr ⟨_, rfl, if_pos hexpected⟩⟩)
        · exact .inr (.inl ⟨hkept, .inl (if_neg hexpected)⟩)
      · exact .inr (.inr ⟨socket, packet, packets, receivedAt, rfl, hphase, hexpected, hprimary, hready,
          if_pos hexpected⟩)
    · cases hstep
  all_goals
    simp only [FeedLoop.step] at hstep
    try split at hstep
    all_goals try cases hstep
    all_goals grind -ring -linarith -ac [LogEntry.resets, Supervisor.beginConnectionAttempt, Supervisor.connectedSocket,
      Supervisor.reject, Supervisor.recordFailure, Supervisor.clearSocket, Supervisor.finishRun,
      Supervisor.stopLocked, Supervisor.replaceInstruments, Supervisor.refreshHealth_readyAt]

/-- Every ready instrument owes its readiness to a packet from a good source. -/
def ReadyFrom (config : SupervisorConfig) (Source : FeedPacket → Nat → List LogEntry → Prop) (s : FeedLoop) : Prop :=
  ∀ item ∈ s.supervisor.readyAt, RecordedSince config Source item.1 item.2 s.log

/-- Good sources are kept while the packets that are recorded come from one. -/
theorem ReadyFrom.step {Source : FeedPacket → Nat → List LogEntry → Prop} (h : s.ReadyFrom config Source)
    (hsource : ∀ socket packet packets receivedAt, event = .record →
      s.phase = .recording socket packet packets receivedAt → packet.key ∈ s.supervisor.expectedKeys →
      packet.responseCode = config.mode.primaryResponseCode → Source packet socket s.log)
    (hstep : s.step config event = some s') : s'.ReadyFrom config Source := by
  intro item hitem
  rcases step_readyAt hstep with hready | ⟨hready, hlog | ⟨entry, hentry, hlog⟩⟩ |
    ⟨socket, packet, packets, receivedAt, hevent, hphase, hexpected, hprimary, hready, hlog⟩
  · rw [hready] at hitem
    cases hitem
  · rw [hready] at hitem
    rw [hlog]
    exact h item hitem
  · rw [hready] at hitem
    rw [hlog]
    exact (h item hitem).cons hentry
  · rw [hready] at hitem
    rw [hlog]
    rcases Dict.mem_assign hitem with rfl | hitem
    · exact .recorded rfl hprimary (hsource _ _ _ _ hevent hphase hexpected hprimary)
    · exact (h item hitem).cons rfl

/-- A healthy supervisor has a fresh packet of each expected instrument. -/
theorem ReadyFrom.of_healthy {Source : FeedPacket → Nat → List LogEntry → Prop} {now : Binary64}
    (h : s.ReadyFrom config Source) (hhealthy : s.supervisor.healthy config now = true) :
    ∀ key ∈ s.supervisor.expectedKeys, ∃ receivedAt, RecordedSince config Source key receivedAt s.log ∧
      Supervisor.Fresh config now receivedAt := by
  obtain ⟨-, -, -, hexpected⟩ := Supervisor.healthy_iff.mp hhealthy
  intro key hkey
  obtain ⟨receivedAt, hitem, hfresh⟩ := Supervisor.mem_freshReadyKeys.mp (hexpected key hkey)
  exact ⟨receivedAt, h _ hitem, hfresh⟩

/-! ### The consumer and the market status -/

/-- The market status is the last explicit one, and a packet is recorded after the consumer accepted it. -/
@[mk_iff]
structure Attested (s : FeedLoop) : Prop where
  status : s.supervisor.marketStatus = (lastStatus s.log).getD .unknown
  recording : ∀ socket packet packets receivedAt, s.phase = .recording socket packet packets receivedAt →
    lastConsumed s.log = some (packet, true)

theorem Attested.new (config : SupervisorConfig) (instruments : InstrumentSet) :
    (FeedLoop.new config instruments).Attested := by
  constructor <;> simp [FeedLoop.new, Supervisor.new, lastStatus]

theorem Attested.step (h : s.Attested) (hstep : s.step config event = some s') : s'.Attested := by
  obtain ⟨status, recording⟩ := h
  cases event
  case lookup =>
    simp only [FeedLoop.step] at hstep
    split at hstep
    · rename_i socket packet packets receivedAt hphase
      cases hstep
      unfold FeedLoop.lookup
      split_ifs
      · exact ⟨status, by simp⟩
      · refine ⟨?_, by simp⟩
        cases hstatus : packet.explicitMarketStatus with
        | none => exact (Supervisor.acceptMarketStatus_none receivedAt hstatus).1.trans status
        | some explicit => exact (Supervisor.acceptMarketStatus_some receivedAt hstatus).1
      · exact ⟨status, by simp⟩
      · exact ⟨status, by simp⟩
      · exact ⟨status, by simp⟩
    · cases hstep
  all_goals
    simp only [FeedLoop.step] at hstep
    try split at hstep
    all_goals try cases hstep
    all_goals
      rw [attested_iff]
      grind -ring -linarith -ac [lastStatus, lastConsumed, FeedLoop.record, Supervisor.beginConnectionAttempt,
        Supervisor.connectedSocket, Supervisor.reject, Supervisor.recordFailure, Supervisor.clearSocket,
        Supervisor.finishRun, Supervisor.stopLocked, Supervisor.replaceInstruments,
        Supervisor.refreshHealth_marketStatus, Supervisor.recordPacket_marketStatus]

/-! ### After a stop -/

/-- Nothing is ready on a connection that a stop has overtaken. -/
@[mk_iff]
structure Halting (s : FeedLoop) : Prop where
  requested : 0 < s.currentStops → s.stopEvent = true
  halted : s.halted = true → s.stopEvent = true
  opening : s.phase.Opening → s.supervisor.readyAt = []
  silent : s.halted = true → s.supervisor.connected = true → s.supervisor.readyAt = []
  idle : s.halted = true → s.supervisor.connected = true → ¬s.phase.Receiving

theorem Halting.new (config : SupervisorConfig) (instruments : InstrumentSet) :
    (FeedLoop.new config instruments).Halting := by
  constructor <;> simp [FeedLoop.new, Supervisor.new]

theorem Halting.step (h : s.Halting) (hstep : s.step config event = some s') : s'.Halting := by
  obtain ⟨requested, halted, opening, silent, idle⟩ := h
  cases event
  case lookup =>
    simp only [FeedLoop.step] at hstep
    split at hstep
    · rename_i socket packet packets receivedAt hphase
      cases hstep
      -- A packet is looked up in the receive loop, where no stop has overtaken the connection.
      have hreceiving : s.phase.Receiving := by simp [hphase, LoopPhase.Receiving]
      unfold FeedLoop.lookup
      rw [halting_iff]
      split_ifs
      all_goals grind -ring -linarith -ac [LoopPhase.Opening, LoopPhase.Receiving, Supervisor.reject,
        Supervisor.rejectTimestamp, Supervisor.acceptMarketStatus_connected]
    · cases hstep
  all_goals
    simp only [FeedLoop.step] at hstep
    try split at hstep
    all_goals try cases hstep
    all_goals
      rw [halting_iff]
      grind -ring -linarith -ac [LoopPhase.Opening, LoopPhase.Receiving, FeedLoop.record,
        Supervisor.beginConnectionAttempt, Supervisor.connectedSocket, Supervisor.reject,
        Supervisor.recordFailure, Supervisor.clearSocket, Supervisor.finishRun, Supervisor.stopLocked,
        Supervisor.replaceInstruments, Supervisor.refreshHealth_readyAt, Supervisor.refreshHealth_connected,
        Supervisor.recordPacket_connected]

/-! ### Every run -/

/-- The consumer accepted the packet just before it was recorded. -/
def AcceptedSource (packet : FeedPacket) (_ : Nat) (older : List LogEntry) : Prop :=
  lastConsumed older = some (packet, true)

/-- What a healthy report at `now` rests on. -/
structure Ready (config : SupervisorConfig) (now : Binary64) (s : FeedLoop) : Prop where
  connected : s.supervisor.connected = true
  notClosed : lastStatus s.log ≠ some .closed
  received : ∀ key ∈ s.supervisor.expectedKeys, ∃ receivedAt,
    RecordedSince config AcceptedSource key receivedAt s.log ∧ Supervisor.Fresh config now receivedAt

/-- The invariant of a run. -/
structure Sound (config : SupervisorConfig) (s : FeedLoop) : Prop where
  attested : s.Attested
  halting : s.Halting
  ready : s.ReadyFrom config AcceptedSource

theorem run_sound {instruments : InstrumentSet} {events : List Event} (h : run config instruments events = some s) :
    s.Sound config := by
  refine Run.attempt_invariant_of_forall (Sound config) ⟨.new _ _, .new _ _, by simp [ReadyFrom, FeedLoop.new,
    Supervisor.new]⟩ (fun s event s' hs hstep => ?_) h
  refine ⟨hs.attested.step hstep, hs.halting.step hstep, hs.ready.step ?_ hstep⟩
  exact fun socket packet packets receivedAt _ hphase _ _ => hs.attested.recording _ _ _ _ hphase

theorem Sound.ready_of_healthy {now : Binary64} (h : s.Sound config)
    (hhealthy : s.supervisor.healthy config now = true) : s.Ready config now := by
  obtain ⟨hconnected, hopen, -, -⟩ := Supervisor.healthy_iff.mp hhealthy
  refine ⟨hconnected, fun hclosed => hopen ?_, h.ready.of_healthy hhealthy⟩
  rw [h.attested.status, hclosed]
  rfl

theorem Sound.not_healthy {now : Binary64} (h : s.Sound config) (hhalted : s.halted = true) :
    s.supervisor.healthy config now = false := by
  by_contra hhealthy
  obtain ⟨hconnected, -, -, hexpected⟩ := Supervisor.healthy_iff.mp (Bool.not_eq_false _ ▸ hhealthy)
  obtain ⟨key, hkey⟩ := List.exists_mem_of_ne_nil _ s.supervisor.expectedKeys_ne_nil
  obtain ⟨receivedAt, hitem, -⟩ := Supervisor.mem_freshReadyKeys.mp (hexpected key hkey)
  rw [h.halting.silent hhalted hconnected] at hitem
  cases hitem

/-- **Readiness.** In every run, whenever the supervisor reports healthy at `now`, it is connected to a market
that was not last said to be closed and has a fresh packet of each expected instrument, accepted and recorded
after the last attempt, market-status change and failure; after a stop it reports nothing until a new start. -/
theorem run_ready (config : SupervisorConfig) (instruments : InstrumentSet) (events : List Event) (s : FeedLoop)
    (hrun : run config instruments events = some s) (now : Binary64) :
    (s.supervisor.healthy config now = true → s.Ready config now) ∧
      (s.halted = true → s.supervisor.healthy config now = false) :=
  ⟨(run_sound hrun).ready_of_healthy, (run_sound hrun).not_healthy⟩

/-- The loop that has recorded a packet of its only instrument at `3`. -/
def sampleReady : FeedLoop :=
  (run sampleSupervision futureSet (warmUp ++ accept futureTick 3)).getD (.new sampleSupervision futureSet)

theorem run_sampleReady :
    run sampleSupervision futureSet (warmUp ++ accept futureTick 3) = some sampleReady := by decide +kernel

theorem run_ready_sample : sampleReady.supervisor.healthy sampleSupervision 10 = true ∧
    sampleReady.Ready sampleSupervision 10 := by
  have hhealthy : sampleReady.supervisor.healthy sampleSupervision 10 = true := by decide +kernel
  exact ⟨hhealthy, (run_ready _ _ _ _ run_sampleReady 10).1 hhealthy⟩

end FeedLoop

end TecoQuant.Brokers
