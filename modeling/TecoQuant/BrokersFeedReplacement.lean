import TecoQuant.BrokersFeedReadiness

/-! A replaced subscription. In every run in which no packet is recorded on a socket that a replacement has
superseded, a new set becomes healthy only by packets of a connection made after the replacement; a packet in
flight while the set is replaced breaks it. -/

namespace TecoQuant.Brokers

/-- A replacement came after the last connection was published. -/
def superseded : List LogEntry → Bool
  | .replaced :: _ => true
  | [] | .published _ :: _ => false
  | _ :: log => superseded log

/-- The socket that was published last. -/
def lastPublished : List LogEntry → Option Nat
  | [] => none
  | .published socket :: _ => some socket
  | _ :: log => lastPublished log

/-- The socket that was published last, once its subscriptions were sent. -/
def lastSubscribed : List LogEntry → Option Nat
  | [] | .published _ :: _ => none
  | .subscribed socket :: log => if lastPublished log = some socket then some socket else none
  | _ :: log => lastSubscribed log

/-- The connection was published and subscribed after the last replacement, and none was published since. -/
def EstablishedSource (_ : FeedPacket) (socket : Nat) (log : List LogEntry) : Prop :=
  ∃ newer between older : List LogEntry, log = newer ++ .subscribed socket :: (between ++ .published socket :: older) ∧
    ∀ entry ∈ newer ++ between, entry ≠ .replaced ∧ ∀ other, entry ≠ .published other

variable {log : List LogEntry} {socket : Nat}

theorem exists_published (h : lastPublished log = some socket) (hcurrent : superseded log = false) :
    ∃ newer older : List LogEntry, log = newer ++ .published socket :: older ∧
      ∀ entry ∈ newer, entry ≠ .replaced ∧ ∀ other, entry ≠ .published other := by
  induction log with
  | nil => cases h
  | cons entry log ih =>
      cases entry
      case published =>
        cases h
        exact ⟨[], log, rfl, by simp⟩
      case replaced => cases hcurrent
      all_goals
        obtain ⟨newer, older, rfl, hnewer⟩ := ih h hcurrent
        refine ⟨_ :: newer, older, rfl, fun entry hentry => ?_⟩
        rcases List.mem_cons.mp hentry with rfl | hentry
        · simp
        · exact hnewer entry hentry

theorem EstablishedSource.of_lastSubscribed (packet : FeedPacket) (h : lastSubscribed log = some socket)
    (hcurrent : superseded log = false) : EstablishedSource packet socket log := by
  induction log with
  | nil => cases h
  | cons entry log ih =>
      cases entry
      case published => cases h
      case replaced => cases hcurrent
      case subscribed other =>
        have hpublished : lastPublished log = some other := by
          by_contra hother
          simp [lastSubscribed, hother] at h
        obtain rfl : other = socket := by simpa [lastSubscribed, hpublished] using h
        obtain ⟨between, older, rfl, hbetween⟩ := exists_published hpublished hcurrent
        exact ⟨[], between, older, rfl, hbetween⟩
      all_goals
        obtain ⟨newer, between, older, rfl, hentries⟩ := ih h hcurrent
        refine ⟨_ :: newer, between, older, rfl, fun entry hentry => ?_⟩
        rcases List.mem_cons.mp hentry with rfl | hentry
        · simp
        · exact hentries entry hentry

theorem superseded_append {newer : List LogEntry}
    (h : ∀ entry ∈ newer, entry ≠ .replaced ∧ ∀ other, entry ≠ .published other) :
    superseded (newer ++ log) = superseded log := by
  induction newer with
  | nil => rfl
  | cons entry newer ih =>
      have hrest := ih fun other hother => h other (List.mem_cons_of_mem _ hother)
      obtain ⟨hreplaced, hpublished⟩ := h entry List.mem_cons_self
      rw [List.cons_append, ← hrest]
      cases entry
      case replaced => exact absurd rfl hreplaced
      case published other => exact absurd rfl (hpublished other)
      all_goals rfl

theorem EstablishedSource.superseded_eq {packet : FeedPacket} (h : EstablishedSource packet socket log) :
    superseded log = false := by
  obtain ⟨newer, between, older, rfl, hentries⟩ := h
  have hbetween := @superseded_append (.published socket :: older) _
    fun entry hentry => hentries entry (List.mem_append_right newer hentry)
  rw [superseded_append fun entry hentry => hentries entry (List.mem_append_left between hentry)]
  exact hbetween

theorem superseded_append_of_not_resets {newer : List LogEntry} (h : ∀ entry ∈ newer, entry.resets = false)
    (hlog : superseded log = false) : superseded (newer ++ log) = false := by
  induction newer with
  | nil => exact hlog
  | cons entry newer ih =>
      have hrest := ih fun other hother => h other (List.mem_cons_of_mem _ hother)
      cases entry
      case replaced => exact absurd (h _ List.mem_cons_self) (by simp [LogEntry.resets])
      case published => rfl
      all_goals exact hrest

/-- What was recorded from an established connection was not superseded since. -/
theorem RecordedSince.superseded_eq {config : SupervisorConfig} {key : FeedKey} {receivedAt : Binary64}
    (h : RecordedSince config EstablishedSource key receivedAt log) : superseded log = false := by
  obtain ⟨packet, socket, newer, older, rfl, -, -, hsource, hnewer⟩ := h
  exact superseded_append_of_not_resets hnewer hsource.superseded_eq

/-- The socket of a connection from its publication to the end of its receive loop. -/
def LoopPhase.connection : LoopPhase → Option Nat
  | .subscribing socket | .sending socket _ => some socket
  | .polling socket | .receiving socket | .handling socket _ _ | .consuming socket _ _ _
  | .recording socket _ _ _ => some socket
  | _ => none

/-- The socket of the receive loop. -/
def LoopPhase.receiveLoop : LoopPhase → Option Nat
  | .polling socket | .receiving socket | .handling socket _ _ | .consuming socket _ _ _
  | .recording socket _ _ _ => some socket
  | _ => none

namespace FeedLoop

variable {config : SupervisorConfig} {s s' : FeedLoop} {event : Event}

/-- The connection in use is the one that was published last, and its receive loop follows its subscription. -/
@[mk_iff]
structure Linked (s : FeedLoop) : Prop where
  published : ∀ socket, s.phase.connection = some socket → lastPublished s.log = some socket
  subscribed : ∀ socket, s.phase.receiveLoop = some socket → lastSubscribed s.log = some socket

theorem Linked.new (config : SupervisorConfig) (instruments : InstrumentSet) :
    (FeedLoop.new config instruments).Linked := by
  constructor <;> simp [FeedLoop.new, LoopPhase.connection, LoopPhase.receiveLoop]

theorem Linked.step (h : s.Linked) (hstep : s.step config event = some s') : s'.Linked := by
  obtain ⟨published, subscribed⟩ := h
  cases event
  all_goals
    simp only [FeedLoop.step] at hstep
    try split at hstep
    all_goals try cases hstep
    all_goals
      rw [linked_iff]
      grind -ring -linarith -ac [LoopPhase.connection, LoopPhase.receiveLoop, lastPublished, lastSubscribed,
        FeedLoop.lookup, FeedLoop.record]

/-- A primary packet of an expected instrument is recorded only while no replacement has superseded the
connection. -/
def recordsCurrent (config : SupervisorConfig) (s : FeedLoop) : Event → Bool
  | .record =>
      match s.phase with
      | .recording _ packet _ _ =>
          packet.key ∉ s.supervisor.expectedKeys || packet.responseCode != config.mode.primaryResponseCode ||
            !superseded s.log
      | _ => true
  | _ => true

/-- What a healthy report at `now` owes to the connection after the last replacement. -/
structure Established (config : SupervisorConfig) (now : Binary64) (s : FeedLoop) : Prop where
  current : superseded s.log = false
  received : ∀ key ∈ s.supervisor.expectedKeys, ∃ receivedAt,
    RecordedSince config EstablishedSource key receivedAt s.log ∧ Supervisor.Fresh config now receivedAt

theorem ReadyFrom.established {now : Binary64} (h : s.ReadyFrom config EstablishedSource)
    (hhealthy : s.supervisor.healthy config now = true) : s.Established config now := by
  have hreceived := h.of_healthy hhealthy
  obtain ⟨key, hkey⟩ := List.exists_mem_of_ne_nil _ s.supervisor.expectedKeys_ne_nil
  obtain ⟨receivedAt, hrecorded, -⟩ := hreceived key hkey
  exact ⟨hrecorded.superseded_eq, hreceived⟩

/-- **A replaced subscription starts from nothing** in every run that records no packet on a superseded
connection: what reports healthy rests on packets of a connection published and subscribed after the last
replacement. -/
theorem run_established (config : SupervisorConfig) (instruments : InstrumentSet) (events : List Event)
    (hcurrent : Run.each (step config) (recordsCurrent config) (.new config instruments) events = true) :
    ∀ before rest s, events = before ++ rest → run config instruments before = some s →
      ∀ now, s.supervisor.healthy config now = true → s.Established config now := by
  intro before rest s hsplit hrun now hhealthy
  refine ReadyFrom.established ?_ hhealthy
  refine (Run.attempt_invariant_of_each (fun s => s.Linked ∧ s.ReadyFrom config EstablishedSource)
    ⟨.new config instruments, by simp [ReadyFrom, FeedLoop.new, Supervisor.new]⟩ ?_ hcurrent before rest s hsplit hrun).2
  rintro s event s' ⟨hlinked, hready⟩ hgood hstep
  refine ⟨hlinked.step hstep, hready.step ?_ hstep⟩
  rintro socket packet packets receivedAt rfl hphase hexpected hprimary
  refine .of_lastSubscribed packet (hlinked.subscribed socket (by rw [hphase]; rfl)) ?_
  simpa [recordsCurrent, hphase, hexpected, hprimary] using hgood

/-- The set of two instruments is replaced by the future's, and the loop connects again. -/
def rotation : List Event :=
  warmUp ++ ([.replace futureSet, .replaceCloses 0, .poll, .ioFail, .readRestart, .clearRestart, .clear, .settle,
    .enter, .attempt, .connected, .checkStop, .publish, .readMessages, .send, .subscribed] : List Event) ++
    accept futureTick 3

def sampleRotated : FeedLoop := (run sampleSupervision pairSet rotation).getD (.new sampleSupervision pairSet)

theorem run_established_rotation : sampleRotated.supervisor.healthy sampleSupervision 10 = true ∧
    sampleRotated.Established sampleSupervision 10 := by
  have hhealthy : sampleRotated.supervisor.healthy sampleSupervision 10 = true := by decide +kernel
  exact ⟨hhealthy, run_established sampleSupervision pairSet rotation (by decide +kernel) rotation [] sampleRotated
    (List.append_nil _).symm (by decide +kernel) 10 hhealthy⟩

/-- The set is replaced between the consumer and the recording of a packet. -/
def inFlight : List Event :=
  warmUp ++ ([.poll, .receive [futureTick] 3, .lookup, .consumed true, .replace futureSet, .record] : List Event)

def sampleSuperseded : FeedLoop := (run sampleSupervision pairSet inFlight).getD (.new sampleSupervision pairSet)

/-- The packet in flight makes the new set healthy on the superseded socket. -/
theorem superseded_healthy : ¬∀ (config : SupervisorConfig) (instruments : InstrumentSet) (events : List Event)
    (s : FeedLoop), run config instruments events = some s → ∀ now, s.supervisor.healthy config now = true →
      s.Established config now := by
  intro h
  have hrun : run sampleSupervision pairSet inFlight = some sampleSuperseded := by decide +kernel
  have hhealthy : sampleSuperseded.supervisor.healthy sampleSupervision 10 = true := by decide +kernel
  have hcurrent := (h _ _ _ _ hrun 10 hhealthy).current
  exact absurd hcurrent (by decide +kernel)

end FeedLoop

end TecoQuant.Brokers
