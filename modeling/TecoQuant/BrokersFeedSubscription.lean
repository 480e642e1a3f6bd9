import TecoQuant.BrokersFeedReplacement

/-! No subscription change is lost. A receive loop on a socket that no replacement closes has sent the messages of
the current set, and a replacement whose close ends a send or a receive leads to a new attempt at once. -/

namespace TecoQuant.Brokers

/-- The published socket that a phase has still to clear. -/
def LoopPhase.uncleared : LoopPhase → Option Nat
  | .raising socket _ | .restarting socket _ | .failing socket _ | .counting socket _ | .clearing socket _ _ => socket
  | phase => phase.connection

/-- The socket of a phase whose failure still asks for the restart event. -/
def LoopPhase.restartable : LoopPhase → Option Nat
  | .raising socket _ => socket
  | phase => phase.connection

/-- The socket of a phase before its publication. -/
def LoopPhase.unpublished : LoopPhase → Option Nat
  | .connectReturned socket | .publishing socket => some socket
  | _ => none

/-- Whether a failure that a replacement's close caused is on its way to a new attempt. -/
def LoopPhase.restarts : LoopPhase → Bool
  | .failing _ replaced | .counting _ replaced | .backingOff replaced => !replaced
  | .clearing _ requestedRestart replaced | .settling requestedRestart replaced => requestedRestart || !replaced
  | _ => true

/-- The loop's own steps, the others being its callers'. -/
def FeedLoop.Event.ofLoop : FeedLoop.Event → Bool
  | .start | .runForever | .stopRequest | .stopLocked _ | .stopCloses _ | .replace _ | .replaceCloses _
  | .health _ => false
  | _ => true

/-- The loop's own steps from a failure that a replacement's close caused to the next attempt. -/
def LoopPhase.stepsToAttempt : LoopPhase → Nat
  | .raising _ replaced => if replaced then 6 else 0
  | .restarting _ replaced => if replaced then 5 else 0
  | .clearing _ requestedRestart replaced => if requestedRestart && replaced then 4 else 0
  | .settling requestedRestart replaced => if requestedRestart && replaced then 3 else 0
  | .top => 2
  | .attempting => 1
  | _ => 0

/-- The loop's next step towards the attempt. -/
def LoopPhase.nextStep : LoopPhase → FeedLoop.Event
  | .raising _ _ => .readRestart
  | .restarting _ _ => .clearRestart
  | .clearing _ _ _ => .clear
  | .settling _ _ => .settle
  | .top => .enter
  | _ => .attempt

/-- An attempt, a counted failure and a backoff end a turn of the loop. -/
def LogEntry.endsTurn : LogEntry → Bool
  | .attempted | .failed | .waited => true
  | _ => false

namespace FeedLoop

variable {config : SupervisorConfig} {s s' t : FeedLoop} {event : Event}

/-- A replacement has captured the socket. -/
def Captured (s : FeedLoop) (socket : Nat) : Prop := socket ∈ s.replaceClosing ∨ socket ∈ s.replaceClosed

/-- The sockets: the published one is the phase's, and a new one is unknown to every replacement. -/
@[mk_iff]
structure Owned (s : FeedLoop) : Prop where
  published : ∀ socket, s.phase.connection = some socket → s.supervisor.socket = some socket
  uncleared : ∀ socket, s.supervisor.socket = some socket → s.phase.uncleared = some socket
  known : ∀ socket, s.supervisor.socket = some socket ∨ s.phase.unpublished = some socket ∨ s.Captured socket →
    socket < s.sockets
  unpublished : ∀ socket, s.phase.unpublished = some socket → s.supervisor.socket = none ∧ ¬s.Captured socket

theorem Owned.new (config : SupervisorConfig) (instruments : InstrumentSet) :
    (FeedLoop.new config instruments).Owned := by
  constructor <;> simp [FeedLoop.new, Supervisor.new, LoopPhase.connection, LoopPhase.unpublished, Captured]

theorem Owned.socket_eq_none (h : s.Owned) (hphase : s.phase.uncleared = none) : s.supervisor.socket = none := by
  by_contra hsocket
  obtain ⟨socket, hsocket⟩ := Option.ne_none_iff_exists'.mp hsocket
  cases hphase.symm.trans (h.uncleared socket hsocket)

theorem uncleared_eq_none_of_not_running (h : ¬s.running = true) : s.phase.uncleared = none := by
  unfold running at h
  cases hphase : s.phase <;> simp_all [LoopPhase.uncleared, LoopPhase.connection]

/-- A phase of the loop's `try` holds its connection, or a socket it has not published. -/
theorem tried_cases {phase : LoopPhase} {socket : Option Nat} (h : phase.tried = some socket) :
    phase.uncleared = socket ∧ phase.restartable = socket ∨ phase.uncleared = none ∧ phase.unpublished = socket := by
  cases phase <;> simp_all [LoopPhase.tried, LoopPhase.uncleared, LoopPhase.restartable, LoopPhase.connection,
    LoopPhase.unpublished]

theorem Owned.step (h : s.Owned) (hstep : s.step config event = some s') : s'.Owned := by
  have hnone := h.socket_eq_none
  obtain ⟨published, uncleared, known, unpublished⟩ := h
  cases event
  case lookup =>
    simp only [FeedLoop.step] at hstep
    split at hstep
    · rename_i socket packet packets receivedAt hphase
      cases hstep
      obtain ⟨supervisor, phase, log, heq, hsocket, -, -, hcases⟩ :=
        lookup_cases config s socket packet packets receivedAt
      rw [heq, owned_iff]
      grind -ring -linarith -ac [LoopPhase.connection, LoopPhase.uncleared, LoopPhase.unpublished, Captured]
    · cases hstep
  case runForever =>
    simp only [FeedLoop.step] at hstep
    split_ifs at hstep with hrunning
    cases hstep
    have hsocket := hnone (uncleared_eq_none_of_not_running hrunning)
    rw [owned_iff]
    grind -ring -linarith -ac [LoopPhase.connection, LoopPhase.uncleared, LoopPhase.unpublished, Captured]
  case fail =>
    simp only [FeedLoop.step] at hstep
    split at hstep
    · rename_i socket htried
      cases hstep
      have hcases := tried_cases htried
      rw [owned_iff]
      grind -ring -linarith -ac [LoopPhase.connection, LoopPhase.uncleared, LoopPhase.unpublished, Captured]
    · cases hstep
  all_goals
    simp only [FeedLoop.step] at hstep
    try split at hstep
    all_goals try cases hstep
    all_goals
      rw [owned_iff]
      grind -ring -linarith -ac [LoopPhase.connection, LoopPhase.uncleared, LoopPhase.unpublished, Captured,
        FeedLoop.record, Supervisor.beginConnectionAttempt, Supervisor.connectedSocket, Supervisor.reject,
        Supervisor.recordFailure, Supervisor.clearSocket,
        Supervisor.finishRun, Supervisor.stopLocked,
        Supervisor.replaceInstruments, Supervisor.refreshHealth_socket, Supervisor.recordPacket_socket]

/-! ### The restart event -/

/-- The use of a socket that a replacement captured finds the restart event set. -/
def Flagged (s : FeedLoop) : Prop :=
  ∀ socket, s.phase.restartable = some socket → s.Captured socket → s.restartEvent = true

theorem running_of_restartable {socket : Nat} (h : s.phase.restartable = some socket) : s.running = true := by
  unfold running
  cases hphase : s.phase <;> simp_all [LoopPhase.restartable, LoopPhase.connection]

theorem Flagged.step (howned : s.Owned) (h : s.Flagged) (hstep : s.step config event = some s') : s'.Flagged := by
  obtain ⟨-, -, -, unpublished⟩ := howned
  have hrunning : ∀ socket, s.phase.restartable = some socket → s.running = true :=
    fun _ => running_of_restartable
  cases event
  case lookup =>
    simp only [FeedLoop.step] at hstep
    split at hstep
    · rename_i socket packet packets receivedAt hphase
      cases hstep
      obtain ⟨supervisor, phase, log, heq, -, -, hcases⟩ := lookup_cases config s socket packet packets receivedAt
      rw [heq]
      grind -ring -linarith -ac [Flagged, LoopPhase.connection, LoopPhase.restartable, Captured]
    · cases hstep
  case fail =>
    simp only [FeedLoop.step] at hstep
    split at hstep
    · rename_i socket htried
      cases hstep
      have hcases := tried_cases htried
      grind -ring -linarith -ac [Flagged, LoopPhase.connection, LoopPhase.restartable, Captured]
    · cases hstep
  all_goals
    simp only [FeedLoop.step] at hstep
    try split at hstep
    all_goals try cases hstep
    all_goals grind -ring -linarith -ac [Flagged, LoopPhase.connection, LoopPhase.restartable, LoopPhase.unpublished,
      Captured, FeedLoop.record]

/-- A failure caused by a replacement's close is on its way to a new attempt. -/
@[mk_iff]
structure Restarting (s : FeedLoop) : Prop where
  closed : ∀ socket, s.phase = .raising socket true → ∃ closed ∈ s.replaceClosed, socket = some closed
  restarts : s.phase.restarts = true

theorem Restarting.step (hflagged : s.Flagged) (h : s.Restarting) (hstep : s.step config event = some s') :
    s'.Restarting := by
  obtain ⟨closed, restarts⟩ := h
  cases event
  case lookup =>
    simp only [FeedLoop.step] at hstep
    split at hstep
    · rename_i socket packet packets receivedAt hphase
      cases hstep
      obtain ⟨supervisor, phase, log, heq, -, -, hcases⟩ := lookup_cases config s socket packet packets receivedAt
      rw [heq, restarting_iff]
      grind -ring -linarith -ac [LoopPhase.restarts]
    · cases hstep
  case readRestart =>
    simp only [FeedLoop.step] at hstep
    split at hstep
    · rename_i socket replaced hphase
      cases hstep
      -- A socket closed by a replacement was captured by it, and its capture set the event.
      have hflag : replaced = true → s.restartEvent = true := by
        rintro rfl
        obtain ⟨known, hknown, rfl⟩ := closed socket hphase
        exact hflagged known (by rw [hphase]; rfl) (.inr hknown)
      rw [restarting_iff]
      grind -ring -linarith -ac [LoopPhase.restarts]
    · cases hstep
  all_goals
    simp only [FeedLoop.step] at hstep
    try split at hstep
    all_goals try cases hstep
    all_goals
      rw [restarting_iff]
      grind -ring -linarith -ac [LoopPhase.restarts, FeedLoop.record]

/-! ### The messages that were sent -/

/-- The messages are those of the set, and what was sent on a socket that no replacement captured is them. -/
@[mk_iff]
structure Current (config : SupervisorConfig) (s : FeedLoop) : Prop where
  messages : s.supervisor.subscriptionMessages = subscriptionMessages config.mode s.supervisor.instruments
  start : ∀ socket, s.phase = .subscribing socket → s.sent = []
  sending : ∀ socket pending, s.phase = .sending socket pending →
    s.sent ++ pending = s.supervisor.subscriptionMessages ∨ s.Captured socket
  receiving : ∀ socket, s.phase.receiveLoop = some socket →
    s.sent = s.supervisor.subscriptionMessages ∨ s.Captured socket

theorem connection_of_receiveLoop {phase : LoopPhase} {socket : Nat} (h : phase.receiveLoop = some socket) :
    phase.connection = some socket := by
  cases phase <;> simp_all [LoopPhase.receiveLoop, LoopPhase.connection]

theorem Current.step (howned : s.Owned) (h : s.Current config) (hstep : s.step config event = some s') :
    s'.Current config := by
  have published := howned.published
  have hconnection := @connection_of_receiveLoop s.phase
  obtain ⟨messages, start, sending, receiving⟩ := h
  cases event
  case lookup =>
    simp only [FeedLoop.step] at hstep
    split at hstep
    · rename_i socket packet packets receivedAt hphase
      cases hstep
      obtain ⟨supervisor, phase, log, heq, -, hinstruments, hmessages, hcases⟩ :=
        lookup_cases config s socket packet packets receivedAt
      rw [heq, current_iff]
      grind -ring -linarith -ac [LoopPhase.receiveLoop, Captured]
    · cases hstep
  all_goals
    simp only [FeedLoop.step] at hstep
    try split at hstep
    all_goals try cases hstep
    all_goals
      rw [current_iff]
      grind -ring -linarith -ac [LoopPhase.receiveLoop, LoopPhase.connection, Captured, FeedLoop.record,
        Supervisor.beginConnectionAttempt, Supervisor.connectedSocket, Supervisor.reject, Supervisor.recordFailure,
        Supervisor.clearSocket,
        Supervisor.finishRun, Supervisor.stopLocked, Supervisor.replaceInstruments,
        Supervisor.refreshHealth_instruments, Supervisor.recordPacket_instruments,
        Supervisor.refreshHealth_subscriptionMessages, Supervisor.recordPacket_subscriptionMessages]

/-! ### The next attempt -/

/-- The invariant of a run. -/
structure Steady (config : SupervisorConfig) (s : FeedLoop) : Prop where
  owned : s.Owned
  flagged : s.Flagged
  restarting : s.Restarting
  current : s.Current config

theorem Steady.new (config : SupervisorConfig) (instruments : InstrumentSet) :
    (FeedLoop.new config instruments).Steady config where
  owned := .new config instruments
  flagged := by simp [Flagged, FeedLoop.new, LoopPhase.restartable, LoopPhase.connection]
  restarting := by constructor <;> simp [FeedLoop.new, LoopPhase.restarts]
  current := by constructor <;> simp [FeedLoop.new, Supervisor.new, LoopPhase.receiveLoop]

theorem Steady.step (h : s.Steady config) (hstep : s.step config event = some s') : s'.Steady config :=
  ⟨h.owned.step hstep, h.flagged.step h.owned hstep, h.restarting.step h.flagged hstep, h.current.step h.owned hstep⟩

theorem run_steady {instruments : InstrumentSet} {events : List Event} (h : run config instruments events = some s) :
    s.Steady config :=
  Run.attempt_invariant_of_forall (Steady config) (.new config instruments) (fun _ _ _ hs hstep => hs.step hstep) h

/-- A step logs at most one entry. -/
theorem step_log (hstep : s.step config event = some s') : s'.log = s.log ∨ ∃ entry, s'.log = entry :: s.log := by
  cases event
  case lookup =>
    simp only [FeedLoop.step] at hstep
    split at hstep
    · cases hstep
      unfold FeedLoop.lookup
      split_ifs
      · exact .inl rfl
      · split
        · exact .inl rfl
        · exact .inr ⟨_, rfl⟩
      · exact .inl rfl
      · exact .inl rfl
      · exact .inl rfl
    · cases hstep
  all_goals
    simp only [FeedLoop.step] at hstep
    try split at hstep
    all_goals try cases hstep
    all_goals grind -ring -linarith -ac [FeedLoop.record]

theorem attempt_log {events : List Event} (h : Run.attempt (step config) s events = some t) :
    ∃ added, t.log = added ++ s.log := by
  refine Run.attempt_invariant_of_forall (fun t => ∃ added, t.log = added ++ s.log) ⟨[], rfl⟩ ?_ h
  rintro u event u' ⟨added, hadded⟩ hstep
  rcases step_log hstep with hlog | ⟨entry, hlog⟩
  · exact ⟨added, hlog.trans hadded⟩
  · exact ⟨entry :: added, by rw [hlog, hadded, List.cons_append]⟩

theorem running_of_stepsToAttempt (h : 0 < s.phase.stepsToAttempt) : s.running = true := by
  unfold running
  cases hphase : s.phase <;> simp_all [LoopPhase.stepsToAttempt]

theorem tried_of_stepsToAttempt {phase : LoopPhase} (h : 0 < phase.stepsToAttempt) : phase.tried = none := by
  cases phase <;> simp_all [LoopPhase.stepsToAttempt, LoopPhase.tried]

/-- Towards the next attempt a caller leaves the phase alone, and the loop comes one step nearer. -/
theorem Steady.step_towards (h : s.Steady config) {n : Nat} (hphase : s.phase.stepsToAttempt = n + 1)
    (hstop : s.stopEvent = false) (hevent : event ≠ .stopRequest) (hstep : s.step config event = some s') :
    s'.stopEvent = false ∧
      (event.ofLoop = false ∧ s'.phase = s.phase ∧ (s'.log = s.log ∨ s'.log = .replaced :: s.log) ∨
        event.ofLoop = true ∧ s'.phase.stepsToAttempt = n ∧ 0 < n ∧ s'.log = s.log ∨
        event.ofLoop = true ∧ n = 0 ∧ s'.log = .attempted :: s.log) := by
  have hrunning : s.running = true := running_of_stepsToAttempt (by omega)
  have htried : s.phase.tried = none := tried_of_stepsToAttempt (by omega)
  have hflag : ∀ socket, s.phase = .raising socket true → s.restartEvent = true := by
    intro socket hraising
    obtain ⟨known, hknown, rfl⟩ := h.restarting.closed socket hraising
    exact h.flagged known (by rw [hraising]; rfl) (.inr hknown)
  cases event
  all_goals
    simp only [FeedLoop.step] at hstep
    try split at hstep
    all_goals try cases hstep
    all_goals grind -ring -linarith -ac [LoopPhase.stepsToAttempt, Event.ofLoop]

theorem isSome_nextStep (h : 0 < s.phase.stepsToAttempt) :
    s.phase.nextStep.ofLoop = true ∧ (s.step config s.phase.nextStep).isSome = true := by
  cases hphase : s.phase <;> simp_all [LoopPhase.stepsToAttempt, LoopPhase.nextStep, FeedLoop.step, Event.ofLoop]

/-- From `s` to `t` the turn ends by an attempt, or it has not ended and the loop can go on to it. -/
def LeadsToAttempt (config : SupervisorConfig) (s : FeedLoop) (later : List Event) (t : FeedLoop) : Prop :=
  ∃ added : List LogEntry, t.log = added ++ s.log ∧
    ((∃ newer older : List LogEntry, added = newer ++ .attempted :: older ∧ ∀ entry ∈ older, entry.endsTurn = false) ∨
      (∀ entry ∈ added, entry.endsTurn = false) ∧ later.countP Event.ofLoop < s.phase.stepsToAttempt ∧
        ∃ event : Event, event.ofLoop = true ∧ (t.step config event).isSome = true)

theorem Steady.leadsToAttempt {later : List Event} (h : s.Steady config) (hphase : 0 < s.phase.stepsToAttempt)
    (hstop : s.stopEvent = false) (hlater : .stopRequest ∉ later)
    (hrun : Run.attempt (FeedLoop.step config) s later = some t) : s.LeadsToAttempt config later t := by
  induction later generalizing s with
  | nil =>
      cases hrun
      exact ⟨[], rfl, .inr ⟨by simp, by simpa using hphase, _, isSome_nextStep hphase⟩⟩
  | cons event later ih =>
      obtain ⟨hevent, hlater⟩ := not_or.mp (List.mem_cons.not.mp hlater)
      rw [Run.attempt, List.foldlM_cons] at hrun
      obtain ⟨s', hstep, hrun⟩ := Option.bind_eq_some_iff.mp hrun
      obtain ⟨n, hn⟩ : ∃ n, s.phase.stepsToAttempt = n + 1 := ⟨_, (Nat.succ_pred_eq_of_pos hphase).symm⟩
      obtain ⟨hstop', ⟨hcaller, hsame, hlog⟩ | ⟨hloop, hnext, hpos, hlog⟩ | ⟨hloop, rfl, hlog⟩⟩ :=
        h.step_towards hn hstop (Ne.symm hevent) hstep
      · obtain ⟨added, hadded, hcases⟩ := ih (h.step hstep) (hsame ▸ hphase) hstop' hlater hrun
        rw [hsame, ← List.countP_cons_of_neg (by simp [hcaller] : ¬event.ofLoop = true)] at hcases
        rcases hlog with hlog | hlog
        · exact ⟨added, hadded.trans (by rw [hlog]), hcases⟩
        · refine ⟨added ++ [.replaced], by rw [hadded, hlog, List.append_assoc]; rfl, ?_⟩
          rcases hcases with ⟨newer, older, rfl, holder⟩ | ⟨hquiet, hgo⟩
          · refine .inl ⟨newer, older ++ [.replaced], by simp, fun entry hentry => ?_⟩
            rcases List.mem_append.mp hentry with hentry | hentry
            · exact holder entry hentry
            · rw [List.mem_singleton.mp hentry]
              rfl
          · refine .inr ⟨fun entry hentry => ?_, hgo⟩
            rcases List.mem_append.mp hentry with hentry | hentry
            · exact hquiet entry hentry
            · rw [List.mem_singleton.mp hentry]
              rfl
      · obtain ⟨added, hadded, hcases⟩ := ih (h.step hstep) (hnext ▸ hpos) hstop' hlater hrun
        refine ⟨added, hadded.trans (by rw [hlog]), hcases.imp_right ?_⟩
        rintro ⟨hadded, hcount, hgo⟩
        refine ⟨hadded, ?_, hgo⟩
        rw [List.countP_cons_of_pos hloop]
        omega
      · obtain ⟨newer, hnewer⟩ := attempt_log hrun
        exact ⟨newer ++ [.attempted], by rw [hnewer, hlog, List.append_assoc]; rfl, .inl ⟨newer, [], rfl, by simp⟩⟩

/-- A step leaves the set alone, unless it replaces the set. -/
theorem step_instruments (hstep : s.step config event = some s') :
    s'.supervisor.instruments = event.requested s.supervisor.instruments := by
  cases event
  case lookup =>
    simp only [FeedLoop.step] at hstep
    split at hstep
    · rename_i socket packet packets receivedAt hphase
      cases hstep
      obtain ⟨supervisor, phase, log, heq, -, hinstruments, -, -⟩ := lookup_cases config s socket packet packets receivedAt
      rw [heq]
      exact hinstruments
    · cases hstep
  case replace instruments =>
    simp only [FeedLoop.step] at hstep
    split_ifs at hstep with hsame
    · cases hstep
      exact InstrumentSet.ext hsame.symm
    · cases hstep
      rfl
  all_goals
    simp only [FeedLoop.step] at hstep
    try split at hstep
    all_goals try cases hstep
    all_goals
      grind -ring -linarith -ac [Event.requested, FeedLoop.record, Supervisor.beginConnectionAttempt,
        Supervisor.connectedSocket, Supervisor.reject, Supervisor.recordFailure, Supervisor.clearSocket,
        Supervisor.finishRun, Supervisor.stopLocked,
        Supervisor.refreshHealth_instruments, Supervisor.recordPacket_instruments]

/-- The set of a supervisor is the one that was asked for last. -/
theorem run_requested {instruments : InstrumentSet} {events : List Event} (h : run config instruments events = some s) :
    s.supervisor.instruments = requested instruments events := by
  induction events using List.reverseRecOn generalizing s with
  | nil =>
      cases h
      rfl
  | append_singleton events event ih =>
      obtain ⟨before, hbefore, hstep⟩ := Run.attempt_concat_eq_some.mp h
      rw [step_instruments hstep, ih hbefore, requested, requested, List.foldl_append]
      rfl

/-- **No subscription change is lost.** In every run the set is the one that was asked for last, and a receive loop on
a socket that no replacement has closed or is about to close has sent its messages; and when a replacement's close ends
a send or a receive, the turn ends by a new attempt within six steps of the loop unless a stop is requested. -/
theorem run_subscribed (config : SupervisorConfig) (instruments : InstrumentSet) (events : List Event)
    (s : FeedLoop) (hrun : run config instruments events = some s) :
    s.supervisor.instruments = requested instruments events ∧
    (∀ socket, s.phase.receiveLoop = some socket → socket ∉ s.replaceClosed → s.replaceClosing = [] →
      s.sent = subscriptionMessages config.mode (requested instruments events)) ∧
    ∀ socket, s.phase = .raising socket true → s.stopEvent = false → ∀ later t, .stopRequest ∉ later →
      Run.attempt (step config) s later = some t → s.LeadsToAttempt config later t := by
  have hsteady := run_steady hrun
  have hrequested := run_requested hrun
  refine ⟨hrequested, ?_, ?_⟩
  · intro socket hphase hopen hreturned
    rw [← hrequested, ← hsteady.current.messages]
    refine (hsteady.current.receiving socket hphase).resolve_right ?_
    rintro (hclosing | hclosed)
    · rw [hreturned] at hclosing
      cases hclosing
    · exact hopen hclosed
  · intro socket hphase hstop later t hlater ht
    refine hsteady.leadsToAttempt ?_ hstop hlater ht
    rw [hphase]
    exact Nat.succ_pos 5

/-- The set of two instruments is replaced, and the close ends the receive. -/
def sampleRaising : FeedLoop :=
  (run sampleSupervision pairSet (warmUp ++ ([.poll, .replace futureSet, .replaceCloses 0, .ioFail] : List Event))).getD
    (.new sampleSupervision pairSet)

theorem run_subscribed_sample :
    sampleRotated.sent = subscriptionMessages .full futureSet ∧
      (sampleRaising.phase = .raising (some 0) true ∧ sampleRaising.LeadsToAttempt sampleSupervision
        [.readRestart, .clearRestart, .clear, .settle, .enter, .attempt]
        ((Run.attempt (step sampleSupervision) sampleRaising
          [.readRestart, .clearRestart, .clear, .settle, .enter, .attempt]).getD sampleRaising)) := by
  have hphase : sampleRaising.phase = .raising (some 0) true := by decide +kernel
  refine ⟨?_, hphase, ?_⟩
  · exact (run_subscribed sampleSupervision pairSet rotation sampleRotated (by decide +kernel)).2.1 1
      (by decide +kernel) (by decide +kernel) (by decide +kernel)
  · exact (run_subscribed sampleSupervision pairSet
      (warmUp ++ [.poll, .replace futureSet, .replaceCloses 0, .ioFail]) sampleRaising (by decide +kernel)).2.2 (some 0)
      hphase (by decide +kernel) _ _ (by decide) (by decide +kernel)

end FeedLoop

end TecoQuant.Brokers
