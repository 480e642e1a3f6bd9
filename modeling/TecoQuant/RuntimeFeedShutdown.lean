import TecoQuant.RuntimeFeedLifecycle

/-! Shutdown of the live feed. A feed is live, held by a callback, or stopped, in every run in which no
callback settles a failed feed while the service is stopping; then no `stop` that returned leaves a feed
behind. -/

namespace TecoQuant.Runtime

namespace FeedService

variable {settings : FeedSettings} {service : FeedService}

/-- `start` changes the service only before its worker runs. -/
theorem start_cases (settings : FeedSettings) (outcome : StartOutcome) (service : FeedService) :
    service.start settings outcome = (service, false) ∨ service.closed = false ∧ service.started = false ∧
      service.start settings outcome =
        ({ service with started := outcome = .started, stopping := false }, true) := by
  unfold start
  by_cases hclosed : service.closed = true
  · exact .inl (if_pos hclosed)
  by_cases hstarted : service.started = true
  · exact .inl (by rw [if_neg hclosed, if_pos hstarted])
  by_cases henabled : settings.dhanLiveEnabled = true
  · by_cases hcredentials : settings.credentials = true
    · refine .inr ⟨by simpa using hclosed, by simpa using hstarted, ?_⟩
      rw [if_neg hclosed, if_neg hstarted, if_neg (not_not.mpr henabled), if_neg (not_not.mpr hcredentials)]
    · exact .inl (by rw [if_neg hclosed, if_neg hstarted, if_neg (not_not.mpr henabled), if_pos hcredentials])
  · exact .inl (by rw [if_neg hclosed, if_neg hstarted, if_pos henabled])

/-- A callback changes the feed only while the service is open. -/
theorem replaceSubscriptions_cases (settings : FeedSettings) (subscriptions : List (String × String))
    (fresh : Feed) (outcome : CreateOutcome) (service : FeedService) :
    (∃ replacement, service.replaceSubscriptions settings subscriptions fresh outcome = (service, replacement) ∧
        (replacement = .ignored ∨ ∃ feed, replacement = .rotated feed)) ∨
      service.stopping = false ∧ service.closed = false ∧
        ((∃ feed, service.liveFeed = some feed ∧
          service.replaceSubscriptions settings subscriptions fresh outcome =
            ({ service with liveFeed := none }, .detached feed)) ∨
        service.liveFeed = none ∧ service.replaceSubscriptions settings subscriptions fresh outcome =
          ({ service with liveFeed := some fresh }, .created fresh)) := by
  unfold replaceSubscriptions
  by_cases hclosed : (service.stopping || service.closed || !settings.credentials) = true
  · exact .inl ⟨_, if_pos hclosed, .inl rfl⟩
  have hopen : service.stopping = false ∧ service.closed = false := by
    simp only [Bool.or_eq_true, not_or, Bool.not_eq_true] at hclosed
    exact hclosed.1
  rw [if_neg hclosed]
  by_cases hempty : subscriptions = []
  · rw [if_pos hempty]
    cases hfeed : service.liveFeed with
    | none => exact .inl ⟨_, rfl, .inl rfl⟩
    | some feed => exact .inr ⟨hopen.1, hopen.2, .inl ⟨feed, rfl, rfl⟩⟩
  · rw [if_neg hempty]
    cases hfeed : service.liveFeed with
    | some feed => exact .inl ⟨_, rfl, .inr ⟨feed, rfl⟩⟩
    | none =>
        by_cases houtcome : outcome = .started
        · exact .inr ⟨hopen.1, hopen.2, .inr ⟨rfl, if_pos houtcome⟩⟩
        · exact .inl ⟨_, if_neg houtcome, .inl rfl⟩

end FeedService

namespace FeedSystem

/-- What a call of `stop` knows where it is. -/
def PhaseSound (s : FeedSystem) : StopPhase → Prop
  | .acquisition captured => captured = s.service.liveFeed
  | .feed captured acquisitionStopped =>
      captured = s.service.liveFeed ∧ (acquisitionStopped = true → s.worker = .ended)
  | .finish acquisitionStopped feedStopped =>
      (acquisitionStopped = true → s.worker = .ended) ∧
        (feedStopped = true → ∀ feed ∈ s.service.liveFeed, feed ∈ s.stoppedFeeds)

/-- A call of `stop` keeps what it knows while the live feed stays and nothing starts the worker. -/
theorem PhaseSound.mono {s t : FeedSystem} {phase : StopPhase} (h : s.PhaseSound phase)
    (hlive : t.service.liveFeed = s.service.liveFeed) (hworker : s.worker = .ended → t.worker = .ended)
    (hstopped : ∀ feed ∈ s.stoppedFeeds, feed ∈ t.stoppedFeeds) : t.PhaseSound phase := by
  cases phase with
  | acquisition => exact h.trans hlive.symm
  | feed => exact ⟨h.1.trans hlive.symm, fun hdone => hworker (h.2 hdone)⟩
  | finish =>
      refine ⟨fun hdone => hworker (h.1 hdone), fun hdone feed hfeed => hstopped feed (h.2 hdone feed ?_)⟩
      rwa [← hlive]

/-- The locks and the handles, in every run. -/
structure Sound (s : FeedSystem) : Prop where
  working : s.worker ≠ .ended → s.service.started = true ∧ s.service.closed = false
  held : ∀ feed ∈ s.worker.held, s.service.liveFeed = none ∧ feed ∈ s.startedFeeds ∧ feed ∉ s.stoppedFeeds
  unsettled : ∀ feed, s.worker = .unsettled feed → feed ∈ s.failedFeeds
  live : ∀ feed ∈ s.service.liveFeed, feed ∈ s.startedFeeds ∧ s.service.started = true ∧
    s.service.closed = false ∧ (s.service.stopping = false → feed ∉ s.stoppedFeeds)
  inside : ∀ phase ∈ s.stopper, s.service.stopping = true ∧ s.service.closed = false ∧ s.PhaseSound phase
  returned : s.stopReturned = true → s.service.closed = true
  fresh : ∀ feed ∈ s.startedFeeds, feed < s.createdFeeds
  stopped : ∀ feed ∈ s.stoppedFeeds, feed ∈ s.startedFeeds
  failed : ∀ feed ∈ s.failedFeeds, feed ∈ s.startedFeeds

theorem Sound.start : Sound .initial := by
  constructor <;> simp [FeedSystem.initial, AcquisitionWorker.held]

variable {settings : FeedSettings} {s s' : FeedSystem}

theorem Sound.of_start {outcome : StartOutcome} (h : s.Sound) (hstep : s.start settings outcome = some s') :
    s'.Sound := by
  obtain ⟨working, held, unsettled, live, inside, returned, fresh, stopped, failed⟩ := h
  unfold FeedSystem.start at hstep
  rcases FeedService.start_cases settings outcome s.service with hsame | ⟨hopen, hidle, hstart⟩
  · rw [hsame] at hstep
    simp only [Bool.false_eq_true, false_and, if_false, Option.ite_none_left_eq_some, Option.some.injEq] at hstep
    obtain ⟨-, rfl⟩ := hstep
    exact ⟨working, held, unsettled, live, inside, returned, fresh, stopped, failed⟩
  · have hended : s.worker = .ended := by
      by_contra hworker
      simp [(working hworker).1] at hidle
    simp only [hstart, true_and] at hstep
    split_ifs at hstep with hstopper houtcome
    all_goals
      cases hstep
      constructor
      all_goals grind -ring -linarith -ac [PhaseSound, AcquisitionWorker.held]

theorem Sound.of_beginStop (h : s.Sound) (hstep : s.beginStop = some s') : s'.Sound := by
  obtain ⟨working, held, unsettled, live, inside, returned, fresh, stopped, failed⟩ := h
  unfold FeedSystem.beginStop FeedService.beginStop at hstep
  split_ifs at hstep with hstopper hclosed
  · cases hstep
    constructor
    all_goals grind -ring -linarith -ac [PhaseSound, AcquisitionWorker.held]
  · cases hstep
    constructor
    all_goals grind -ring -linarith -ac [PhaseSound, AcquisitionWorker.held]

theorem Sound.of_stopAcquisition {outcome : StopOutcome} (h : s.Sound)
    (hstep : s.stopAcquisition outcome = some s') : s'.Sound := by
  obtain ⟨working, held, unsettled, live, inside, returned, fresh, stopped, failed⟩ := h
  unfold FeedSystem.stopAcquisition at hstep
  split at hstep
  · rename_i captured hphase
    obtain ⟨hstopping, hopen, hcaptured⟩ := inside _ hphase
    split_ifs at hstep with hrunning
    cases hstep
    constructor
    all_goals grind -ring -linarith -ac [PhaseSound, AcquisitionWorker.held]
  · cases hstep

theorem Sound.of_stopFeed {outcome : StopOutcome} (h : s.Sound) (hstep : s.stopFeed outcome = some s') :
    s'.Sound := by
  obtain ⟨working, held, unsettled, live, inside, returned, fresh, stopped, failed⟩ := h
  unfold FeedSystem.stopFeed recordStop at hstep
  split at hstep
  · rename_i acquisitionStopped hphase
    obtain ⟨hstopping, hopen, hcaptured, hended⟩ := inside _ hphase
    cases hstep
    constructor
    all_goals grind -ring -linarith -ac [PhaseSound, AcquisitionWorker.held]
  · -- A stop that returned true leaves the captured feed stopped; the lifecycle lock keeps it live till then.
    rename_i feed acquisitionStopped hphase
    obtain ⟨hstopping, hopen, hcaptured, hended⟩ := inside _ hphase
    split_ifs at hstep with houtcome
    all_goals
      cases hstep
      constructor
      all_goals grind -ring -linarith -ac [PhaseSound, AcquisitionWorker.held]
  · cases hstep

theorem Sound.of_finishStop (h : s.Sound) (hstep : s.finishStop = some s') : s'.Sound := by
  obtain ⟨working, held, unsettled, live, inside, returned, fresh, stopped, failed⟩ := h
  unfold FeedSystem.finishStop FeedService.finishStop at hstep
  split at hstep
  · rename_i acquisitionStopped feedStopped hphase
    obtain ⟨hstopping, hopen, hended, hstopped⟩ := inside _ hphase
    cases hstep
    constructor
    all_goals grind -ring -linarith -ac [PhaseSound, AcquisitionWorker.held]
  · cases hstep

theorem Sound.of_subscriptions {set : List (String × String)} {outcome : CreateOutcome} (h : s.Sound)
    (hstep : s.subscriptions settings set outcome = some s') : s'.Sound := by
  obtain ⟨working, held, unsettled, live, inside, returned, fresh, stopped, failed⟩ := h
  unfold FeedSystem.subscriptions at hstep
  split_ifs at hstep with hworker
  rcases FeedService.replaceSubscriptions_cases settings set s.createdFeeds outcome s.service with
    ⟨_, hsame, rfl | ⟨_, rfl⟩⟩ | ⟨hstopping, hclosed, ⟨feed, hfeed, hdetached⟩ | ⟨hfeed, hcreated⟩⟩
  · rw [hsame] at hstep
    cases hstep
    exact ⟨working, held, unsettled, live, inside, returned, fresh, stopped, failed⟩
  · rw [hsame] at hstep
    cases hstep
    exact ⟨working, held, unsettled, live, inside, returned, fresh, stopped, failed⟩
  · rw [hdetached] at hstep
    cases hstep
    constructor
    all_goals grind -ring -linarith -ac [PhaseSound, AcquisitionWorker.held]
  · rw [hcreated] at hstep
    cases hstep
    constructor
    all_goals grind -ring -linarith -ac [PhaseSound, AcquisitionWorker.held]

theorem Sound.of_stopDetached {outcome : StopOutcome} (h : s.Sound)
    (hstep : s.stopDetached outcome = some s') : s'.Sound := by
  obtain ⟨working, held, unsettled, live, inside, returned, fresh, stopped, failed⟩ := h
  unfold FeedSystem.stopDetached recordStop at hstep
  split at hstep
  · rename_i feed hworker
    split_ifs at hstep with houtcome
    all_goals
      cases hstep
      constructor
      case inside =>
        intro phase hphase
        obtain ⟨hstopping, hopen, hknown⟩ := inside phase hphase
        exact ⟨hstopping, hopen, hknown.mono rfl (by simp [hworker]) (by simp +contextual)⟩
      all_goals grind -ring -linarith -ac [AcquisitionWorker.held]
  · cases hstep

theorem Sound.of_restore (h : s.Sound) (hstep : s.restore = some s') : s'.Sound := by
  obtain ⟨working, held, unsettled, live, inside, returned, fresh, stopped, failed⟩ := h
  unfold FeedSystem.restore at hstep
  split at hstep
  · rename_i feed hworker
    cases hstep
    constructor
    case inside =>
      -- Nothing is restored while a call of `stop` holds the lifecycle lock.
      intro phase hphase
      obtain ⟨hstopping, hopen, hknown⟩ := inside phase hphase
      have hsame : s.service.restore feed = s.service := if_neg (by simp [hstopping])
      rw [hsame]
      exact ⟨hstopping, hopen, hknown.mono rfl (by simp [hworker]) fun _ hmem => hmem⟩
    all_goals grind -ring -linarith -ac [FeedService.restore, AcquisitionWorker.held]
  · cases hstep

theorem Sound.of_workerEnds (h : s.Sound) (hstep : s.workerEnds = some s') : s'.Sound := by
  obtain ⟨working, held, unsettled, live, inside, returned, fresh, stopped, failed⟩ := h
  unfold FeedSystem.workerEnds at hstep
  split_ifs at hstep with hworker
  cases hstep
  constructor
  case inside =>
    intro phase hphase
    obtain ⟨hstopping, hopen, hknown⟩ := inside phase hphase
    exact ⟨hstopping, hopen, hknown.mono rfl (fun _ => rfl) fun _ hmem => hmem⟩
  all_goals grind -ring -linarith -ac [AcquisitionWorker.held]

theorem Sound.step {event : FeedEvent} (h : s.Sound) (hstep : s.step settings event = some s') : s'.Sound := by
  cases event with
  | start => exact h.of_start hstep
  | beginStop => exact h.of_beginStop hstep
  | stopAcquisition => exact h.of_stopAcquisition hstep
  | stopFeed => exact h.of_stopFeed hstep
  | finishStop => exact h.of_finishStop hstep
  | subscriptions => exact h.of_subscriptions hstep
  | stopDetached => exact h.of_stopDetached hstep
  | restore => exact h.of_restore hstep
  | workerEnds => exact h.of_workerEnds hstep

theorem run_sound {events : List FeedEvent} (h : run settings events = some s) : s.Sound :=
  Run.attempt_invariant_of_forall Sound .start (fun _ _ _ hs hstep => hs.step hstep) h

/-! ### Feeds are kept -/

/-- Every feed that was started is stopped, live, or held by a callback. -/
def Kept (s : FeedSystem) : Prop :=
  ∀ feed ∈ s.startedFeeds, feed ∈ s.stoppedFeeds ∨ s.service.liveFeed = some feed ∨ s.worker.held = some feed

/-- A step keeps the feeds unless a callback settles a failed feed while the service is stopping. -/
theorem Kept.step {event : FeedEvent} (hsound : s.Sound) (h : s.Kept)
    (hquiet : event = .restore → s.service.stopping = false) (hstep : s.step settings event = some s') :
    s'.Kept := by
  obtain ⟨working, held, unsettled, live, inside, returned, fresh, stopped, failed⟩ := hsound
  cases event with
  | start outcome =>
      simp only [FeedSystem.step, FeedSystem.start] at hstep
      rcases FeedService.start_cases settings outcome s.service with hsame | ⟨hopen, hidle, hstart⟩
      · simp only [hsame] at hstep
        split_ifs at hstep
        all_goals grind -ring -linarith -ac [Kept, AcquisitionWorker.held]
      · simp only [hstart, true_and] at hstep
        split_ifs at hstep
        all_goals grind -ring -linarith -ac [Kept, AcquisitionWorker.held]
  | beginStop => grind -ring -linarith -ac [Kept, FeedSystem.step, FeedSystem.beginStop, FeedService.beginStop]
  | stopAcquisition outcome => grind -ring -linarith -ac [Kept, FeedSystem.step, FeedSystem.stopAcquisition]
  | stopFeed outcome => grind -ring -linarith -ac [Kept, FeedSystem.step, FeedSystem.stopFeed, recordStop]
  | finishStop =>
      simp only [FeedSystem.step, FeedSystem.finishStop, FeedService.finishStop] at hstep
      split at hstep
      · rename_i acquisitionStopped feedStopped hphase
        obtain ⟨-, -, hended, hstopped⟩ := inside _ hphase
        cases hstep
        grind -ring -linarith -ac [Kept, AcquisitionWorker.held]
      · cases hstep
  | subscriptions set outcome =>
      simp only [FeedSystem.step, FeedSystem.subscriptions] at hstep
      split_ifs at hstep with hworker
      rcases FeedService.replaceSubscriptions_cases settings set s.createdFeeds outcome s.service with
        ⟨_, hsame, rfl | ⟨_, rfl⟩⟩ | ⟨hstopping, hclosed, ⟨feed, hfeed, hdetached⟩ | ⟨hfeed, hcreated⟩⟩
      · rw [hsame] at hstep
        cases hstep
        exact h
      · rw [hsame] at hstep
        cases hstep
        exact h
      · rw [hdetached] at hstep
        cases hstep
        grind -ring -linarith -ac [Kept, AcquisitionWorker.held]
      · rw [hcreated] at hstep
        cases hstep
        grind -ring -linarith -ac [Kept, AcquisitionWorker.held]
  | stopDetached outcome =>
      grind -ring -linarith -ac [Kept, FeedSystem.step, FeedSystem.stopDetached, recordStop, AcquisitionWorker.held]
  | restore =>
      have hstopping := hquiet rfl
      grind -ring -linarith -ac [Kept, FeedSystem.step, FeedSystem.restore, FeedService.restore,
        AcquisitionWorker.held]
  | workerEnds => grind -ring -linarith -ac [Kept, FeedSystem.step, FeedSystem.workerEnds, AcquisitionWorker.held]

/-! ### Shutdown -/

/-- A closed service starts no feed. -/
theorem closed_step {event : FeedEvent} (hsound : s.Sound) (hclosed : s.service.closed = true)
    (hstep : s.step settings event = some s') :
    s'.service.closed = true ∧ s'.startedFeeds = s.startedFeeds := by
  have hended : s.worker = .ended := by
    by_contra hworker
    simp [(hsound.working hworker).2] at hclosed
  have hfree : s.stopper = none := by
    by_contra hinside
    obtain ⟨phase, hphase⟩ := Option.ne_none_iff_exists'.mp hinside
    simp [(hsound.inside phase hphase).2.1] at hclosed
  cases event with
  | start outcome =>
      have hsame : s.service.start settings outcome = (s.service, false) := if_pos hclosed
      simp only [step, FeedSystem.start, hsame, hfree] at hstep
      cases hstep
      exact ⟨hclosed, rfl⟩
  | beginStop =>
      have hnone : s.service.beginStop = none := if_pos hclosed
      simp only [step, FeedSystem.beginStop, hnone, hfree] at hstep
      cases hstep
      exact ⟨hclosed, rfl⟩
  | stopAcquisition => simp [step, FeedSystem.stopAcquisition, hfree] at hstep
  | stopFeed => simp [step, FeedSystem.stopFeed, hfree] at hstep
  | finishStop => simp [step, FeedSystem.finishStop, hfree] at hstep
  | subscriptions => simp [step, FeedSystem.subscriptions, hended] at hstep
  | stopDetached => simp [step, FeedSystem.stopDetached, hended] at hstep
  | restore => simp [step, FeedSystem.restore, hended] at hstep
  | workerEnds => simp [step, FeedSystem.workerEnds, hended] at hstep

theorem closed_run {events : List FeedEvent} (hsound : s.Sound) (hclosed : s.service.closed = true)
    (h : Run.attempt (step settings) s events = some s') : s'.startedFeeds = s.startedFeeds := by
  have hrun := Run.attempt_invariant_of_forall
    (fun t => t.Sound ∧ t.service.closed = true ∧ t.startedFeeds = s.startedFeeds) ⟨hsound, hclosed, rfl⟩
    (fun t event t' ⟨ht, hopen, hsame⟩ hstep => by
      obtain ⟨hopen', hsame'⟩ := closed_step ht hopen hstep
      exact ⟨ht.step hstep, hopen', hsame'.trans hsame⟩) h
  exact hrun.2.2

/-- No orphan feed: once a `stop` returned, every feed that was started has stopped and none starts any
more; and a feed that failed to stop is the service's or its callback's, for the next `stop` to capture. -/
structure Safe (settings : FeedSettings) (s : FeedSystem) : Prop where
  stopped : s.stopReturned = true → ∀ feed ∈ s.startedFeeds, feed ∈ s.stoppedFeeds
  quiet : s.stopReturned = true → ∀ events t, Run.attempt (step settings) s events = some t →
    t.startedFeeds = s.startedFeeds
  retained : ∀ feed ∈ s.failedFeeds,
    feed ∈ s.stoppedFeeds ∨ s.service.liveFeed = some feed ∨ s.worker.held = some feed
  retried : ∀ captured acquisitionStopped, s.stopper = some (.acquisition captured) ∨
    s.stopper = some (.feed captured acquisitionStopped) → captured = s.service.liveFeed

theorem Sound.safe (hsound : s.Sound) (h : s.Kept) : s.Safe settings where
  stopped hreturned feed hfeed := by
    have hclosed := hsound.returned hreturned
    rcases h feed hfeed with hstopped | hlive | hheld
    · exact hstopped
    · simp [(hsound.live feed hlive).2.2.1] at hclosed
    · have hrunning : s.worker ≠ .ended := fun hended => by simp [hended, AcquisitionWorker.held] at hheld
      simp [(hsound.working hrunning).2] at hclosed
  quiet hreturned events t ht := closed_run hsound (hsound.returned hreturned) ht
  retained feed hfeed := h feed (hsound.failed feed hfeed)
  retried captured acquisitionStopped hphase := by
    rcases hphase with hphase | hphase
    · exact (hsound.inside _ hphase).2.2
    · exact (hsound.inside _ hphase).2.2.1

/-- No callback settles a failed feed while the service is stopping. -/
def SettlesInTime (settings : FeedSettings) (events : List FeedEvent) : Prop :=
  ∀ before after t, events = before ++ .restore :: after → run settings before = some t →
    t.service.stopping = false

/-- A feed settled while the service is stopping is lost. -/
theorem lost_of_restore (hsound : s.Sound) (hstopping : s.service.stopping = true)
    (hstep : s.restore = some s') : ¬s'.Safe settings := by
  unfold FeedSystem.restore at hstep
  split at hstep
  · rename_i feed hworker
    cases hstep
    intro hsafe
    have hheld : feed ∈ s.worker.held := by rw [hworker]; rfl
    obtain ⟨hnone, -, hrunning⟩ := hsound.held feed hheld
    have hsame : s.service.restore feed = s.service := if_neg (by simp [hstopping])
    rcases hsafe.retained feed (hsound.unsettled feed hworker) with hstopped | hlive | hidle
    · exact hrunning hstopped
    · rw [hsame, hnone] at hlive
      cases hlive
    · cases hidle
  · cases hstep

/-- A run leaves no orphan feed in any of its states exactly when no callback settles a failed feed while
the service is stopping. -/
theorem run_safe_iff (settings : FeedSettings) (events : List FeedEvent)
    (hrun : ∃ s, run settings events = some s) :
    (∀ before after t, events = before ++ after → run settings before = some t → t.Safe settings) ↔
      SettlesInTime settings events := by
  constructor
  · intro hsafe before after t hsplit ht
    obtain ⟨s, hs⟩ := hrun
    obtain ⟨t', ht', -⟩ : ∃ t', run settings (before ++ [.restore]) = some t' ∧
        Run.attempt (step settings) t' after = some s := by
      rw [hsplit, List.append_cons, run, Run.attempt_append] at hs
      exact Option.bind_eq_some_iff.mp hs
    obtain ⟨u, hu, hstep⟩ := Run.attempt_concat_eq_some.mp ht'
    obtain rfl : t = u := Option.some.inj (ht.symm.trans hu)
    by_contra hstopping
    exact lost_of_restore (run_sound ht) (by simpa using hstopping) hstep
      (hsafe (before ++ [.restore]) after t' (by simp [hsplit]) ht')
  · intro hquiet before after t hsplit ht
    have hkept : t.Sound ∧ t.Kept := by
      refine Run.attempt_invariant (fun t => t.Sound ∧ t.Kept) ⟨.start, by simp [Kept, initial]⟩
        (fun before event rest t t' hsplit ht ⟨hsound, hkept⟩ hstep => ?_) before after t hsplit ht
      refine ⟨hsound.step hstep, hkept.step hsound (fun hrestore => ?_) hstep⟩
      exact hquiet before rest t (hrestore ▸ hsplit) ht
    exact hkept.1.safe hkept.2

/-- A service with a feed that a callback detaches: the feed does not stop in time, and only then a caller
stops the service. -/
def timelyEvents : List FeedEvent :=
  [.start .started, .subscriptions [("NSE_FNO", "1")] .started, .subscriptions [] .started,
    .stopDetached .timedOut, .restore, .beginStop, .workerEnds, .stopAcquisition .stopped, .stopFeed .stopped,
    .finishStop]

theorem run_safe_iff_timely :
    (∀ before after t, timelyEvents = before ++ after → run ⟨true, true⟩ before = some t →
      t.Safe ⟨true, true⟩) ↔ SettlesInTime ⟨true, true⟩ timelyEvents :=
  run_safe_iff ⟨true, true⟩ timelyEvents ⟨_, rfl⟩

/-- The caller comes while the callback stops the feed it detached. -/
def orphanEvents : List FeedEvent :=
  [.start .started, .subscriptions [("NSE_FNO", "1")] .started, .subscriptions [] .started, .beginStop,
    .stopDetached .timedOut, .restore, .workerEnds, .stopAcquisition .stopped, .stopFeed .stopped, .finishStop]

/-- A `stop` returns and leaves a feed that was started and never stopped. -/
theorem stop_leaves_orphan : ∃ s, run ⟨true, true⟩ orphanEvents = some s ∧ s.stopReturned = true ∧
    s.service.closed = true ∧ 0 ∈ s.startedFeeds ∧ 0 ∈ s.failedFeeds ∧ 0 ∉ s.stoppedFeeds :=
  ⟨_, rfl, by decide⟩

end FeedSystem

end TecoQuant.Runtime
