import TecoQuant.BacktestDepth
import TecoQuant.BacktestSettlement

/-! The replay as the code runs it. Every conversion of a moment to UTC and every deadline raises when it leaves the
calendar, and the statistics of the returns raise when these leave the range of floats; the engine on unbounded moments
is this one where nothing does. -/

namespace TecoQuant.Backtest.Calendar

def overflow : Fault := .overflowError "date value out of range"

def utc (t : Datetime) : Except Fault Datetime := t.astimezone overflow

/-- `t + duration`. -/
def plus (t : Datetime) (duration : Int) : Except Fault Datetime :=
  if (t.plus duration).InCalendar then .ok (t.plus duration) else .error overflow

section

variable (ctx : DecimalContext) (config : BacktestConfig)

def exitTrigger (position : OpenPosition) (bar : OptionBar) : Except Fault (Option ExitReason) :=
  if bar.low ≤ position.signal.stopPrice then .ok (some .stop)
  else if position.signal.targetPrice ≤ bar.high then .ok (some .target)
  else do
    let now ← utc bar.timestamp
    let expiry ← utc position.signal.contractExpiry
    if expiry.instant ≤ now.instant then return some .expiry
    else
      match position.signal.maxHolding with
      | none => return none
      | some maxHolding => do
          let deadline ← plus position.entryTime maxHolding
          let deadline ← utc deadline
          return if deadline.instant ≤ now.instant then some .time else none

/-- `position.exit_reason or _exit_trigger(position, bar)`. -/
def exitReason (position : OpenPosition) (bar : OptionBar) : Except Fault (Option ExitReason) :=
  match position.exitReason with
  | some reason => .ok (some reason)
  | none => exitTrigger position bar

def attemptExit (bar? : String → Option OptionBar) (position : OpenPosition) : Except Fault ExitPass :=
  match bar? position.signal.instrumentId with
  | none => .ok ⟨[position], [], []⟩
  | some bar => do
      match ← exitReason position bar with
      | none => return ⟨[position], [], []⟩
      | some reason => executeExit ctx config position bar reason

def liquidate (bar? : String → Option OptionBar) (position : OpenPosition) : Except Fault ExitPass :=
  match bar? position.signal.instrumentId with
  | none => .ok ⟨[position], [], []⟩
  | some bar => do
      let _ ← utc bar.timestamp
      let _ ← utc position.entryTime
      Backtest.liquidate ctx config bar? position

/-- The validity window of a signal has elapsed. -/
def elapsed (now : Datetime) (signal : BacktestSignal) : Except Fault Bool :=
  match signal.validUntil with
  | none => .ok false
  | some validUntil => do
      let validUntil ← utc validUntil
      return validUntil.instant < now.instant

def executeSignal (frame : ReplayFrame) (signal : BacktestSignal) (positions : List OpenPosition) :
    Except Fault PendingPass := do
  let now ← utc frame.timestamp
  let generated ← utc signal.generatedAt
  if now.instant ≤ generated.instant then return ⟨[signal], positions, []⟩
  else do
    let expiry ← utc signal.contractExpiry
    if expiry.instant ≤ now.instant then return skip signal frame positions "contract expired before entry"
    else do
      let elapsed ← elapsed now signal
      if elapsed then return skip signal frame positions "signal validity window elapsed"
      else
        match frame.bar signal.instrumentId with
        | none => return ⟨[signal], positions, []⟩
        | some bar => enterAt ctx config frame signal positions bar

def executePending (frame : ReplayFrame) :
    List BacktestSignal → List OpenPosition → Except Fault PendingPass
  | [], positions => .ok ⟨[], positions, []⟩
  | signal :: pending, positions => do
      let first ← executeSignal ctx config frame signal positions
      let rest ← executePending frame pending first.positions
      return ⟨first.stillPending ++ rest.stillPending, rest.positions, first.journal ++ rest.journal⟩

def replayFrame (s : ReplayState) (frame : ReplayFrame) : Except Fault ReplayState := do
  let exits ← exitPass (attemptExit ctx config frame.bar) s.positions
  let entries ← executePending ctx config frame s.pending exits.positions
  return {
    pending := entries.stillPending ++ frame.signals
    positions := entries.positions
    trades := s.trades ++ exits.trades
    journal := s.journal ++ (exits.journal ++ entries.journal ++ frame.signals.map fun signal =>
      signal.note frame.timestamp .signal "signal queued for the first strictly later quote")
    latestBars := fun instrumentId => frame.bar instrumentId <|> s.latestBars instrumentId }

/-- The loop over the frames. -/
def replayLoop (frames : List ReplayFrame) : Except Fault ReplayState :=
  frames.foldlM (replayFrame ctx config) .initial

/-- Everything after the loop: of it the liquidation converts moments, and the metrics take the returns. -/
def finish (startedAt endedAt : Datetime) (s : ReplayState) : Except Fault BacktestReport := do
  let exits ← exitPass (liquidate ctx config s.latestBars) s.positions
  checkReturns ctx config.initialCapital (s.trades ++ exits.trades)
  Backtest.finish ctx config startedAt endedAt s

end

def validateFrames : Option Int → List String → List ReplayFrame → Except Fault Unit
  | _, _, [] => .ok ()
  | previous, signalIds, frame :: frames => do
      let now ← utc frame.timestamp
      if ∃ instant ∈ previous, now.instant ≤ instant then
        .error (.valueError "replay frame timestamps must be strictly sorted and unique")
      else
        let signalIds ← addSignalIds signalIds frame.signals
        validateFrames (some now.instant) signalIds frames

def validateSequence (frames : List ReplayFrame) : Except Fault Unit :=
  if frames = [] then .error (.valueError "at least one replay frame is required")
  else validateFrames none [] frames

def run (ctx : DecimalContext) (config : BacktestConfig) (frames : List ReplayFrame) :
    Except Fault BacktestReport := do
  validateSequence frames
  match frames.head?, frames.getLast? with
  | some first, some last => do
      let s ← replayLoop ctx config frames
      finish ctx config first.timestamp last.timestamp s
  | _, _ => .error (.valueError "at least one replay frame is required")

/-! ### What leaves the calendar, or the range of floats -/

/-- The moments the trigger of a position computes at a bar are on the calendar. -/
structure TriggerFits (position : OpenPosition) (bar : OptionBar) : Prop where
  expiry : position.signal.contractExpiry.toUtc.InCalendar
  deadline : bar.timestamp.instant < position.signal.contractExpiry.instant →
    ∀ maxHolding ∈ position.signal.maxHolding, (position.entryTime.plus maxHolding).InCalendar ∧
      (position.entryTime.plus maxHolding).toUtc.InCalendar

/-- The moments a pending signal computes in a frame are on the calendar. -/
structure SignalFits (frame : ReplayFrame) (signal : BacktestSignal) : Prop where
  expiry : signal.contractExpiry.toUtc.InCalendar
  validity : frame.timestamp.instant < signal.contractExpiry.instant →
    ∀ validUntil ∈ signal.validUntil, validUntil.toUtc.InCalendar

/-- No moment a frame computes in a state leaves the calendar: neither for a position without an exit
reason whose bar stays between its stop and its target, nor for a pending signal generated before. -/
structure FrameFits (s : ReplayState) (frame : ReplayFrame) : Prop where
  triggers : ∀ position ∈ s.positions, ∀ bar ∈ frame.bar position.signal.instrumentId,
    position.exitReason = none → position.signal.stopPrice < bar.low →
      bar.high < position.signal.targetPrice → TriggerFits position bar
  signals : ∀ signal ∈ s.pending, signal.generatedAt.instant < frame.timestamp.instant →
    SignalFits frame signal

/-- The returns of some trades can be taken statistics of: there are fewer than two, or they are floats and so is the
root of their variance. -/
def ReturnsFit (ctx : DecimalContext) (initialCapital : ℚ) (trades : List Trade) : Prop :=
  let returns := trades.map fun trade => Binary64.round false (ctx.round (trade.netPnl / initialCapital))
  trades.length < 2 ∨ (∀ value ∈ returns, value.IsFinite) ∧ variance (returns.map Binary64.toRat) < rootLimit ^ 2

theorem checkReturns_eq_ok {ctx : DecimalContext} {initialCapital : ℚ} (hcapital : 0 < initialCapital)
    {trades : List Trade} :
    checkReturns ctx initialCapital trades = .ok () ↔ ReturnsFit ctx initialCapital trades := by
  have hreturns : returns ctx initialCapital trades =
      .ok (trades.map fun trade => Binary64.round false (ctx.round (trade.netPnl / initialCapital))) :=
    Except.mapM_ok fun trade _ => by rw [divide_eq_ok ctx hcapital]; rfl
  unfold checkReturns ReturnsFit
  rw [hreturns]
  dsimp only [bind, Except.bind]
  rw [List.length_map]
  by_cases hcount : 2 ≤ trades.length
  · rw [if_pos hcount, stdev, Except.ite_error_eq_ok, Except.ite_error_eq_ok, or_iff_right (not_lt.mpr hcount)]
    simp only [not_exists, not_and, not_not, not_le, and_true]
  · rw [if_neg hcount]
    exact iff_of_true rfl (.inl (not_le.mp hcount))

theorem utc_eq_ok {t u : Datetime} : utc t = .ok u ↔ t.toUtc.InCalendar ∧ t.toUtc = u :=
  Datetime.astimezone_eq_ok

theorem plus_eq_ok {t u : Datetime} {duration : Int} :
    plus t duration = .ok u ↔ (t.plus duration).InCalendar ∧ t.plus duration = u :=
  Except.ite_ok_eq_ok

section

variable {ctx : DecimalContext} {config : BacktestConfig} {position : OpenPosition} {bar : OptionBar}
  {frame : ReplayFrame}

theorem exitTrigger_eq_ok (hbar : bar.timestamp.toUtc.InCalendar) {reason : Option ExitReason} :
    exitTrigger position bar = .ok reason ↔
      (position.signal.stopPrice < bar.low → bar.high < position.signal.targetPrice →
        TriggerFits position bar) ∧ Backtest.exitTrigger position bar = reason := by
  unfold exitTrigger Backtest.exitTrigger
  by_cases hstop : bar.low ≤ position.signal.stopPrice
  · simp [hstop, not_lt.mpr hstop]
  by_cases htarget : position.signal.targetPrice ≤ bar.high
  · simp [hstop, htarget, not_lt.mpr htarget]
  simp only [hstop, htarget, if_false, Except.bind_eq_ok, utc_eq_ok, not_le.mp hstop, not_le.mp htarget,
    true_implies, hbar, true_and, exists_eq_left', Datetime.instant_toUtc]
  by_cases hexpired : position.signal.contractExpiry.instant ≤ bar.timestamp.instant
  · simp only [hexpired, if_true]
    constructor
    · rintro ⟨_, ⟨hexpiry, rfl⟩, h⟩
      exact ⟨⟨hexpiry, fun hlt => absurd hexpired (not_le.mpr hlt)⟩, by simpa [hexpired, Except.pure_eq] using h⟩
    · rintro ⟨hfits, rfl⟩
      exact ⟨_, ⟨hfits.expiry, rfl⟩, by simp [hexpired, Except.pure_eq]⟩
  · simp only [hexpired, if_false]
    cases hholding : position.signal.maxHolding with
    | none =>
        constructor
        · rintro ⟨_, ⟨hexpiry, rfl⟩, h⟩
          exact ⟨⟨hexpiry, by simp [hholding]⟩, by simpa [hexpired, Except.pure_eq] using h⟩
        · rintro ⟨hfits, rfl⟩
          exact ⟨_, ⟨hfits.expiry, rfl⟩, by simp [hexpired, Except.pure_eq]⟩
    | some maxHolding =>
        constructor
        · rintro ⟨_, ⟨hexpiry, rfl⟩, h⟩
          rw [Datetime.instant_toUtc, if_neg hexpired] at h
          obtain ⟨deadline, hdeadline, h⟩ := Except.bind_eq_ok.mp h
          obtain ⟨hplus, rfl⟩ := plus_eq_ok.mp hdeadline
          obtain ⟨converted, hconverted, h⟩ := Except.bind_eq_ok.mp h
          obtain ⟨hutc, rfl⟩ := utc_eq_ok.mp hconverted
          exact ⟨⟨hexpiry, fun _ d hd => Option.some.inj (hholding.symm.trans hd) ▸ ⟨hplus, hutc⟩⟩,
            by simpa [Except.pure_eq] using h⟩
        · rintro ⟨hfits, rfl⟩
          obtain ⟨hplus, hutc⟩ := hfits.deadline (not_le.mp hexpired) maxHolding hholding
          refine ⟨_, ⟨hfits.expiry, rfl⟩, ?_⟩
          rw [Datetime.instant_toUtc, if_neg hexpired]
          exact Except.bind_eq_ok.mpr ⟨_, plus_eq_ok.mpr ⟨hplus, rfl⟩,
            Except.bind_eq_ok.mpr ⟨_, utc_eq_ok.mpr ⟨hutc, rfl⟩, by simp [Except.pure_eq]⟩⟩

theorem exitReason_eq_ok (hbar : bar.timestamp.toUtc.InCalendar) {reason : Option ExitReason} :
    exitReason position bar = .ok reason ↔
      (position.exitReason = none → position.signal.stopPrice < bar.low →
        bar.high < position.signal.targetPrice → TriggerFits position bar) ∧
      (position.exitReason <|> Backtest.exitTrigger position bar) = reason := by
  unfold exitReason
  cases position.exitReason with
  | none => simpa using exitTrigger_eq_ok hbar
  | some pending => simp

theorem attemptExit_eq_ok (hframe : frame.timestamp.toUtc.InCalendar) {pass : ExitPass} :
    attemptExit ctx config frame.bar position = .ok pass ↔
      (∀ bar ∈ frame.bar position.signal.instrumentId, position.exitReason = none →
        position.signal.stopPrice < bar.low → bar.high < position.signal.targetPrice →
          TriggerFits position bar) ∧
      Backtest.attemptExit ctx config frame.bar position = .ok pass := by
  unfold attemptExit Backtest.attemptExit
  cases hseen : frame.bar position.signal.instrumentId with
  | none => simp
  | some bar =>
      have hbar : bar.timestamp.toUtc.InCalendar := by
        rwa [Datetime.toUtc, frame.bars_at bar (ReplayFrame.bar_mem hseen).1]
      simp only [Except.bind_eq_ok, exitReason_eq_ok hbar, Option.mem_some_iff, forall_eq']
      constructor
      · rintro ⟨_, ⟨hfits, rfl⟩, h⟩
        exact ⟨hfits, h⟩
      · rintro ⟨hfits, h⟩
        exact ⟨_, ⟨hfits, rfl⟩, h⟩

/-- A pass on the calendar is the pass on unbounded moments, when each attempt fits. -/
theorem exitPass_fits {fits : OpenPosition → Prop} {attempt attempt' : OpenPosition → Except Fault ExitPass}
    {positions : List OpenPosition}
    (h : ∀ p ∈ positions, ∀ first, attempt p = .ok first ↔ fits p ∧ attempt' p = .ok first)
    {pass : ExitPass} : exitPass attempt positions = .ok pass ↔
      (∀ p ∈ positions, fits p) ∧ exitPass attempt' positions = .ok pass := by
  induction positions generalizing pass with
  | nil => simp [exitPass]
  | cons position positions ih =>
      simp only [exitPass_cons_eq_ok, h position List.mem_cons_self,
        ih fun p hp => h p (List.mem_cons_of_mem _ hp), List.forall_mem_cons]
      constructor
      · rintro ⟨first, rest, ⟨hfits, hfirst⟩, ⟨hothers, hrest⟩, rfl⟩
        exact ⟨⟨hfits, hothers⟩, first, rest, hfirst, hrest, rfl⟩
      · rintro ⟨⟨hfits, hothers⟩, first, rest, hfirst, hrest, rfl⟩
        exact ⟨first, rest, ⟨hfits, hfirst⟩, ⟨hothers, hrest⟩, rfl⟩

theorem elapsed_eq_ok {now : Datetime} {signal : BacktestSignal} {late : Bool} :
    elapsed now signal = .ok late ↔ (∀ validUntil ∈ signal.validUntil, validUntil.toUtc.InCalendar) ∧
      decide (∃ validUntil ∈ signal.validUntil, validUntil.instant < now.instant) = late := by
  unfold elapsed
  cases signal.validUntil with
  | none => simp
  | some validUntil =>
      simp only [Except.bind_eq_ok, utc_eq_ok, Option.mem_some_iff, forall_eq', exists_eq_left']
      constructor
      · rintro ⟨_, ⟨hfits, rfl⟩, h⟩
        exact ⟨hfits, by simpa [Except.pure_eq] using h⟩
      · rintro ⟨hfits, rfl⟩
        exact ⟨_, ⟨hfits, rfl⟩, by simp [Except.pure_eq]⟩

theorem executeSignal_eq_ok (hframe : frame.timestamp.toUtc.InCalendar) {signal : BacktestSignal}
    (hgenerated : signal.generatedAt.toUtc.InCalendar) {positions : List OpenPosition}
    {pass : PendingPass} : executeSignal ctx config frame signal positions = .ok pass ↔
      (signal.generatedAt.instant < frame.timestamp.instant → SignalFits frame signal) ∧
      Backtest.executeSignal ctx config frame signal positions = .ok pass := by
  unfold executeSignal Backtest.executeSignal
  simp only [Except.bind_eq_ok, utc_eq_ok, hframe, hgenerated, true_and, exists_eq_left',
    Datetime.instant_toUtc]
  by_cases hearly : frame.timestamp.instant ≤ signal.generatedAt.instant
  · simp [hearly, not_lt.mpr hearly, pure, Except.pure]
  simp only [hearly, if_false, not_le.mp hearly, true_implies, Except.bind_eq_ok, utc_eq_ok]
  by_cases hexpired : signal.contractExpiry.instant ≤ frame.timestamp.instant
  · constructor
    · rintro ⟨_, ⟨hexpiry, rfl⟩, h⟩
      exact ⟨⟨hexpiry, fun hlt => absurd hexpired (not_le.mpr hlt)⟩, by simpa [hexpired, Except.pure_eq] using h⟩
    · rintro ⟨hfits, h⟩
      exact ⟨_, ⟨hfits.expiry, rfl⟩, by simpa [hexpired, Except.pure_eq] using h⟩
  · constructor
    · rintro ⟨_, ⟨hexpiry, rfl⟩, h⟩
      rw [Datetime.instant_toUtc, if_neg hexpired] at h
      obtain ⟨late, hlate, h⟩ := Except.bind_eq_ok.mp h
      obtain ⟨hvalidity, rfl⟩ := elapsed_eq_ok.mp hlate
      refine ⟨⟨hexpiry, fun _ => hvalidity⟩, ?_⟩
      rw [if_neg hexpired]
      cases hbar : frame.bar signal.instrumentId <;> simpa [Except.pure_eq, hbar] using h
    · rintro ⟨hfits, h⟩
      refine ⟨_, ⟨hfits.expiry, rfl⟩, ?_⟩
      rw [Datetime.instant_toUtc, if_neg hexpired]
      rw [if_neg hexpired] at h
      refine Except.bind_eq_ok.mpr ⟨_, elapsed_eq_ok.mpr ⟨hfits.validity (not_le.mp hexpired), rfl⟩, ?_⟩
      cases hbar : frame.bar signal.instrumentId <;> simpa [Except.pure_eq, hbar] using h

theorem executePending_eq_ok (hframe : frame.timestamp.toUtc.InCalendar) {pending : List BacktestSignal}
    (hgenerated : ∀ signal ∈ pending, signal.generatedAt.toUtc.InCalendar)
    {positions : List OpenPosition} {pass : PendingPass} :
    executePending ctx config frame pending positions = .ok pass ↔
      (∀ signal ∈ pending, signal.generatedAt.instant < frame.timestamp.instant → SignalFits frame signal) ∧
      Backtest.executePending ctx config frame pending positions = .ok pass := by
  induction pending generalizing positions pass with
  | nil => simp [executePending, Backtest.executePending]
  | cons signal pending ih =>
      simp only [executePending, Except.bind_eq_ok, executePending_cons_eq_ok,
        executeSignal_eq_ok hframe (hgenerated signal List.mem_cons_self),
        ih fun other hother => hgenerated other (List.mem_cons_of_mem _ hother), List.forall_mem_cons]
      constructor
      · rintro ⟨first, ⟨hfits, hfirst⟩, rest, ⟨hothers, hrest⟩, h⟩
        cases h
        exact ⟨⟨hfits, hothers⟩, first, rest, hfirst, hrest, rfl⟩
      · rintro ⟨⟨hfits, hothers⟩, first, rest, hfirst, hrest, rfl⟩
        exact ⟨first, ⟨hfits, hfirst⟩, rest, ⟨hothers, hrest⟩, rfl⟩

variable {frames : List ReplayFrame} {s s' : ReplayState}

theorem replayFrame_eq_ok (hframe : frame.timestamp.toUtc.InCalendar)
    (hgenerated : ∀ signal ∈ s.pending, signal.generatedAt.toUtc.InCalendar) :
    replayFrame ctx config s frame = .ok s' ↔
      FrameFits s frame ∧ Backtest.replayFrame ctx config s frame = .ok s' := by
  simp only [replayFrame, Backtest.replayFrame, Except.bind_eq_ok,
    exitPass_fits fun p _ first => attemptExit_eq_ok hframe, executePending_eq_ok hframe hgenerated]
  constructor
  · rintro ⟨exits, ⟨htriggers, hexits⟩, entries, ⟨hsignals, hentries⟩, h⟩
    exact ⟨⟨htriggers, hsignals⟩, exits, hexits, entries, hentries, h⟩
  · rintro ⟨⟨htriggers, hsignals⟩, exits, hexits, entries, hentries, h⟩
    exact ⟨exits, ⟨htriggers, hexits⟩, entries, ⟨hsignals, hentries⟩, h⟩

theorem replayLoop_concat_eq_ok :
    replayLoop ctx config (frames ++ [frame]) = .ok s' ↔
      ∃ s, replayLoop ctx config frames = .ok s ∧ replayFrame ctx config s frame = .ok s' := by
  rw [replayLoop, List.foldlM_append, Except.bind_eq_ok]
  simp [replayLoop]

/-- Every frame fits in the state the frames before it lead to. -/
def ReplayFits (ctx : DecimalContext) (config : BacktestConfig) (frames : List ReplayFrame) : Prop :=
  ∀ before frame after s, frames = before ++ frame :: after → replayLoop ctx config before = .ok s →
    FrameFits s frame

/-- The loop runs through as long as every frame fits, and then as on unbounded moments. -/
theorem replayLoop_eq_ok (hframes : ∀ frame ∈ frames, frame.timestamp.toUtc.InCalendar) :
    replayLoop ctx config frames = .ok s ↔
      ReplayFits ctx config frames ∧ Backtest.replayLoop ctx config frames = .ok s := by
  induction frames using List.reverseRecOn generalizing s with
  | nil => simp [replayLoop, Backtest.replayLoop, ReplayFits]
  | append_singleton frames frame ih =>
      have ih {s : ReplayState} := @ih s fun f hf => hframes f (List.mem_append_left _ hf)
      have hframe := hframes frame (by simp)
      have hgenerated {s : ReplayState} (hs : Backtest.replayLoop ctx config frames = .ok s) :
          ∀ signal ∈ s.pending, signal.generatedAt.toUtc.InCalendar := by
        intro signal hsignal
        obtain ⟨f, hf, hsignal⟩ := List.mem_flatMap.mp ((replayLoop_inLots hs).pending signal hsignal)
        rw [Datetime.toUtc, f.signals_at signal hsignal]
        exact hframes f (List.mem_append_left _ hf)
      rw [replayLoop_concat_eq_ok, Backtest.replayLoop_concat_eq_ok]
      constructor
      · rintro ⟨t, ht, hlast⟩
        obtain ⟨hfits, ht'⟩ := ih.mp ht
        obtain ⟨hfit, hlast⟩ := (replayFrame_eq_ok hframe (hgenerated ht')).mp hlast
        refine ⟨fun before f after u hsplit hu => ?_, t, ht', hlast⟩
        rcases List.eq_nil_or_concat after with rfl | ⟨after, g, rfl⟩
        · obtain ⟨rfl, hsame⟩ := List.append_inj' hsplit rfl
          obtain rfl := (List.cons.inj hsame).1
          exact Except.ok.inj (ht.symm.trans hu) ▸ hfit
        · have hsplit : frames ++ [frame] = (before ++ f :: after) ++ [g] := by simpa using hsplit
          exact hfits before f after u (List.append_inj' hsplit rfl).1 hu
      · rintro ⟨hfits, t, ht, hlast⟩
        have hbefore : ReplayFits ctx config frames := fun before f after u hsplit hu =>
          hfits before f (after ++ [frame]) u (by simp [hsplit]) hu
        have hreached := ih.mpr ⟨hbefore, ht⟩
        exact ⟨t, hreached, (replayFrame_eq_ok hframe (hgenerated ht)).mpr
          ⟨hfits frames frame [] t rfl hreached, hlast⟩⟩

theorem validateFrames_eq_ok {previous : Option Int} {signalIds : List String} :
    validateFrames previous signalIds frames = .ok () ↔
      (∀ frame ∈ frames, frame.timestamp.toUtc.InCalendar) ∧
        Backtest.validateFrames previous signalIds frames = .ok () := by
  induction frames generalizing previous signalIds with
  | nil => simp [validateFrames, Backtest.validateFrames]
  | cons frame frames ih =>
      simp only [validateFrames, Backtest.validateFrames, Except.bind_eq_ok, utc_eq_ok, Except.ite_error_eq_ok,
        ih, List.forall_mem_cons]
      constructor
      · rintro ⟨_, ⟨hframe, rfl⟩, hafter, known, hknown, hframes, h⟩
        simp only [Datetime.instant_toUtc] at hafter h
        exact ⟨⟨hframe, hframes⟩, hafter, known, hknown, h⟩
      · rintro ⟨⟨hframe, hframes⟩, hafter, known, hknown, h⟩
        exact ⟨_, ⟨hframe, rfl⟩, by simpa using hafter, known, hknown, hframes, by simpa using h⟩

/-- A validated sequence stands on the calendar, and it is a valid one. -/
theorem validateSequence_eq_ok : validateSequence frames = .ok () ↔
    (∀ frame ∈ frames, frame.timestamp.toUtc.InCalendar) ∧ ValidSequence frames := by
  rw [← Backtest.validateSequence_eq_ok, validateSequence, Backtest.validateSequence,
    Except.ite_error_eq_ok, Except.ite_error_eq_ok, validateFrames_eq_ok]
  tauto

/-- The bars of a state come from the frames. -/
theorem replayLoop_latest (h : Backtest.replayLoop ctx config frames = .ok s) :
    ∀ X bar, s.latestBars X = some bar → ∃ frame ∈ frames, bar ∈ frame.bars := by
  refine replayLoop_invariant (fun frames s => ∀ X bar, s.latestBars X = some bar →
    ∃ frame ∈ frames, bar ∈ frame.bars) (by simp [ReplayState.initial])
    (fun frames frame s s' _ hlatest hframe X bar hbar => ?_) h
  obtain ⟨exits, entries, -, -, rfl⟩ := Backtest.replayFrame_eq_ok.mp hframe
  cases hseen : frame.bar X with
  | some seen =>
      simp only [hseen, Option.orElse_eq_orElse, Option.orElse_some, Option.some.injEq] at hbar
      exact ⟨frame, by simp, hbar ▸ (ReplayFrame.bar_mem hseen).1⟩
  | none =>
      simp only [hseen, Option.orElse_eq_orElse, Option.orElse_none] at hbar
      obtain ⟨f, hf, hmem⟩ := hlatest X bar hbar
      exact ⟨f, List.mem_append_left _ hf, hmem⟩

/-- The moments the liquidation converts are those of frames. -/
theorem liquidation_eq (hframes : ∀ frame ∈ frames, frame.timestamp.toUtc.InCalendar)
    (hs : Backtest.replayLoop ctx config frames = .ok s) {exits : ExitPass} :
    exitPass (liquidate ctx config s.latestBars) s.positions = .ok exits ↔
      exitPass (Backtest.liquidate ctx config s.latestBars) s.positions = .ok exits := by
  have hsame : ∀ p ∈ s.positions, ∀ first, liquidate ctx config s.latestBars p = .ok first ↔
      True ∧ Backtest.liquidate ctx config s.latestBars p = .ok first := by
    intro p hp first
    unfold liquidate
    cases hlatest : s.latestBars p.signal.instrumentId with
    | none => simp [Backtest.liquidate, hlatest]
    | some bar =>
        obtain ⟨f, hf, hmem⟩ := replayLoop_latest hs _ bar hlatest
        obtain ⟨g, hg, htime⟩ := (replayLoop_grounded hs).entered p hp
        have hbar : bar.timestamp.toUtc.InCalendar := by
          rw [Datetime.toUtc, f.bars_at bar hmem]
          exact hframes f hf
        simp [Except.bind_eq_ok, utc_eq_ok, hbar, htime ▸ hframes g hg]
  rw [exitPass_fits hsame]
  exact and_iff_right fun _ _ => trivial

/-- The stage after the loop returns when the returns of the trades fit, and then what it returns on unbounded
moments. -/
theorem finish_eq_ok (hframes : ∀ frame ∈ frames, frame.timestamp.toUtc.InCalendar)
    (hs : Backtest.replayLoop ctx config frames = .ok s) {startedAt endedAt : Datetime} {report : BacktestReport} :
    finish ctx config startedAt endedAt s = .ok report ↔
      ReturnsFit ctx config.initialCapital report.trades ∧
        Backtest.finish ctx config startedAt endedAt s = .ok report := by
  have hwhole {exits : ExitPass} (hexits : exitPass (Backtest.liquidate ctx config s.latestBars) s.positions = .ok exits)
      (h : Backtest.finish ctx config startedAt endedAt s = .ok report) : report.trades = s.trades ++ exits.trades := by
    obtain ⟨others, hothers, h⟩ := Except.bind_eq_ok.mp h
    obtain rfl := Except.ok.inj (hexits.symm.trans hothers)
    obtain ⟨metrics, -, h⟩ := Except.bind_eq_ok.mp h
    obtain ⟨breakdowns, -, h⟩ := Except.bind_eq_ok.mp h
    cases h
    rfl
  constructor
  · intro h
    obtain ⟨exits, hexits, h⟩ := Except.bind_eq_ok.mp h
    obtain ⟨_, hreturns, h⟩ := Except.bind_eq_ok.mp h
    have hexits := (liquidation_eq hframes hs).mp hexits
    exact ⟨hwhole hexits h ▸ (checkReturns_eq_ok config.capital_pos).mp hreturns, h⟩
  · rintro ⟨hreturns, h⟩
    obtain ⟨exits, hexits, -⟩ := Except.bind_eq_ok.mp h
    rw [hwhole hexits h] at hreturns
    exact Except.bind_eq_ok.mpr ⟨exits, (liquidation_eq hframes hs).mpr hexits,
      Except.bind_eq_ok.mpr ⟨(), (checkReturns_eq_ok config.capital_pos).mpr hreturns, h⟩⟩

/-- A replay returns a report when every frame and the returns fit, and then the one on unbounded moments. -/
theorem run_eq_ok (hvalid : validateSequence frames = .ok ()) {report : BacktestReport} :
    run ctx config frames = .ok report ↔
      ReplayFits ctx config frames ∧ ReturnsFit ctx config.initialCapital report.trades ∧
        Backtest.run ctx config frames = .ok report := by
  obtain ⟨hframes, hsequence⟩ := validateSequence_eq_ok.mp hvalid
  have hfirst := List.head?_eq_some_head hsequence.nonempty
  have hlast := List.getLast?_eq_some_getLast hsequence.nonempty
  simp only [run, Backtest.run, hvalid, Backtest.validateSequence_eq_ok.mpr hsequence, hfirst, hlast,
    Except.bind_eq_ok, replayLoop_eq_ok hframes]
  constructor
  · rintro ⟨_, _, s, ⟨hfits, hs⟩, h⟩
    obtain ⟨hreturns, h⟩ := (finish_eq_ok hframes hs).mp h
    exact ⟨hfits, hreturns, (), trivial, s, hs, h⟩
  · rintro ⟨hfits, hreturns, _, _, s, hs, h⟩
    exact ⟨(), trivial, s, ⟨hfits, hs⟩, (finish_eq_ok hframes hs).mpr ⟨hreturns, h⟩⟩

/-- The trades of the replay, those of the liquidation included. -/
def ClosedFit (ctx : DecimalContext) (config : BacktestConfig) (frames : List ReplayFrame) : Prop :=
  ∀ s exits, replayLoop ctx config frames = .ok s →
    exitPass (liquidate ctx config s.latestBars) s.positions = .ok exits →
      ReturnsFit ctx config.initialCapital (s.trades ++ exits.trades)

/-- The state a report ends. -/
theorem run_ends {report : BacktestReport} (h : run ctx config frames = .ok report) :
    ValidSequence frames ∧ ∃ s exits, replayLoop ctx config frames = .ok s ∧
      Backtest.replayLoop ctx config frames = .ok s ∧ Ends ctx config s report exits := by
  obtain ⟨_, hvalid, -⟩ := Except.bind_eq_ok.mp h
  obtain ⟨hframes, hsequence⟩ := validateSequence_eq_ok.mp hvalid
  obtain ⟨hfits, -, hreport⟩ := (run_eq_ok hvalid).mp h
  obtain ⟨s, other, exits, hs, hother, hends⟩ := run_succeeds ctx config hsequence
  obtain rfl := Except.ok.inj (hother.symm.trans hreport)
  exact ⟨hsequence, s, exits, (replayLoop_eq_ok hframes).mpr ⟨hfits, hs⟩, hs, hends⟩

/-- A validated replay returns a report exactly when no frame leaves the calendar and the returns of the trades it
closes fit. -/
theorem run_returns_iff (hvalid : validateSequence frames = .ok ()) :
    (∃ report, run ctx config frames = .ok report) ↔ ReplayFits ctx config frames ∧ ClosedFit ctx config frames := by
  obtain ⟨hframes, hsequence⟩ := validateSequence_eq_ok.mp hvalid
  obtain ⟨s, report, exits, hs, hreport, hends⟩ := run_succeeds ctx config hsequence
  constructor
  · rintro ⟨other, hother⟩
    obtain ⟨hfits, hreturns, hother⟩ := (run_eq_ok hvalid).mp hother
    obtain rfl := Except.ok.inj (hreport.symm.trans hother)
    refine ⟨hfits, fun s' exits' hs' hexits' => ?_⟩
    obtain ⟨-, hs'⟩ := (replayLoop_eq_ok hframes).mp hs'
    obtain rfl := Except.ok.inj (hs.symm.trans hs')
    obtain rfl := Except.ok.inj (hends.liquidated.symm.trans ((liquidation_eq hframes hs).mp hexits'))
    exact hends.trades ▸ hreturns
  · rintro ⟨hfits, hclosed⟩
    have hreturns := hclosed s exits ((replayLoop_eq_ok hframes).mpr ⟨hfits, hs⟩)
      ((liquidation_eq hframes hs).mpr hends.liquidated)
    exact ⟨report, (run_eq_ok hvalid).mpr ⟨hfits, hends.trades ▸ hreturns, hreport⟩⟩

end

/-- The moments of a signal stay on the calendar, whichever frame it enters in. -/
structure MomentsFit (frames : List ReplayFrame) (signal : BacktestSignal) : Prop where
  expiry : signal.contractExpiry.toUtc.InCalendar
  validity : ∀ validUntil ∈ signal.validUntil, validUntil.toUtc.InCalendar
  deadline : ∀ maxHolding ∈ signal.maxHolding, ∀ frame ∈ frames,
    (frame.timestamp.plus maxHolding).InCalendar ∧ (frame.timestamp.plus maxHolding).toUtc.InCalendar

/-- Every frame fits when the moments of every signal do, whatever the prices. -/
theorem replayFits_of_moments {ctx : DecimalContext} {config : BacktestConfig} {frames : List ReplayFrame}
    (hvalid : validateSequence frames = .ok ())
    (h : ∀ signal ∈ frames.flatMap ReplayFrame.signals, MomentsFit frames signal) :
    ReplayFits ctx config frames := by
  rintro before frame after s rfl hs
  obtain ⟨hframes, -⟩ := validateSequence_eq_ok.mp hvalid
  obtain ⟨-, hs⟩ := (replayLoop_eq_ok fun f hf => hframes f (List.mem_append_left _ hf)).mp hs
  have hsignal {signal : BacktestSignal} (hmem : signal ∈ before.flatMap ReplayFrame.signals) :=
    h signal (by simpa using .inl (List.mem_flatMap.mp hmem))
  refine ⟨fun p hp bar _ _ _ _ => ?_, fun signal hmem _ => ?_⟩
  · obtain ⟨f, hf, htime⟩ := (replayLoop_grounded hs).entered p hp
    have hfits := hsignal ((replayLoop_inLots hs).positions p hp)
    exact ⟨hfits.expiry, fun _ maxHolding hholding =>
      htime ▸ hfits.deadline maxHolding hholding f (List.mem_append_left _ hf)⟩
  · have hfits := hsignal ((replayLoop_inLots hs).pending signal hmem)
    exact ⟨hfits.expiry, fun _ => hfits.validity⟩

/-- A validated replay returns a report, settled unless fills are partial, exactly when no frame leaves the calendar
and the returns of the trades it closes fit; no frame does when the moments of no signal do. -/
theorem run_settles_iff (ctx : DecimalContext) (config : BacktestConfig) (frames : List ReplayFrame)
    (hvalid : validateSequence frames = .ok ()) :
    ((∃ report, run ctx config frames = .ok report ∧
      (config.partialFills.enabled = false → Settled frames report)) ↔
        ReplayFits ctx config frames ∧ ClosedFit ctx config frames) ∧
    ((∀ signal ∈ frames.flatMap ReplayFrame.signals, MomentsFit frames signal) → ReplayFits ctx config frames) := by
  refine ⟨⟨?_, fun hfits => ?_⟩, replayFits_of_moments hvalid⟩
  · rintro ⟨report, hreport, -⟩
    exact (run_returns_iff hvalid).mp ⟨report, hreport⟩
  · obtain ⟨report, hreport⟩ := (run_returns_iff hvalid).mpr hfits
    obtain ⟨hsequence, s, exits, -, hs, hends⟩ := run_ends hreport
    exact ⟨report, hreport, fun hfull => hends.settled hfull hsequence hs⟩

theorem run_settles_sample :
    ((∃ report, run .exact sampleConfig sampleFrames = .ok report ∧
      (sampleConfig.partialFills.enabled = false → Settled sampleFrames report)) ↔
        ReplayFits .exact sampleConfig sampleFrames ∧ ClosedFit .exact sampleConfig sampleFrames) ∧
    ((∀ signal ∈ sampleFrames.flatMap ReplayFrame.signals, MomentsFit sampleFrames signal) →
      ReplayFits .exact sampleConfig sampleFrames) :=
  run_settles_iff .exact sampleConfig sampleFrames (by decide)

/-- The entry time plus `timedelta.max` leaves the calendar when the third frame asks for the deadline,
and the replay raises. -/
theorem run_overflows :
    validateSequence heldFrames = .ok () ∧
      run .exact heldConfig heldFrames = .error (.overflowError "date value out of range") := by
  decide +kernel

end TecoQuant.Backtest.Calendar
