import TecoQuant.BacktestRuns

/-! No look-ahead. What a replay does in its first frames depends on these frames only; entries keep to
the windows of their signals; and exits are decided from bars after the entry. -/

namespace TecoQuant.Backtest

/-- The exit of a position is decided from a bar: the position is open when the frame of the bar comes,
no exit is pending, and the bar triggers one. -/
def DecidedFrom (ctx : DecimalContext) (config : BacktestConfig) (frames : List ReplayFrame)
    (position : OpenPosition) (bar : OptionBar) (reason : ExitReason) : Prop :=
  ∃ before frame after s, frames = before ++ frame :: after ∧ replayLoop ctx config before = .ok s ∧
    position ∈ s.positions ∧ frame.bar position.signal.instrumentId = some bar ∧
    position.exitReason = none ∧ exitTrigger position bar = some reason

/-- A signal enters in a frame after its generation, before the expiry of its contract and not after the
end of its validity. -/
structure EntryWindow (frames : List ReplayFrame) (entry : JournalEntry) (frame : ReplayFrame)
    (signal : BacktestSignal) : Prop where
  frame_mem : frame ∈ frames
  signal_mem : signal ∈ frames.flatMap ReplayFrame.signals
  signalId : entry.signalId = signal.signalId
  timestamp : entry.timestamp = frame.timestamp
  after_generation : signal.generatedAt.instant < frame.timestamp.instant
  before_expiry : frame.timestamp.instant < signal.contractExpiry.instant
  while_valid : ∀ validUntil ∈ signal.validUntil, frame.timestamp.instant ≤ validUntil.instant

/-- A report in which nothing looks ahead: entries keep to their windows, an exit is decided from a bar
after the entry, and every reason other than the end of the data was decided so. -/
structure NoLookahead (ctx : DecimalContext) (config : BacktestConfig) (frames : List ReplayFrame)
    (report : BacktestReport) : Prop where
  entries : ∀ entry ∈ report.journal, entry.event = .entry →
    ∃ frame signal, EntryWindow frames entry frame signal
  decisions : ∀ position bar reason, DecidedFrom ctx config frames position bar reason →
    position.entryTime.instant < bar.timestamp.instant
  trades : ∀ trade ∈ report.trades, trade.exitReason ≠ .endOfData →
    ∃ position bar, DecidedFrom ctx config frames position bar trade.exitReason ∧
      position.signal.signalId = trade.signalId ∧ position.entryTime = trade.entryTime
  openPositions : ∀ summary ∈ report.openPositions, ∀ reason ∈ summary.pendingExitReason,
    reason ≠ .endOfData → ∃ position bar, DecidedFrom ctx config frames position bar reason ∧
      position.signal.signalId = summary.signalId

section

variable {ctx : DecimalContext} {config : BacktestConfig} {frames : List ReplayFrame} {frame : ReplayFrame}
  {s s' : ReplayState}

theorem ReplayFrame.bar_mem {instrumentId : String} {bar : OptionBar}
    (h : frame.bar instrumentId = some bar) : bar ∈ frame.bars ∧ bar.instrumentId = instrumentId :=
  ⟨List.mem_of_find?_eq_some h, by simpa using List.find?_some h⟩

theorem EntryWindow.mono {entry : JournalEntry} {signal : BacktestSignal}
    (h : EntryWindow frames entry frame signal) (others : List ReplayFrame) :
    EntryWindow (frames ++ others) entry frame signal where
  frame_mem := List.mem_append_left _ h.frame_mem
  signal_mem := by
    rw [List.flatMap_append]
    exact List.mem_append_left _ h.signal_mem
  signalId := h.signalId
  timestamp := h.timestamp
  after_generation := h.after_generation
  before_expiry := h.before_expiry
  while_valid := h.while_valid

theorem DecidedFrom.mono {position : OpenPosition} {bar : OptionBar} {reason : ExitReason}
    (h : DecidedFrom ctx config frames position bar reason) (others : List ReplayFrame) :
    DecidedFrom ctx config (frames ++ others) position bar reason := by
  obtain ⟨before, frame, after, s, rfl, hrest⟩ := h
  exact ⟨before, frame, after ++ others, s, by simp, hrest⟩

/-- A reason that was decided for a signal entered at a time. -/
def Decided (ctx : DecimalContext) (config : BacktestConfig) (frames : List ReplayFrame)
    (signalId : String) (entryTime : Datetime) (reason : ExitReason) : Prop :=
  ∃ position bar, DecidedFrom ctx config frames position bar reason ∧
    position.signal.signalId = signalId ∧ position.entryTime = entryTime

theorem Decided.mono {signalId : String} {entryTime : Datetime} {reason : ExitReason}
    (h : Decided ctx config frames signalId entryTime reason) (others : List ReplayFrame) :
    Decided ctx config (frames ++ others) signalId entryTime reason := by
  obtain ⟨position, bar, hdecided, hrest⟩ := h
  exact ⟨position, bar, hdecided.mono others, hrest⟩

/-- Where everything in a state of the loop comes from. -/
structure Grounded (ctx : DecimalContext) (config : BacktestConfig) (frames : List ReplayFrame)
    (s : ReplayState) : Prop where
  pending : ∀ signal ∈ s.pending, signal ∈ frames.flatMap ReplayFrame.signals
  entered : ∀ p ∈ s.positions, ∃ frame ∈ frames, p.entryTime = frame.timestamp
  entries : ∀ entry ∈ s.journal, entry.event = .entry →
    ∃ frame signal, EntryWindow frames entry frame signal
  reasons : ∀ p ∈ s.positions, ∀ reason ∈ p.exitReason,
    Decided ctx config frames p.signal.signalId p.entryTime reason
  trades : ∀ trade ∈ s.trades,
    Decided ctx config frames trade.signalId trade.entryTime trade.exitReason

theorem Grounded.start : Grounded ctx config [] .initial := by
  constructor <;> simp [ReplayState.initial]

/-- What an exit attempt in a frame makes of a position with grounded reasons. -/
theorem Grounded.attempt (h : Grounded ctx config frames s) (hs : replayLoop ctx config frames = .ok s)
    {p : OpenPosition} (hp : p ∈ s.positions) {pass : ExitPass}
    (hpass : attemptExit ctx config frame.bar p = .ok pass) :
    (∀ q ∈ pass.positions, (q.signal = p.signal ∧ q.entryTime = p.entryTime) ∧
      ∀ reason ∈ q.exitReason, Decided ctx config (frames ++ [frame]) q.signal.signalId q.entryTime reason) ∧
    ∀ trade ∈ pass.trades,
      Decided ctx config (frames ++ [frame]) trade.signalId trade.entryTime trade.exitReason := by
  cases attemptExit_step hpass with
  | kept =>
      simp only [List.mem_singleton, forall_eq, List.not_mem_nil, false_implies, implies_true, and_true,
        true_and]
      exact fun reason hreason => (h.reasons p hp reason hreason).mono _
  | @exits bar reason _ hbar hreason hstep =>
      have hdecided : Decided ctx config (frames ++ [frame]) p.signal.signalId p.entryTime
          (p.exitReason.getD reason) := by
        cases hpending : p.exitReason with
        | some pending => exact (h.reasons p hp pending hpending).mono _
        | none =>
            rw [hpending] at hreason
            exact ⟨p, bar, ⟨frames, frame, [], s, rfl, hs, hp, hbar, hpending, hreason⟩, rfl, rfl⟩
      refine ⟨fun q hq => ?_, fun trade htrade => ?_⟩
      · obtain ⟨hsignal, hentry, hexit, _⟩ := hstep.left hq
        refine ⟨⟨hsignal, hentry⟩, fun other hother => ?_⟩
        rw [hexit] at hother
        cases hother
        rwa [hsignal, hentry]
      · obtain ⟨hsignal, -, hentry, hexit⟩ := hstep.traded htrade
        rwa [hsignal, hentry, hexit]

/-- An entry journaled for a pending signal keeps to its window. -/
theorem EntryStep.window {signal : BacktestSignal} {positions : List OpenPosition} {pass : PendingPass}
    (hstep : EntryStep ctx config frame signal positions pass)
    (hsignal : signal ∈ frames.flatMap ReplayFrame.signals) {entry : JournalEntry}
    (hentry : entry ∈ pass.journal) (hevent : entry.event = .entry) :
    EntryWindow (frames ++ [frame]) entry frame signal := by
  cases hstep with
  | waits => simp at hentry
  | unfilled =>
      obtain rfl := List.mem_singleton.mp hentry
      cases hevent
  | skipped =>
      obtain rfl := List.mem_singleton.mp hentry
      cases hevent
  | entered hafter hexpiry hvalid =>
      obtain rfl := List.mem_singleton.mp hentry
      exact {
        frame_mem := List.mem_append_right _ (List.mem_singleton_self _)
        signal_mem := by
          rw [List.flatMap_append]
          exact List.mem_append_left _ hsignal
        signalId := rfl
        timestamp := rfl
        after_generation := hafter
        before_expiry := hexpiry
        while_valid := hvalid }

theorem Grounded.step (h : Grounded ctx config frames s) (hs : replayLoop ctx config frames = .ok s)
    (hframe : replayFrame ctx config s frame = .ok s') : Grounded ctx config (frames ++ [frame]) s' := by
  obtain ⟨exits, entries, hexits, hentries, rfl⟩ := replayFrame_eq_ok.mp hframe
  obtain ⟨hpositions, htrades, hjournal⟩ := exitPass_mem hexits
  obtain ⟨hstill, hentered⟩ := executePending_mem hentries
  -- Every position after the exits has its reason from before, and every new one has none.
  have hopen : ∀ q ∈ entries.positions, (∃ f ∈ frames ++ [frame], q.entryTime = f.timestamp) ∧
      ∀ reason ∈ q.exitReason,
        Decided ctx config (frames ++ [frame]) q.signal.signalId q.entryTime reason := by
    refine executePending_invariant (fun positions => ∀ q ∈ positions,
      (∃ f ∈ frames ++ [frame], q.entryTime = f.timestamp) ∧ ∀ reason ∈ q.exitReason,
        Decided ctx config (frames ++ [frame]) q.signal.signalId q.entryTime reason) ?_ hentries ?_
    · intro signal positions first hfirst hpositions q hq
      cases executeSignal_step hfirst with
      | waits => exact hpositions q hq
      | unfilled => exact hpositions q hq
      | skipped => exact hpositions q hq
      | entered =>
          rcases mem_insertPosition.mp hq with rfl | hq
          · exact ⟨⟨frame, List.mem_append_right _ (List.mem_singleton_self _), rfl⟩,
              fun reason hreason => by cases hreason⟩
          · exact hpositions q hq
    · intro q hq
      obtain ⟨p, hp, first, hfirst, hq⟩ := hpositions q hq
      obtain ⟨⟨-, hentry⟩, hreasons⟩ := (h.attempt hs hp hfirst).1 q hq
      obtain ⟨f, hf, htime⟩ := h.entered p hp
      exact ⟨⟨f, List.mem_append_left _ hf, hentry.trans htime⟩, hreasons⟩
  refine ⟨fun signal hsignal => ?_, fun q hq => (hopen q hq).1, fun entry hentry hevent => ?_,
    fun q hq => (hopen q hq).2, fun trade htrade => ?_⟩
  · rw [List.flatMap_append]
    rcases List.mem_append.mp hsignal with hsignal | hsignal
    · exact List.mem_append_left _ (h.pending signal (hstill signal hsignal))
    · exact List.mem_append_right _ (by simpa using hsignal)
  · rcases List.mem_append.mp hentry with hentry | hentry
    · obtain ⟨f, signal, hwindow⟩ := h.entries entry hentry hevent
      exact ⟨f, signal, hwindow.mono _⟩
    rcases List.mem_append.mp hentry with hentry | hentry
    · rcases List.mem_append.mp hentry with hentry | hentry
      · obtain ⟨p, -, first, hfirst, hentry⟩ := hjournal entry hentry
        cases attemptExit_step hfirst with
        | kept => simp at hentry
        | exits _ _ hstep =>
            obtain ⟨-, -, -, hkind⟩ := hstep.journaled hentry
            simp [hevent] at hkind
      · obtain ⟨signal, hsignal, before, first, hfirst, hentry⟩ := hentered entry hentry
        exact ⟨frame, signal, (executeSignal_step hfirst).window (h.pending signal hsignal) hentry hevent⟩
    · obtain ⟨signal, -, rfl⟩ := List.mem_map.mp hentry
      cases hevent
  · rcases List.mem_append.mp htrade with htrade | htrade
    · exact (h.trades trade htrade).mono _
    · obtain ⟨p, hp, first, hfirst, htrade⟩ := htrades trade htrade
      exact (h.attempt hs hp hfirst).2 trade htrade

theorem replayLoop_grounded (h : replayLoop ctx config frames = .ok s) : Grounded ctx config frames s :=
  replayLoop_invariant (Grounded ctx config) .start (fun _ _ _ _ hs hgrounded hframe => hgrounded.step hs hframe) h

/-- The bar a decision is made from is later than the entry. -/
theorem DecidedFrom.after_entry (hsorted : frames.Pairwise fun f g => f.timestamp.instant < g.timestamp.instant)
    {position : OpenPosition} {bar : OptionBar} {reason : ExitReason}
    (h : DecidedFrom ctx config frames position bar reason) :
    position.entryTime.instant < bar.timestamp.instant := by
  obtain ⟨before, frame, after, s, rfl, hs, hposition, hbar, -, -⟩ := h
  obtain ⟨f, hf, htime⟩ := (replayLoop_grounded hs).entered position hposition
  rw [htime, frame.bars_at bar (ReplayFrame.bar_mem hbar).1]
  exact (List.pairwise_append.mp hsorted).2.2 f hf frame List.mem_cons_self

theorem Ends.noLookahead {report : BacktestReport} {exits : ExitPass}
    (hends : Ends ctx config s report exits) (hvalid : ValidSequence frames)
    (hs : replayLoop ctx config frames = .ok s) : NoLookahead ctx config frames report := by
  have hgrounded := replayLoop_grounded hs
  obtain ⟨hpositions, htrades, hjournal⟩ := exitPass_mem hends.liquidated
  -- A reason the liquidation leaves was pending already, unless it is the end of the data.
  have hreason : ∀ p ∈ s.positions, ∀ reason, p.exitReason.getD .endOfData = reason →
      reason ≠ .endOfData → Decided ctx config frames p.signal.signalId p.entryTime reason := by
    intro p hp reason hreason hne
    cases hpending : p.exitReason with
    | none => exact absurd (hreason.symm.trans (by rw [hpending]; rfl)) hne
    | some pending =>
        obtain rfl : pending = reason := by simpa [hpending] using hreason
        exact hgrounded.reasons p hp pending hpending
  refine ⟨fun entry hentry hevent => ?_, fun _ _ _ => DecidedFrom.after_entry hvalid.sorted,
    fun trade htrade hne => ?_, fun summary hsummary reason hpending hne => ?_⟩
  · rw [hends.journal] at hentry
    rcases List.mem_append.mp hentry with hentry | hentry
    · exact hgrounded.entries entry hentry hevent
    rcases List.mem_append.mp hentry with hentry | hentry
    · obtain ⟨p, -, first, hfirst, hentry⟩ := hjournal entry hentry
      cases liquidate_step hfirst with
      | kept => simp at hentry
      | exits _ _ hstep =>
          obtain ⟨-, -, -, hkind⟩ := hstep.journaled hentry
          simp [hevent] at hkind
    · obtain ⟨signal, -, rfl⟩ := List.mem_map.mp hentry
      cases hevent
  · rw [hends.trades] at htrade
    rcases List.mem_append.mp htrade with htrade | htrade
    · exact hgrounded.trades trade htrade
    · obtain ⟨p, hp, first, hfirst, htrade⟩ := htrades trade htrade
      cases liquidate_step hfirst with
      | kept => simp at htrade
      | exits _ hat hstep =>
          obtain ⟨hsignal, -, hentry, hexit⟩ := hstep.traded htrade
          rw [hsignal, hentry]
          refine hreason p hp _ ?_ hne
          rw [hexit]
          cases hpending : p.exitReason <;> simp_all
  · rw [hends.openPositions] at hsummary
    obtain ⟨q, hq, rfl⟩ := List.mem_map.mp hsummary
    obtain ⟨p, hp, first, hfirst, hq⟩ := hpositions q (List.mem_insertionSort _ |>.mp hq)
    have hdecided : Decided ctx config frames p.signal.signalId p.entryTime reason := by
      cases liquidate_step hfirst with
      | kept =>
          obtain rfl := List.mem_singleton.mp hq
          exact hgrounded.reasons q hp reason hpending
      | exits _ hat hstep =>
          obtain ⟨-, -, hexit, -⟩ := hstep.left hq
          refine hreason p hp reason ?_ hne
          have hpending : q.exitReason = some reason := hpending
          rw [hexit] at hpending
          cases hold : p.exitReason <;> simp_all
    obtain ⟨position, bar, hfrom, hsignal, -⟩ := hdecided
    refine ⟨position, bar, hfrom, hsignal.trans ?_⟩
    cases liquidate_step hfirst with
    | kept =>
        obtain rfl := List.mem_singleton.mp hq
        rfl
    | exits _ _ hstep => rw [OpenPosition.summary, (hstep.left hq).1]

theorem foldlM_extends {frames : List ReplayFrame} (h : frames.foldlM (replayFrame ctx config) s = .ok s') :
    s.journal <+: s'.journal ∧ s.trades <+: s'.trades := by
  induction frames generalizing s with
  | nil =>
      cases h
      exact ⟨List.prefix_rfl, List.prefix_rfl⟩
  | cons frame frames ih =>
      rw [List.foldlM_cons] at h
      obtain ⟨next, hnext, h⟩ := Except.bind_eq_ok.mp h
      obtain ⟨exits, entries, -, -, rfl⟩ := replayFrame_eq_ok.mp hnext
      obtain ⟨hjournal, htrades⟩ := ih h
      exact ⟨(List.prefix_append _ _).trans hjournal, (List.prefix_append _ _).trans htrades⟩

end

end TecoQuant.Backtest
