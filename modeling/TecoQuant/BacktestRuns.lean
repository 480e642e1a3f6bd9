import Mathlib.Data.List.Induction
import TecoQuant.BacktestSteps

/-! Passes, frames and runs. A run of a valid sequence never fails; an account that every exit attempt and
every pending signal conserves is conserved by the whole run. -/

namespace TecoQuant.Backtest

section Passes

variable {ctx : DecimalContext} {config : BacktestConfig} {attempt : OpenPosition → Except Fault ExitPass}
  {positions : List OpenPosition} {pass : ExitPass}

theorem exitPass_cons_eq_ok {position : OpenPosition} :
    exitPass attempt (position :: positions) = .ok pass ↔ ∃ first rest, attempt position = .ok first ∧
      exitPass attempt positions = .ok rest ∧ pass = ⟨first.positions ++ rest.positions,
        first.trades ++ rest.trades, first.journal ++ rest.journal⟩ := by
  simp only [exitPass, Except.bind_eq_ok]
  constructor
  · rintro ⟨first, hfirst, rest, hrest, heq⟩
    cases heq
    exact ⟨first, rest, hfirst, hrest, rfl⟩
  · rintro ⟨first, rest, hfirst, hrest, rfl⟩
    exact ⟨first, hfirst, rest, hrest, rfl⟩

theorem exitPass_succeeds (h : ∀ position ∈ positions, ∃ first, attempt position = .ok first) :
    ∃ pass, exitPass attempt positions = .ok pass := by
  induction positions with
  | nil => exact ⟨_, rfl⟩
  | cons position positions ih =>
      obtain ⟨first, hfirst⟩ := h position List.mem_cons_self
      obtain ⟨rest, hrest⟩ := ih fun p hp => h p (List.mem_cons_of_mem _ hp)
      exact ⟨_, exitPass_cons_eq_ok.mpr ⟨first, rest, hfirst, hrest, rfl⟩⟩

/-- Everything in a pass comes from the attempt at one of the positions. -/
theorem exitPass_mem (h : exitPass attempt positions = .ok pass) :
    (∀ q ∈ pass.positions, ∃ p ∈ positions, ∃ first, attempt p = .ok first ∧ q ∈ first.positions) ∧
      (∀ trade ∈ pass.trades, ∃ p ∈ positions, ∃ first, attempt p = .ok first ∧ trade ∈ first.trades) ∧
      ∀ entry ∈ pass.journal, ∃ p ∈ positions, ∃ first, attempt p = .ok first ∧ entry ∈ first.journal := by
  induction positions generalizing pass with
  | nil =>
      cases h
      simp
  | cons position positions ih =>
      obtain ⟨first, rest, hfirst, hrest, rfl⟩ := exitPass_cons_eq_ok.mp h
      obtain ⟨hpositions, htrades, hjournal⟩ := ih hrest
      refine ⟨fun q hq => ?_, fun trade htrade => ?_, fun entry hentry => ?_⟩
      · rcases List.mem_append.mp hq with hq | hq
        · exact ⟨position, List.mem_cons_self, first, hfirst, hq⟩
        · obtain ⟨p, hp, hof⟩ := hpositions q hq
          exact ⟨p, List.mem_cons_of_mem _ hp, hof⟩
      · rcases List.mem_append.mp htrade with htrade | htrade
        · exact ⟨position, List.mem_cons_self, first, hfirst, htrade⟩
        · obtain ⟨p, hp, hof⟩ := htrades trade htrade
          exact ⟨p, List.mem_cons_of_mem _ hp, hof⟩
      · rcases List.mem_append.mp hentry with hentry | hentry
        · exact ⟨position, List.mem_cons_self, first, hfirst, hentry⟩
        · obtain ⟨p, hp, hof⟩ := hjournal entry hentry
          exact ⟨p, List.mem_cons_of_mem _ hp, hof⟩

variable {frame : ReplayFrame} {signal : BacktestSignal} {pending : List BacktestSignal}
  {entries : PendingPass}

theorem executePending_cons_eq_ok :
    executePending ctx config frame (signal :: pending) positions = .ok entries ↔ ∃ first rest,
      executeSignal ctx config frame signal positions = .ok first ∧
      executePending ctx config frame pending first.positions = .ok rest ∧
      entries = ⟨first.stillPending ++ rest.stillPending, rest.positions, first.journal ++ rest.journal⟩ := by
  simp only [executePending, Except.bind_eq_ok]
  constructor
  · rintro ⟨first, hfirst, rest, hrest, heq⟩
    cases heq
    exact ⟨first, rest, hfirst, hrest, rfl⟩
  · rintro ⟨first, rest, hfirst, hrest, rfl⟩
    exact ⟨first, hfirst, rest, hrest, rfl⟩

/-- A property of the open positions that every pending signal keeps. -/
theorem executePending_invariant (Inv : List OpenPosition → Prop)
    (hstep : ∀ signal positions first, executeSignal ctx config frame signal positions = .ok first →
      Inv positions → Inv first.positions)
    (h : executePending ctx config frame pending positions = .ok entries) (hpositions : Inv positions) :
    Inv entries.positions := by
  induction pending generalizing positions entries with
  | nil =>
      cases h
      exact hpositions
  | cons signal pending ih =>
      obtain ⟨first, rest, hfirst, hrest, rfl⟩ := executePending_cons_eq_ok.mp h
      have hrest := ih hrest (hstep signal positions first hfirst hpositions)
      exact hrest

/-- Everything a pass over pending signals leaves pending or journals comes from one of them. -/
theorem executePending_mem (h : executePending ctx config frame pending positions = .ok entries) :
    (∀ signal ∈ entries.stillPending, signal ∈ pending) ∧
      ∀ entry ∈ entries.journal, ∃ signal ∈ pending, ∃ before first,
        executeSignal ctx config frame signal before = .ok first ∧ entry ∈ first.journal := by
  induction pending generalizing positions entries with
  | nil =>
      cases h
      simp
  | cons signal pending ih =>
      obtain ⟨first, rest, hfirst, hrest, rfl⟩ := executePending_cons_eq_ok.mp h
      obtain ⟨hstill, hjournal⟩ := ih hrest
      refine ⟨fun other hother => ?_, fun entry hentry => ?_⟩
      · rcases List.mem_append.mp hother with hother | hother
        · cases executeSignal_step hfirst <;> simp_all [skip]
        · exact List.mem_cons_of_mem _ (hstill other hother)
      · rcases List.mem_append.mp hentry with hentry | hentry
        · exact ⟨signal, List.mem_cons_self, positions, first, hfirst, hentry⟩
        · obtain ⟨other, hother, hof⟩ := hjournal entry hentry
          exact ⟨other, List.mem_cons_of_mem _ hother, hof⟩

theorem insertPosition_perm (p : OpenPosition) (positions : List OpenPosition) :
    (insertPosition p positions).Perm (p :: positions) :=
  List.perm_orderedInsert _ _ _

theorem mem_insertPosition {p q : OpenPosition} :
    p ∈ insertPosition q positions ↔ p = q ∨ p ∈ positions :=
  (insertPosition_perm q positions).mem_iff.trans List.mem_cons

end Passes

/-! ### Frames -/

section Frames

variable {ctx : DecimalContext} {config : BacktestConfig} {frames : List ReplayFrame} {frame : ReplayFrame}
  {s s' : ReplayState}

theorem replayFrame_eq_ok :
    replayFrame ctx config s frame = .ok s' ↔ ∃ exits entries,
      exitPass (attemptExit ctx config frame.bar) s.positions = .ok exits ∧
      executePending ctx config frame s.pending exits.positions = .ok entries ∧ s' = {
        pending := entries.stillPending ++ frame.signals
        positions := entries.positions
        trades := s.trades ++ exits.trades
        journal := s.journal ++ (exits.journal ++ entries.journal ++ frame.signals.map fun signal =>
          signal.note frame.timestamp .signal "signal queued for the first strictly later quote")
        latestBars := fun instrumentId => frame.bar instrumentId <|> s.latestBars instrumentId } := by
  simp only [replayFrame, Except.bind_eq_ok]
  constructor
  · rintro ⟨exits, hexits, entries, hentries, heq⟩
    cases heq
    exact ⟨exits, entries, hexits, hentries, rfl⟩
  · rintro ⟨exits, entries, hexits, hentries, rfl⟩
    exact ⟨exits, hexits, entries, hentries, rfl⟩

theorem replayLoop_append (frames' : List ReplayFrame) :
    replayLoop ctx config (frames ++ frames') =
      replayLoop ctx config frames >>= fun s => frames'.foldlM (replayFrame ctx config) s := by
  rw [replayLoop, List.foldlM_append]
  rfl

theorem replayLoop_concat_eq_ok :
    replayLoop ctx config (frames ++ [frame]) = .ok s' ↔
      ∃ s, replayLoop ctx config frames = .ok s ∧ replayFrame ctx config s frame = .ok s' := by
  rw [replayLoop_append, Except.bind_eq_ok]
  simp

/-- A property of the frames so far and the state after them that every frame keeps. -/
theorem replayLoop_invariant (Inv : List ReplayFrame → ReplayState → Prop) (hstart : Inv [] .initial)
    (hstep : ∀ frames frame s s', replayLoop ctx config frames = .ok s → Inv frames s →
      replayFrame ctx config s frame = .ok s' → Inv (frames ++ [frame]) s')
    (h : replayLoop ctx config frames = .ok s) : Inv frames s := by
  induction frames using List.reverseRecOn generalizing s with
  | nil =>
      cases h
      exact hstart
  | append_singleton frames frame ih =>
      obtain ⟨before, hbefore, hframe⟩ := replayLoop_concat_eq_ok.mp h
      exact hstep frames frame before s hbefore (ih hbefore) hframe

end Frames

/-! ### No step fails -/

/-- The numbers of an open position. -/
structure OpenPosition.Sound (position : OpenPosition) : Prop where
  remaining_pos : 0 < position.remainingQuantity
  exited : position.exitQuantity + position.remainingQuantity = position.quantity
  stop_lt : position.signal.stopPrice < position.entryPrice
  remaining_lots : position.signal.lotSize ∣ position.remainingQuantity

section Succeeds

variable {ctx : DecimalContext} {config : BacktestConfig} {position : OpenPosition} {bar : OptionBar}

theorem closeTrade_succeeds (ctx : DecimalContext) (position : OpenPosition) (bar : OptionBar)
    (reason : ExitReason) (hexit : 0 < position.exitQuantity)
    (hquantity : 0 < position.quantity) (hstop : position.signal.stopPrice < position.entryPrice) :
    ∃ trade, closeTrade ctx position bar reason = .ok trade := by
  have hrisk : 0 < ctx.mul (ctx.sub position.entryPrice position.signal.stopPrice) position.quantity :=
    ctx.mul_positive (ctx.sub_positive hstop) (by exact_mod_cast hquantity)
  have hlots : (0 : ℚ) < position.signal.lotSize := by exact_mod_cast position.signal.lotSize_pos
  unfold closeTrade
  exact ⟨_, Except.bind_eq_ok.mpr ⟨_, divide_eq_ok ctx (by exact_mod_cast hexit),
    Except.bind_eq_ok.mpr ⟨_, divide_eq_ok ctx hlots,
      Except.bind_eq_ok.mpr ⟨_, divide_eq_ok ctx hrisk, rfl⟩⟩⟩⟩

theorem executeExit_succeeds (ctx : DecimalContext) (config : BacktestConfig) (bar : OptionBar)
    (h : position.Sound) (reason : ExitReason) :
    ∃ pass, executeExit ctx config position bar reason = .ok pass := by
  unfold executeExit
  dsimp only
  split
  · exact ⟨_, rfl⟩
  · rename_i hquantity
    split
    · exact ⟨_, rfl⟩
    · obtain ⟨trade, htrade⟩ := closeTrade_succeeds ctx
        ((position.attempted bar reason).filled ctx config bar
          (fillableQuantity ctx config position.remainingQuantity bar.bidQuantity position.signal.lotSize))
        bar (position.exitReason.getD reason) (Nat.add_pos_right _ (Nat.pos_of_ne_zero hquantity))
        (h.exited ▸ Nat.add_pos_right _ h.remaining_pos) h.stop_lt
      exact ⟨_, by rw [htrade]; rfl⟩

theorem ExitStep.sound {reason : ExitReason} {pass : ExitPass}
    (hstep : ExitStep ctx config position bar reason pass) (h : position.Sound) :
    ∀ q ∈ pass.positions, q.Sound := by
  intro q hq
  cases hstep with
  | held =>
      obtain rfl := List.mem_singleton.mp hq
      exact ⟨h.remaining_pos, h.exited, h.stop_lt, h.remaining_lots⟩
  | @reduced quantity hquantity hpos hless =>
      obtain rfl := List.mem_singleton.mp hq
      have hlots : position.signal.lotSize ∣ quantity := hquantity ▸ fillableQuantity_dvd _ h.remaining_lots
      refine ⟨Nat.sub_pos_of_lt hless, ?_, h.stop_lt, Nat.dvd_sub h.remaining_lots hlots⟩
      have hexited := h.exited
      simp only [OpenPosition.filled, OpenPosition.attempted]
      omega
  | closed => simp at hq

theorem AttemptStep.sound {bar? : String → Option OptionBar}
    {trigger : OpenPosition → OptionBar → Option ExitReason} {pass : ExitPass}
    (hstep : AttemptStep ctx config bar? trigger position pass) (h : position.Sound) :
    ∀ q ∈ pass.positions, q.Sound := by
  cases hstep with
  | kept => simpa using h
  | exits _ _ hstep => exact hstep.sound h

theorem attemptExit_succeeds (ctx : DecimalContext) (config : BacktestConfig) (h : position.Sound)
    (bar? : String → Option OptionBar) :
    ∃ pass, attemptExit ctx config bar? position = .ok pass := by
  unfold attemptExit
  split
  · exact ⟨_, rfl⟩
  · split
    · exact ⟨_, rfl⟩
    · exact executeExit_succeeds ctx config _ h _

theorem liquidate_succeeds (ctx : DecimalContext) (config : BacktestConfig) (h : position.Sound)
    (bar? : String → Option OptionBar) :
    ∃ pass, liquidate ctx config bar? position = .ok pass := by
  unfold liquidate
  split
  · exact ⟨_, rfl⟩
  · split
    · exact ⟨_, rfl⟩
    · split
      · exact ⟨_, rfl⟩
      · exact executeExit_succeeds ctx config _ h _

variable {frame : ReplayFrame} {signal : BacktestSignal} {positions : List OpenPosition}

theorem BacktestSignal.requestedQuantity_pos (signal : BacktestSignal) : 0 < signal.requestedQuantity :=
  Nat.mul_pos signal.lots_pos signal.lotSize_pos

theorem enterAt_succeeds (ctx : DecimalContext) (config : BacktestConfig) (frame : ReplayFrame)
    (signal : BacktestSignal) (positions : List OpenPosition) (bar : OptionBar) :
    ∃ pass, enterAt ctx config frame signal positions bar = .ok pass := by
  dsimp only [enterAt]
  split_ifs with hopen hquantity henabled
  · exact ⟨_, rfl⟩
  · exact ⟨_, rfl⟩
  · simp only [fillableQuantity, henabled, Bool.false_eq_true, if_false] at hquantity
    exact absurd hquantity signal.requestedQuantity_pos.ne'
  · exact ⟨_, rfl⟩
  · exact ⟨_, rfl⟩

theorem executeSignal_succeeds (ctx : DecimalContext) (config : BacktestConfig) (frame : ReplayFrame)
    (signal : BacktestSignal) (positions : List OpenPosition) :
    ∃ pass, executeSignal ctx config frame signal positions = .ok pass := by
  unfold executeSignal
  split_ifs
  · exact ⟨_, rfl⟩
  · exact ⟨_, rfl⟩
  · exact ⟨_, rfl⟩
  · split
    · exact ⟨_, rfl⟩
    · exact enterAt_succeeds ctx config frame signal positions _

theorem executePending_succeeds (ctx : DecimalContext) (config : BacktestConfig) (frame : ReplayFrame)
    (pending : List BacktestSignal) (positions : List OpenPosition) :
    ∃ pass, executePending ctx config frame pending positions = .ok pass := by
  induction pending generalizing positions with
  | nil => exact ⟨_, rfl⟩
  | cons signal pending ih =>
      obtain ⟨first, hfirst⟩ := executeSignal_succeeds ctx config frame signal positions
      obtain ⟨rest, hrest⟩ := ih first.positions
      exact ⟨_, executePending_cons_eq_ok.mpr ⟨first, rest, hfirst, hrest, rfl⟩⟩

theorem EntryStep.sound {pass : PendingPass} (hstep : EntryStep ctx config frame signal positions pass)
    (h : ∀ p ∈ positions, p.Sound) : ∀ p ∈ pass.positions, p.Sound := by
  cases hstep with
  | waits => exact h
  | unfilled => exact h
  | skipped => exact h
  | entered _ _ _ _ _ hquantity hpos hstop =>
      intro p hp
      rcases mem_insertPosition.mp hp with rfl | hp
      · refine ⟨hpos, Nat.zero_add _, hstop, ?_⟩
        exact hquantity ▸ fillableQuantity_dvd _ (Nat.dvd_mul_left _ _)
      · exact h p hp

variable {s s' : ReplayState} {frames : List ReplayFrame}

theorem replayFrame_sound (h : replayFrame ctx config s frame = .ok s')
    (hs : ∀ p ∈ s.positions, p.Sound) : ∀ p ∈ s'.positions, p.Sound := by
  obtain ⟨exits, entries, hexits, hentries, rfl⟩ := replayFrame_eq_ok.mp h
  refine executePending_invariant (fun positions => ∀ p ∈ positions, p.Sound)
    (fun _ _ _ hfirst hp => (executeSignal_step hfirst).sound hp) hentries fun q hq => ?_
  obtain ⟨p, hp, first, hfirst, hq⟩ := (exitPass_mem hexits).1 q hq
  exact (attemptExit_step hfirst).sound (hs p hp) q hq

theorem replayLoop_sound (h : replayLoop ctx config frames = .ok s) : ∀ p ∈ s.positions, p.Sound :=
  replayLoop_invariant (fun _ s => ∀ p ∈ s.positions, p.Sound)
    (by simp [ReplayState.initial]) (fun _ _ _ _ _ hs hframe => replayFrame_sound hframe hs) h

theorem replayFrame_succeeds (hs : ∀ p ∈ s.positions, p.Sound) (frame : ReplayFrame) :
    ∃ s', replayFrame ctx config s frame = .ok s' := by
  obtain ⟨exits, hexits⟩ := exitPass_succeeds fun p hp =>
    attemptExit_succeeds ctx config (hs p hp) frame.bar
  obtain ⟨entries, hentries⟩ := executePending_succeeds ctx config frame s.pending exits.positions
  exact ⟨_, replayFrame_eq_ok.mpr ⟨exits, entries, hexits, hentries, rfl⟩⟩

theorem replayLoop_succeeds (ctx : DecimalContext) (config : BacktestConfig) (frames : List ReplayFrame) :
    ∃ s, replayLoop ctx config frames = .ok s := by
  induction frames using List.reverseRecOn with
  | nil => exact ⟨_, rfl⟩
  | append_singleton frames frame ih =>
      obtain ⟨s, hs⟩ := ih
      obtain ⟨s', hs'⟩ := replayFrame_succeeds (replayLoop_sound hs) frame
      exact ⟨s', replayLoop_concat_eq_ok.mpr ⟨s, hs, hs'⟩⟩

end Succeeds

/-! ### Valid sequences and whole runs -/

/-- A replay has frames in strictly ascending order, and each signal id once. -/
structure ValidSequence (frames : List ReplayFrame) : Prop where
  nonempty : frames ≠ []
  sorted : frames.Pairwise fun f g => f.timestamp.instant < g.timestamp.instant
  unique : ((frames.flatMap ReplayFrame.signals).map BacktestSignal.signalId).Nodup

theorem addSignalIds_eq_ok {signalIds known : List String} {signals : List BacktestSignal} :
    addSignalIds signalIds signals = .ok known ↔ (signals.map BacktestSignal.signalId).Nodup ∧
      (∀ signal ∈ signals, signal.signalId ∉ signalIds) ∧
      known = (signals.map BacktestSignal.signalId).reverse ++ signalIds := by
  induction signals generalizing signalIds with
  | nil => simp [addSignalIds, eq_comm]
  | cons signal signals ih =>
      simp only [addSignalIds, Except.ite_error_eq_ok, ih, List.map_cons, List.nodup_cons,
        List.mem_cons, forall_eq_or_imp, List.reverse_cons, List.append_assoc, List.singleton_append,
        List.mem_map, not_exists, not_and, not_or]
      constructor
      · rintro ⟨hnew, hnodup, hfree, rfl⟩
        exact ⟨⟨fun other hother => (hfree other hother).1, hnodup⟩,
          ⟨hnew, fun other hother => (hfree other hother).2⟩, rfl⟩
      · rintro ⟨⟨hother, hnodup⟩, ⟨hnew, hfree⟩, rfl⟩
        exact ⟨hnew, hnodup, fun other hmem => ⟨hother other hmem, hfree other hmem⟩, rfl⟩

theorem validateFrames_eq_ok {previous : Option Int} {signalIds : List String} {frames : List ReplayFrame} :
    validateFrames previous signalIds frames = .ok () ↔
      (∀ instant ∈ previous, ∀ frame ∈ frames, instant < frame.timestamp.instant) ∧
      (frames.Pairwise fun f g => f.timestamp.instant < g.timestamp.instant) ∧
      ((frames.flatMap ReplayFrame.signals).map BacktestSignal.signalId).Nodup ∧
      ∀ signal ∈ frames.flatMap ReplayFrame.signals, signal.signalId ∉ signalIds := by
  induction frames generalizing previous signalIds with
  | nil => simp [validateFrames]
  | cons frame frames ih =>
      simp only [validateFrames, Except.ite_error_eq_ok, Except.bind_eq_ok, addSignalIds_eq_ok, ih,
        Option.mem_some_iff, forall_eq', not_exists, not_and, not_le]
      constructor
      · rintro ⟨hafter, known, ⟨hnodup, hfree, rfl⟩, hlater, hsorted, hunique, hrest⟩
        refine ⟨fun t ht g hg => ?_, List.pairwise_cons.mpr ⟨hlater, hsorted⟩, ?_, fun signal hsignal => ?_⟩
        · rcases List.mem_cons.mp hg with rfl | hg
          · exact hafter t ht
          · exact (hafter t ht).trans (hlater g hg)
        · rw [List.flatMap_cons, List.map_append]
          refine List.nodup_append.mpr ⟨hnodup, hunique, ?_⟩
          rintro id hid id' hid' rfl
          obtain ⟨signal, hsignal, rfl⟩ := List.mem_map.mp hid'
          exact hrest signal hsignal (by simp [List.mem_map.mp hid])
        · rcases List.mem_append.mp (List.flatMap_cons ▸ hsignal) with hsignal | hsignal
          · exact hfree signal hsignal
          · exact fun hknown => hrest signal hsignal (List.mem_append_right _ hknown)
      · rintro ⟨hafter, hsorted, hunique, hfree⟩
        rw [List.flatMap_cons, List.map_append, List.nodup_append] at hunique
        obtain ⟨hnodup, hunique, hdisjoint⟩ := hunique
        obtain ⟨hlater, hsorted⟩ := List.pairwise_cons.mp hsorted
        simp only [List.flatMap_cons, List.mem_append] at hfree
        refine ⟨fun t ht => hafter t ht frame List.mem_cons_self, _,
          ⟨hnodup, fun signal hsignal => hfree signal (.inl hsignal), rfl⟩, hlater, hsorted, hunique,
          fun signal hsignal hknown => ?_⟩
        rcases List.mem_append.mp hknown with hknown | hknown
        · exact hdisjoint _ (List.mem_reverse.mp hknown) _ (List.mem_map_of_mem hsignal) rfl
        · exact hfree signal (.inr hsignal) hknown

theorem validateSequence_eq_ok {frames : List ReplayFrame} :
    validateSequence frames = .ok () ↔ ValidSequence frames := by
  rw [validateSequence, Except.ite_error_eq_ok, validateFrames_eq_ok]
  constructor
  · rintro ⟨hnonempty, -, hsorted, hunique, -⟩
    exact ⟨hnonempty, hsorted, hunique⟩
  · rintro ⟨hnonempty, hsorted, hunique⟩
    exact ⟨hnonempty, by simp, hsorted, hunique, by simp⟩

/-- What the stage after the loop makes of the loop's last state. -/
structure Ends (ctx : DecimalContext) (config : BacktestConfig) (s : ReplayState)
    (report : BacktestReport) (exits : ExitPass) : Prop where
  liquidated : exitPass (liquidate ctx config s.latestBars) s.positions = .ok exits
  trades : report.trades = s.trades ++ exits.trades
  journal : report.journal = s.journal ++ (exits.journal ++ s.pending.map fun signal =>
    signal.note report.endedAt .unfilled "no later executable quote before the replay ended")
  openPositions : report.openPositions = (exits.positions.insertionSort fun p q =>
    p.signal.signalId ≤ q.signal.signalId).map OpenPosition.summary

section Runs

variable {ctx : DecimalContext} {config : BacktestConfig} {frames : List ReplayFrame} {s : ReplayState}

theorem finish_succeeds (ctx : DecimalContext) (config : BacktestConfig) (hs : ∀ p ∈ s.positions, p.Sound)
    (startedAt endedAt : Datetime) :
    ∃ report exits, finish ctx config startedAt endedAt s = .ok report ∧
      Ends ctx config s report exits := by
  obtain ⟨exits, hexits⟩ := exitPass_succeeds fun p hp =>
    liquidate_succeeds ctx config (hs p hp) s.latestBars
  obtain ⟨metrics, hmetrics⟩ := calculateMetrics_succeeds ctx config.capital_pos startedAt endedAt
    (s.trades ++ exits.trades)
  obtain ⟨breakdowns, hbreakdowns⟩ := buildBreakdowns_succeeds ctx (s.trades ++ exits.trades)
  unfold finish
  exact ⟨_, exits, Except.bind_eq_ok.mpr ⟨exits, hexits, Except.bind_eq_ok.mpr ⟨metrics, hmetrics,
    Except.bind_eq_ok.mpr ⟨breakdowns, hbreakdowns, rfl⟩⟩⟩, hexits, rfl, rfl, rfl⟩

/-- A valid replay returns a report. -/
theorem run_succeeds (ctx : DecimalContext) (config : BacktestConfig) (hvalid : ValidSequence frames) :
    ∃ s report exits,
    replayLoop ctx config frames = .ok s ∧ run ctx config frames = .ok report ∧
      Ends ctx config s report exits := by
  obtain ⟨s, hs⟩ := replayLoop_succeeds ctx config frames
  have hfirst := List.head?_eq_some_head hvalid.nonempty
  have hlast := List.getLast?_eq_some_getLast hvalid.nonempty
  obtain ⟨report, exits, hreport, hends⟩ := finish_succeeds ctx config
    (replayLoop_sound hs) (frames.head hvalid.nonempty).timestamp (frames.getLast hvalid.nonempty).timestamp
  refine ⟨s, report, exits, hs, ?_, hends⟩
  simp only [run, validateSequence_eq_ok.mpr hvalid, hfirst, hlast, hs]
  exact hreport

end Runs

/-! ### A replay -/

/-- A bar of instrument `X` with ten contracts on each side at 100. -/
def OptionBar.sample (t : Int) (low : ℚ) (hpos : 0 < low) (hle : low ≤ 100) : OptionBar where
  instrumentId := "X"
  timestamp := .utc t
  openPrice := 100
  high := 100
  low := low
  close := 100
  bid := 100
  ask := 100
  bidQuantity := some 10
  askQuantity := some 10
  named := by decide
  aware := rfl
  positive := by simp [hpos]
  high_le := by simp [hle]
  low_le := by simp [hle]
  bid_le_ask := le_rfl

/-- A signal for one lot of ten contracts of instrument `X`. -/
def BacktestSignal.sample (signalId : String) (t : Int) (hnamed : ¬PyText.Blank signalId) (ht : t < 1000) :
    BacktestSignal where
  signalId := signalId
  instrumentId := "X"
  generatedAt := .utc t
  optionSide := "CALL"
  lots := 1
  lotSize := 10
  stopPrice := 50
  targetPrice := 150
  contractExpiry := .utc 1000
  score := 80
  scoreBand := "80+"
  market := "NSE"
  expiryBucket := "WEEKLY"
  moneyness := "ATM"
  timeBucket := "MORNING"
  volatilityBucket := "LOW"
  regime := "TREND"
  maxHolding := none
  validUntil := none
  named := ⟨hnamed, by decide, by decide⟩
  aware := ⟨rfl, rfl, by simp⟩
  expires := by simpa using ht
  valid_after := by simp
  holding_pos := by simp
  lots_pos := by decide
  lotSize_pos := by decide
  stop_nonneg := by norm_num
  stop_lt_target := by norm_num
  score_range := by norm_num
  dimensions := by decide

/-- The bar that stops the first signal out. -/
def sampleExitBar : OptionBar := .sample 2 40 (by norm_num) (by norm_num)

/-- Two signals for one instrument: the first is stopped out in the last frame, in which the second
enters. -/
def sampleFrames : List ReplayFrame :=
  [{ timestamp := .utc 0
     bars := []
     signals := [.sample "s1" 0 (by decide) (by decide)]
     aware := rfl
     bars_at := by simp
     bars_unique := by simp
     signals_at := by simp [BacktestSignal.sample]
     signals_unique := by simp },
   { timestamp := .utc 1
     bars := [.sample 1 100 (by norm_num) (by norm_num)]
     signals := [.sample "s2" 1 (by decide) (by decide)]
     aware := rfl
     bars_at := by simp [OptionBar.sample]
     bars_unique := by simp
     signals_at := by simp [BacktestSignal.sample]
     signals_unique := by simp },
   { timestamp := .utc 2
     bars := [sampleExitBar]
     signals := []
     aware := rfl
     bars_at := by simp [sampleExitBar, OptionBar.sample]
     bars_unique := by simp
     signals_at := by simp
     signals_unique := by simp }]

/-- A signal held for `timedelta.max` at most, entered in the second frame. -/
def Calendar.heldFrames : List ReplayFrame :=
  [{ timestamp := .utc 0
     bars := []
     signals := [{ BacktestSignal.sample "s1" 0 (by decide) (by decide) with
       maxHolding := some 86399999999999999999
       holding_pos := by simp }]
     aware := rfl
     bars_at := by simp
     bars_unique := by simp
     signals_at := by simp [BacktestSignal.sample]
     signals_unique := by simp },
   { timestamp := .utc 1
     bars := [.sample 1 100 (by norm_num) (by norm_num)]
     signals := []
     aware := rfl
     bars_at := by simp [OptionBar.sample]
     bars_unique := by simp
     signals_at := by simp
     signals_unique := by simp },
   { timestamp := .utc 2
     bars := [.sample 2 100 (by norm_num) (by norm_num)]
     signals := []
     aware := rfl
     bars_at := by simp [OptionBar.sample]
     bars_unique := by simp
     signals_at := by simp
     signals_unique := by simp }]

/-- A frame at any microsecond of the calendar with one bar, which stops positions out when its low is small. -/
def longFrame (t : Int) (low : ℚ) (hpos : 0 < low) (hle : low ≤ 100) (signals : List BacktestSignal)
    (hat : ∀ signal ∈ signals, signal.generatedAt.instant = t)
    (hunique : (signals.map BacktestSignal.signalId).Nodup) : ReplayFrame where
  timestamp := .utc t
  bars := [.sample t low hpos hle]
  signals := signals
  aware := rfl
  bars_at := by simp [OptionBar.sample]
  bars_unique := by simp
  signals_at := by simpa using hat
  signals_unique := hunique

/-- A signal of any time before the calendar's last microsecond, whose contract expires with it. -/
def longSignal (signalId : String) (t : Int) (hnamed : ¬PyText.Blank signalId) (ht : t < 253402300799999999) :
    BacktestSignal :=
  { BacktestSignal.sample signalId 0 hnamed (by decide) with
    generatedAt := .utc t
    contractExpiry := .utc 253402300799999999
    aware := ⟨rfl, rfl, by simp [BacktestSignal.sample]⟩
    expires := by simpa using ht
    valid_after := by simp [BacktestSignal.sample] }

/-- Two positions of some 4900 years each, with a microsecond before each of them. -/
def longFrames : List ReplayFrame :=
  [longFrame (-62135596800000000) 100 (by norm_num) (by norm_num)
      [longSignal "s1" (-62135596800000000) (by decide) (by norm_num)] (by simp [longSignal]) (by simp),
    longFrame (-62135596799999999) 100 (by norm_num) (by norm_num) [] (by simp) (by simp),
    longFrame (92864403200140892) 40 (by norm_num) (by norm_num)
      [longSignal "s2" 92864403200140892 (by decide) (by norm_num)] (by simp [longSignal]) (by simp),
    longFrame (92864403200140893) 100 (by norm_num) (by norm_num) [] (by simp) (by simp),
    longFrame (247864403200737746) 40 (by norm_num) (by norm_num) [] (by simp) (by simp)]

/-- Partial fills up to the whole displayed depth, without slippage and costs. -/
def sampleConfig : BacktestConfig where
  initialCapital := 100000
  slippage := ⟨0, 0, 0, 0, by norm_num⟩
  costs := ⟨0, 0, 0, 0, 0, 0, by norm_num, by norm_num⟩
  partialFills := ⟨true, 1, by norm_num, by norm_num⟩
  capital_pos := by norm_num

/-- The same without partial fills. -/
def Calendar.heldConfig : BacktestConfig :=
  { sampleConfig with partialFills := ⟨false, 1, by norm_num, by norm_num⟩ }

end TecoQuant.Backtest
