import TecoQuant.BacktestConservation

/-! Instruments do not interfere. What a replay does with one instrument is what the replay of the frames
without the other instruments does, and the order of the bars inside a frame plays no part. -/

namespace TecoQuant.Backtest

/-- The frame without the other instruments. -/
def ReplayFrame.restrict (instrumentId : String) (frame : ReplayFrame) : ReplayFrame where
  timestamp := frame.timestamp
  bars := frame.bars.filter (·.instrumentId = instrumentId)
  signals := frame.signals.filter (·.instrumentId = instrumentId)
  aware := frame.aware
  bars_at bar hbar := frame.bars_at bar (List.mem_of_mem_filter hbar)
  bars_unique := frame.bars_unique.sublist (List.filter_sublist.map _)
  signals_at signal hsignal := frame.signals_at signal (List.mem_of_mem_filter hsignal)
  signals_unique := frame.signals_unique.sublist (List.filter_sublist.map _)

def ExitPass.restrict (instrumentId : String) (pass : ExitPass) : ExitPass where
  positions := pass.positions.filter (·.signal.instrumentId = instrumentId)
  trades := pass.trades.filter (·.instrumentId = instrumentId)
  journal := pass.journal.filter (·.instrumentId = instrumentId)

def PendingPass.restrict (instrumentId : String) (pass : PendingPass) : PendingPass where
  stillPending := pass.stillPending.filter (·.instrumentId = instrumentId)
  positions := pass.positions.filter (·.signal.instrumentId = instrumentId)
  journal := pass.journal.filter (·.instrumentId = instrumentId)

def ReplayState.restrict (instrumentId : String) (s : ReplayState) : ReplayState where
  pending := s.pending.filter (·.instrumentId = instrumentId)
  positions := s.positions.filter (·.signal.instrumentId = instrumentId)
  trades := s.trades.filter (·.instrumentId = instrumentId)
  journal := s.journal.filter (·.instrumentId = instrumentId)
  latestBars other := if other = instrumentId then s.latestBars other else none

/-! ### Steps -/

section

variable {ctx : DecimalContext} {config : BacktestConfig} {X : String} {frame : ReplayFrame}
  {bar? : String → Option OptionBar} {trigger : OpenPosition → OptionBar → Option ExitReason}
  {position : OpenPosition} {positions : List OpenPosition} {pass : ExitPass}
  {attempt attempt' : OpenPosition → Except Fault ExitPass}

/-- The outcome of an attempt belongs to the instrument of its position. -/
theorem AttemptStep.restrict (hstep : AttemptStep ctx config bar? trigger position pass) :
    pass.restrict X = if position.signal.instrumentId = X then pass else ⟨[], [], []⟩ := by
  by_cases hsame : position.signal.instrumentId = X
  all_goals
    cases hstep with
    | kept => simp [ExitPass.restrict, hsame]
    | exits _ _ hstep =>
        cases hstep with
        | held => simp [ExitPass.restrict, OpenPosition.attempted, BacktestSignal.note, hsame]
        | reduced =>
            simp [ExitPass.restrict, OpenPosition.attempted, OpenPosition.filled, exitFillEntry, hsame]
        | closed _ _ _ htrade =>
            have hinstrument := (closeTrade_eq_ok htrade).2.1
            simp [ExitPass.restrict, OpenPosition.attempted, OpenPosition.filled, exitFillEntry, exitEntry,
              hinstrument, hsame]

/-- A pass over the positions of one instrument does there what the whole pass does. -/
theorem exitPass_restrict
    (hattempt : ∀ p first, attempt p = .ok first → AttemptStep ctx config bar? trigger p first)
    (hsame : ∀ p, p.signal.instrumentId = X → attempt' p = attempt p)
    (h : exitPass attempt positions = .ok pass) :
    exitPass attempt' (positions.filter (·.signal.instrumentId = X)) = .ok (pass.restrict X) := by
  induction positions generalizing pass with
  | nil =>
      cases h
      rfl
  | cons position positions ih =>
      obtain ⟨first, rest, hfirst, hrest, rfl⟩ := exitPass_cons_eq_ok.mp h
      have hothers := ih hrest
      have hone := (hattempt position first hfirst).restrict (X := X)
      simp only [ExitPass.restrict, List.filter_append] at hothers ⊢
      by_cases hid : position.signal.instrumentId = X
      · rw [if_pos hid] at hone
        rw [List.filter_cons_of_pos (by simpa using hid)]
        refine exitPass_cons_eq_ok.mpr ⟨first, _, (hsame position hid).trans hfirst, hothers, ?_⟩
        rw [← hone]
        simp only [ExitPass.restrict, List.filter_filter, Bool.and_self]
      · rw [if_neg hid] at hone
        simp only [ExitPass.restrict, ExitPass.mk.injEq] at hone
        rw [List.filter_cons_of_neg (by simpa using hid), hothers, hone.1, hone.2.1, hone.2.2]
        rfl

theorem insertPosition_filter_other (hid : position.signal.instrumentId ≠ X) :
    (insertPosition position positions).filter (·.signal.instrumentId = X) =
      positions.filter (·.signal.instrumentId = X) := by
  unfold insertPosition
  induction positions with
  | nil => simp [hid]
  | cons p positions ih =>
      rw [List.orderedInsert_cons]
      split
      · simp [hid]
      · rw [List.filter_cons, ih, List.filter_cons]

theorem insertPosition_filter_same (hid : position.signal.instrumentId = X)
    (hfree : ∀ p ∈ positions, p.signal.instrumentId ≠ X) :
    (insertPosition position positions).filter (·.signal.instrumentId = X) =
      insertPosition position (positions.filter (·.signal.instrumentId = X)) := by
  have hnone : positions.filter (·.signal.instrumentId = X) = [] :=
    List.filter_eq_nil_iff.mpr fun p hp => by simpa using hfree p hp
  have hperm := (insertPosition_perm position positions).filter (·.signal.instrumentId = X)
  rw [List.filter_cons_of_pos (by simpa using hid), hnone] at hperm
  rw [List.perm_singleton.mp hperm, hnone]
  rfl

theorem ReplayFrame.restrict_bar : (frame.restrict X).bar X = frame.bar X := by
  simp only [ReplayFrame.bar, ReplayFrame.restrict, List.find?_filter]
  congr 1
  funext bar
  simp

theorem ReplayFrame.restrict_bar_other {instrumentId : String} (hid : instrumentId ≠ X) :
    (frame.restrict X).bar instrumentId = none := by
  refine List.find?_eq_none.mpr fun bar hbar hsame => hid ?_
  have hX : bar.instrumentId = X := by simpa using (List.mem_filter.mp hbar).2
  exact (of_decide_eq_true hsame).symm.trans hX

theorem exists_position_filter {signal : BacktestSignal} (hid : signal.instrumentId = X) :
    (∃ p ∈ positions.filter (·.signal.instrumentId = X), p.signal.instrumentId = signal.instrumentId) ↔
      ∃ p ∈ positions, p.signal.instrumentId = signal.instrumentId := by
  constructor
  · rintro ⟨p, hp, hsame⟩
    exact ⟨p, List.mem_of_mem_filter hp, hsame⟩
  · rintro ⟨p, hp, hsame⟩
    exact ⟨p, List.mem_filter.mpr ⟨hp, by simpa using hsame.trans hid⟩, hsame⟩

variable {signal : BacktestSignal} {entries : PendingPass}

theorem enterAt_restrict {bar : OptionBar} (hid : signal.instrumentId = X)
    (h : enterAt ctx config frame signal positions bar = .ok entries) :
    enterAt ctx config (frame.restrict X) signal (positions.filter (·.signal.instrumentId = X)) bar =
      .ok (entries.restrict X) := by
  dsimp only [enterAt] at h ⊢
  simp only [exists_position_filter hid]
  split_ifs at h ⊢ with hopen hquantity henabled hprice
  · cases h
    simp [skip, PendingPass.restrict, BacktestSignal.note, hid, ReplayFrame.restrict]
  · cases h
    simp [PendingPass.restrict, BacktestSignal.note, hid, ReplayFrame.restrict]
  · cases h
    simp only [PendingPass.restrict]
    rw [insertPosition_filter_same hid fun p hp hsame => hopen ⟨p, hp, hsame.trans hid.symm⟩]
    simp [entryEntry, hid, ReplayFrame.restrict, openPosition]
  · cases h
    simp [skip, PendingPass.restrict, BacktestSignal.note, hid, ReplayFrame.restrict]

theorem executeSignal_restrict (hid : signal.instrumentId = X)
    (h : executeSignal ctx config frame signal positions = .ok entries) :
    executeSignal ctx config (frame.restrict X) signal (positions.filter (·.signal.instrumentId = X)) =
      .ok (entries.restrict X) := by
  have htime : (frame.restrict X).timestamp = frame.timestamp := rfl
  have hbar : (frame.restrict X).bar signal.instrumentId = frame.bar signal.instrumentId := by
    rw [hid]
    exact ReplayFrame.restrict_bar
  unfold executeSignal at h ⊢
  rw [htime, hbar]
  split_ifs at h ⊢
  · cases h
    simp [PendingPass.restrict, hid]
  · cases h
    simp [skip, PendingPass.restrict, BacktestSignal.note, hid, ReplayFrame.restrict]
  · cases h
    simp [skip, PendingPass.restrict, BacktestSignal.note, hid, ReplayFrame.restrict]
  · split at h
    · cases h
      simp [PendingPass.restrict, hid]
    · exact enterAt_restrict hid h

/-- A signal for another instrument leaves this one alone. -/
theorem EntryStep.restrict_other (hstep : EntryStep ctx config frame signal positions entries)
    (hid : signal.instrumentId ≠ X) :
    entries.restrict X = ⟨[], positions.filter (·.signal.instrumentId = X), []⟩ := by
  cases hstep with
  | waits => simp [PendingPass.restrict, hid]
  | unfilled => simp [PendingPass.restrict, BacktestSignal.note, hid]
  | skipped => simp [PendingPass.restrict, skip, BacktestSignal.note, hid]
  | entered =>
      simp only [PendingPass.restrict]
      rw [insertPosition_filter_other hid]
      simp [entryEntry, hid]

theorem executePending_restrict {pending : List BacktestSignal}
    (h : executePending ctx config frame pending positions = .ok entries) :
    executePending ctx config (frame.restrict X) (pending.filter (·.instrumentId = X))
      (positions.filter (·.signal.instrumentId = X)) = .ok (entries.restrict X) := by
  induction pending generalizing positions entries with
  | nil =>
      cases h
      rfl
  | cons signal pending ih =>
      obtain ⟨first, rest, hfirst, hrest, rfl⟩ := executePending_cons_eq_ok.mp h
      have hothers := ih hrest
      by_cases hid : signal.instrumentId = X
      · rw [List.filter_cons_of_pos (by simpa using hid)]
        refine executePending_cons_eq_ok.mpr
          ⟨_, _, executeSignal_restrict hid hfirst, hothers, ?_⟩
        simp [PendingPass.restrict]
      · have hone := (executeSignal_step hfirst).restrict_other hid
        simp only [PendingPass.restrict, PendingPass.mk.injEq] at hone
        rw [List.filter_cons_of_neg (by simpa using hid), ← hone.2.1, hothers]
        simp [PendingPass.restrict, hone.1, hone.2.2]

theorem replayFrame_restrict {s s' : ReplayState} (h : replayFrame ctx config s frame = .ok s') :
    replayFrame ctx config (s.restrict X) (frame.restrict X) = .ok (s'.restrict X) := by
  obtain ⟨exits, entries, hexits, hentries, rfl⟩ := replayFrame_eq_ok.mp h
  have hsame (p : OpenPosition) (hp : p.signal.instrumentId = X) :
      attemptExit ctx config (frame.restrict X).bar p = attemptExit ctx config frame.bar p := by
    simp only [attemptExit, hp, ReplayFrame.restrict_bar]
  refine replayFrame_eq_ok.mpr ⟨exits.restrict X, entries.restrict X,
    exitPass_restrict (fun _ _ => attemptExit_step) hsame hexits, executePending_restrict hentries, ?_⟩
  simp only [ReplayState.restrict, ExitPass.restrict, PendingPass.restrict, List.filter_append,
    ReplayState.mk.injEq, true_and]
  refine ⟨rfl, ?_, ?_⟩
  · rw [List.filter_map]
    rfl
  · funext other
    by_cases hid : other = X
    · subst hid
      simp [ReplayFrame.restrict_bar]
    · simp [hid, ReplayFrame.restrict_bar_other hid]

theorem replayLoop_restrict {frames : List ReplayFrame} {s : ReplayState}
    (h : replayLoop ctx config frames = .ok s) :
    replayLoop ctx config (frames.map (·.restrict X)) = .ok (s.restrict X) := by
  induction frames using List.reverseRecOn generalizing s with
  | nil =>
      cases h
      simp [replayLoop, ReplayState.initial, ReplayState.restrict, pure, Except.pure]
  | append_singleton frames frame ih =>
      obtain ⟨before, hbefore, hframe⟩ := replayLoop_concat_eq_ok.mp h
      rw [List.map_append]
      exact replayLoop_concat_eq_ok.mpr ⟨_, ih hbefore, replayFrame_restrict hframe⟩

end

/-! ### The report -/

section

variable {ctx : DecimalContext} {config : BacktestConfig} {frames frames' : List ReplayFrame}

theorem ValidSequence.restrict (h : ValidSequence frames) (X : String) :
    ValidSequence (frames.map (·.restrict X)) where
  nonempty := by simpa using h.nonempty
  sorted := List.pairwise_map.mpr h.sorted
  unique := by
    have hsignals : (frames.map (·.restrict X)).flatMap ReplayFrame.signals =
        (frames.flatMap ReplayFrame.signals).filter (·.instrumentId = X) := by
      rw [List.flatMap_map, List.filter_flatMap]
      rfl
    rw [hsignals]
    exact h.unique.sublist (List.filter_sublist.map _)

/-- At most one position is left on an instrument, so the order of the summaries is the same. -/
theorem insertionSort_filter {positions : List OpenPosition} {X : String}
    (h : (positions.map (·.signal.instrumentId)).Nodup) :
    (positions.insertionSort fun p q => p.signal.signalId ≤ q.signal.signalId).filter
        (·.signal.instrumentId = X) =
      (positions.filter (·.signal.instrumentId = X)).insertionSort fun p q =>
        p.signal.signalId ≤ q.signal.signalId := by
  have hperm : ((positions.insertionSort fun p q => p.signal.signalId ≤ q.signal.signalId).filter
      (·.signal.instrumentId = X)).Perm (positions.filter (·.signal.instrumentId = X)) :=
    (List.perm_insertionSort _ _).filter _
  have hone : (positions.filter (·.signal.instrumentId = X)).length ≤ 1 := by
    have hcount := List.nodup_iff_count_le_one.mp h X
    rw [List.count, List.countP_map, List.countP_eq_length_filter] at hcount
    exact hcount
  rcases hfiltered : positions.filter (·.signal.instrumentId = X) with _ | ⟨p, _ | ⟨q, rest⟩⟩
  · rw [hfiltered] at hperm ⊢
    exact hperm.eq_nil
  · rw [hfiltered] at hperm ⊢
    exact List.perm_singleton.mp hperm
  · rw [hfiltered] at hone
    simp at hone

theorem Ends.restrict {s : ReplayState} {report alone : BacktestReport} {exits exits' : ExitPass} {X : String}
    (hs : replayLoop ctx config frames = .ok s) (hends : Ends ctx config s report exits)
    (halone : Ends ctx config (s.restrict X) alone exits') (htime : alone.endedAt = report.endedAt) :
    alone.trades = report.trades.filter (·.instrumentId = X) ∧
      alone.journal = report.journal.filter (·.instrumentId = X) ∧
      alone.openPositions = report.openPositions.filter (·.instrumentId = X) := by
  have hsame (p : OpenPosition) (hp : p.signal.instrumentId = X) :
      liquidate ctx config (s.restrict X).latestBars p = liquidate ctx config s.latestBars p := by
    simp only [liquidate, hp, ReplayState.restrict, if_true]
  obtain rfl : exits.restrict X = exits' := Except.ok.inj
    ((exitPass_restrict (fun _ _ => liquidate_step) hsame hends.liquidated).symm.trans halone.liquidated)
  refine ⟨?_, ?_, ?_⟩
  · rw [halone.trades, hends.trades, List.filter_append]
    rfl
  · rw [halone.journal, hends.journal, List.filter_append, List.filter_append, htime, List.filter_map]
    rfl
  · have hids : (exits.positions.map (·.signal.instrumentId)).Nodup := by
      have hleft := (exitPass_signals (fun _ _ => liquidate_step) hends.liquidated).map
        BacktestSignal.instrumentId
      rw [List.map_map, List.map_map] at hleft
      exact (replayLoop_inLots hs).one_open.sublist hleft
    rw [halone.openPositions, hends.openPositions, List.filter_map]
    exact congrArg _ (insertionSort_filter hids).symm

/-! ### The order of the bars -/

/-- Frames that differ in the order of their bars. -/
structure SameFrame (frame frame' : ReplayFrame) : Prop where
  timestamp : frame.timestamp = frame'.timestamp
  bars : frame.bars.Perm frame'.bars
  signals : frame.signals = frame'.signals

variable {frame frame' : ReplayFrame}

theorem ReplayFrame.bar_eq_some {instrumentId : String} {bar : OptionBar} :
    frame.bar instrumentId = some bar ↔ bar ∈ frame.bars ∧ bar.instrumentId = instrumentId := by
  constructor
  · intro h
    exact ⟨List.mem_of_find?_eq_some h, by simpa using List.find?_some h⟩
  · rintro ⟨hbar, rfl⟩
    cases hfound : frame.bar bar.instrumentId with
    | none => simpa using List.find?_eq_none.mp hfound bar hbar
    | some other =>
        have hsame : other.instrumentId = bar.instrumentId := by simpa using List.find?_some hfound
        exact congrArg some
          (List.inj_on_of_nodup_map frame.bars_unique (List.mem_of_find?_eq_some hfound) hbar hsame)

theorem SameFrame.bar (h : SameFrame frame frame') : frame.bar = frame'.bar := by
  funext instrumentId
  refine Option.ext fun bar => ?_
  rw [ReplayFrame.bar_eq_some, ReplayFrame.bar_eq_some, h.bars.mem_iff]

end

end TecoQuant.Backtest
