import TecoQuant.BacktestIsolation

/-! Participation in the displayed depth. Inside the loop a bar is sold into by one position of its
instrument and bought from by one signal, so the fills keep to the participation. The liquidation at the
end can sell into a bar again: another position, opened in the frame in which the first one closed. -/

namespace TecoQuant.Backtest

/-- An entry of a kind at a bar. -/
def JournalEntry.At (e : JournalEntry) (event : JournalEvent) (bar : OptionBar) : Prop :=
  e.event = event ∧ e.instrumentId = bar.instrumentId ∧ e.timestamp.instant = bar.timestamp.instant

instance (e : JournalEntry) (event : JournalEvent) (bar : OptionBar) : Decidable (e.At event bar) :=
  inferInstanceAs (Decidable (_ ∧ _))

/-- The quantity of the entries of a kind at a bar. -/
def filledAt (event : JournalEvent) (bar : OptionBar) (journal : List JournalEntry) : Nat :=
  ((journal.filter (·.At event bar)).map JournalEntry.quantity).sum

/-- The fills at a bar keep to the participation in its depth. -/
structure WithinDepth (ctx : DecimalContext) (config : BacktestConfig) (journal : List JournalEntry)
    (bar : OptionBar) : Prop where
  exits : ∀ visible ∈ bar.bidQuantity, filledAt .exitFill bar journal ≤ participating ctx config visible
  entries : ∀ visible ∈ bar.askQuantity, filledAt .entry bar journal ≤ participating ctx config visible

/-- The liquidation acts on a position at a bar: the bar is not before the entry, and no exit was
attempted at it. -/
def Liquidates (position : OpenPosition) (bar : OptionBar) : Prop :=
  position.entryTime.instant ≤ bar.timestamp.instant ∧
    position.lastExitAttempt.map Datetime.instant ≠ some bar.timestamp.instant

instance (position : OpenPosition) (bar : OptionBar) : Decidable (Liquidates position bar) :=
  inferInstanceAs (Decidable (_ ∧ _))

/-- What the liquidation can sell at the latest bar of a position fits beside what was sold there. -/
def LiquidationFits (ctx : DecimalContext) (config : BacktestConfig) (s : ReplayState) : Prop :=
  ∀ p ∈ s.positions, ∀ bar, s.latestBars p.signal.instrumentId = some bar → Liquidates p bar →
    ∀ visible ∈ bar.bidQuantity, filledAt .exitFill bar s.journal +
      fillableQuantity ctx config p.remainingQuantity bar.bidQuantity p.signal.lotSize ≤
        participating ctx config visible

section

variable {ctx : DecimalContext} {config : BacktestConfig} {event : JournalEvent} {bar bar' : OptionBar}
  {journal journal' : List JournalEntry} {position : OpenPosition} {positions : List OpenPosition}
  {pass : ExitPass} {reason : ExitReason} {frame : ReplayFrame} {frames : List ReplayFrame}
  {s s' : ReplayState}

@[simp] theorem filledAt_append :
    filledAt event bar (journal ++ journal') = filledAt event bar journal + filledAt event bar journal' := by
  simp [filledAt]

theorem filledAt_of_none (h : ∀ e ∈ journal, ¬e.At event bar) : filledAt event bar journal = 0 := by
  rw [filledAt, List.filter_eq_nil_iff.mpr fun e he => by simpa using h e he]
  rfl

/-- Entries about other instruments do not count. -/
theorem filledAt_filter (journal : List JournalEntry) :
    filledAt event bar (journal.filter (·.instrumentId = bar.instrumentId)) =
      filledAt event bar journal := by
  rw [filledAt, filledAt, List.filter_filter]
  congr 2
  refine List.filter_congr fun e _ => ?_
  rw [Bool.eq_iff_iff, Bool.and_eq_true, decide_eq_true_iff, decide_eq_true_iff]
  exact ⟨And.left, fun h => ⟨h, h.2.1⟩⟩

/-! ### Exits -/

/-- An exit attempt sells the fillable quantity at its bar. -/
theorem ExitStep.filledAt (hstep : ExitStep ctx config position bar' reason pass)
    (hid : position.signal.instrumentId = bar.instrumentId) :
    filledAt .exitFill bar pass.journal = if bar'.timestamp.instant = bar.timestamp.instant then
      fillableQuantity ctx config position.remainingQuantity bar'.bidQuantity position.signal.lotSize
      else 0 := by
  by_cases htime : bar'.timestamp.instant = bar.timestamp.instant
  all_goals
    cases hstep with
    | held hquantity =>
        simp [Backtest.filledAt, JournalEntry.At, BacktestSignal.note, hquantity]
    | reduced hquantity =>
        simp [Backtest.filledAt, JournalEntry.At, exitFillEntry, hid, htime, hquantity]
    | closed hquantity =>
        simp [Backtest.filledAt, JournalEntry.At, exitFillEntry, exitEntry, hid, htime, hquantity]

/-- A pass concerns an instrument through the one position on it. -/
theorem exitPass_instrument {bar? : String → Option OptionBar}
    {trigger : OpenPosition → OptionBar → Option ExitReason}
    {attempt : OpenPosition → Except Fault ExitPass}
    (hattempt : ∀ p first, attempt p = .ok first → AttemptStep ctx config bar? trigger p first)
    (hids : (positions.map (·.signal.instrumentId)).Nodup) (h : exitPass attempt positions = .ok pass)
    (X : String) :
    (pass.journal.filter (·.instrumentId = X) = [] ∧ ∀ p ∈ positions, p.signal.instrumentId ≠ X) ∨
      ∃ p ∈ positions, p.signal.instrumentId = X ∧ ∃ first, attempt p = .ok first ∧
        pass.journal.filter (·.instrumentId = X) = first.journal := by
  have hrestrict := exitPass_restrict (X := X) hattempt (fun _ _ => rfl) h
  have hone : (positions.filter (·.signal.instrumentId = X)).length ≤ 1 := by
    have hcount := List.nodup_iff_count_le_one.mp hids X
    rw [List.count, List.countP_map, List.countP_eq_length_filter] at hcount
    exact hcount
  rcases hfiltered : positions.filter (·.signal.instrumentId = X) with _ | ⟨p, _ | ⟨q, rest⟩⟩
  · left
    rw [hfiltered] at hrestrict
    have hpass : (⟨[], [], []⟩ : ExitPass) = pass.restrict X := Except.ok.inj hrestrict
    refine ⟨(congrArg ExitPass.journal hpass).symm, fun p hp => ?_⟩
    simpa using List.filter_eq_nil_iff.mp hfiltered p hp
  · right
    rw [hfiltered] at hrestrict
    obtain ⟨first, rest, hfirst, hrest, heq⟩ := exitPass_cons_eq_ok.mp hrestrict
    cases hrest
    have hp : p ∈ positions.filter (·.signal.instrumentId = X) := by simp [hfiltered]
    refine ⟨p, List.mem_of_mem_filter hp, by simpa using (List.mem_filter.mp hp).2, first, hfirst, ?_⟩
    have hjournal := congrArg ExitPass.journal heq
    simpa [ExitPass.restrict] using hjournal
  · rw [hfiltered] at hone
    simp at hone

theorem exits_filledAt_le (henabled : config.partialFills.enabled = true)
    (hids : (positions.map (·.signal.instrumentId)).Nodup) (hbar : frame.bar bar.instrumentId = some bar)
    (h : exitPass (attemptExit ctx config frame.bar) positions = .ok pass) {visible : Nat}
    (hvisible : visible ∈ bar.bidQuantity) :
    filledAt .exitFill bar pass.journal ≤ participating ctx config visible := by
  rw [← filledAt_filter]
  rcases exitPass_instrument (fun _ _ => attemptExit_step) hids h bar.instrumentId with
    ⟨hnone, -⟩ | ⟨p, -, hid, first, hfirst, hjournal⟩
  · rw [hnone]
    exact Nat.zero_le _
  · rw [hjournal]
    cases attemptExit_step hfirst with
    | kept => exact Nat.zero_le _
    | exits hseen _ hstep =>
        rw [hid, hbar] at hseen
        obtain rfl := Option.some.inj hseen
        rw [hstep.filledAt hid, if_pos rfl, Option.mem_def.mp hvisible]
        exact fillableQuantity_le_participating henabled _ _ _

/-! ### Entries -/

theorem EntryStep.filledAt {signal : BacktestSignal} {entries : PendingPass}
    (hstep : EntryStep ctx config frame signal positions entries) (bar : OptionBar) :
    filledAt .entry bar entries.journal = 0 ∨
      (signal.instrumentId = bar.instrumentId ∧ (∀ p ∈ positions, p.signal.instrumentId ≠ bar.instrumentId) ∧
        (∃ p ∈ entries.positions, p.signal.instrumentId = bar.instrumentId) ∧
        ∃ seen, frame.bar bar.instrumentId = some seen ∧ filledAt .entry bar entries.journal ≤
          fillableQuantity ctx config signal.requestedQuantity seen.askQuantity signal.lotSize) := by
  cases hstep with
  | waits => exact .inl rfl
  | unfilled => exact .inl (by simp [Backtest.filledAt, JournalEntry.At, BacktestSignal.note])
  | skipped => exact .inl (by simp [Backtest.filledAt, JournalEntry.At, skip, BacktestSignal.note])
  | @entered seen quantity _ _ _ hbar hfree hquantity =>
      by_cases hid : signal.instrumentId = bar.instrumentId
      · refine .inr ⟨hid, fun p hp => hid ▸ hfree p hp, ⟨_, mem_insertPosition.mpr (.inl rfl), hid⟩, seen,
          hid ▸ hbar, ?_⟩
        rw [hquantity, Backtest.filledAt, List.filter_cons]
        split <;> simp [entryEntry]
      · exact .inl (by simp [Backtest.filledAt, JournalEntry.At, entryEntry, hid])

theorem EntryStep.keeps {signal : BacktestSignal} {entries : PendingPass}
    (hstep : EntryStep ctx config frame signal positions entries) {p : OpenPosition} (hp : p ∈ positions) :
    p ∈ entries.positions := by
  cases hstep with
  | waits => exact hp
  | unfilled => exact hp
  | skipped => exact hp
  | entered => exact mem_insertPosition.mpr (.inr hp)

/-- An instrument with a position takes no entry. -/
theorem entries_filledAt_open {pending : List BacktestSignal} {entries : PendingPass}
    (h : executePending ctx config frame pending positions = .ok entries)
    (hopen : ∃ p ∈ positions, p.signal.instrumentId = bar.instrumentId) :
    filledAt .entry bar entries.journal = 0 := by
  induction pending generalizing positions entries with
  | nil =>
      cases h
      rfl
  | cons signal pending ih =>
      obtain ⟨first, rest, hfirst, hrest, rfl⟩ := executePending_cons_eq_ok.mp h
      have hstep := executeSignal_step hfirst
      obtain ⟨p, hp, hid⟩ := hopen
      have hothers := ih hrest ⟨p, hstep.keeps hp, hid⟩
      rw [filledAt_append, hothers, Nat.add_zero]
      rcases hstep.filledAt bar with hzero | ⟨-, hfree, -⟩
      · exact hzero
      · exact absurd hid (hfree p hp)

theorem entries_filledAt_le (henabled : config.partialFills.enabled = true)
    {pending : List BacktestSignal} {entries : PendingPass}
    (h : executePending ctx config frame pending positions = .ok entries)
    (hbar : frame.bar bar.instrumentId = some bar) {visible : Nat} (hvisible : visible ∈ bar.askQuantity) :
    filledAt .entry bar entries.journal ≤ participating ctx config visible := by
  induction pending generalizing positions entries with
  | nil =>
      cases h
      exact Nat.zero_le _
  | cons signal pending ih =>
      obtain ⟨first, rest, hfirst, hrest, rfl⟩ := executePending_cons_eq_ok.mp h
      have hothers := ih hrest
      rw [filledAt_append]
      rcases (executeSignal_step hfirst).filledAt bar with hzero | ⟨-, -, hopen, seen, hseen, hle⟩
      · rwa [hzero, Nat.zero_add]
      · -- After this entry the instrument has a position, and the rest of the pass adds nothing.
        rw [entries_filledAt_open hrest hopen, Nat.add_zero]
        rw [hbar] at hseen
        obtain rfl := Option.some.inj hseen
        refine hle.trans ?_
        rw [Option.mem_def.mp hvisible]
        exact fillableQuantity_le_participating henabled _ _ _

/-! ### The loop -/

/-- The fills of the loop keep to the depth, and its journal and latest bars come from the frames. -/
structure Shallow (ctx : DecimalContext) (config : BacktestConfig) (frames : List ReplayFrame)
    (s : ReplayState) : Prop where
  depth : ∀ frame ∈ frames, ∀ bar ∈ frame.bars, WithinDepth ctx config s.journal bar
  stamps : ∀ e ∈ s.journal, ∃ frame ∈ frames, e.timestamp.instant = frame.timestamp.instant
  latest : ∀ X bar, s.latestBars X = some bar → bar.instrumentId = X ∧ ∃ frame ∈ frames, bar ∈ frame.bars

theorem Shallow.start : Shallow ctx config [] .initial := by
  constructor <;> simp [ReplayState.initial]

/-- Everything journaled in a frame has its timestamp. -/
theorem replayFrame_stamps {exits : ExitPass} {entries : PendingPass} {pending : List BacktestSignal}
    (hexits : exitPass (attemptExit ctx config frame.bar) positions = .ok exits)
    (hentries : executePending ctx config frame pending exits.positions = .ok entries) :
    ∀ e ∈ exits.journal ++ entries.journal ++ frame.signals.map fun signal =>
        signal.note frame.timestamp .signal "signal queued for the first strictly later quote",
      e.timestamp.instant = frame.timestamp.instant := by
  intro e he
  rcases List.mem_append.mp he with he | he
  · rcases List.mem_append.mp he with he | he
    · obtain ⟨p, -, first, hfirst, he⟩ := (exitPass_mem hexits).2.2 e he
      cases attemptExit_step hfirst with
      | kept => simp at he
      | exits hbar _ hstep =>
          rw [(hstep.journaled he).1]
          exact frame.bars_at _ (ReplayFrame.bar_eq_some.mp hbar).1
    · obtain ⟨signal, -, before, first, hfirst, he⟩ := (executePending_mem hentries).2 e he
      cases executeSignal_step hfirst with
      | waits => simp at he
      | unfilled =>
          obtain rfl := List.mem_singleton.mp he
          rfl
      | skipped =>
          obtain rfl := List.mem_singleton.mp he
          rfl
      | entered =>
          obtain rfl := List.mem_singleton.mp he
          rfl
  · obtain ⟨signal, -, rfl⟩ := List.mem_map.mp he
    rfl

theorem signals_filledAt (hevent : event ≠ .signal) (signals : List BacktestSignal) (text : String) :
    filledAt event bar (signals.map fun signal => signal.note frame.timestamp .signal text) = 0 := by
  refine filledAt_of_none fun e he hat => hevent ?_
  obtain ⟨signal, -, rfl⟩ := List.mem_map.mp he
  exact hat.1.symm

theorem executePending_exitFill {pending : List BacktestSignal} {entries : PendingPass}
    (h : executePending ctx config frame pending positions = .ok entries) :
    filledAt .exitFill bar entries.journal = 0 := by
  refine filledAt_of_none fun e he hat => ?_
  obtain ⟨signal, -, before, first, hfirst, he⟩ := (executePending_mem h).2 e he
  have hkind := ((executeSignal_step hfirst).journaled e he).1
  simp [hat.1] at hkind

theorem exitPass_entry {exits : ExitPass} (h : exitPass (attemptExit ctx config frame.bar) positions = .ok exits) :
    filledAt .entry bar exits.journal = 0 := by
  refine filledAt_of_none fun e he hat => ?_
  obtain ⟨p, -, first, hfirst, he⟩ := (exitPass_mem h).2.2 e he
  cases attemptExit_step hfirst with
  | kept => simp at he
  | exits _ _ hstep =>
      have hkind := (hstep.journaled he).2.2.2
      simp [hat.1] at hkind

theorem Shallow.step (henabled : config.partialFills.enabled = true) (h : Shallow ctx config frames s)
    (hids : (s.positions.map (·.signal.instrumentId)).Nodup)
    (hlater : ∀ f ∈ frames, f.timestamp.instant < frame.timestamp.instant)
    (hframe : replayFrame ctx config s frame = .ok s') : Shallow ctx config (frames ++ [frame]) s' := by
  obtain ⟨exits, entries, hexits, hentries, rfl⟩ := replayFrame_eq_ok.mp hframe
  have hstamps := replayFrame_stamps hexits hentries
  refine ⟨fun f hf bar hbar => ?_, fun e he => ?_, fun X bar hbar => ?_⟩
  · rcases List.mem_append.mp hf with hf | hf
    · -- A bar of an earlier frame: the new entries are later.
      have hnew (event : JournalEvent) : filledAt event bar (exits.journal ++ entries.journal ++
          frame.signals.map fun signal => signal.note frame.timestamp .signal
            "signal queued for the first strictly later quote") = 0 := by
        refine filledAt_of_none fun e he hat => ?_
        have htime := hstamps e he
        have hbefore := hlater f hf
        rw [hat.2.2, f.bars_at bar hbar] at htime
        omega
      constructor
      · intro visible hvisible
        rw [filledAt_append, hnew]
        exact (h.depth f hf bar hbar).exits visible hvisible
      · intro visible hvisible
        rw [filledAt_append, hnew]
        exact (h.depth f hf bar hbar).entries visible hvisible
    · -- A bar of this frame: the old entries are earlier.
      obtain rfl := List.mem_singleton.mp hf
      have hold (event : JournalEvent) : filledAt event bar s.journal = 0 := by
        refine filledAt_of_none fun e he hat => ?_
        obtain ⟨g, hg, htime⟩ := h.stamps e he
        have hbefore := hlater g hg
        rw [hat.2.2, f.bars_at bar hbar] at htime
        omega
      have hseen : f.bar bar.instrumentId = some bar := ReplayFrame.bar_eq_some.mpr ⟨hbar, rfl⟩
      constructor
      · intro visible hvisible
        rw [filledAt_append, filledAt_append, filledAt_append, hold, executePending_exitFill hentries,
          signals_filledAt (by decide), Nat.zero_add, Nat.add_zero]
        exact exits_filledAt_le henabled hids hseen hexits hvisible
      · intro visible hvisible
        rw [filledAt_append, filledAt_append, filledAt_append, hold, exitPass_entry hexits,
          signals_filledAt (by decide), Nat.zero_add, Nat.zero_add, Nat.add_zero]
        exact entries_filledAt_le henabled hentries hseen hvisible
  · rcases List.mem_append.mp he with he | he
    · obtain ⟨g, hg, htime⟩ := h.stamps e he
      exact ⟨g, List.mem_append_left _ hg, htime⟩
    · exact ⟨frame, by simp, hstamps e he⟩
  · have hbar : frame.bar X = some bar ∨ s.latestBars X = some bar := by
      cases hnow : frame.bar X with
      | none => exact .inr (by simpa [hnow] using hbar)
      | some seen => exact .inl (by simpa [hnow] using hbar)
    rcases hbar with hbar | hbar
    · obtain ⟨hmem, hid⟩ := ReplayFrame.bar_eq_some.mp hbar
      exact ⟨hid, frame, by simp, hmem⟩
    · obtain ⟨hid, g, hg, hmem⟩ := h.latest X bar hbar
      exact ⟨hid, g, List.mem_append_left _ hg, hmem⟩

end

end TecoQuant.Backtest
