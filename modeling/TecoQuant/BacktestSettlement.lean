import TecoQuant.BacktestConservation
import TecoQuant.BacktestLookahead

/-! Settlement of a replay. The exit of a signal stands in the journal after its entry, for the same
quantity and not before it; without partial fills every position is closed when the replay ends. -/

namespace TecoQuant.Backtest

/-! ### Exits follow their entries -/

/-- An exit closes an entry. -/
structure Closes (exit entry : JournalEntry) : Prop where
  entered : entry.Of .entry exit.signalId
  quantity : entry.quantity = exit.quantity
  ordered : entry.timestamp.instant ≤ exit.timestamp.instant

/-- The entry of a position stands in a journal. -/
def Entered (journal : List JournalEntry) (position : OpenPosition) : Prop :=
  ∃ entry ∈ journal, entry.Of .entry position.signal.signalId ∧ entry.quantity = position.quantity ∧
    entry.timestamp = position.entryTime

/-- Every open position has its entry in the journal, and every exit comes after the entry it closes. -/
structure Paired (s : ReplayState) : Prop where
  opened : ∀ p ∈ s.positions, Entered s.journal p
  closed : ∀ exit ∈ s.journal, exit.event = .exit →
    ∃ entry, [entry, exit].Sublist s.journal ∧ Closes exit entry

section

variable {ctx : DecimalContext} {config : BacktestConfig} {frames : List ReplayFrame} {frame : ReplayFrame}
  {s s' : ReplayState} {bar? : String → Option OptionBar}
  {trigger : OpenPosition → OptionBar → Option ExitReason} {position : OpenPosition}
  {positions : List OpenPosition} {pass : ExitPass} {bar : OptionBar} {reason : ExitReason}

theorem closeTrade_quantity {trade : Trade} (h : closeTrade ctx position bar reason = .ok trade) :
    trade.quantity = position.quantity := by
  unfold closeTrade at h
  obtain ⟨_, _, h⟩ := Except.bind_eq_ok.mp h
  obtain ⟨_, _, h⟩ := Except.bind_eq_ok.mp h
  obtain ⟨_, _, h⟩ := Except.bind_eq_ok.mp h
  cases h
  rfl

theorem ExitStep.quantity (hstep : ExitStep ctx config position bar reason pass) :
    ∀ q ∈ pass.positions, q.quantity = position.quantity := by
  intro q hq
  cases hstep with
  | held =>
      obtain rfl := List.mem_singleton.mp hq
      rfl
  | reduced =>
      obtain rfl := List.mem_singleton.mp hq
      rfl
  | closed => simp at hq

/-- The exit of a position is for its whole quantity. -/
theorem ExitStep.exit_quantity (hstep : ExitStep ctx config position bar reason pass) {exit : JournalEntry}
    (hexit : exit ∈ pass.journal) (hevent : exit.event = .exit) : exit.quantity = position.quantity := by
  cases hstep with
  | held =>
      obtain rfl := List.mem_singleton.mp hexit
      cases hevent
  | reduced =>
      obtain rfl := List.mem_singleton.mp hexit
      cases hevent
  | closed _ _ _ htrade =>
      rcases List.mem_pair.mp hexit with rfl | rfl
      · cases hevent
      · exact (closeTrade_quantity htrade).trans rfl

/-- An attempt keeps a position, or exits it at a bar that is not before its entry. -/
def NotBefore (ctx : DecimalContext) (config : BacktestConfig) (position : OpenPosition) (pass : ExitPass) :
    Prop :=
  pass = ⟨[position], [], []⟩ ∨ ∃ bar reason, position.entryTime.instant ≤ bar.timestamp.instant ∧
    ExitStep ctx config position bar reason pass

theorem NotBefore.left {journal : List JournalEntry} (hstep : NotBefore ctx config position pass)
    (h : Entered journal position) : ∀ q ∈ pass.positions, Entered journal q := by
  intro q hq
  obtain ⟨entry, hentry, hof, hquantity, htime⟩ := h
  rcases hstep with rfl | ⟨bar, reason, -, hstep⟩
  · obtain rfl := List.mem_singleton.mp hq
    exact ⟨entry, hentry, hof, hquantity, htime⟩
  · obtain ⟨hsignal, hentered, -, -⟩ := hstep.left hq
    exact ⟨entry, hentry, hsignal ▸ hof, hquantity.trans (hstep.quantity q hq).symm,
      htime.trans hentered.symm⟩

theorem NotBefore.closes {journal : List JournalEntry} (hstep : NotBefore ctx config position pass)
    (h : Entered journal position) {exit : JournalEntry} (hexit : exit ∈ pass.journal)
    (hevent : exit.event = .exit) : ∃ entry ∈ journal, Closes exit entry := by
  obtain ⟨entry, hentry, hof, hquantity, htime⟩ := h
  rcases hstep with rfl | ⟨bar, reason, hbar, hstep⟩
  · simp at hexit
  · obtain ⟨hstamp, hsignal, -, -⟩ := hstep.journaled hexit
    refine ⟨entry, hentry, hsignal ▸ hof, hquantity.trans (hstep.exit_quantity hexit hevent).symm, ?_⟩
    rwa [htime, hstamp]

/-- What a pass leaves open and journals, when the entries of its positions stand in the journal. -/
theorem exitPass_paired {attempt : OpenPosition → Except Fault ExitPass} {journal : List JournalEntry}
    (hattempt : ∀ p ∈ positions, ∀ first, attempt p = .ok first → NotBefore ctx config p first)
    (hentered : ∀ p ∈ positions, Entered journal p) (h : exitPass attempt positions = .ok pass) :
    (∀ q ∈ pass.positions, Entered journal q) ∧
      ∀ exit ∈ pass.journal, exit.event = .exit → ∃ entry ∈ journal, Closes exit entry := by
  obtain ⟨hpositions, -, hjournal⟩ := exitPass_mem h
  refine ⟨fun q hq => ?_, fun exit hexit hevent => ?_⟩
  · obtain ⟨p, hp, first, hfirst, hq⟩ := hpositions q hq
    exact (hattempt p hp first hfirst).left (hentered p hp) q hq
  · obtain ⟨p, hp, first, hfirst, hexit⟩ := hjournal exit hexit
    exact (hattempt p hp first hfirst).closes (hentered p hp) hexit hevent

theorem attemptExit_notBefore (hentry : position.entryTime.instant ≤ frame.timestamp.instant)
    (h : attemptExit ctx config frame.bar position = .ok pass) : NotBefore ctx config position pass := by
  cases attemptExit_step h with
  | kept => exact .inl rfl
  | @exits bar reason _ hbar _ hstep =>
      have hstamp := frame.bars_at bar (ReplayFrame.bar_mem hbar).1
      exact .inr ⟨bar, reason, hstamp ▸ hentry, hstep⟩

theorem liquidate_notBefore (h : liquidate ctx config bar? position = .ok pass) :
    NotBefore ctx config position pass := by
  unfold liquidate at h
  split at h
  · cases h
    exact .inl rfl
  · rename_i bar hbar
    split_ifs at h with hearly hattempted
    · cases h
      exact .inl rfl
    · cases h
      exact .inl rfl
    · exact .inr ⟨bar, _, not_lt.mp hearly, executeExit_step h⟩

/-- A pending signal leaves the entry of every open position in the journal. -/
theorem EntryStep.enters {signal : BacktestSignal} {entries : PendingPass} {journal : List JournalEntry}
    (hstep : EntryStep ctx config frame signal positions entries)
    (h : ∀ p ∈ positions, Entered journal p) :
    ∀ p ∈ entries.positions, Entered (journal ++ entries.journal) p := by
  have hkeep : ∀ p ∈ positions, Entered (journal ++ entries.journal) p := by
    intro p hp
    obtain ⟨entry, hentry, hrest⟩ := h p hp
    exact ⟨entry, List.mem_append_left _ hentry, hrest⟩
  cases hstep with
  | waits => exact hkeep
  | unfilled => exact hkeep
  | skipped => exact hkeep
  | entered =>
      intro p hp
      rcases mem_insertPosition.mp hp with rfl | hp
      · exact ⟨_, List.mem_append_right _ (List.mem_singleton_self _), ⟨rfl, rfl⟩, rfl, rfl⟩
      · exact hkeep p hp

theorem executePending_enters {pending : List BacktestSignal} {entries : PendingPass}
    {journal : List JournalEntry} (hpass : executePending ctx config frame pending positions = .ok entries)
    (h : ∀ p ∈ positions, Entered journal p) :
    ∀ p ∈ entries.positions, Entered (journal ++ entries.journal) p := by
  induction pending generalizing positions entries journal with
  | nil =>
      cases hpass
      simpa using h
  | cons signal pending ih =>
      obtain ⟨first, rest, hfirst, hrest, rfl⟩ := executePending_cons_eq_ok.mp hpass
      rw [← List.append_assoc]
      exact ih hrest ((executeSignal_step hfirst).enters h)

theorem Paired.start : Paired .initial := by
  constructor <;> simp [ReplayState.initial]

/-- Closed pairs stay, and an exit journaled later comes after its entry. -/
theorem Paired.extend {journal more : List JournalEntry}
    (h : ∀ exit ∈ journal, exit.event = .exit → ∃ entry, [entry, exit].Sublist journal ∧ Closes exit entry)
    (hmore : ∀ exit ∈ more, exit.event = .exit → ∃ entry ∈ journal, Closes exit entry) :
    ∀ exit ∈ journal ++ more, exit.event = .exit →
      ∃ entry, [entry, exit].Sublist (journal ++ more) ∧ Closes exit entry := by
  intro exit hexit hevent
  rcases List.mem_append.mp hexit with hexit | hexit
  · obtain ⟨entry, hpair, hcloses⟩ := h exit hexit hevent
    exact ⟨entry, hpair.trans (List.sublist_append_left _ _), hcloses⟩
  · obtain ⟨entry, hentry, hcloses⟩ := hmore exit hexit hevent
    exact ⟨entry, (List.singleton_sublist.mpr hentry).append (List.singleton_sublist.mpr hexit), hcloses⟩

theorem Paired.step (h : Paired s) (hentry : ∀ p ∈ s.positions, p.entryTime.instant ≤ frame.timestamp.instant)
    (hframe : replayFrame ctx config s frame = .ok s') : Paired s' := by
  obtain ⟨exits, entries, hexits, hentries, rfl⟩ := replayFrame_eq_ok.mp hframe
  obtain ⟨hleft, hcloses⟩ := exitPass_paired
    (fun p hp _ hfirst => attemptExit_notBefore (hentry p hp) hfirst) h.opened hexits
  have hnoted : ∀ e ∈ entries.journal, e.event ≠ .exit := by
    intro e he
    obtain ⟨signal, -, before, first, hfirst, he⟩ := (executePending_mem hentries).2 e he
    have hkind := ((executeSignal_step hfirst).journaled e he).1
    rintro hevent
    simp [hevent] at hkind
  refine ⟨fun p hp => ?_, Paired.extend h.closed fun exit hexit hevent => ?_⟩
  · obtain ⟨entry, hmem, hrest⟩ := executePending_enters hentries hleft p hp
    refine ⟨entry, ?_, hrest⟩
    rcases List.mem_append.mp hmem with hmem | hmem <;> simp [hmem]
  · rcases List.mem_append.mp hexit with hexit | hexit
    · rcases List.mem_append.mp hexit with hexit | hexit
      · exact hcloses exit hexit hevent
      · exact absurd hevent (hnoted exit hexit)
    · obtain ⟨signal, -, rfl⟩ := List.mem_map.mp hexit
      cases hevent

/-- In a sorted replay every entry is before the frames that follow. -/
theorem replayLoop_entered_before {frames' : List ReplayFrame}
    (hsorted : (frames ++ frames').Pairwise fun f g => f.timestamp.instant < g.timestamp.instant)
    (hs : replayLoop ctx config frames = .ok s) :
    ∀ p ∈ s.positions, ∀ frame ∈ frames', p.entryTime.instant < frame.timestamp.instant := by
  intro p hp frame hframe
  obtain ⟨f, hf, htime⟩ := (replayLoop_grounded hs).entered p hp
  exact htime ▸ (List.pairwise_append.mp hsorted).2.2 f hf frame hframe

theorem replayLoop_paired (hsorted : frames.Pairwise fun f g => f.timestamp.instant < g.timestamp.instant)
    (h : replayLoop ctx config frames = .ok s) : Paired s := by
  refine replayLoop_invariant (fun frames s =>
    (frames.Pairwise fun f g => f.timestamp.instant < g.timestamp.instant) → Paired s)
    (fun _ => .start) (fun frames frame s s' hs hpaired hframe hsorted => ?_) h hsorted
  refine (hpaired (List.pairwise_append.mp hsorted).1).step (fun p hp => ?_) hframe
  exact (replayLoop_entered_before hsorted hs p hp frame (List.mem_singleton_self _)).le

theorem Ends.paired {report : BacktestReport} {exits : ExitPass} (hends : Ends ctx config s report exits)
    (hpaired : Paired s) : ∀ exit ∈ report.journal, exit.event = .exit →
      ∃ entry, [entry, exit].Sublist report.journal ∧ Closes exit entry := by
  rw [hends.journal]
  refine Paired.extend hpaired.closed fun exit hexit hevent => ?_
  rcases List.mem_append.mp hexit with hexit | hexit
  · exact (exitPass_paired (fun p _ _ => liquidate_notBefore) hpaired.opened hends.liquidated).2
      exit hexit hevent
  · obtain ⟨signal, -, rfl⟩ := List.mem_map.mp hexit
    cases hevent

end

/-! ### The exits of a signal -/

/-- The exits of a signal, against its trade. -/
def Account.closure (signalId : String) : Account where
  pending _ := 0
  position _ := 0
  trade t := indicator (t.signalId = signalId)
  entry e := 0 - indicator (e.Of .exit signalId)

section

variable {ctx : DecimalContext} {config : BacktestConfig} {frames : List ReplayFrame} {s : ReplayState}
  {report : BacktestReport} {exits : ExitPass}

theorem Account.closure_conserved (ctx : DecimalContext) (config : BacktestConfig) (signalId : String) :
    (Account.closure signalId).Conserved ctx config where
  exits {position _ _ _} hstep := by
    cases hstep with
    | held => simp [closure, indicator, BacktestSignal.note, JournalEntry.Of]
    | reduced => simp [closure, indicator, exitFillEntry, JournalEntry.Of]
    | closed => simp [closure, indicator, exitFillEntry, exitEntry, JournalEntry.Of]
  entries {_ signal _ _} hstep := by
    cases hstep with
    | waits => simp [closure, Account.ofPositions]
    | unfilled => simp [closure, indicator, BacktestSignal.note, JournalEntry.Of]
    | skipped => simp [closure, indicator, skip, BacktestSignal.note, JournalEntry.Of]
    | entered => simp [closure, indicator, entryEntry, JournalEntry.Of]
  queued signal timestamp := by simp [closure, indicator, BacktestSignal.note, JournalEntry.Of]

/-- Every trade of a signal is journaled as one exit. -/
theorem Ends.exited (hs : replayLoop ctx config frames = .ok s) (hends : Ends ctx config s report exits)
    (signalId : String) : report.journal.countP (·.Of .exit signalId) =
      report.trades.countP (·.signalId = signalId) := by
  have haccount := (Account.closure_conserved ctx config signalId).of_report
    (fun signal t => by simp [Account.closure, indicator, JournalEntry.Of, BacktestSignal.note]) hs hends
  simp only [Account.closure, Account.ofTrades, Account.ofJournal, sum_difference, sum_indicator,
    List.map_const', List.sum_replicate, nsmul_zero] at haccount
  omega

end

/-! ### Full fills -/

/-- What a state holds while every fill is whole: no open position has been tried, a bar of its
instrument was seen at or after its entry, and every entry takes the requested quantity. -/
structure FullFills (frames : List ReplayFrame) (s : ReplayState) : Prop where
  untried : ∀ p ∈ s.positions, p.lastExitAttempt = none
  seen : ∀ p ∈ s.positions, ∃ bar, s.latestBars p.signal.instrumentId = some bar ∧
    p.entryTime.instant ≤ bar.timestamp.instant
  whole : ∀ entry ∈ s.journal, entry.event = .entry → ∃ signal ∈ frames.flatMap ReplayFrame.signals,
    entry.signalId = signal.signalId ∧ entry.quantity = signal.requestedQuantity

section

variable {ctx : DecimalContext} {config : BacktestConfig} {frames : List ReplayFrame} {frame : ReplayFrame}
  {s s' : ReplayState} {position : OpenPosition} {pass : ExitPass} {bar : OptionBar} {reason : ExitReason}

theorem fillableQuantity_full (hfull : config.partialFills.enabled = false) (requested : Nat)
    (visible : Option Nat) (lotSize : Nat) :
    fillableQuantity ctx config requested visible lotSize = requested := by
  simp [fillableQuantity, hfull]

/-- A whole fill closes the position. -/
theorem ExitStep.closes (hfull : config.partialFills.enabled = false) (hsound : position.Sound)
    (hstep : ExitStep ctx config position bar reason pass) : pass.positions = [] := by
  have hremaining := hsound.remaining_pos
  cases hstep with
  | held hquantity =>
      rw [fillableQuantity_full hfull] at hquantity
      omega
  | reduced hquantity _ hless =>
      rw [fillableQuantity_full hfull] at hquantity
      omega
  | closed => rfl

/-- A pass with whole fills leaves only positions it did not try. -/
theorem attemptExit_kept (hfull : config.partialFills.enabled = false) (hsound : position.Sound)
    (h : attemptExit ctx config frame.bar position = .ok pass) : ∀ q ∈ pass.positions, q = position := by
  cases attemptExit_step h with
  | kept => simp
  | exits _ _ hstep => simp [hstep.closes hfull hsound]

theorem FullFills.start : FullFills [] .initial := by
  constructor <;> simp [ReplayState.initial]

/-- An entry with whole fills opens an untried position at a bar of its frame. -/
theorem EntryStep.opens (hfull : config.partialFills.enabled = false) {signal : BacktestSignal}
    {positions : List OpenPosition} {entries : PendingPass}
    (hstep : EntryStep ctx config frame signal positions entries) :
    (∀ p ∈ entries.positions, p ∈ positions ∨ p.lastExitAttempt = none ∧ p.entryTime = frame.timestamp ∧
      ∃ bar, frame.bar p.signal.instrumentId = some bar) ∧
    ∀ entry ∈ entries.journal, entry.event = .entry →
      entry.signalId = signal.signalId ∧ entry.quantity = signal.requestedQuantity := by
  cases hstep with
  | waits => exact ⟨fun p hp => .inl hp, by simp⟩
  | unfilled => exact ⟨fun p hp => .inl hp, by simp [BacktestSignal.note]⟩
  | skipped => exact ⟨fun p hp => .inl hp, by simp [skip, BacktestSignal.note]⟩
  | @entered bar quantity _ _ _ hbar _ hquantity =>
      refine ⟨fun p hp => ?_, fun entry hentry _ => ?_⟩
      · rcases mem_insertPosition.mp hp with rfl | hp
        · exact .inr ⟨rfl, rfl, bar, hbar⟩
        · exact .inl hp
      · obtain rfl := List.mem_singleton.mp hentry
        exact ⟨rfl, hquantity.symm.trans (fillableQuantity_full hfull _ _ _)⟩

theorem FullFills.step (hfull : config.partialFills.enabled = false) (h : FullFills frames s)
    (hs : replayLoop ctx config frames = .ok s)
    (hentry : ∀ p ∈ s.positions, p.entryTime.instant ≤ frame.timestamp.instant)
    (hframe : replayFrame ctx config s frame = .ok s') : FullFills (frames ++ [frame]) s' := by
  obtain ⟨exits, entries, hexits, hentries, rfl⟩ := replayFrame_eq_ok.mp hframe
  have hstamp {instrumentId : String} {bar : OptionBar} (hbar : frame.bar instrumentId = some bar) :
      bar.timestamp.instant = frame.timestamp.instant := frame.bars_at bar (ReplayFrame.bar_mem hbar).1
  have hkept : ∀ q ∈ exits.positions, q ∈ s.positions := by
    intro q hq
    obtain ⟨p, hp, first, hfirst, hq⟩ := (exitPass_mem hexits).1 q hq
    exact attemptExit_kept hfull (replayLoop_sound hs p hp) hfirst q hq ▸ hp
  have hopen : ∀ p ∈ entries.positions, p ∈ s.positions ∨ p.lastExitAttempt = none ∧
      p.entryTime = frame.timestamp ∧ ∃ bar, frame.bar p.signal.instrumentId = some bar := by
    refine executePending_invariant (fun positions => ∀ p ∈ positions, p ∈ s.positions ∨
      p.lastExitAttempt = none ∧ p.entryTime = frame.timestamp ∧
        ∃ bar, frame.bar p.signal.instrumentId = some bar) (fun signal positions first hfirst hp p hmem => ?_)
      hentries fun q hq => .inl (hkept q hq)
    rcases ((executeSignal_step hfirst).opens hfull).1 p hmem with hmem | hnew
    · exact hp p hmem
    · exact .inr hnew
  refine ⟨fun p hp => ?_, fun p hp => ?_, fun entry hmem hevent => ?_⟩
  · rcases hopen p hp with hp | ⟨huntried, -, -⟩
    · exact h.untried p hp
    · exact huntried
  · rcases hopen p hp with hp | ⟨-, htime, bar, hbar⟩
    · cases hbar : frame.bar p.signal.instrumentId with
      | none =>
          obtain ⟨bar, hlatest, hafter⟩ := h.seen p hp
          exact ⟨bar, by simp [hbar, hlatest], hafter⟩
      | some bar => exact ⟨bar, by simp [hbar], hstamp hbar ▸ hentry p hp⟩
    · exact ⟨bar, by simp [hbar], by rw [hstamp hbar, htime]⟩
  · rw [List.flatMap_append]
    rcases List.mem_append.mp hmem with hmem | hmem
    · obtain ⟨signal, hsignal, hrest⟩ := h.whole entry hmem hevent
      exact ⟨signal, List.mem_append_left _ hsignal, hrest⟩
    rcases List.mem_append.mp hmem with hmem | hmem
    · rcases List.mem_append.mp hmem with hmem | hmem
      · have hkind := (exitPass_fills (fun _ _ => attemptExit_step) (replayLoop_sound hs) hexits entry hmem).1
        simp [hevent] at hkind
      · obtain ⟨signal, hsignal, before, first, hfirst, hmem⟩ := (executePending_mem hentries).2 entry hmem
        exact ⟨signal, List.mem_append_left _ ((replayLoop_inLots hs).pending signal hsignal),
          ((executeSignal_step hfirst).opens hfull).2 entry hmem hevent⟩
    · obtain ⟨signal, -, rfl⟩ := List.mem_map.mp hmem
      cases hevent

theorem replayLoop_fullFills (hfull : config.partialFills.enabled = false)
    (hsorted : frames.Pairwise fun f g => f.timestamp.instant < g.timestamp.instant)
    (h : replayLoop ctx config frames = .ok s) : FullFills frames s := by
  refine replayLoop_invariant (fun frames s =>
    (frames.Pairwise fun f g => f.timestamp.instant < g.timestamp.instant) → FullFills frames s)
    (fun _ => .start) (fun frames frame s s' hs hfills hframe hsorted => ?_) h hsorted
  refine (hfills (List.pairwise_append.mp hsorted).1).step hfull hs (fun p hp => ?_) hframe
  exact (replayLoop_entered_before hsorted hs p hp frame (List.mem_singleton_self _)).le

/-- The end of the data closes every position. -/
theorem FullFills.liquidated (hfull : config.partialFills.enabled = false) (h : FullFills frames s)
    (hsound : ∀ p ∈ s.positions, p.Sound) {exits : ExitPass}
    (hexits : exitPass (liquidate ctx config s.latestBars) s.positions = .ok exits) : exits.positions = [] := by
  refine List.eq_nil_iff_forall_not_mem.mpr fun q hq => ?_
  obtain ⟨p, hp, first, hfirst, hq⟩ := (exitPass_mem hexits).1 q hq
  obtain ⟨bar, hbar, hafter⟩ := h.seen p hp
  rw [liquidate, hbar] at hfirst
  simp only [not_lt.mpr hafter, h.untried p hp, Option.map_none, reduceCtorEq, if_false] at hfirst
  simp [(executeExit_step hfirst).closes hfull (hsound p hp)] at hq

end

/-! ### Settled reports -/

/-- Nothing is open, and after every entry of the journal its signal exits, once, for the same quantity
and not before it; the quantity is the one the signal asks for. -/
structure Settled (frames : List ReplayFrame) (report : BacktestReport) : Prop where
  none_open : report.openPositions = []
  exits : ∀ before entry after, report.journal = before ++ entry :: after → entry.event = .entry →
    ∃ exit ∈ after, report.journal.filter (·.Of .exit entry.signalId) = [exit] ∧
      exit.quantity = entry.quantity ∧ entry.timestamp.instant ≤ exit.timestamp.instant
  whole : ∀ entry ∈ report.journal, entry.event = .entry →
    ∃ signal ∈ frames.flatMap ReplayFrame.signals, entry.signalId = signal.signalId ∧
      entry.quantity = signal.requestedQuantity

/-- What comes after the only element with a property comes after it in every split. -/
theorem mem_after_of_countP_one {α : Type} {P : α → Prop} [DecidablePred P] {before after : List α}
    {x y z : α} (hx : P x) (hy : P y) (hone : (before ++ x :: after).countP P = 1)
    (hpair : [y, z].Sublist (before ++ x :: after)) : z ∈ after := by
  have hbefore : y ∉ before := by
    intro hmem
    have hpos : 0 < before.countP P := List.countP_pos_iff.mpr ⟨y, hmem, by simpa using hy⟩
    simp only [List.countP_append, List.countP_cons, hx, decide_true, if_true] at hone
    omega
  obtain ⟨first, second, heq, hfirst, hsecond⟩ := List.sublist_append_iff.mp hpair
  cases first with
  | nil =>
      obtain rfl : second = [y, z] := heq.symm
      cases hsecond with
      | cons _ hafter => exact hafter.subset (by simp)
      | cons_cons _ hafter => exact hafter.subset (by simp)
  | cons w first =>
      obtain ⟨rfl, -⟩ := List.cons.inj heq
      exact absurd (hfirst.subset List.mem_cons_self) hbefore

section

variable {ctx : DecimalContext} {config : BacktestConfig} {frames : List ReplayFrame} {s : ReplayState}
  {report : BacktestReport} {exits : ExitPass}

/-- Without partial fills, what the stage after the loop reports is settled. -/
theorem Ends.settled (hfull : config.partialFills.enabled = false) (hvalid : ValidSequence frames)
    (hs : replayLoop ctx config frames = .ok s) (hends : Ends ctx config s report exits) :
    Settled frames report := by
  have hfills := replayLoop_fullFills hfull hvalid.sorted hs
  have hopen : report.openPositions = [] := by
    rw [hends.openPositions, hfills.liquidated hfull (replayLoop_sound hs) hends.liquidated]
    rfl
  have hwhole : ∀ entry ∈ report.journal, entry.event = .entry →
      ∃ signal ∈ frames.flatMap ReplayFrame.signals, entry.signalId = signal.signalId ∧
        entry.quantity = signal.requestedQuantity := by
    intro entry hmem hevent
    rw [hends.journal] at hmem
    rcases List.mem_append.mp hmem with hmem | hmem
    · exact hfills.whole entry hmem hevent
    rcases List.mem_append.mp hmem with hmem | hmem
    · have hkind := (exitPass_fills (fun _ _ => liquidate_step) (replayLoop_sound hs) hends.liquidated
        entry hmem).1
      simp [hevent] at hkind
    · obtain ⟨signal, -, rfl⟩ := List.mem_map.mp hmem
      cases hevent
  refine ⟨hopen, fun before entry after hjournal hevent => ?_, hwhole⟩
  have hmem : entry ∈ report.journal := by simp [hjournal]
  obtain ⟨signal, hsignal, hid, -⟩ := hwhole entry hmem hevent
  -- The signal has one outcome, and an entry, so the outcome is a trade.
  have hentries := hends.entered hs entry.signalId
  have houtcome := (hends.conservation hvalid hs).outcome signal hsignal
  rw [hopen, List.countP_nil, Nat.add_zero] at hentries
  rw [← hid, outcomes] at houtcome
  have hentered : 0 < report.journal.countP (·.Of .entry entry.signalId) :=
    List.countP_pos_iff.mpr ⟨entry, hmem, by simp [JournalEntry.Of, hevent]⟩
  have htraded : report.trades.countP (·.signalId = entry.signalId) = 1 := by omega
  have hexits : report.journal.countP (·.Of .exit entry.signalId) = 1 := (hends.exited hs _).trans htraded
  rw [List.countP_eq_length_filter] at hexits
  obtain ⟨exit, hexit⟩ := List.length_eq_one_iff.mp hexits
  obtain ⟨hin, hof⟩ := List.mem_filter.mp (hexit ▸ List.mem_singleton_self exit)
  obtain ⟨hexited, hsame⟩ : exit.Of .exit entry.signalId := of_decide_eq_true hof
  obtain ⟨opened, hpair, hcloses⟩ := hends.paired (replayLoop_paired hvalid.sorted hs) exit hin hexited
  have hcount := hentries.trans htraded
  have hopened : opened ∈ report.journal.filter (·.Of .entry entry.signalId) :=
    List.mem_filter.mpr ⟨hpair.subset List.mem_cons_self, by simpa [hsame] using hcloses.entered⟩
  -- The exit closes this entry, the only one of its signal.
  have hthis : opened = entry := by
    rw [List.countP_eq_length_filter] at hcount
    obtain ⟨only, honly⟩ := List.length_eq_one_iff.mp hcount
    have hentry : entry ∈ report.journal.filter (·.Of .entry entry.signalId) :=
      List.mem_filter.mpr ⟨hmem, by simp [JournalEntry.Of, hevent]⟩
    rw [honly, List.mem_singleton] at hopened hentry
    exact hopened.trans hentry.symm
  subst hthis
  have hentry : opened.Of .entry opened.signalId := ⟨hevent, rfl⟩
  rw [hjournal] at hpair hcount
  exact ⟨exit, mem_after_of_countP_one (P := (·.Of .entry opened.signalId)) hentry hentry hcount hpair,
    hexit, hcloses.quantity.symm, hcloses.ordered⟩

end

end TecoQuant.Backtest
