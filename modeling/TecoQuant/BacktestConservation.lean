import TecoQuant.BacktestAccounts

/-! Conservation of signals and quantities in a replay: every signal is queued once and has one outcome,
each instrument has one open position at most, and contracts are bought and sold in whole lots. -/

namespace TecoQuant.Backtest

/-! ### Signals, instruments and lots -/

/-- What a state of the loop holds belongs to the signals of the frames, in whole lots, one position for
each instrument. -/
structure InLots (frames : List ReplayFrame) (s : ReplayState) : Prop where
  pending : ∀ signal ∈ s.pending, signal ∈ frames.flatMap ReplayFrame.signals
  positions : ∀ p ∈ s.positions, p.signal ∈ frames.flatMap ReplayFrame.signals
  journal : ∀ e ∈ s.journal, e.event = .entry ∨ e.event = .exitFill →
    ∃ signal ∈ frames.flatMap ReplayFrame.signals, e.signalId = signal.signalId ∧
      signal.lotSize ∣ e.quantity ∧ (e.event = .entry → e.quantity ≤ signal.requestedQuantity)
  queued : (s.journal.filter (·.event = .signal)).map JournalEntry.signalId =
    (frames.flatMap ReplayFrame.signals).map BacktestSignal.signalId
  one_open : (s.positions.map (·.signal.instrumentId)).Nodup

section

variable {ctx : DecimalContext} {config : BacktestConfig} {frames : List ReplayFrame} {frame : ReplayFrame}
  {s s' : ReplayState} {bar? : String → Option OptionBar}
  {trigger : OpenPosition → OptionBar → Option ExitReason} {position : OpenPosition}
  {positions : List OpenPosition} {pass : ExitPass} {attempt : OpenPosition → Except Fault ExitPass}

theorem AttemptStep.signals (hstep : AttemptStep ctx config bar? trigger position pass) :
    (pass.positions.map (·.signal)).Sublist [position.signal] := by
  cases hstep with
  | kept => exact List.Sublist.refl _
  | exits _ _ hstep =>
      cases hstep with
      | held => exact List.Sublist.refl _
      | reduced => exact List.Sublist.refl _
      | closed => exact List.nil_sublist _

/-- A pass opens nothing. -/
theorem exitPass_signals
    (hattempt : ∀ p first, attempt p = .ok first → AttemptStep ctx config bar? trigger p first)
    (h : exitPass attempt positions = .ok pass) :
    (pass.positions.map (·.signal)).Sublist (positions.map (·.signal)) := by
  induction positions generalizing pass with
  | nil =>
      cases h
      exact List.Sublist.refl _
  | cons position positions ih =>
      obtain ⟨first, rest, hfirst, hrest, rfl⟩ := exitPass_cons_eq_ok.mp h
      rw [List.map_append, List.map_cons]
      exact (hattempt position first hfirst).signals.append (ih hrest)

/-- The journal of a pass tells of its positions, and its fills are whole lots. -/
theorem exitPass_fills
    (hattempt : ∀ p first, attempt p = .ok first → AttemptStep ctx config bar? trigger p first)
    (hsound : ∀ p ∈ positions, p.Sound) (h : exitPass attempt positions = .ok pass) :
    ∀ e ∈ pass.journal, e.event ∈ [.unfilled, .exitFill, .exit] ∧ (e.event = .exitFill →
      ∃ p ∈ positions, e.signalId = p.signal.signalId ∧ p.signal.lotSize ∣ e.quantity) := by
  intro e he
  obtain ⟨p, hp, first, hfirst, he⟩ := (exitPass_mem h).2.2 e he
  cases hattempt p first hfirst with
  | kept => simp at he
  | exits _ _ hstep =>
      obtain ⟨-, hsignal, -, hkind⟩ := hstep.journaled he
      refine ⟨hkind, fun hfill => ⟨p, hp, hsignal, ?_⟩⟩
      have hlots := (hsound p hp).remaining_lots
      cases hstep with
      | held =>
          obtain rfl := List.mem_singleton.mp he
          cases hfill
      | reduced hquantity =>
          obtain rfl := List.mem_singleton.mp he
          exact hquantity ▸ fillableQuantity_dvd _ hlots
      | closed hquantity =>
          rcases List.mem_pair.mp he with rfl | rfl
          · exact hquantity ▸ fillableQuantity_dvd _ hlots
          · cases hfill

theorem EntryStep.journaled {signal : BacktestSignal} {pass : PendingPass}
    (hstep : EntryStep ctx config frame signal positions pass) :
    ∀ e ∈ pass.journal, e.event ∈ [.unfilled, .skipped, .entry] ∧ (e.event = .entry →
      e.signalId = signal.signalId ∧ signal.lotSize ∣ e.quantity ∧
        e.quantity ≤ signal.requestedQuantity) := by
  intro e he
  cases hstep with
  | waits => simp at he
  | unfilled =>
      obtain rfl := List.mem_singleton.mp he
      simp [BacktestSignal.note]
  | skipped =>
      obtain rfl := List.mem_singleton.mp he
      simp [BacktestSignal.note]
  | entered _ _ _ _ _ hquantity =>
      obtain rfl := List.mem_singleton.mp he
      refine ⟨by simp [entryEntry], fun _ => ⟨rfl, ?_, ?_⟩⟩
      · exact hquantity ▸ fillableQuantity_dvd _ (Nat.dvd_mul_left _ _)
      · exact hquantity ▸ fillableQuantity_le _ _ _ _ _

/-- Pending signals open at most one position for each instrument. -/
theorem EntryStep.one_open {signal : BacktestSignal} {pass : PendingPass}
    (hstep : EntryStep ctx config frame signal positions pass)
    (h : (positions.map (·.signal.instrumentId)).Nodup) :
    (pass.positions.map (·.signal.instrumentId)).Nodup := by
  cases hstep with
  | waits => exact h
  | unfilled => exact h
  | skipped => exact h
  | entered _ _ _ _ hfree =>
      refine ((insertPosition_perm _ _).map _).nodup_iff.mpr (List.nodup_cons.mpr ⟨fun hmem => ?_, h⟩)
      obtain ⟨p, hp, hsame⟩ := List.mem_map.mp hmem
      exact hfree p hp hsame

/-- The positions after the pending signals belong to positions before, or to pending signals. -/
theorem executePending_signals {pending : List BacktestSignal} {entries : PendingPass}
    (h : executePending ctx config frame pending positions = .ok entries) :
    ∀ p ∈ entries.positions, p ∈ positions ∨ p.signal ∈ pending := by
  induction pending generalizing positions entries with
  | nil =>
      cases h
      exact fun p hp => .inl hp
  | cons signal pending ih =>
      obtain ⟨first, rest, hfirst, hrest, rfl⟩ := executePending_cons_eq_ok.mp h
      intro p hp
      rcases ih hrest p hp with hp | hp
      · cases executeSignal_step hfirst with
        | waits => exact .inl hp
        | unfilled => exact .inl hp
        | skipped => exact .inl hp
        | entered =>
            rcases mem_insertPosition.mp hp with rfl | hp
            · exact .inr List.mem_cons_self
            · exact .inl hp
      · exact .inr (List.mem_cons_of_mem _ hp)

theorem InLots.start : InLots [] .initial := by
  constructor <;> simp [ReplayState.initial]

theorem InLots.step (h : InLots frames s) (hsound : ∀ p ∈ s.positions, p.Sound)
    (hframe : replayFrame ctx config s frame = .ok s') : InLots (frames ++ [frame]) s' := by
  obtain ⟨exits, entries, hexits, hentries, rfl⟩ := replayFrame_eq_ok.mp hframe
  have hleft := exitPass_signals (fun _ _ => attemptExit_step) hexits
  have hfills := exitPass_fills (fun _ _ => attemptExit_step) hsound hexits
  obtain ⟨hstill, hentered⟩ := executePending_mem hentries
  have hnotes : ∀ e ∈ entries.journal, e.event ∈ [.unfilled, .skipped, .entry] ∧ (e.event = .entry →
      ∃ signal ∈ frames.flatMap ReplayFrame.signals, e.signalId = signal.signalId ∧
        signal.lotSize ∣ e.quantity ∧ e.quantity ≤ signal.requestedQuantity) := by
    intro e he
    obtain ⟨signal, hsignal, before, first, hfirst, he⟩ := hentered e he
    obtain ⟨hkind, hentry⟩ := (executeSignal_step hfirst).journaled e he
    exact ⟨hkind, fun hevent => ⟨signal, h.pending signal hsignal, hentry hevent⟩⟩
  refine ⟨fun signal hsignal => ?_, fun p hp => ?_, fun e he hevent => ?_, ?_, ?_⟩
  · rw [List.flatMap_append]
    rcases List.mem_append.mp hsignal with hsignal | hsignal
    · exact List.mem_append_left _ (h.pending signal (hstill signal hsignal))
    · exact List.mem_append_right _ (by simpa using hsignal)
  · rw [List.flatMap_append]
    refine List.mem_append_left _ ?_
    rcases executePending_signals hentries p hp with hp | hp
    · obtain ⟨q, hq, hsame⟩ := List.mem_map.mp (hleft.subset (List.mem_map_of_mem hp))
      exact hsame ▸ h.positions q hq
    · exact h.pending _ hp
  · have hkeep {signal : BacktestSignal} (hsignal : signal ∈ frames.flatMap ReplayFrame.signals) :
        signal ∈ (frames ++ [frame]).flatMap ReplayFrame.signals := by
      rw [List.flatMap_append]
      exact List.mem_append_left _ hsignal
    rcases List.mem_append.mp he with he | he
    · obtain ⟨signal, hsignal, hrest⟩ := h.journal e he hevent
      exact ⟨signal, hkeep hsignal, hrest⟩
    rcases List.mem_append.mp he with he | he
    · rcases List.mem_append.mp he with he | he
      · obtain ⟨hkind, hfill⟩ := hfills e he
        rcases hevent with hevent | hevent
        · simp [hevent] at hkind
        · obtain ⟨p, hp, hsignal, hlots⟩ := hfill hevent
          exact ⟨p.signal, hkeep (h.positions p hp), hsignal, hlots, by simp [hevent]⟩
      · obtain ⟨hkind, hentry⟩ := hnotes e he
        rcases hevent with hevent | hevent
        · obtain ⟨signal, hsignal, hid, hlots, hle⟩ := hentry hevent
          exact ⟨signal, hkeep hsignal, hid, hlots, fun _ => hle⟩
        · simp [hevent] at hkind
    · obtain ⟨signal, -, rfl⟩ := List.mem_map.mp he
      rcases hevent with hevent | hevent <;> cases hevent
  · have hexits : exits.journal.filter (·.event = .signal) = [] :=
      List.filter_eq_nil_iff.mpr fun e he hevent => by
        simpa [of_decide_eq_true hevent] using (hfills e he).1
    have hentries : entries.journal.filter (·.event = .signal) = [] :=
      List.filter_eq_nil_iff.mpr fun e he hevent => by
        simpa [of_decide_eq_true hevent] using (hnotes e he).1
    have hqueue : (frame.signals.map fun signal => signal.note frame.timestamp .signal
        "signal queued for the first strictly later quote").filter (·.event = .signal) =
        frame.signals.map fun signal => signal.note frame.timestamp .signal
          "signal queued for the first strictly later quote" :=
      List.filter_eq_self.mpr fun e he => by
        obtain ⟨signal, -, rfl⟩ := List.mem_map.mp he
        rfl
    simp only [List.filter_append, hexits, hentries, hqueue, List.nil_append, List.map_append, h.queued,
      List.flatMap_append, List.map_map, List.flatMap_singleton]
    rfl
  · refine executePending_invariant (fun positions => (positions.map (·.signal.instrumentId)).Nodup)
      (fun _ _ _ hfirst => (executeSignal_step hfirst).one_open) hentries ?_
    have hids := hleft.map BacktestSignal.instrumentId
    rw [List.map_map, List.map_map] at hids
    exact h.one_open.sublist hids

theorem replayLoop_inLots (h : replayLoop ctx config frames = .ok s) : InLots frames s :=
  replayLoop_invariant InLots .start
    (fun _ _ _ _ hs hlots hframe => hlots.step (replayLoop_sound hs) hframe) h

end

/-! ### Conservation -/

/-- The contracts the journal buys for a signal. -/
def bought (journal : List JournalEntry) (signalId : String) : Nat :=
  ((journal.filter (·.Of .entry signalId)).map JournalEntry.quantity).sum

/-- The contracts the journal sells for a signal. -/
def sold (journal : List JournalEntry) (signalId : String) : Nat :=
  ((journal.filter (·.Of .exitFill signalId)).map JournalEntry.quantity).sum

/-- The outcomes of a signal: closed trades, open positions, skips, and final unfilled entries. -/
def outcomes (report : BacktestReport) (signalId : String) : Nat :=
  report.trades.countP (·.signalId = signalId) + report.openPositions.countP (·.signalId = signalId) +
    report.journal.countP (·.Of .skipped signalId) + report.journal.countP (·.Final signalId)

/-- Signals and contracts are conserved. -/
structure Conservation (ctx : DecimalContext) (config : BacktestConfig) (frames : List ReplayFrame)
    (report : BacktestReport) : Prop where
  queued : ∀ signal ∈ frames.flatMap ReplayFrame.signals,
    report.journal.countP (·.Of .signal signal.signalId) = 1
  outcome : ∀ signal ∈ frames.flatMap ReplayFrame.signals, outcomes report signal.signalId = 1
  stranger : ∀ signalId, (∀ signal ∈ frames.flatMap ReplayFrame.signals, signal.signalId ≠ signalId) →
    outcomes report signalId = 0 ∧ report.journal.countP (·.Of .signal signalId) = 0
  one_open : ∀ before after s, frames = before ++ after → replayLoop ctx config before = .ok s →
    (s.positions.map (·.signal.instrumentId)).Nodup
  one_left : (report.openPositions.map OpenPositionSummary.instrumentId).Nodup
  entered : ∀ signalId, report.journal.countP (·.Of .entry signalId) =
    report.trades.countP (·.signalId = signalId) + report.openPositions.countP (·.signalId = signalId)
  closed : ∀ trade ∈ report.trades,
    bought report.journal trade.signalId = sold report.journal trade.signalId
  left : ∀ p ∈ report.openPositions, 0 < p.remainingQuantity ∧
    bought report.journal p.signalId = sold report.journal p.signalId + p.remainingQuantity
  lots : ∀ signal ∈ frames.flatMap ReplayFrame.signals,
    (∀ e ∈ report.journal, e.signalId = signal.signalId → e.event = .entry ∨ e.event = .exitFill →
      signal.lotSize ∣ e.quantity ∧ (e.event = .entry → e.quantity ≤ signal.lots * signal.lotSize)) ∧
    ∀ p ∈ report.openPositions, p.signalId = signal.signalId → signal.lotSize ∣ p.remainingQuantity

section

variable {ctx : DecimalContext} {config : BacktestConfig} {frames : List ReplayFrame} {s : ReplayState}
  {report : BacktestReport} {exits : ExitPass}

/-- Every signal is queued as often as it occurs in the frames, and its outcomes are as many. -/
theorem Ends.outcomes_eq (hs : replayLoop ctx config frames = .ok s) (hends : Ends ctx config s report exits)
    (signalId : String) : outcomes report signalId = report.journal.countP (·.Of .signal signalId) := by
  have haccount := (Account.outcome_conserved ctx config signalId).of_report
    (fun signal t => by simp [Account.outcome, indicator, JournalEntry.Of, JournalEntry.Final,
      BacktestSignal.note]) hs hends
  simp only [Account.outcome, Account.ofTrades, Account.ofJournal, sum_difference, List.sum_map_add,
    sum_indicator] at haccount
  unfold outcomes
  omega

theorem Ends.entered (hs : replayLoop ctx config frames = .ok s) (hends : Ends ctx config s report exits)
    (signalId : String) : report.journal.countP (·.Of .entry signalId) =
      report.trades.countP (·.signalId = signalId) + report.openPositions.countP (·.signalId = signalId) := by
  have haccount := (Account.entrance_conserved ctx config signalId).of_report
    (fun signal t => by simp [Account.entrance, indicator, JournalEntry.Of, BacktestSignal.note]) hs hends
  simp only [Account.entrance, Account.ofTrades, Account.ofJournal, sum_difference, sum_indicator,
    List.map_const', List.sum_replicate, nsmul_zero] at haccount
  omega

/-- The contracts bought are those sold and those remaining. -/
theorem Ends.contracts (hs : replayLoop ctx config frames = .ok s) (hends : Ends ctx config s report exits)
    (signalId : String) : bought report.journal signalId = sold report.journal signalId +
      ((report.openPositions.filter (·.signalId = signalId)).map
        OpenPositionSummary.remainingQuantity).sum := by
  have haccount := (Account.contracts_conserved ctx config signalId).of_report
    (fun signal t => by simp [Account.contracts, JournalEntry.Of, BacktestSignal.note]) hs hends
  simp only [Account.contracts, Account.ofTrades, Account.ofJournal, sum_difference, sum_weights,
    List.map_const', List.sum_replicate, nsmul_zero] at haccount
  unfold bought sold
  omega

/-- The signals in the journal of a report are those of the frames. -/
theorem Ends.queued (hs : replayLoop ctx config frames = .ok s) (hends : Ends ctx config s report exits) :
    (report.journal.filter (·.event = .signal)).map JournalEntry.signalId =
      (frames.flatMap ReplayFrame.signals).map BacktestSignal.signalId := by
  have hexits : exits.journal.filter (·.event = .signal) = [] :=
    List.filter_eq_nil_iff.mpr fun e he hevent => by
      have hkind := (exitPass_fills (fun _ _ => liquidate_step) (replayLoop_sound hs) hends.liquidated e he).1
      simp [of_decide_eq_true hevent] at hkind
  have hfinal : (s.pending.map fun signal => signal.note report.endedAt .unfilled
      "no later executable quote before the replay ended").filter (·.event = .signal) = [] :=
    List.filter_eq_nil_iff.mpr fun e he hevent => by
      obtain ⟨signal, -, rfl⟩ := List.mem_map.mp he
      cases of_decide_eq_true hevent
  rw [hends.journal, List.filter_append, List.filter_append, hexits, hfinal, List.append_nil,
    List.append_nil, (replayLoop_inLots hs).queued]

/-- A signal is queued as often as it occurs in the frames. -/
theorem Ends.queued_count (hs : replayLoop ctx config frames = .ok s) (hends : Ends ctx config s report exits)
    (signalId : String) : report.journal.countP (·.Of .signal signalId) =
      ((frames.flatMap ReplayFrame.signals).map BacktestSignal.signalId).count signalId := by
  rw [← hends.queued hs, List.count, List.countP_map, List.countP_filter]
  congr 1
  funext e
  rw [Bool.eq_iff_iff, Bool.and_eq_true, decide_eq_true_iff, decide_eq_true_iff, Function.comp_apply,
    beq_iff_eq]
  exact and_comm

theorem Ends.queued_once (hvalid : ValidSequence frames) (hs : replayLoop ctx config frames = .ok s)
    (hends : Ends ctx config s report exits) {signal : BacktestSignal}
    (hsignal : signal ∈ frames.flatMap ReplayFrame.signals) :
    report.journal.countP (·.Of .signal signal.signalId) = 1 := by
  rw [hends.queued_count hs]
  exact List.count_eq_one_of_mem hvalid.unique (List.mem_map_of_mem hsignal)

theorem Ends.queued_never (hs : replayLoop ctx config frames = .ok s) (hends : Ends ctx config s report exits)
    {signalId : String} (hnone : ∀ signal ∈ frames.flatMap ReplayFrame.signals, signal.signalId ≠ signalId) :
    report.journal.countP (·.Of .signal signalId) = 0 := by
  rw [hends.queued_count hs]
  refine List.count_eq_zero.mpr fun hmem => ?_
  obtain ⟨signal, hsignal, hid⟩ := List.mem_map.mp hmem
  exact hnone signal hsignal hid

theorem Ends.outcomes_le_one (hvalid : ValidSequence frames) (hs : replayLoop ctx config frames = .ok s)
    (hends : Ends ctx config s report exits) (signalId : String) : outcomes report signalId ≤ 1 := by
  rw [hends.outcomes_eq hs, hends.queued_count hs]
  exact List.nodup_iff_count_le_one.mp hvalid.unique signalId

/-- An open position of the report is one the liquidation leaves: sound, and of a signal of the frames. -/
theorem Ends.left (hs : replayLoop ctx config frames = .ok s) (hends : Ends ctx config s report exits)
    {p : OpenPositionSummary} (hp : p ∈ report.openPositions) :
    ∃ q : OpenPosition, q.summary = p ∧ q.Sound ∧ q.signal ∈ frames.flatMap ReplayFrame.signals := by
  rw [hends.openPositions] at hp
  obtain ⟨q, hq, rfl⟩ := List.mem_map.mp hp
  have hq := (List.mem_insertionSort _).mp hq
  obtain ⟨before, hbefore, first, hfirst, hleft⟩ := (exitPass_mem hends.liquidated).1 q hq
  have hsignals := exitPass_signals (fun _ _ => liquidate_step) hends.liquidated
  obtain ⟨held, hheld, hsame⟩ := List.mem_map.mp (hsignals.subset (List.mem_map_of_mem hq))
  exact ⟨q, rfl, (liquidate_step hfirst).sound (replayLoop_sound hs before hbefore) q hleft,
    hsame ▸ (replayLoop_inLots hs).positions held hheld⟩

theorem Ends.one_left (hs : replayLoop ctx config frames = .ok s) (hends : Ends ctx config s report exits) :
    (report.openPositions.map OpenPositionSummary.instrumentId).Nodup := by
  have hids := (exitPass_signals (fun _ _ => liquidate_step) hends.liquidated).map BacktestSignal.instrumentId
  rw [List.map_map, List.map_map] at hids
  rw [hends.openPositions, List.map_map]
  exact ((List.perm_insertionSort _ _).map _).nodup_iff.mpr ((replayLoop_inLots hs).one_open.sublist hids)

/-- Nothing remains open of a signal that was traded: the trade is its only outcome. -/
theorem Ends.none_left (hvalid : ValidSequence frames) (hs : replayLoop ctx config frames = .ok s)
    (hends : Ends ctx config s report exits) {trade : Trade} (htrade : trade ∈ report.trades) :
    report.openPositions.filter (·.signalId = trade.signalId) = [] := by
  have htraded : 0 < report.trades.countP (·.signalId = trade.signalId) :=
    List.countP_pos_iff.mpr ⟨trade, htrade, by simp⟩
  have hle := hends.outcomes_le_one hvalid hs trade.signalId
  unfold outcomes at hle
  exact List.filter_eq_nil_iff.mpr (List.countP_eq_zero.mp (by omega))

theorem Ends.only_left (hvalid : ValidSequence frames) (hs : replayLoop ctx config frames = .ok s)
    (hends : Ends ctx config s report exits) {p : OpenPositionSummary} (hp : p ∈ report.openPositions) :
    report.openPositions.filter (·.signalId = p.signalId) = [p] := by
  have hmem : p ∈ report.openPositions.filter (·.signalId = p.signalId) := List.mem_filter.mpr ⟨hp, by simp⟩
  have hlength : (report.openPositions.filter (·.signalId = p.signalId)).length ≤ 1 := by
    have hle := hends.outcomes_le_one hvalid hs p.signalId
    unfold outcomes at hle
    rw [← List.countP_eq_length_filter]
    omega
  obtain ⟨only, honly⟩ := List.length_eq_one_iff.mp (hlength.antisymm (List.length_pos_of_mem hmem))
  rw [honly] at hmem ⊢
  rw [List.mem_singleton.mp hmem]

/-- The entries and the fills of a report are whole lots of a signal of the frames. -/
theorem Ends.inLots (hs : replayLoop ctx config frames = .ok s) (hends : Ends ctx config s report exits)
    {e : JournalEntry} (he : e ∈ report.journal) (hevent : e.event = .entry ∨ e.event = .exitFill) :
    ∃ signal ∈ frames.flatMap ReplayFrame.signals, e.signalId = signal.signalId ∧
      signal.lotSize ∣ e.quantity ∧ (e.event = .entry → e.quantity ≤ signal.requestedQuantity) := by
  have hlots := replayLoop_inLots hs
  rw [hends.journal] at he
  rcases List.mem_append.mp he with he | he
  · exact hlots.journal e he hevent
  rcases List.mem_append.mp he with he | he
  · obtain ⟨hkind, hfill⟩ := exitPass_fills (fun _ _ => liquidate_step) (replayLoop_sound hs) hends.liquidated e he
    rcases hevent with hevent | hevent
    · simp [hevent] at hkind
    · obtain ⟨p, hp, hsignal, hdvd⟩ := hfill hevent
      exact ⟨p.signal, hlots.positions p hp, hsignal, hdvd, by simp [hevent]⟩
  · obtain ⟨signal, -, rfl⟩ := List.mem_map.mp he
    rcases hevent with hevent | hevent <;> cases hevent

theorem Ends.conservation (hvalid : ValidSequence frames) (hs : replayLoop ctx config frames = .ok s)
    (hends : Ends ctx config s report exits) : Conservation ctx config frames report := by
  have hsame {signal other : BacktestSignal} (hsignal : signal ∈ frames.flatMap ReplayFrame.signals)
      (hother : other ∈ frames.flatMap ReplayFrame.signals) (hid : other.signalId = signal.signalId) :
      other = signal :=
    List.inj_on_of_nodup_map hvalid.unique hother hsignal hid
  refine {
    queued := fun signal hsignal => hends.queued_once hvalid hs hsignal
    outcome := fun signal hsignal => (hends.outcomes_eq hs _).trans (hends.queued_once hvalid hs hsignal)
    stranger := fun signalId hnone =>
      ⟨(hends.outcomes_eq hs _).trans (hends.queued_never hs hnone), hends.queued_never hs hnone⟩
    one_open := fun before after t _ ht => (replayLoop_inLots ht).one_open
    one_left := hends.one_left hs
    entered := hends.entered hs
    closed := fun trade htrade => ?_
    left := fun p hp => ?_
    lots := fun signal hsignal => ⟨fun e he hid hevent => ?_, fun p hp hid => ?_⟩ }
  · rw [hends.contracts hs, hends.none_left hvalid hs htrade]
    rfl
  · obtain ⟨q, rfl, hsound, -⟩ := hends.left hs hp
    refine ⟨hsound.remaining_pos, ?_⟩
    rw [hends.contracts hs, hends.only_left hvalid hs hp]
    rfl
  · obtain ⟨other, hother, howner, hdvd, hbound⟩ := hends.inLots hs he hevent
    obtain rfl := hsame hsignal hother (howner.symm.trans hid)
    exact ⟨hdvd, hbound⟩
  · obtain ⟨q, rfl, hsound, hmem⟩ := hends.left hs hp
    obtain rfl := hsame hsignal hmem hid
    exact hsound.remaining_lots

end

end TecoQuant.Backtest
