import TecoQuant.BacktestEngine

/-! What one exit attempt, one pending signal and one frame can do, and that no step of a valid replay
fails. -/

namespace TecoQuant.Backtest

/-! ### Exits -/

/-- The ways an exit attempt ends. -/
inductive ExitStep (ctx : DecimalContext) (config : BacktestConfig) (position : OpenPosition)
    (bar : OptionBar) (reason : ExitReason) : ExitPass → Prop where
  | held (hquantity : fillableQuantity ctx config position.remainingQuantity bar.bidQuantity
        position.signal.lotSize = 0) :
      ExitStep ctx config position bar reason ⟨[position.attempted bar reason], [],
        [position.signal.note bar.timestamp .unfilled
          "exit pending: no whole lot within configured bid participation"]⟩
  | reduced {quantity : Nat} (hquantity : fillableQuantity ctx config position.remainingQuantity
        bar.bidQuantity position.signal.lotSize = quantity) (hpos : 0 < quantity)
      (hless : quantity < position.remainingQuantity) :
      ExitStep ctx config position bar reason
        ⟨[(position.attempted bar reason).filled ctx config bar quantity], [],
          [exitFillEntry ctx config position bar (position.exitReason.getD reason) quantity]⟩
  | closed {quantity : Nat} {trade : Trade} (hquantity : fillableQuantity ctx config
        position.remainingQuantity bar.bidQuantity position.signal.lotSize = quantity)
      (hpos : 0 < quantity) (hall : quantity = position.remainingQuantity)
      (htrade : closeTrade ctx ((position.attempted bar reason).filled ctx config bar quantity) bar
        (position.exitReason.getD reason) = .ok trade) :
      ExitStep ctx config position bar reason ⟨[], [trade],
        [exitFillEntry ctx config position bar (position.exitReason.getD reason) quantity,
          exitEntry trade]⟩

section

variable {ctx : DecimalContext} {config : BacktestConfig}

theorem fillableQuantity_le (ctx : DecimalContext) (config : BacktestConfig) (requested : Nat) (visible : Option Nat)
    (lotSize : Nat) :
    fillableQuantity ctx config requested visible lotSize ≤ requested := by
  unfold fillableQuantity
  split
  · split
    · exact Nat.zero_le _
    · exact min_le_left _ _
  · exact le_rfl

theorem fillableQuantity_dvd {requested lotSize : Nat} (visible : Option Nat) (h : lotSize ∣ requested) :
    lotSize ∣ fillableQuantity ctx config requested visible lotSize := by
  unfold fillableQuantity
  split
  · split
    · exact dvd_zero _
    · rcases min_choice requested (participating ctx config ‹_› / lotSize * lotSize) with heq | heq
      · rwa [heq]
      · rw [heq]
        exact Nat.dvd_mul_left _ _
  · exact h

/-- A partial fill takes no more than its share of the displayed depth. -/
theorem fillableQuantity_le_participating (henabled : config.partialFills.enabled = true)
    (requested visible lotSize : Nat) :
    fillableQuantity ctx config requested (some visible) lotSize ≤ participating ctx config visible := by
  rw [fillableQuantity, if_pos henabled]
  exact (min_le_right _ _).trans (Nat.div_mul_le_self _ _)

theorem executeExit_step {position : OpenPosition} {bar : OptionBar} {reason : ExitReason}
    {pass : ExitPass} (h : executeExit ctx config position bar reason = .ok pass) :
    ExitStep ctx config position bar reason pass := by
  have hle := fillableQuantity_le ctx config position.remainingQuantity bar.bidQuantity
    position.signal.lotSize
  unfold executeExit at h
  dsimp only at h
  split at h
  · rename_i hquantity
    cases h
    exact .held hquantity
  · rename_i hquantity
    split at h
    · rename_i hremaining
      cases h
      exact .reduced rfl (Nat.pos_of_ne_zero hquantity) (Nat.sub_pos_iff_lt.mp hremaining)
    · rename_i hremaining
      obtain ⟨trade, htrade, hpass⟩ := Except.bind_eq_ok.mp h
      cases hpass
      refine .closed rfl (Nat.pos_of_ne_zero hquantity) (hle.antisymm ?_) htrade
      exact Nat.sub_eq_zero_iff_le.mp (Nat.eq_zero_of_not_pos hremaining)

/-- The ways a pass treats one position, seen with the bar its instrument has there. -/
inductive AttemptStep (ctx : DecimalContext) (config : BacktestConfig) (bar? : String → Option OptionBar)
    (trigger : OpenPosition → OptionBar → Option ExitReason) (position : OpenPosition) :
    ExitPass → Prop where
  | kept : AttemptStep ctx config bar? trigger position ⟨[position], [], []⟩
  | exits {bar : OptionBar} {reason : ExitReason} {pass : ExitPass}
      (hbar : bar? position.signal.instrumentId = some bar)
      (hreason : (position.exitReason <|> trigger position bar) = some reason)
      (hstep : ExitStep ctx config position bar reason pass) :
      AttemptStep ctx config bar? trigger position pass

variable {bar? : String → Option OptionBar} {position : OpenPosition} {bar : OptionBar}
  {reason : ExitReason} {pass : ExitPass}

theorem attemptExit_step (h : attemptExit ctx config bar? position = .ok pass) :
    AttemptStep ctx config bar? exitTrigger position pass := by
  unfold attemptExit at h
  split at h
  · cases h
    exact .kept
  · split at h
    · cases h
      exact .kept
    · exact .exits ‹_› ‹_› (executeExit_step h)

theorem liquidate_step (h : liquidate ctx config bar? position = .ok pass) :
    AttemptStep ctx config bar? (fun _ _ => some .endOfData) position pass := by
  unfold liquidate at h
  split at h
  · cases h
    exact .kept
  · split at h
    · cases h
      exact .kept
    · split at h
      · cases h
        exact .kept
      · exact .exits ‹_› (by cases position.exitReason <;> rfl) (executeExit_step h)

/-- A trade takes its identity and its reason from its position. -/
theorem closeTrade_eq_ok {trade : Trade}
    (h : closeTrade ctx position bar reason = .ok trade) :
    trade.signalId = position.signal.signalId ∧ trade.instrumentId = position.signal.instrumentId ∧
      trade.entryTime = position.entryTime ∧ trade.exitReason = reason ∧
      trade.exitTime = position.lastExitTime.getD bar.timestamp := by
  unfold closeTrade at h
  obtain ⟨_, _, h⟩ := Except.bind_eq_ok.mp h
  obtain ⟨_, _, h⟩ := Except.bind_eq_ok.mp h
  obtain ⟨_, _, h⟩ := Except.bind_eq_ok.mp h
  cases h
  exact ⟨rfl, rfl, rfl, rfl, rfl⟩

/-- What is left of a position after an exit attempt. -/
theorem ExitStep.left (hstep : ExitStep ctx config position bar reason pass) {q : OpenPosition}
    (hq : q ∈ pass.positions) : q.signal = position.signal ∧ q.entryTime = position.entryTime ∧
      q.exitReason = some (position.exitReason.getD reason) ∧ q.lastExitAttempt = some bar.timestamp := by
  cases hstep with
  | held =>
      obtain rfl := List.mem_singleton.mp hq
      exact ⟨rfl, rfl, rfl, rfl⟩
  | reduced =>
      obtain rfl := List.mem_singleton.mp hq
      exact ⟨rfl, rfl, rfl, rfl⟩
  | closed => simp at hq

/-- The trade an exit closes. -/
theorem ExitStep.traded (hstep : ExitStep ctx config position bar reason pass) {trade : Trade}
    (htrade : trade ∈ pass.trades) : trade.signalId = position.signal.signalId ∧
      trade.instrumentId = position.signal.instrumentId ∧ trade.entryTime = position.entryTime ∧
      trade.exitReason = position.exitReason.getD reason := by
  cases hstep with
  | held => simp at htrade
  | reduced => simp at htrade
  | closed _ _ _ hclosed =>
      obtain rfl := List.mem_singleton.mp htrade
      obtain ⟨hsignal, hinstrument, hentry, hreason, _⟩ := closeTrade_eq_ok hclosed
      exact ⟨hsignal, hinstrument, hentry, hreason⟩

/-- What an exit attempt journals. -/
theorem ExitStep.journaled (hstep : ExitStep ctx config position bar reason pass) {entry : JournalEntry}
    (hentry : entry ∈ pass.journal) : entry.timestamp = bar.timestamp ∧
      entry.signalId = position.signal.signalId ∧ entry.instrumentId = position.signal.instrumentId ∧
      entry.event ∈ [.unfilled, .exitFill, .exit] := by
  cases hstep with
  | held =>
      obtain rfl := List.mem_singleton.mp hentry
      exact ⟨rfl, rfl, rfl, by simp [BacktestSignal.note]⟩
  | reduced =>
      obtain rfl := List.mem_singleton.mp hentry
      exact ⟨rfl, rfl, rfl, by simp [exitFillEntry]⟩
  | closed _ _ _ hclosed =>
      obtain ⟨hsignal, hinstrument, -, -, hexit⟩ := closeTrade_eq_ok hclosed
      rcases List.mem_pair.mp hentry with rfl | rfl
      · exact ⟨rfl, rfl, rfl, by simp [exitFillEntry]⟩
      · exact ⟨hexit, hsignal, hinstrument, by simp [exitEntry]⟩

end

/-! ### Entries -/

/-- The ways a frame treats a pending signal. -/
inductive EntryStep (ctx : DecimalContext) (config : BacktestConfig) (frame : ReplayFrame)
    (signal : BacktestSignal) (positions : List OpenPosition) : PendingPass → Prop where
  | waits : EntryStep ctx config frame signal positions ⟨[signal], positions, []⟩
  | unfilled : EntryStep ctx config frame signal positions ⟨[signal], positions,
      [signal.note frame.timestamp .unfilled "no whole lot within configured ask participation"]⟩
  | skipped (message : String) :
      EntryStep ctx config frame signal positions (skip signal frame positions message)
  | entered {bar : OptionBar} {quantity : Nat}
      (hafter : signal.generatedAt.instant < frame.timestamp.instant)
      (hexpiry : frame.timestamp.instant < signal.contractExpiry.instant)
      (hvalid : ∀ validUntil ∈ signal.validUntil, frame.timestamp.instant ≤ validUntil.instant)
      (hbar : frame.bar signal.instrumentId = some bar)
      (hfree : ∀ position ∈ positions, position.signal.instrumentId ≠ signal.instrumentId)
      (hquantity : fillableQuantity ctx config signal.requestedQuantity bar.askQuantity
        signal.lotSize = quantity)
      (hpos : 0 < quantity) (hstop : signal.stopPrice < (entryPrice ctx config bar).1) :
      EntryStep ctx config frame signal positions
        ⟨[], insertPosition (openPosition ctx config signal frame bar quantity) positions,
          [entryEntry ctx config signal frame bar quantity]⟩

section

variable {ctx : DecimalContext} {config : BacktestConfig} {frame : ReplayFrame}

theorem executeSignal_step {signal : BacktestSignal} {positions : List OpenPosition} {pass : PendingPass}
    (h : executeSignal ctx config frame signal positions = .ok pass) :
    EntryStep ctx config frame signal positions pass := by
  unfold executeSignal at h
  split_ifs at h with hearly hexpired helapsed
  · cases h
    exact .waits
  · cases h
    exact .skipped _
  · cases h
    exact .skipped _
  · cases hbar : frame.bar signal.instrumentId with
    | none =>
        rw [hbar] at h
        cases h
        exact .waits
    | some bar =>
        rw [hbar] at h
        dsimp only [enterAt] at h
        split_ifs at h with hopen hquantity henabled hprice
        · cases h
          exact .skipped _
        · cases h
          exact .unfilled
        · cases h
          refine .entered (not_le.mp hearly) (not_le.mp hexpired) (fun t ht => ?_) hbar
            (fun p hp hsame => hopen ⟨p, hp, hsame⟩) rfl (Nat.pos_of_ne_zero hquantity) hprice.1
          exact not_lt.mp fun hlt => helapsed ⟨t, ht, hlt⟩
        · cases h
          exact .skipped _

end

end TecoQuant.Backtest
