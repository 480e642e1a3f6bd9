import Mathlib.Tactic.Ring
import Mathlib.Tactic.Positivity
import TecoQuant.BacktestTallies

/-! Profit, costs and slippage of a replay in exact arithmetic. Three tallies, of the notional, of the
costs and of the slippage, carry the sums over the fills into the trades; the metrics carry the trades into
the capital. -/

namespace TecoQuant.Backtest

section

variable {config : BacktestConfig} {frames : List ReplayFrame} {tally : Tally} {frame : ReplayFrame}
  {signal : BacktestSignal} {positions : List OpenPosition} {entries : PendingPass}

/-- A position opens at the bar of its frame. -/
theorem openPosition_entered (hvalid : ValidSequence frames) (hframe : frame ∈ frames) {bar : OptionBar}
    (hbar : frame.bar signal.instrumentId = some bar) (quantity : Nat) :
    (openPosition .exact config signal frame bar quantity).Entered config frames where
  costs := rfl
  bar := by
    refine ⟨bar, (barAt_of_mem hvalid hframe rfl).trans hbar, rfl, ?_⟩
    show (entryPrice .exact config bar).2 * (quantity : ℚ) =
      (bar.ask + (entryPrice .exact config bar).2 - bar.ask) * quantity
    ring

theorem EntryStep.kept_entered (hvalid : ValidSequence frames) (hframe : frame ∈ frames)
    (hstep : EntryStep .exact config frame signal positions entries)
    (h : ∀ p ∈ positions, p.Entered config frames) : ∀ p ∈ entries.positions, p.Entered config frames := by
  cases hstep with
  | waits => exact h
  | unfilled => exact h
  | skipped => exact h
  | entered _ _ _ hbar =>
      intro p hp
      rcases mem_insertPosition.mp hp with rfl | hp
      · exact openPosition_entered hvalid hframe hbar _
      · exact h p hp

theorem Tally.Faithful.of_entry (hfaithful : tally.Faithful config frames)
    (hstep : EntryStep .exact config frame signal positions entries) (signalId : String) :
    tally.ofPositions signalId entries.positions = tally.ofPositions signalId positions := by
  cases hstep with
  | waits => rfl
  | unfilled => rfl
  | skipped => rfl
  | entered =>
      rw [Tally.ofPositions_perm (insertPosition_perm _ _), Tally.ofPositions_cons, hfaithful.opened, ite_self,
        zero_add]

/-- A frame journals no exit fill for a pending signal. -/
theorem EntryStep.no_fill (hstep : EntryStep .exact config frame signal positions entries) :
    ∀ e ∈ entries.journal, e.event ≠ .exitFill := by
  cases hstep with
  | waits => simp
  | unfilled => simp [BacktestSignal.note]
  | skipped => simp [skip, BacktestSignal.note]
  | entered => simp [entryEntry]

theorem executePending_no_fill {pending : List BacktestSignal}
    (h : executePending .exact config frame pending positions = .ok entries) :
    ∀ e ∈ entries.journal, e.event ≠ .exitFill := by
  intro e he
  obtain ⟨other, -, before, first, hfirst, he⟩ := (executePending_mem h).2 e he
  exact (executeSignal_step hfirst).no_fill e he

/-- The positions, trades and fills of a loop over some of the frames. -/
structure Tallied (config : BacktestConfig) (frames : List ReplayFrame) (s : ReplayState) : Prop where
  entered : ∀ p ∈ s.positions, p.Entered config frames
  closed : ∀ trade ∈ s.trades, ∃ p, p.Entered config frames ∧ trade.Closes p
  filled : ∀ e ∈ s.journal, e.Filled config frames
  tallied : ∀ tally : Tally, tally.Faithful config frames → ∀ signalId,
    tally.ofPositions signalId s.positions + tally.ofTrades signalId s.trades =
      tally.ofFills signalId s.journal

theorem Tallied.start : Tallied config frames .initial where
  entered := by simp [ReplayState.initial]
  closed := by simp [ReplayState.initial]
  filled := by simp [ReplayState.initial]
  tallied := by simp [ReplayState.initial]

variable {s s' : ReplayState}

theorem Tallied.step (hvalid : ValidSequence frames) (hframe : frame ∈ frames) (h : Tallied config frames s)
    (hsound : ∀ p ∈ s.positions, p.Sound) (hstep : replayFrame .exact config s frame = .ok s') :
    Tallied config frames s' := by
  obtain ⟨exits, entries, hexits, hentries, rfl⟩ := replayFrame_eq_ok.mp hstep
  have hquoted : ∀ X bar, frame.bar X = some bar → Quoted frames X bar :=
    fun X bar hbar => ⟨frame, hframe, hbar⟩
  obtain ⟨hleft, hclosed⟩ := exitPass_entered (fun _ _ => attemptExit_step) hsound h.entered hexits
  have hnofill : ∀ e ∈ entries.journal ++ frame.signals.map (fun signal =>
      signal.note frame.timestamp .signal "signal queued for the first strictly later quote"),
      e.event ≠ .exitFill := by
    intro e he
    rcases List.mem_append.mp he with he | he
    · exact executePending_no_fill hentries e he
    · obtain ⟨signal, -, rfl⟩ := List.mem_map.mp he
      exact nofun
  constructor
  · exact executePending_invariant (fun positions => ∀ p ∈ positions, p.Entered config frames)
      (fun _ _ _ hfirst hp => (executeSignal_step hfirst).kept_entered hvalid hframe hp) hentries hleft
  · intro trade htrade
    rcases List.mem_append.mp htrade with htrade | htrade
    · exact h.closed trade htrade
    · exact hclosed trade htrade
  · intro e he
    rw [List.append_assoc] at he
    rcases List.mem_append.mp he with he | he
    · exact h.filled e he
    · rcases List.mem_append.mp he with he | he
      · exact exitPass_filled hvalid (fun _ _ => attemptExit_step) hquoted hexits e he
      · exact fun hevent => absurd hevent (hnofill e he)
  · intro tally hfaithful signalId
    have hbefore := h.tallied tally hfaithful signalId
    have hpass := hfaithful.of_exitPass (fun _ _ => attemptExit_step) hquoted hsound h.entered hexits signalId
    have hopened : tally.ofPositions signalId entries.positions = tally.ofPositions signalId exits.positions :=
      executePending_invariant
        (fun positions => tally.ofPositions signalId positions = tally.ofPositions signalId exits.positions)
        (fun _ _ _ hfirst hp => (hfaithful.of_entry (executeSignal_step hfirst) signalId).trans hp)
        hentries rfl
    rw [List.append_assoc, Tally.ofFills_append, Tally.ofFills_append, Tally.ofFills_eq_zero hnofill,
      Tally.ofTrades_append, hopened]
    linarith

theorem replayLoop_tallied (hvalid : ValidSequence frames) (h : replayLoop .exact config frames = .ok s) :
    Tallied config frames s := by
  refine replayLoop_invariant (fun before s => (∀ f ∈ before, f ∈ frames) → Tallied config frames s)
    (fun _ => .start) (fun before frame s s' hs htallied hframe hmem => ?_) h fun _ hf => hf
  have hbefore := htallied fun f hf => hmem f (List.mem_append_left _ hf)
  exact hbefore.step hvalid (hmem frame (by simp)) (replayLoop_sound hs) hframe

end

/-! ### Three tallies -/

/-- The worth of a fill. -/
def JournalEntry.notional (e : JournalEntry) : ℚ := e.price.getD 0 * e.quantity

/-- What an order pays: the brokerage once, the rates on its notional, and GST on brokerage and fees. -/
def orderFee (config : BacktestConfig) (price : ℚ) (quantity : Nat) (isEntry : Bool) : ℚ :=
  let costs := config.costs
  let notional := price * quantity
  let fees := notional * costs.transactionFeeRate + notional * costs.regulatoryFeeRate
  let taxes := notional * (if isEntry then costs.entryTaxRate else costs.exitTaxRate)
  costs.brokeragePerOrder + taxes + fees + (costs.brokeragePerOrder + fees) * costs.gstRate

/-- What the fill of a bid gives away. -/
def JournalEntry.givenAway (frames : List ReplayFrame) (e : JournalEntry) : ℚ :=
  (((barAt frames e.instrumentId e.timestamp).map OptionBar.bid).getD 0 - e.price.getD 0) * e.quantity

/-- What an entry above the ask of its moment gives away for each unit. -/
def entryGivenAway (frames : List ReplayFrame) (instrumentId : String) (t : Datetime) (price : ℚ) : ℚ :=
  price - ((barAt frames instrumentId t).map OptionBar.ask).getD 0

def Tally.notional : Tally where
  position p := p.exitNotional
  trade t := t.grossPnl + t.entryPrice * t.quantity
  fill e := e.notional

def Tally.costs (config : BacktestConfig) : Tally where
  position p := p.exitCosts.total .exact
  trade t := t.exitCosts.total .exact
  fill e := orderFee config (e.price.getD 0) e.quantity false

def Tally.slippage (frames : List ReplayFrame) : Tally where
  position p := p.exitSlippage
  trade t := t.slippageCost - entryGivenAway frames t.instrumentId t.entryTime t.entryPrice * t.quantity
  fill e := e.givenAway frames

section

variable {config : BacktestConfig} {frames : List ReplayFrame}

theorem orderCosts_total (price : ℚ) (quantity : Nat) (isEntry : Bool) :
    (orderCosts .exact config price quantity isEntry).total .exact =
      orderFee config price quantity isEntry := by
  simp only [CostBreakdown.total, orderCosts, orderFee, DecimalContext.exact_add, DecimalContext.exact_mul]
  ring

theorem CostBreakdown.total_add (left right : CostBreakdown) :
    (left.add .exact right).total .exact = left.total .exact + right.total .exact := by
  simp only [CostBreakdown.total, CostBreakdown.add, DecimalContext.exact_add]
  ring

theorem Tally.notional_faithful : Tally.notional.Faithful config frames where
  attempted _ _ _ := rfl
  filled _ _ _ _ _ := rfl
  closed p trade _ hcloses := by
    show trade.grossPnl + trade.entryPrice * trade.quantity = p.exitNotional
    rw [hcloses.gross, hcloses.entryPrice, hcloses.quantity]
    ring
  opened _ _ _ _ := rfl

theorem Tally.costs_faithful : (Tally.costs config).Faithful config frames where
  attempted _ _ _ := rfl
  filled p bar reason quantity _ := by
    show (p.exitCosts.add .exact (orderCosts .exact config (exitPrice .exact config bar).1 quantity false)).total
      .exact = p.exitCosts.total .exact + orderFee config (exitPrice .exact config bar).1 quantity false
    rw [CostBreakdown.total_add, orderCosts_total]
  closed p trade _ hcloses := by
    show trade.exitCosts.total .exact = p.exitCosts.total .exact
    rw [hcloses.exitCosts]
  opened _ _ _ _ := by simp [Tally.costs, openPosition, CostBreakdown.zero, CostBreakdown.total]

theorem Tally.slippage_faithful (hvalid : ValidSequence frames) :
    (Tally.slippage frames).Faithful config frames where
  attempted _ _ _ := rfl
  filled p bar reason quantity hquoted := by
    show p.exitSlippage + (exitPrice .exact config bar).2 * (quantity : ℚ) = p.exitSlippage +
      (exitFillEntry .exact config p bar reason quantity).givenAway frames
    have hbar : barAt frames (exitFillEntry .exact config p bar reason quantity).instrumentId
        (exitFillEntry .exact config p bar reason quantity).timestamp = some bar := hquoted.barAt hvalid
    rw [JournalEntry.givenAway, hbar]
    rfl
  closed p trade hentered hcloses := by
    obtain ⟨bar, hbar, -, hslippage⟩ := hentered.bar
    show trade.slippageCost - entryGivenAway frames trade.instrumentId trade.entryTime trade.entryPrice *
      trade.quantity = p.exitSlippage
    rw [hcloses.slippage, hcloses.instrumentId, hcloses.entryTime, hcloses.entryPrice, hcloses.quantity,
      entryGivenAway, hbar, hslippage, Option.map_some, Option.getD_some]
    ring
  opened _ _ _ _ := rfl

/-- No entry price is below the ask. -/
theorem entryPrice_ge_ask (config : BacktestConfig) (bar : OptionBar) :
    bar.ask ≤ (entryPrice .exact config bar).1 := by
  obtain ⟨hentry, -, hfixed, -⟩ := config.slippage.nonneg
  have hask : 0 < bar.ask := bar.positive.2.2.2.2.2
  have hadverse : 0 ≤ bar.ask * config.slippage.entryBps / 10000 + config.slippage.fixedEntryPerUnit := by
    positivity
  exact le_add_of_nonneg_right hadverse

/-- No exit price is above the bid. -/
theorem exitPrice_le_bid (config : BacktestConfig) (bar : OptionBar) :
    (exitPrice .exact config bar).1 ≤ bar.bid := by
  obtain ⟨-, hexit, -, hfixed⟩ := config.slippage.nonneg
  have hbid : 0 < bar.bid := bar.positive.2.2.2.2.1
  have hadverse : 0 ≤ bar.bid * config.slippage.exitBps / 10000 + config.slippage.fixedExitPerUnit := by
    positivity
  exact max_le hbid.le (sub_le_self _ hadverse)

theorem JournalEntry.Filled.givenAway_nonneg {e : JournalEntry} (h : e.Filled config frames)
    (hevent : e.event = .exitFill) : 0 ≤ e.givenAway frames := by
  obtain ⟨bar, hbar, hprice⟩ := h hevent
  rw [JournalEntry.givenAway, hbar, hprice, Option.map_some, Option.getD_some, Option.getD_some]
  exact mul_nonneg (sub_nonneg.mpr (exitPrice_le_bid config bar)) (Nat.cast_nonneg _)

end

/-! ### Accounts of trades and of the report -/

/-- The exit fills of a signal. -/
def exitFills (journal : List JournalEntry) (signalId : String) : List JournalEntry :=
  journal.filter (·.Of .exitFill signalId)

/-- What the orders of a trade pay: the entry, and each of its exit fills. -/
def orderFees (config : BacktestConfig) (journal : List JournalEntry) (trade : Trade) : ℚ :=
  orderFee config trade.entryPrice trade.quantity true +
    ((exitFills journal trade.signalId).map fun e => orderFee config (e.price.getD 0) e.quantity false).sum

/-- A trade accounts for its orders: every exit fill is at a price up to the bid of a quoted bar, and the
profit, the costs and the slippage are those of the entry and of the fills. -/
structure Trade.Accounted (config : BacktestConfig) (frames : List ReplayFrame) (journal : List JournalEntry)
    (trade : Trade) : Prop where
  fills : ∀ e ∈ exitFills journal trade.signalId, ∃ bar price,
    barAt frames e.instrumentId e.timestamp = some bar ∧ e.price = some price ∧ price ≤ bar.bid
  gross : trade.grossPnl = ((exitFills journal trade.signalId).map JournalEntry.notional).sum -
    trade.entryPrice * trade.quantity
  net : trade.netPnl = trade.grossPnl - orderFees config journal trade
  slippage : ∃ bar, barAt frames trade.instrumentId trade.entryTime = some bar ∧
    bar.ask ≤ trade.entryPrice ∧ trade.slippageCost = (trade.entryPrice - bar.ask) * trade.quantity +
      ((exitFills journal trade.signalId).map (·.givenAway frames)).sum
  slippage_nonneg : 0 ≤ trade.slippageCost

/-- A report accounts for its trades, and its capital and its metrics are their sums. -/
structure Accounted (config : BacktestConfig) (frames : List ReplayFrame) (report : BacktestReport) :
    Prop where
  trades : ∀ trade ∈ report.trades, trade.Accounted config frames report.journal
  initialCapital : report.initialCapital = config.initialCapital
  endingCapital : report.endingCapital = report.initialCapital + (report.trades.map Trade.netPnl).sum
  netPnl : report.metrics.netPnl = (report.trades.map Trade.netPnl).sum
  grossPnl : report.metrics.grossPnl = (report.trades.map Trade.grossPnl).sum
  profit : report.metrics.grossProfit + report.metrics.grossLoss = (report.trades.map Trade.netPnl).sum
  totalCosts : report.metrics.totalCosts = (report.trades.map (orderFees config report.journal)).sum
  totalSlippage : report.metrics.totalSlippage = (report.trades.map Trade.slippageCost).sum
  wins : report.metrics.wins = report.trades.countP (0 < ·.netPnl)
  losses : report.metrics.losses = report.trades.countP (·.netPnl < 0)

section

variable {ctx : DecimalContext} {config : BacktestConfig} {frames : List ReplayFrame} {s : ReplayState}
  {report : BacktestReport} {exits : ExitPass}

/-- A closed trade is the only outcome of its signal. -/
theorem Conservation.only (h : Conservation ctx config frames report) {trade : Trade}
    (htrade : trade ∈ report.trades) : report.trades.filter (·.signalId = trade.signalId) = [trade] ∧
      ∀ p ∈ report.openPositions, p.signalId ≠ trade.signalId := by
  have hmem : trade ∈ report.trades.filter (·.signalId = trade.signalId) :=
    List.mem_filter.mpr ⟨htrade, by simp⟩
  have hone : outcomes report trade.signalId ≤ 1 := by
    by_cases hknown : ∃ signal ∈ frames.flatMap ReplayFrame.signals, signal.signalId = trade.signalId
    · obtain ⟨signal, hsignal, hid⟩ := hknown
      exact (hid ▸ h.outcome signal hsignal).le
    · push Not at hknown
      exact (h.stranger _ hknown).1.le.trans (Nat.zero_le 1)
  unfold outcomes at hone
  rw [List.countP_eq_length_filter] at hone
  have hpos := List.length_pos_of_mem hmem
  constructor
  · obtain ⟨only, hfilter⟩ := List.length_eq_one_iff.mp
      (by omega : (report.trades.filter (·.signalId = trade.signalId)).length = 1)
    rw [hfilter] at hmem ⊢
    rw [List.mem_singleton.mp hmem]
  · intro p hp hid
    have hopen : 0 < report.openPositions.countP (·.signalId = trade.signalId) :=
      List.countP_pos_iff.mpr ⟨p, hp, by simpa using hid⟩
    omega

/-- A trade of a report weighs as much as its fills. -/
theorem Ends.trade_tally (hvalid : ValidSequence frames) (hs : replayLoop .exact config frames = .ok s)
    (hends : Ends .exact config s report exits) {tally : Tally} (hfaithful : tally.Faithful config frames)
    {trade : Trade} (htrade : trade ∈ report.trades) :
    tally.trade trade = ((exitFills report.journal trade.signalId).map tally.fill).sum := by
  have htallied := replayLoop_tallied hvalid hs
  have hloop := htallied.tallied tally hfaithful trade.signalId
  have hpass := hfaithful.of_exitPass (fun _ _ => liquidate_step) (fun _ _ => replayLoop_quoted hs)
    (replayLoop_sound hs) htallied.entered hends.liquidated trade.signalId
  obtain ⟨honly, hclosed⟩ := (hends.conservation hvalid hs).only htrade
  have hopen : tally.ofPositions trade.signalId exits.positions = 0 := by
    have hnone : exits.positions.filter (·.signal.signalId = trade.signalId) = [] := by
      refine List.filter_eq_nil_iff.mpr fun q hq hid => ?_
      refine hclosed q.summary ?_ (of_decide_eq_true hid)
      rw [hends.openPositions]
      exact List.mem_map_of_mem ((List.mem_insertionSort _).mpr hq)
    rw [Tally.ofPositions, hnone]
    rfl
  have hpending : tally.ofFills trade.signalId (s.pending.map fun signal =>
      signal.note report.endedAt .unfilled "no later executable quote before the replay ended") = 0 := by
    refine Tally.ofFills_eq_zero fun e he => ?_
    obtain ⟨signal, -, rfl⟩ := List.mem_map.mp he
    intro hfill
    cases hfill
  have htrades : tally.ofTrades trade.signalId report.trades = tally.trade trade := by
    rw [Tally.ofTrades, honly, List.map_singleton, List.sum_singleton]
  have hfills : tally.ofFills trade.signalId report.journal = tally.ofFills trade.signalId s.journal +
      tally.ofFills trade.signalId exits.journal := by
    rw [hends.journal, Tally.ofFills_append, Tally.ofFills_append, hpending, add_zero]
  have hall : tally.ofTrades trade.signalId report.trades = tally.ofTrades trade.signalId s.trades +
      tally.ofTrades trade.signalId exits.trades := by
    rw [hends.trades, Tally.ofTrades_append]
  show _ = tally.ofFills trade.signalId report.journal
  linarith

/-- What a report closes, and the fills it journals. -/
theorem Ends.tallied (hvalid : ValidSequence frames) (hs : replayLoop .exact config frames = .ok s)
    (hends : Ends .exact config s report exits) :
    (∀ trade ∈ report.trades, ∃ p, p.Entered config frames ∧ trade.Closes p) ∧
      ∀ e ∈ report.journal, e.Filled config frames := by
  have htallied := replayLoop_tallied hvalid hs
  have hclosed := (exitPass_entered (fun _ _ => liquidate_step) (replayLoop_sound hs) htallied.entered
    hends.liquidated).2
  have hfilled := exitPass_filled hvalid (fun _ _ => liquidate_step)
    (fun _ _ => replayLoop_quoted hs) hends.liquidated
  rw [hends.trades, hends.journal]
  constructor
  · intro trade htrade
    rcases List.mem_append.mp htrade with htrade | htrade
    · exact htallied.closed trade htrade
    · exact hclosed trade htrade
  · intro e he
    rcases List.mem_append.mp he with he | he
    · exact htallied.filled e he
    · rcases List.mem_append.mp he with he | he
      · exact hfilled e he
      · obtain ⟨signal, -, rfl⟩ := List.mem_map.mp he
        exact nofun

theorem Ends.trade_accounted (hvalid : ValidSequence frames) (hs : replayLoop .exact config frames = .ok s)
    (hends : Ends .exact config s report exits) {trade : Trade} (htrade : trade ∈ report.trades) :
    trade.Accounted config frames report.journal := by
  obtain ⟨hclosed, hfilled⟩ := hends.tallied hvalid hs
  obtain ⟨p, hentered, hcloses⟩ := hclosed trade htrade
  obtain ⟨bar, hbar, hprice, -⟩ := hentered.bar
  have hquoted : barAt frames trade.instrumentId trade.entryTime = some bar := by
    rw [hcloses.instrumentId, hcloses.entryTime, hbar]
  have hask : bar.ask ≤ trade.entryPrice := by
    rw [hcloses.entryPrice, hprice]
    exact entryPrice_ge_ask config bar
  have hfill : ∀ e ∈ exitFills report.journal trade.signalId, e.event = .exitFill ∧ e.Filled config frames := by
    intro e he
    obtain ⟨he, hof⟩ := List.mem_filter.mp he
    exact ⟨(of_decide_eq_true hof).1, hfilled e he⟩
  have hnotional := hends.trade_tally hvalid hs Tally.notional_faithful htrade
  have hcosts := hends.trade_tally hvalid hs Tally.costs_faithful htrade
  have hslippage := hends.trade_tally hvalid hs (Tally.slippage_faithful hvalid) htrade
  have hslippage : trade.slippageCost = (trade.entryPrice - bar.ask) * trade.quantity +
      ((exitFills report.journal trade.signalId).map (·.givenAway frames)).sum := by
    simp only [Tally.slippage, entryGivenAway, hquoted, Option.map_some, Option.getD_some] at hslippage
    linarith
  have hentry : trade.entryCosts.total .exact = orderFee config trade.entryPrice trade.quantity true := by
    rw [hcloses.entryCosts, hentered.costs, orderCosts_total, hcloses.entryPrice, hcloses.quantity]
  have hexit : trade.exitCosts.total .exact = ((exitFills report.journal trade.signalId).map fun e =>
      orderFee config (e.price.getD 0) e.quantity false).sum := hcosts
  refine ⟨fun e he => ?_, ?_, ?_, ⟨bar, hquoted, hask, hslippage⟩, ?_⟩
  · obtain ⟨hevent, hfilled⟩ := hfill e he
    obtain ⟨seen, hseen, hpaid⟩ := hfilled hevent
    exact ⟨seen, _, hseen, hpaid, exitPrice_le_bid config seen⟩
  · simp only [Tally.notional] at hnotional
    linarith
  · rw [hcloses.net, ← hcloses.entryCosts, ← hcloses.exitCosts, hentry, hexit, orderFees]
  · rw [hslippage]
    refine add_nonneg (mul_nonneg (sub_nonneg.mpr hask) (Nat.cast_nonneg _)) ?_
    refine List.sum_nonneg fun amount hamount => ?_
    obtain ⟨e, he, rfl⟩ := List.mem_map.mp hamount
    exact (hfill e he).2.givenAway_nonneg (hfill e he).1

end

/-! ### The metrics -/

/-- Gains and losses are all that adds up. -/
theorem sum_gains_losses (amounts : List ℚ) :
    (amounts.filter (0 < ·)).sum + (amounts.filter (· < 0)).sum = amounts.sum := by
  induction amounts with
  | nil => simp
  | cons amount amounts ih =>
      rw [List.sum_cons, ← ih]
      rcases lt_trichotomy amount 0 with hneg | rfl | hpos
      · rw [List.filter_cons_of_neg (by simpa using hneg.le), List.filter_cons_of_pos (by simpa using hneg),
          List.sum_cons]
        ring
      · simp
      · rw [List.filter_cons_of_pos (by simpa using hpos), List.filter_cons_of_neg (by simpa using hpos.le),
          List.sum_cons]
        ring

/-- The totals of the metrics. -/
theorem calculateMetrics_totals {ctx : DecimalContext} {capital : ℚ} {startedAt endedAt : Datetime}
    {trades : List Trade} {metrics : BacktestMetrics}
    (h : calculateMetrics ctx capital startedAt endedAt trades = .ok metrics) :
    metrics.wins = trades.countP (0 < ·.netPnl) ∧ metrics.losses = trades.countP (·.netPnl < 0) ∧
      metrics.netPnl = ctx.sum (trades.map (·.netPnl)) ∧
      metrics.grossPnl = ctx.sum (trades.map (·.grossPnl)) ∧
      metrics.grossProfit = ctx.sum ((trades.map (·.netPnl)).filter (0 < ·)) ∧
      metrics.grossLoss = ctx.sum ((trades.map (·.netPnl)).filter (· < 0)) ∧
      metrics.totalSlippage = ctx.sum (trades.map (·.slippageCost)) ∧
      metrics.totalCosts = ctx.sum (trades.map (·.totalCosts ctx)) := by
  obtain ⟨_, _, _, _, _, -, -, -, rfl⟩ := calculateMetrics_eq_ok h
  exact ⟨rfl, rfl, rfl, rfl, rfl, rfl, rfl, rfl⟩

/-- The metrics and the capital of a report. -/
theorem run_capital {ctx : DecimalContext} {config : BacktestConfig} {frames : List ReplayFrame}
    {report : BacktestReport} (h : run ctx config frames = .ok report) :
    (∃ startedAt endedAt, calculateMetrics ctx config.initialCapital startedAt endedAt report.trades =
      .ok report.metrics) ∧ report.initialCapital = config.initialCapital ∧
      report.endingCapital = ctx.add config.initialCapital report.metrics.netPnl := by
  unfold run at h
  obtain ⟨_, _, h⟩ := Except.bind_eq_ok.mp h
  split at h
  · obtain ⟨s, _, h⟩ := Except.bind_eq_ok.mp h
    unfold finish at h
    obtain ⟨exits, _, h⟩ := Except.bind_eq_ok.mp h
    obtain ⟨metrics, hmetrics, h⟩ := Except.bind_eq_ok.mp h
    obtain ⟨breakdowns, _, h⟩ := Except.bind_eq_ok.mp h
    cases h
    exact ⟨⟨_, _, hmetrics⟩, rfl, rfl⟩
  · cases h

/-- Every valid replay accounts for its trades, and no calendar changes what it reports. -/
theorem run_accounts (config : BacktestConfig) (frames : List ReplayFrame)
    (hvalid : validateSequence frames = .ok ()) :
    ∃ report, run .exact config frames = .ok report ∧ Accounted config frames report ∧
      ∀ other, Calendar.validateSequence frames = .ok () →
        Calendar.run .exact config frames = .ok other → other = report := by
  have hvalid := validateSequence_eq_ok.mp hvalid
  obtain ⟨s, report, exits, hs, hreport, hends⟩ := run_succeeds .exact config hvalid
  have htrades := fun trade (htrade : trade ∈ report.trades) => hends.trade_accounted hvalid hs htrade
  obtain ⟨⟨startedAt, endedAt, hmetrics⟩, hinitial, hending⟩ := run_capital hreport
  obtain ⟨hwins, hlosses, hnet, hgross, hprofit, hloss, hslippage, hcosts⟩ := calculateMetrics_totals hmetrics
  simp only [DecimalContext.exact_sum, DecimalContext.exact_add] at hnet hgross hprofit hloss hslippage hcosts hending
  refine ⟨report, hreport, ⟨htrades, hinitial, ?_, hnet, hgross, ?_, ?_, hslippage, hwins, hlosses⟩, ?_⟩
  · rw [hending, hinitial, hnet]
  · rw [hprofit, hloss, sum_gains_losses]
  · rw [hcosts]
    refine congrArg List.sum (List.map_congr_left fun trade htrade => ?_)
    obtain ⟨p, hentered, hcloses⟩ := (hends.tallied hvalid hs).1 trade htrade
    have htotal : trade.netPnl = trade.grossPnl - trade.totalCosts .exact := by
      rw [hcloses.net, ← hcloses.entryCosts, ← hcloses.exitCosts]
      rfl
    have hfees := (htrades trade htrade).net
    linarith
  · intro other hcalendar hother
    have hother := ((Calendar.run_eq_ok hcalendar).mp hother).2.2
    exact Except.ok.inj (hother.symm.trans hreport)

theorem run_accounts_sample :
    ∃ report, run .exact sampleConfig sampleFrames = .ok report ∧
      Accounted sampleConfig sampleFrames report ∧
      ∀ other, Calendar.validateSequence sampleFrames = .ok () →
        Calendar.run .exact sampleConfig sampleFrames = .ok other → other = report :=
  run_accounts sampleConfig sampleFrames (by decide)

end TecoQuant.Backtest
