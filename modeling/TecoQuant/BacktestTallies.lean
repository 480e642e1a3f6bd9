import Mathlib.Algebra.BigOperators.Group.List.Basic
import Mathlib.Tactic.Linarith
import TecoQuant.BacktestCalendar
import TecoQuant.BacktestConservation

/-! Tallies of exit fills. A position carries sums over its fills and a trade carries them on; when one
fill adds to the position what its journal entry weighs, a trade weighs as much as all its fills. -/

namespace TecoQuant.Backtest

/-- The bar of an instrument at a moment of the replay. -/
def barAt (frames : List ReplayFrame) (instrumentId : String) (t : Datetime) : Option OptionBar :=
  (frames.find? (·.timestamp.instant = t.instant)).bind (·.bar instrumentId)

/-- A bar some frame shows for an instrument. -/
def Quoted (frames : List ReplayFrame) (instrumentId : String) (bar : OptionBar) : Prop :=
  ∃ frame ∈ frames, frame.bar instrumentId = some bar

section

variable {config : BacktestConfig} {frames : List ReplayFrame} {frame : ReplayFrame}
  {instrumentId : String} {bar : OptionBar}

/-- Frames of a valid sequence are found by their moment. -/
theorem barAt_of_mem (hvalid : ValidSequence frames) (hframe : frame ∈ frames) {t : Datetime}
    (ht : t.instant = frame.timestamp.instant) : barAt frames instrumentId t = frame.bar instrumentId := by
  cases hfind : frames.find? (·.timestamp.instant = t.instant) with
  | none => exact absurd ht.symm (by simpa using List.find?_eq_none.mp hfind frame hframe)
  | some found =>
      have hmem := List.mem_of_find?_eq_some hfind
      have htime : found.timestamp.instant = t.instant := by simpa using List.find?_some hfind
      have hnodup : (frames.map fun f => f.timestamp.instant).Nodup :=
        List.pairwise_map.mpr (hvalid.sorted.imp fun hlt => hlt.ne)
      have hsame : found = frame := List.inj_on_of_nodup_map hnodup hmem hframe (htime.trans ht)
      rw [barAt, hfind, Option.bind_some, hsame]

theorem Quoted.barAt (hvalid : ValidSequence frames) (h : Quoted frames instrumentId bar) :
    barAt frames instrumentId bar.timestamp = some bar := by
  obtain ⟨frame, hframe, hbar⟩ := h
  rw [barAt_of_mem hvalid hframe (frame.bars_at bar (ReplayFrame.bar_mem hbar).1), hbar]

/-- The bars a state remembers come from the frames. -/
theorem replayLoop_quoted {ctx : DecimalContext} {s : ReplayState} (h : replayLoop ctx config frames = .ok s)
    (hbar : s.latestBars instrumentId = some bar) : Quoted frames instrumentId bar := by
  refine replayLoop_invariant (fun frames s => ∀ bar, s.latestBars instrumentId = some bar →
    Quoted frames instrumentId bar) (by simp [ReplayState.initial])
    (fun frames frame s s' _ hlatest hframe bar hbar => ?_) h bar hbar
  obtain ⟨exits, entries, -, -, rfl⟩ := replayFrame_eq_ok.mp hframe
  cases hseen : frame.bar instrumentId with
  | some seen =>
      simp only [hseen, Option.orElse_eq_orElse, Option.orElse_some, Option.some.injEq] at hbar
      exact ⟨frame, by simp, by rw [hseen, hbar]⟩
  | none =>
      simp only [hseen, Option.orElse_eq_orElse, Option.orElse_none] at hbar
      obtain ⟨f, hf, hquote⟩ := hlatest bar hbar
      exact ⟨f, List.mem_append_left _ hf, hquote⟩

end

/-! ### Entries of positions and of trades -/

/-- A position entered at a bar of the frames, for the price, the costs and the slippage of that bar. -/
structure OpenPosition.Entered (config : BacktestConfig) (frames : List ReplayFrame) (p : OpenPosition) :
    Prop where
  costs : p.entryCosts = orderCosts .exact config p.entryPrice p.quantity true
  bar : ∃ bar, barAt frames p.signal.instrumentId p.entryTime = some bar ∧
    p.entryPrice = (Backtest.entryPrice .exact config bar).1 ∧
    p.entrySlippage = (p.entryPrice - bar.ask) * p.quantity

/-- What a closed trade keeps of its position. -/
structure Trade.Closes (trade : Trade) (p : OpenPosition) : Prop where
  signalId : trade.signalId = p.signal.signalId
  instrumentId : trade.instrumentId = p.signal.instrumentId
  entryTime : trade.entryTime = p.entryTime
  entryPrice : trade.entryPrice = p.entryPrice
  quantity : trade.quantity = p.quantity
  gross : trade.grossPnl = p.exitNotional - p.entryPrice * p.quantity
  net : trade.netPnl = trade.grossPnl - (p.entryCosts.total .exact + p.exitCosts.total .exact)
  entryCosts : trade.entryCosts = p.entryCosts
  exitCosts : trade.exitCosts = p.exitCosts
  slippage : trade.slippageCost = p.entrySlippage + p.exitSlippage

section

variable {config : BacktestConfig} {frames : List ReplayFrame} {p : OpenPosition} {bar : OptionBar}

theorem OpenPosition.Entered.attempted (h : p.Entered config frames) (reason : ExitReason) :
    (p.attempted bar reason).Entered config frames :=
  ⟨h.costs, h.bar⟩

theorem OpenPosition.Entered.filled (h : p.Entered config frames) (quantity : Nat) :
    (p.filled .exact config bar quantity).Entered config frames :=
  ⟨h.costs, h.bar⟩

/-- The averaged exit price times the quantity is the notional of the fills. -/
theorem closeTrade_closes {reason : ExitReason} {trade : Trade}
    (h : closeTrade .exact p bar reason = .ok trade) (hquantity : p.exitQuantity = p.quantity)
    (hpos : 0 < p.quantity) : trade.Closes p := by
  have hne : (p.quantity : ℚ) ≠ 0 := by exact_mod_cast hpos.ne'
  have hprice : divide .exact p.exitNotional p.exitQuantity = .ok (p.exitNotional / p.quantity) := by
    rw [divide_eq_ok _ (by rw [hquantity]; exact_mod_cast hpos), hquantity]
    rfl
  have hgross : (p.exitNotional / p.quantity - p.entryPrice) * p.quantity =
      p.exitNotional - p.entryPrice * p.quantity := by
    rw [sub_mul, div_mul_cancel₀ _ hne]
  unfold closeTrade at h
  obtain ⟨exitPrice, hexit, h⟩ := Except.bind_eq_ok.mp h
  obtain ⟨_, _, h⟩ := Except.bind_eq_ok.mp h
  obtain ⟨_, _, h⟩ := Except.bind_eq_ok.mp h
  obtain rfl : p.exitNotional / p.quantity = exitPrice := Except.ok.inj (hprice.symm.trans hexit)
  cases h
  exact ⟨rfl, rfl, rfl, rfl, rfl, hgross, rfl, rfl, rfl, rfl⟩

end

/-! ### Tallies -/

/-- A sum over exit fills that positions and trades carry. -/
structure Tally where
  position : OpenPosition → ℚ
  trade : Trade → ℚ
  fill : JournalEntry → ℚ

namespace Tally

variable (tally : Tally) (signalId : String)

def ofPositions (positions : List OpenPosition) : ℚ :=
  ((positions.filter (·.signal.signalId = signalId)).map tally.position).sum

def ofTrades (trades : List Trade) : ℚ := ((trades.filter (·.signalId = signalId)).map tally.trade).sum

def ofFills (journal : List JournalEntry) : ℚ :=
  ((journal.filter (·.Of .exitFill signalId)).map tally.fill).sum

variable {tally signalId}

@[simp] theorem ofPositions_nil : tally.ofPositions signalId [] = 0 := rfl

@[simp] theorem ofTrades_nil : tally.ofTrades signalId [] = 0 := rfl

@[simp] theorem ofFills_nil : tally.ofFills signalId [] = 0 := rfl

@[simp] theorem ofPositions_append (positions others : List OpenPosition) :
    tally.ofPositions signalId (positions ++ others) =
      tally.ofPositions signalId positions + tally.ofPositions signalId others := by
  simp [ofPositions]

@[simp] theorem ofTrades_append (trades others : List Trade) :
    tally.ofTrades signalId (trades ++ others) =
      tally.ofTrades signalId trades + tally.ofTrades signalId others := by
  simp [ofTrades]

@[simp] theorem ofFills_append (journal others : List JournalEntry) :
    tally.ofFills signalId (journal ++ others) =
      tally.ofFills signalId journal + tally.ofFills signalId others := by
  simp [ofFills]

theorem ofPositions_cons (p : OpenPosition) (positions : List OpenPosition) :
    tally.ofPositions signalId (p :: positions) =
      (if p.signal.signalId = signalId then tally.position p else 0) + tally.ofPositions signalId positions := by
  by_cases hsame : p.signal.signalId = signalId <;> simp [ofPositions, hsame]

theorem ofTrades_cons (trade : Trade) (trades : List Trade) :
    tally.ofTrades signalId (trade :: trades) =
      (if trade.signalId = signalId then tally.trade trade else 0) + tally.ofTrades signalId trades := by
  by_cases hsame : trade.signalId = signalId <;> simp [ofTrades, hsame]

theorem ofFills_cons (e : JournalEntry) (journal : List JournalEntry) :
    tally.ofFills signalId (e :: journal) =
      (if e.Of .exitFill signalId then tally.fill e else 0) + tally.ofFills signalId journal := by
  by_cases hsame : e.Of .exitFill signalId <;> simp [ofFills, hsame]

theorem ofPositions_perm {positions others : List OpenPosition} (h : positions.Perm others) :
    tally.ofPositions signalId positions = tally.ofPositions signalId others :=
  ((h.filter _).map _).sum_eq

/-- Entries that are no exit fills weigh nothing. -/
theorem ofFills_eq_zero {journal : List JournalEntry} (h : ∀ e ∈ journal, e.event ≠ .exitFill) :
    tally.ofFills signalId journal = 0 := by
  have hnone : journal.filter (·.Of .exitFill signalId) = [] :=
    List.filter_eq_nil_iff.mpr fun e he hof => h e he (of_decide_eq_true hof).1
  rw [ofFills, hnone]
  rfl

end Tally

/-- A fill adds its weight to the position, and the trade takes the position's weight on. -/
structure Tally.Faithful (config : BacktestConfig) (frames : List ReplayFrame) (tally : Tally) : Prop where
  attempted : ∀ p bar reason, tally.position (OpenPosition.attempted p bar reason) = tally.position p
  filled : ∀ p bar reason quantity, Quoted frames p.signal.instrumentId bar →
    tally.position (OpenPosition.filled .exact config p bar quantity) =
      tally.position p + tally.fill (exitFillEntry .exact config p bar reason quantity)
  closed : ∀ (p : OpenPosition) trade, p.Entered config frames → trade.Closes p →
    tally.trade trade = tally.position p
  opened : ∀ signal frame bar quantity,
    tally.position (openPosition .exact config signal frame bar quantity) = 0

section

variable {config : BacktestConfig} {frames : List ReplayFrame} {tally : Tally} {p : OpenPosition}
  {bar : OptionBar} {reason : ExitReason} {pass : ExitPass}

/-- The trade of the last fill closes the filled position. -/
theorem ExitStep.closes_filled (hstep : ExitStep .exact config p bar reason pass) (hsound : p.Sound)
    {trade : Trade} (htrade : trade ∈ pass.trades) :
    trade.Closes ((p.attempted bar reason).filled .exact config bar p.remainingQuantity) := by
  cases hstep with
  | held => simp at htrade
  | reduced => simp at htrade
  | closed _ _ hall hclosed =>
      obtain rfl := List.mem_singleton.mp htrade
      rw [hall] at hclosed
      refine closeTrade_closes hclosed hsound.exited ?_
      have hpos := hsound.remaining_pos
      have hexited := hsound.exited
      show 0 < p.quantity
      omega

theorem ExitStep.entered (hstep : ExitStep .exact config p bar reason pass) (h : p.Entered config frames) :
    ∀ q ∈ pass.positions, q.Entered config frames := by
  intro q hq
  cases hstep with
  | held =>
      obtain rfl := List.mem_singleton.mp hq
      exact h.attempted reason
  | reduced =>
      obtain rfl := List.mem_singleton.mp hq
      exact (h.attempted reason).filled _
  | closed => simp at hq

/-- An exit attempt keeps a tally. -/
theorem Tally.Faithful.of_exit (hfaithful : tally.Faithful config frames)
    (hstep : ExitStep .exact config p bar reason pass) (hsound : p.Sound) (h : p.Entered config frames)
    (hquoted : Quoted frames p.signal.instrumentId bar) (signalId : String) :
    tally.ofPositions signalId pass.positions + tally.ofTrades signalId pass.trades =
      tally.ofPositions signalId [p] + tally.ofFills signalId pass.journal := by
  have hfilled (quantity : Nat) :
      tally.position ((p.attempted bar reason).filled .exact config bar quantity) = tally.position p +
        tally.fill (exitFillEntry .exact config p bar (p.exitReason.getD reason) quantity) := by
    have hfilled := hfaithful.filled (p.attempted bar reason) bar (p.exitReason.getD reason) quantity hquoted
    rw [hfaithful.attempted] at hfilled
    exact hfilled
  have hfill (quantity : Nat) (action : ExitReason) :
      (exitFillEntry .exact config p bar action quantity).Of .exitFill signalId ↔
        p.signal.signalId = signalId :=
    and_iff_right rfl
  have hclosed := fun trade (htrade : trade ∈ pass.trades) => hstep.closes_filled hsound htrade
  cases hstep with
  | held =>
      have hnone : tally.ofFills signalId [p.signal.note bar.timestamp .unfilled
          "exit pending: no whole lot within configured bid participation"] = 0 :=
        Tally.ofFills_eq_zero (by simp [BacktestSignal.note])
      rw [hnone, Tally.ofTrades_nil, Tally.ofPositions_cons, Tally.ofPositions_cons, hfaithful.attempted]
      rfl
  | reduced =>
      rw [Tally.ofTrades_nil, Tally.ofPositions_cons, Tally.ofPositions_cons, Tally.ofFills_cons, hfilled]
      simp only [hfill]
      by_cases hsame : p.signal.signalId = signalId
      · simp [OpenPosition.filled, OpenPosition.attempted, hsame]
      · simp [OpenPosition.filled, OpenPosition.attempted, hsame]
  | @closed _ trade _ _ hall _ =>
      have hcloses := hclosed trade (List.mem_singleton.mpr rfl)
      have hweight := hfaithful.closed _ trade ((h.attempted reason).filled p.remainingQuantity) hcloses
      have hexit : tally.ofFills signalId [exitEntry trade] = 0 :=
        Tally.ofFills_eq_zero (by simp [exitEntry])
      have howner : trade.signalId = p.signal.signalId := hcloses.signalId
      rw [hall, Tally.ofPositions_nil, Tally.ofTrades_cons, Tally.ofPositions_cons, Tally.ofFills_cons,
        hexit, hweight, hfilled, howner]
      simp only [hfill]
      by_cases hsame : p.signal.signalId = signalId
      · simp [hsame]
      · simp [hsame]

/-- A pass over positions that were entered, each of which sees a quoted bar, keeps a tally. -/
theorem Tally.Faithful.of_exitPass (hfaithful : tally.Faithful config frames)
    {bar? : String → Option OptionBar} {trigger : OpenPosition → OptionBar → Option ExitReason}
    {attempt : OpenPosition → Except Fault ExitPass} {positions : List OpenPosition}
    (hattempt : ∀ q first, attempt q = .ok first → AttemptStep .exact config bar? trigger q first)
    (hquoted : ∀ X bar, bar? X = some bar → Quoted frames X bar)
    (hsound : ∀ q ∈ positions, q.Sound) (h : ∀ q ∈ positions, q.Entered config frames)
    (hpass : exitPass attempt positions = .ok pass) (signalId : String) :
    tally.ofPositions signalId pass.positions + tally.ofTrades signalId pass.trades =
      tally.ofPositions signalId positions + tally.ofFills signalId pass.journal := by
  induction positions generalizing pass with
  | nil =>
      cases hpass
      rfl
  | cons q positions ih =>
      obtain ⟨first, rest, hfirst, hrest, rfl⟩ := exitPass_cons_eq_ok.mp hpass
      have hone : tally.ofPositions signalId first.positions + tally.ofTrades signalId first.trades =
          tally.ofPositions signalId [q] + tally.ofFills signalId first.journal := by
        cases hattempt q first hfirst with
        | kept => rfl
        | exits hbar _ hstep =>
            exact hfaithful.of_exit hstep (hsound q List.mem_cons_self) (h q List.mem_cons_self)
              (hquoted _ _ hbar) signalId
      have hothers := ih (fun r hr => hsound r (List.mem_cons_of_mem _ hr))
        (fun r hr => h r (List.mem_cons_of_mem _ hr)) hrest
      have hsplit : tally.ofPositions signalId (q :: positions) =
          tally.ofPositions signalId [q] + tally.ofPositions signalId positions :=
        Tally.ofPositions_append [q] positions
      simp only [Tally.ofPositions_append, Tally.ofTrades_append, Tally.ofFills_append, hsplit]
      linarith

/-- What a pass leaves open was entered; what it closes was a sound position that was entered. -/
theorem exitPass_entered {bar? : String → Option OptionBar}
    {trigger : OpenPosition → OptionBar → Option ExitReason}
    {attempt : OpenPosition → Except Fault ExitPass} {positions : List OpenPosition}
    (hattempt : ∀ q first, attempt q = .ok first → AttemptStep .exact config bar? trigger q first)
    (hsound : ∀ q ∈ positions, q.Sound) (h : ∀ q ∈ positions, q.Entered config frames)
    (hpass : exitPass attempt positions = .ok pass) :
    (∀ q ∈ pass.positions, q.Entered config frames) ∧
      ∀ trade ∈ pass.trades, ∃ q, q.Entered config frames ∧ trade.Closes q := by
  obtain ⟨hpositions, htrades, -⟩ := exitPass_mem hpass
  constructor
  · intro q hq
    obtain ⟨r, hr, first, hfirst, hq⟩ := hpositions q hq
    cases hattempt r first hfirst with
    | kept => exact List.mem_singleton.mp hq ▸ h r hr
    | exits _ _ hstep => exact hstep.entered (h r hr) q hq
  · intro trade htrade
    obtain ⟨r, hr, first, hfirst, htrade⟩ := htrades trade htrade
    cases hattempt r first hfirst with
    | kept => simp at htrade
    | exits _ _ hstep =>
        exact ⟨_, ((h r hr).attempted _).filled _, hstep.closes_filled (hsound r hr) htrade⟩

/-- The exit fills of a journal are made at bars of the frames, for the exit price of the bar. -/
def JournalEntry.Filled (config : BacktestConfig) (frames : List ReplayFrame) (e : JournalEntry) : Prop :=
  e.event = .exitFill → ∃ bar, barAt frames e.instrumentId e.timestamp = some bar ∧
    e.price = some (exitPrice .exact config bar).1

theorem exitPass_filled (hvalid : ValidSequence frames) {bar? : String → Option OptionBar}
    {trigger : OpenPosition → OptionBar → Option ExitReason}
    {attempt : OpenPosition → Except Fault ExitPass} {positions : List OpenPosition}
    (hattempt : ∀ q first, attempt q = .ok first → AttemptStep .exact config bar? trigger q first)
    (hquoted : ∀ X bar, bar? X = some bar → Quoted frames X bar)
    (hpass : exitPass attempt positions = .ok pass) : ∀ e ∈ pass.journal, e.Filled config frames := by
  intro e he hevent
  obtain ⟨r, -, first, hfirst, he⟩ := (exitPass_mem hpass).2.2 e he
  cases hattempt r first hfirst with
  | kept => simp at he
  | @exits seen _ _ hbar _ hstep =>
      have hseen := (hquoted _ _ hbar).barAt hvalid
      cases hstep with
      | held =>
          obtain rfl := List.mem_singleton.mp he
          cases hevent
      | reduced =>
          obtain rfl := List.mem_singleton.mp he
          exact ⟨seen, hseen, rfl⟩
      | closed =>
          rcases List.mem_pair.mp he with rfl | rfl
          · exact ⟨seen, hseen, rfl⟩
          · cases hevent

end

end TecoQuant.Backtest
