import Mathlib.Data.List.Sort
import TecoQuant.BacktestModels
import TecoQuant.BaseBinary64
import TecoQuant.BaseExcept

/-! The metrics of a report. The win rate and the mean holding time, which the source computes in floating point, stand
as exact quotients. Of its Sharpe-like ratio only what the returns and their `stdev` raise is kept, apart from the
metrics, which never fail: `checkReturns`. -/

namespace TecoQuant.Backtest

structure BreakdownMetrics where
  trades : Nat
  wins : Nat
  winRate : ℚ
  grossPnl : ℚ
  netPnl : ℚ
  expectancy : ℚ
  averageR : ℚ
  deriving DecidableEq

structure BacktestMetrics where
  trades : Nat
  wins : Nat
  losses : Nat
  winRate : ℚ
  grossPnl : ℚ
  netPnl : ℚ
  grossProfit : ℚ
  grossLoss : ℚ
  profitFactor : Option ℚ
  expectancy : ℚ
  maxDrawdown : ℚ
  averageR : ℚ
  returnOnCapital : ℚ
  exposureRatio : Binary64
  averageHoldingSeconds : ℚ
  totalSlippage : ℚ
  totalCosts : ℚ
  deriving DecidableEq

section

variable (ctx : DecimalContext)

/-- `total / count if count else ZERO`. -/
def mean (total : ℚ) (count : Nat) : Except Fault ℚ :=
  if count = 0 then .ok 0 else divide ctx total count

def tradeBreakdown (trades : List Trade) : Except Fault BreakdownMetrics := do
  let count := trades.length
  let wins := trades.countP (0 < ·.netPnl)
  let netPnl := ctx.sum (trades.map (·.netPnl))
  let expectancy ← mean ctx netPnl count
  let averageR ← mean ctx (ctx.sum (trades.map (·.rMultiple))) count
  return {
    trades := count
    wins := wins
    winRate := if count = 0 then 0 else wins / count
    grossPnl := ctx.sum (trades.map (·.grossPnl))
    netPnl := netPnl
    expectancy := expectancy
    averageR := averageR }

/-- The dimensions of the breakdowns. -/
def dimensions : List (String × (Trade → String)) :=
  [("score_band", Trade.scoreBand), ("market", Trade.market), ("expiry", Trade.expiryBucket),
    ("moneyness", Trade.moneyness), ("time", Trade.timeBucket),
    ("volatility", Trade.volatilityBucket), ("regime", Trade.regime)]

/-- The labels of a dimension in order, each with the breakdown of its trades. -/
def buildBreakdown (selector : Trade → String) (trades : List Trade) :
    Except Fault (List (String × BreakdownMetrics)) :=
  ((trades.map selector).dedup.insertionSort (· ≤ ·)).mapM fun label => do
    return (label, ← tradeBreakdown ctx (trades.filter (selector · = label)))

def buildBreakdowns (trades : List Trade) :
    Except Fault (List (String × List (String × BreakdownMetrics))) :=
  dimensions.mapM fun (dimension, selector) => do
    return (dimension, ← buildBreakdown ctx selector trades)

/-- The equity so far, its peak and the largest drop from a peak. -/
structure Drawdown where
  equity : ℚ
  peak : ℚ
  maximum : ℚ

def Drawdown.step (drawdown : Drawdown) (trade : Trade) : Drawdown :=
  let equity := ctx.add drawdown.equity trade.netPnl
  let peak := max drawdown.peak equity
  ⟨equity, peak, max drawdown.maximum (ctx.sub peak equity)⟩

/-- Order of exit, then of the signal id. -/
def ExitOrder (left right : Trade) : Prop :=
  left.exitTime.instant < right.exitTime.instant ∨
    left.exitTime.instant = right.exitTime.instant ∧ left.signalId ≤ right.signalId

instance (left right : Trade) : Decidable (ExitOrder left right) :=
  inferInstanceAs (Decidable (_ ∨ _))

def maximumDrawdown (initialCapital : ℚ) (trades : List Trade) : ℚ :=
  ((trades.insertionSort ExitOrder).foldl (Drawdown.step ctx) ⟨initialCapital, initialCapital, 0⟩).maximum

/-- `(left - right).total_seconds()`. -/
def totalSeconds (left right : Datetime) : Binary64 := Binary64.round false (left.secondsSince right)

/-- Seconds covered by closed intervals, and the interval being extended. -/
structure Coverage where
  covered : Binary64
  start : Datetime
  finish : Datetime

/-- The seconds covered once the interval being extended is closed. -/
def Coverage.total (coverage : Coverage) : Binary64 :=
  coverage.covered.add (totalSeconds coverage.finish coverage.start)

def Coverage.step (coverage : Coverage) (interval : Datetime × Datetime) : Coverage :=
  if interval.1.instant ≤ coverage.finish.instant then
    { coverage with
      finish := if coverage.finish.instant < interval.2.instant then interval.2 else coverage.finish }
  else
    ⟨coverage.total, interval.1, interval.2⟩

/-- Order of start, then of end. -/
def IntervalOrder (left right : Datetime × Datetime) : Prop :=
  left.1.instant < right.1.instant ∨
    left.1.instant = right.1.instant ∧ left.2.instant ≤ right.2.instant

instance (left right : Datetime × Datetime) : Decidable (IntervalOrder left right) :=
  inferInstanceAs (Decidable (_ ∨ _))

/-- The share of the replay that the trades cover, before it is clamped. -/
def coveredShare (startedAt endedAt : Datetime) (trades : List Trade) : Except Fault Binary64 :=
  let seconds := totalSeconds endedAt startedAt
  match (trades.map fun trade => (trade.entryTime, trade.exitTime)).insertionSort IntervalOrder with
  | [] => .ok 0
  | first :: intervals =>
      if seconds ≤ 0 then .ok 0
      else ((intervals.foldl Coverage.step ⟨0, first.1, first.2⟩).total.div seconds).mapError fun _ => .divisionByZero

def exposureRatio (startedAt endedAt : Datetime) (trades : List Trade) : Except Fault Binary64 := do
  return Binary64.min 1 (Binary64.max 0 (← coveredShare startedAt endedAt trades))

/-! ### The dispersion of the returns -/

/-- `[float(trade.net_pnl / initial_capital) for trade in trades]`. -/
def returns (initialCapital : ℚ) (trades : List Trade) : Except Fault (List Binary64) :=
  trades.mapM fun trade => do return Binary64.round false (← divide ctx trade.netPnl initialCapital)

/-- The sample variance. -/
def variance (values : List ℚ) : ℚ :=
  let mean := values.sum / values.length
  (values.map fun value => (value - mean) ^ 2).sum / (values.length - 1)

/-- From this square root on a float overflows. -/
def rootLimit : ℚ := 2 ^ 1024 - 2 ^ 970

/-- What `stdev` raises of two values or more: it takes the exact variance apart, which is no fraction when a value is
infinite, and rounds its square root to a float. -/
def stdev (values : List Binary64) : Except Fault Unit :=
  if ∃ value ∈ values, ¬value.IsFinite then .error (.attributeError "'float' object has no attribute 'numerator'")
  else if rootLimit ^ 2 ≤ variance (values.map Binary64.toRat) then
    .error (.overflowError "integer division result too large for a float")
  else .ok ()

/-- What the Sharpe-like ratio raises. -/
def checkReturns (initialCapital : ℚ) (trades : List Trade) : Except Fault Unit := do
  let returns ← returns ctx initialCapital trades
  if 2 ≤ returns.length then stdev returns else .ok ()

/-! ### The metrics -/

def calculateMetrics (initialCapital : ℚ) (startedAt endedAt : Datetime) (trades : List Trade) :
    Except Fault BacktestMetrics := do
  let count := trades.length
  let wins := trades.countP (0 < ·.netPnl)
  let netPnl := ctx.sum (trades.map (·.netPnl))
  let grossProfit := ctx.sum ((trades.map (·.netPnl)).filter (0 < ·))
  let grossLoss := ctx.sum ((trades.map (·.netPnl)).filter (· < 0))
  let profitFactor ←
    if grossLoss < 0 then some <$> divide ctx grossProfit (ctx.round |grossLoss|) else .ok none
  let expectancy ← mean ctx netPnl count
  let averageR ← mean ctx (ctx.sum (trades.map (·.rMultiple))) count
  let returnOnCapital ← divide ctx netPnl initialCapital
  let exposureRatio ← exposureRatio startedAt endedAt trades
  return {
    trades := count
    wins := wins
    losses := trades.countP (·.netPnl < 0)
    winRate := if count = 0 then 0 else wins / count
    grossPnl := ctx.sum (trades.map (·.grossPnl))
    netPnl := netPnl
    grossProfit := grossProfit
    grossLoss := grossLoss
    profitFactor := profitFactor
    expectancy := expectancy
    maxDrawdown := maximumDrawdown ctx initialCapital trades
    averageR := averageR
    returnOnCapital := returnOnCapital
    exposureRatio := exposureRatio
    averageHoldingSeconds := if count = 0 then 0 else (trades.map (·.holdingSeconds)).sum / count
    totalSlippage := ctx.sum (trades.map (·.slippageCost))
    totalCosts := ctx.sum (trades.map (·.totalCosts ctx)) }

end

/-! ### The metrics never fail -/

section

variable (ctx : DecimalContext)

theorem mean_succeeds (total : ℚ) (count : Nat) : ∃ value, mean ctx total count = .ok value := by
  unfold mean
  split
  · exact ⟨_, rfl⟩
  · rename_i hcount
    exact ⟨_, divide_eq_ok ctx (by exact_mod_cast Nat.pos_of_ne_zero hcount)⟩

theorem tradeBreakdown_succeeds (trades : List Trade) :
    ∃ breakdown, tradeBreakdown ctx trades = .ok breakdown := by
  obtain ⟨expectancy, hexpectancy⟩ := mean_succeeds ctx (ctx.sum (trades.map (·.netPnl)))
    trades.length
  obtain ⟨averageR, haverageR⟩ := mean_succeeds ctx (ctx.sum (trades.map (·.rMultiple)))
    trades.length
  exact ⟨_, by rw [tradeBreakdown, hexpectancy, haverageR]; rfl⟩

theorem buildBreakdowns_succeeds (trades : List Trade) :
    ∃ breakdowns, buildBreakdowns ctx trades = .ok breakdowns := by
  refine Except.mapM_succeeds fun (dimension, selector) _ => ?_
  obtain ⟨breakdown, hbreakdown⟩ : ∃ breakdown, buildBreakdown ctx selector trades = .ok breakdown := by
    refine Except.mapM_succeeds fun label _ => ?_
    obtain ⟨metrics, hmetrics⟩ := tradeBreakdown_succeeds ctx (trades.filter (selector · = label))
    exact ⟨(label, metrics), by rw [hmetrics]; rfl⟩
  exact ⟨(dimension, breakdown), by dsimp only; rw [hbreakdown]; rfl⟩

theorem exposureRatio_succeeds (startedAt endedAt : Datetime) (trades : List Trade) :
    ∃ ratio, exposureRatio startedAt endedAt trades = .ok ratio := by
  suffices h : ∃ share, coveredShare startedAt endedAt trades = .ok share by
    obtain ⟨share, hshare⟩ := h
    exact ⟨_, by rw [exposureRatio, hshare]; rfl⟩
  unfold coveredShare
  dsimp only
  split
  · exact ⟨_, rfl⟩
  · split
    · exact ⟨_, rfl⟩
    · rename_i hpos
      obtain ⟨share, hshare⟩ := Binary64.div_succeeds _ hpos
      exact ⟨share, by rw [hshare]; rfl⟩

theorem calculateMetrics_succeeds {initialCapital : ℚ} (hcapital : 0 < initialCapital)
    (startedAt endedAt : Datetime) (trades : List Trade) :
    ∃ metrics, calculateMetrics ctx initialCapital startedAt endedAt trades = .ok metrics := by
  obtain ⟨expectancy, hexpectancy⟩ := mean_succeeds ctx (ctx.sum (trades.map (·.netPnl)))
    trades.length
  obtain ⟨averageR, haverageR⟩ := mean_succeeds ctx (ctx.sum (trades.map (·.rMultiple)))
    trades.length
  obtain ⟨ratio, hratio⟩ := exposureRatio_succeeds startedAt endedAt trades
  by_cases hloss : ctx.sum ((trades.map (·.netPnl)).filter (· < 0)) < 0
  · have hpos := ctx.round_pos (abs_pos.mpr hloss.ne)
    exact ⟨_, by rw [calculateMetrics, if_pos hloss, divide_eq_ok ctx hpos, hexpectancy, haverageR,
      divide_eq_ok ctx hcapital, hratio]; rfl⟩
  · exact ⟨_, by rw [calculateMetrics, if_neg hloss, hexpectancy, haverageR, divide_eq_ok ctx hcapital, hratio]; rfl⟩

end

/-- What the metrics of a report are computed from. -/
theorem calculateMetrics_eq_ok {ctx : DecimalContext} {capital : ℚ} {startedAt endedAt : Datetime}
    {trades : List Trade} {metrics : BacktestMetrics}
    (h : calculateMetrics ctx capital startedAt endedAt trades = .ok metrics) :
    ∃ profitFactor expectancy averageR returnOnCapital ratio,
      exposureRatio startedAt endedAt trades = .ok ratio ∧
      mean ctx (ctx.sum (trades.map (·.netPnl))) trades.length = .ok expectancy ∧
      mean ctx (ctx.sum (trades.map (·.rMultiple))) trades.length = .ok averageR ∧
      metrics = {
        trades := trades.length
        wins := trades.countP (0 < ·.netPnl)
        losses := trades.countP (·.netPnl < 0)
        winRate := if trades.length = 0 then 0 else trades.countP (0 < ·.netPnl) / trades.length
        grossPnl := ctx.sum (trades.map (·.grossPnl))
        netPnl := ctx.sum (trades.map (·.netPnl))
        grossProfit := ctx.sum ((trades.map (·.netPnl)).filter (0 < ·))
        grossLoss := ctx.sum ((trades.map (·.netPnl)).filter (· < 0))
        profitFactor := profitFactor
        expectancy := expectancy
        maxDrawdown := maximumDrawdown ctx capital trades
        averageR := averageR
        returnOnCapital := returnOnCapital
        exposureRatio := ratio
        averageHoldingSeconds :=
          if trades.length = 0 then 0 else (trades.map (·.holdingSeconds)).sum / trades.length
        totalSlippage := ctx.sum (trades.map (·.slippageCost))
        totalCosts := ctx.sum (trades.map (·.totalCosts ctx)) } := by
  unfold calculateMetrics at h
  dsimp only at h
  -- The profit factor alone depends on whether there was a loss.
  split at h
  all_goals
    obtain ⟨profitFactor, -, h⟩ := Except.bind_eq_ok.mp h
    obtain ⟨expectancy, hexpectancy, h⟩ := Except.bind_eq_ok.mp h
    obtain ⟨averageR, haverageR, h⟩ := Except.bind_eq_ok.mp h
    obtain ⟨returnOnCapital, -, h⟩ := Except.bind_eq_ok.mp h
    obtain ⟨ratio, hratio, h⟩ := Except.bind_eq_ok.mp h
    exact ⟨profitFactor, expectancy, averageR, returnOnCapital, ratio, hratio, hexpectancy, haverageR,
      (Except.ok.inj h).symm⟩

end TecoQuant.Backtest
