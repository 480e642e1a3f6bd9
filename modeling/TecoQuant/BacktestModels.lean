import TecoQuant.BaseDatetime
import TecoQuant.BaseDecimalContext
import TecoQuant.BaseText

/-! The inputs and outputs of the option replay. Decimals are finite and stand as their values, a finite
float as the rational it denotes. The checks of the constructors are fields, so every bar, signal, frame
and configuration is one the constructors accept. -/

namespace TecoQuant.Backtest

inductive ExitReason where
  | stop | target | expiry | time | endOfData
  deriving DecidableEq, Repr

/-- The text of the enumeration. -/
def ExitReason.value : ExitReason → String
  | .stop => "STOP"
  | .target => "TARGET"
  | .expiry => "EXPIRY"
  | .time => "TIME"
  | .endOfData => "END_OF_DATA"

inductive JournalEvent where
  | signal | entry | exitFill | exit | skipped | unfilled
  deriving DecidableEq, Repr

/-- An option bar with the executable top of the book. -/
structure OptionBar where
  instrumentId : String
  timestamp : Datetime
  openPrice : ℚ
  high : ℚ
  low : ℚ
  close : ℚ
  bid : ℚ
  ask : ℚ
  bidQuantity : Option Nat
  askQuantity : Option Nat
  named : ¬PyText.Blank instrumentId
  aware : timestamp.Aware
  positive : 0 < openPrice ∧ 0 < high ∧ 0 < low ∧ 0 < close ∧ 0 < bid ∧ 0 < ask
  high_le : max openPrice (max close low) ≤ high
  low_le : low ≤ min openPrice (min close high)
  bid_le_ask : bid ≤ ask

/-- A long-option instruction; its maximum holding time is in microseconds. -/
structure BacktestSignal where
  signalId : String
  instrumentId : String
  generatedAt : Datetime
  optionSide : String
  lots : Nat
  lotSize : Nat
  stopPrice : ℚ
  targetPrice : ℚ
  contractExpiry : Datetime
  score : ℚ
  scoreBand : String
  market : String
  expiryBucket : String
  moneyness : String
  timeBucket : String
  volatilityBucket : String
  regime : String
  maxHolding : Option Int
  validUntil : Option Datetime
  named : ¬PyText.Blank signalId ∧ ¬PyText.Blank instrumentId ∧ ¬PyText.Blank optionSide
  aware : generatedAt.Aware ∧ contractExpiry.Aware ∧ ∀ t ∈ validUntil, t.Aware
  expires : generatedAt.instant < contractExpiry.instant
  valid_after : ∀ t ∈ validUntil, generatedAt.instant < t.instant
  holding_pos : ∀ duration ∈ maxHolding, 0 < duration
  lots_pos : 0 < lots
  lotSize_pos : 0 < lotSize
  stop_nonneg : 0 ≤ stopPrice
  stop_lt_target : stopPrice < targetPrice
  score_range : 0 ≤ score ∧ score ≤ 100
  dimensions : ∀ dimension ∈ [scoreBand, market, expiryBucket, moneyness, timeBucket, volatilityBucket, regime],
    ¬PyText.Blank dimension

def BacktestSignal.requestedQuantity (signal : BacktestSignal) : Nat := signal.lots * signal.lotSize

/-- All information that becomes visible at one instant. -/
structure ReplayFrame where
  timestamp : Datetime
  bars : List OptionBar
  signals : List BacktestSignal
  aware : timestamp.Aware
  bars_at : ∀ bar ∈ bars, bar.timestamp.instant = timestamp.instant
  bars_unique : (bars.map OptionBar.instrumentId).Nodup
  signals_at : ∀ signal ∈ signals, signal.generatedAt.instant = timestamp.instant
  signals_unique : (signals.map BacktestSignal.signalId).Nodup

structure SlippageConfig where
  entryBps : ℚ
  exitBps : ℚ
  fixedEntryPerUnit : ℚ
  fixedExitPerUnit : ℚ
  nonneg : 0 ≤ entryBps ∧ 0 ≤ exitBps ∧ 0 ≤ fixedEntryPerUnit ∧ 0 ≤ fixedExitPerUnit

structure CostConfig where
  brokeragePerOrder : ℚ
  entryTaxRate : ℚ
  exitTaxRate : ℚ
  transactionFeeRate : ℚ
  regulatoryFeeRate : ℚ
  gstRate : ℚ
  brokerage_nonneg : 0 ≤ brokeragePerOrder
  rates : ∀ rate ∈ [entryTaxRate, exitTaxRate, transactionFeeRate, regulatoryFeeRate, gstRate],
    0 ≤ rate ∧ rate ≤ 1

structure PartialFillConfig where
  enabled : Bool
  maximumParticipationRate : ℚ
  rate_pos : 0 < maximumParticipationRate
  rate_le_one : maximumParticipationRate ≤ 1

structure BacktestConfig where
  initialCapital : ℚ
  slippage : SlippageConfig
  costs : CostConfig
  partialFills : PartialFillConfig
  capital_pos : 0 < initialCapital

structure CostBreakdown where
  brokerage : ℚ
  taxes : ℚ
  transactionFees : ℚ
  regulatoryFees : ℚ
  gst : ℚ
  deriving DecidableEq

namespace CostBreakdown

def zero : CostBreakdown := ⟨0, 0, 0, 0, 0⟩

def total (ctx : DecimalContext) (costs : CostBreakdown) : ℚ :=
  ctx.add (ctx.add (ctx.add (ctx.add costs.brokerage costs.taxes) costs.transactionFees)
    costs.regulatoryFees) costs.gst

def add (ctx : DecimalContext) (left right : CostBreakdown) : CostBreakdown where
  brokerage := ctx.add left.brokerage right.brokerage
  taxes := ctx.add left.taxes right.taxes
  transactionFees := ctx.add left.transactionFees right.transactionFees
  regulatoryFees := ctx.add left.regulatoryFees right.regulatoryFees
  gst := ctx.add left.gst right.gst

end CostBreakdown

structure JournalEntry where
  timestamp : Datetime
  event : JournalEvent
  signalId : String
  instrumentId : String
  message : String
  quantity : Nat
  price : Option ℚ
  deriving DecidableEq

structure Trade where
  signalId : String
  instrumentId : String
  optionSide : String
  entryTime : Datetime
  exitTime : Datetime
  entryPrice : ℚ
  exitPrice : ℚ
  quantity : Nat
  lots : ℚ
  stopPrice : ℚ
  targetPrice : ℚ
  exitReason : ExitReason
  entryCosts : CostBreakdown
  exitCosts : CostBreakdown
  grossPnl : ℚ
  netPnl : ℚ
  initialRisk : ℚ
  rMultiple : ℚ
  slippageCost : ℚ
  holdingSeconds : ℚ
  score : ℚ
  scoreBand : String
  market : String
  expiryBucket : String
  moneyness : String
  timeBucket : String
  volatilityBucket : String
  regime : String
  deriving DecidableEq

def Trade.totalCosts (ctx : DecimalContext) (trade : Trade) : ℚ :=
  ctx.add (trade.entryCosts.total ctx) (trade.exitCosts.total ctx)

structure OpenPositionSummary where
  signalId : String
  instrumentId : String
  remainingQuantity : Nat
  entryPrice : ℚ
  lastTimestamp : Datetime
  pendingExitReason : Option ExitReason
  deriving DecidableEq

/-- What a replay raises. -/
inductive Fault where
  | valueError (message : String)
  | assertionError (message : String)
  | overflowError (message : String)
  | attributeError (message : String)
  | divisionByZero
  deriving DecidableEq, Repr

/-- Division of decimals. -/
def divide (ctx : DecimalContext) (x y : ℚ) : Except Fault ℚ :=
  match ctx.div x y with
  | some quotient => .ok quotient
  | none => .error .divisionByZero

theorem divide_eq_ok (ctx : DecimalContext) {x y : ℚ} (hy : 0 < y) :
    divide ctx x y = .ok (ctx.round (x / y)) := by
  rw [divide, ctx.div_eq_some hy]

end TecoQuant.Backtest
