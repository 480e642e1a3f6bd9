import Mathlib.Data.List.MinMax
import Mathlib.Data.List.Sort
import TecoQuant.BaseExcept
import TecoQuant.DomainModels

/-! The strategy policy: the admitted configuration, the combination of evidence into scores, the
liquidity gate, the decision precedence, price confirmation and position sizing. -/

namespace TecoQuant.Strategy

open Domain

inductive DecisionState where
  | buyCall
  | buyPut
  | wait
  | noTrade
  | insufficientData
  deriving DecidableEq, Repr

inductive DecisionReason where
  | dataIncomplete
  | dataStale
  | invalidExpiry
  | extremeExpiryRisk
  | eventRisk
  | noLiquidStrike
  | notAffordable
  | belowWatchlistScore
  | watchlistOnly
  | conflictingScores
  | priceActionPending
  | quickModeOnly
  | bullishConfirmed
  | bearishConfirmed
  deriving DecidableEq, Repr

inductive ScoreBand where
  | strong
  | tradable
  | watchlist
  | rejected
  deriving DecidableEq, Repr

/-- What an evaluation raises. -/
inductive Fault where
  | value (message : String)
  | arithmetic (error : ArithmeticError)
  | mixedTimestamps
  | stopIteration
  deriving DecidableEq, Repr

/-- An arithmetic operation as a step of an evaluation. -/
def arith {α : Type} : Except ArithmeticError α → Except Fault α
  | .ok a => .ok a
  | .error error => .error (.arithmetic error)

/-- `if not condition: raise ValueError(message)`. -/
def require (condition : Prop) [Decidable condition] (message : String) : Except Fault Unit :=
  if condition then .ok () else .error (.value message)

/-! ### Configuration -/

/-- The score weights the constructor admits. -/
structure ScoreWeights where
  trend : Binary64
  premium : Binary64
  openInterest : Binary64
  liquidity : Binary64
  greeks : Binary64
  volatility : Binary64
  riskReward : Binary64
  finite : ∀ weight ∈ [trend, premium, openInterest, liquidity, greeks, volatility, riskReward], weight.IsFinite
  nonneg : ∀ weight ∈ [trend, premium, openInterest, liquidity, greeks, volatility, riskReward], ¬weight < 0
  total : ¬(1e-9 : Binary64) <
    ((Binary64.sum [trend, premium, openInterest, liquidity, greeks, volatility, riskReward]).sub 100).abs

def ScoreWeights.asMapping (weights : ScoreWeights) : List (String × Binary64) := [
  ("trend", weights.trend), ("premium", weights.premium), ("open_interest", weights.openInterest),
  ("liquidity", weights.liquidity), ("greeks", weights.greeks), ("volatility", weights.volatility),
  ("risk_reward", weights.riskReward)]

/-- The configuration the constructor admits. -/
structure StrategyConfig where
  version : String
  riskFreeRate : Binary64
  dividendYield : Binary64
  maximumRiskPerTrade : Binary64
  intradayDeltaMinimum : Binary64
  intradayDeltaMaximum : Binary64
  positionalDeltaMinimum : Binary64
  positionalDeltaMaximum : Binary64
  minimumVolume : Int
  minimumOpenInterest : Int
  maximumSpreadRatio : Binary64
  minimumLiquidityScore : Binary64
  watchlistScore : Binary64
  minimumTradableScore : Binary64
  strongSetupScore : Binary64
  conflictGap : Binary64
  liveMaxAgeSeconds : Binary64
  componentSkewSeconds : Binary64
  futureClockSkewSeconds : Binary64
  instrumentMasterMaxAgeSeconds : Binary64
  extremeExpirySeconds : Binary64
  premiumStopRatio : Binary64
  atrStopMultiple : Binary64
  targetRMultiples : Binary64 × Binary64 × Binary64
  eventRiskBlocksNewTrades : Bool
  weights : ScoreWeights
  finite : ∀ x ∈ [riskFreeRate, dividendYield, maximumRiskPerTrade, intradayDeltaMinimum,
    intradayDeltaMaximum, positionalDeltaMinimum, positionalDeltaMaximum, maximumSpreadRatio,
    minimumLiquidityScore, watchlistScore, minimumTradableScore, strongSetupScore, conflictGap,
    liveMaxAgeSeconds, componentSkewSeconds, futureClockSkewSeconds, instrumentMasterMaxAgeSeconds,
    extremeExpirySeconds, premiumStopRatio, atrStopMultiple], x.IsFinite
  counts_finite : ∀ n ∈ [minimumVolume, minimumOpenInterest], (Binary64.round false n).IsFinite
  riskFreeRate_range : -1 < riskFreeRate ∧ riskFreeRate ≤ 1
  dividendYield_range : 0 ≤ dividendYield ∧ dividendYield ≤ 1
  targets_finite : targetRMultiples.1.IsFinite ∧ targetRMultiples.2.1.IsFinite ∧ targetRMultiples.2.2.IsFinite
  rates : ∀ rate ∈ [maximumSpreadRatio, premiumStopRatio], ¬(rate ≤ 0 ∨ 1 < rate)
  risk_ceiling : 0 < maximumRiskPerTrade ∧ maximumRiskPerTrade ≤ 0.02
  thresholds : 0 ≤ watchlistScore ∧ watchlistScore < minimumTradableScore ∧
    minimumTradableScore ≤ strongSetupScore ∧ strongSetupScore ≤ 100
  deltas : ∀ range ∈ [(intradayDeltaMinimum, intradayDeltaMaximum), (positionalDeltaMinimum, positionalDeltaMaximum)],
    0 < range.1 ∧ range.1 ≤ range.2 ∧ range.2 ≤ 1
  counts_pos : 0 < minimumVolume ∧ 0 < minimumOpenInterest
  liquidity_range : 0 ≤ minimumLiquidityScore ∧ minimumLiquidityScore ≤ 100
  gap_range : 0 ≤ conflictGap ∧ conflictGap ≤ 100
  maxAge_pos : 0 < liveMaxAgeSeconds
  skews_nonneg : 0 ≤ componentSkewSeconds ∧ 0 ≤ futureClockSkewSeconds
  masterAge_pos : 0 < instrumentMasterMaxAgeSeconds
  extremeExpiry_pos : 0 < extremeExpirySeconds
  atrStop_pos : 0 < atrStopMultiple
  targets_pos : 0 < targetRMultiples.1 ∧ 0 < targetRMultiples.2.1 ∧ 0 < targetRMultiples.2.2
  targets_increasing : targetRMultiples.1 < targetRMultiples.2.1 ∧ targetRMultiples.2.1 < targetRMultiples.2.2

/-- `delta_range`. -/
def StrategyConfig.deltaRange (config : StrategyConfig) (style : TradingStyle) : Binary64 × Binary64 :=
  if style = .positional then (config.positionalDeltaMinimum, config.positionalDeltaMaximum)
  else (config.intradayDeltaMinimum, config.intradayDeltaMaximum)

def STRATEGY_VERSION : String := "teco-canonical-1.0.0"

/-- The default weights. -/
def defaultWeights : ScoreWeights where
  trend := 20
  premium := 15
  openInterest := 15
  liquidity := 15
  greeks := 15
  volatility := 10
  riskReward := 10
  finite := by decide
  nonneg := by decide +kernel
  total := by decide +kernel

def DEFAULT_STRATEGY_CONFIG : StrategyConfig where
  version := STRATEGY_VERSION
  riskFreeRate := 0.06
  dividendYield := 0
  maximumRiskPerTrade := 0.02
  intradayDeltaMinimum := 0.45
  intradayDeltaMaximum := 0.70
  positionalDeltaMinimum := 0.55
  positionalDeltaMaximum := 0.75
  minimumVolume := 1000
  minimumOpenInterest := 1000
  maximumSpreadRatio := 0.03
  minimumLiquidityScore := 60
  watchlistScore := 65
  minimumTradableScore := 75
  strongSetupScore := 85
  conflictGap := 8
  liveMaxAgeSeconds := 30
  componentSkewSeconds := 5
  futureClockSkewSeconds := 2
  instrumentMasterMaxAgeSeconds := 129600
  extremeExpirySeconds := 32400
  premiumStopRatio := 0.20
  atrStopMultiple := 1
  targetRMultiples := (1, 2, 3)
  eventRiskBlocksNewTrades := true
  weights := defaultWeights
  finite := by decide +kernel
  counts_finite := by decide +kernel
  riskFreeRate_range := by decide +kernel
  dividendYield_range := by decide +kernel
  targets_finite := by decide +kernel
  rates := by decide +kernel
  risk_ceiling := by decide +kernel
  thresholds := by decide +kernel
  deltas := by decide +kernel
  counts_pos := by decide +kernel
  liquidity_range := by decide
  gap_range := by decide
  maxAge_pos := by decide
  skews_nonneg := by decide
  masterAge_pos := by decide
  extremeExpiry_pos := by decide
  atrStop_pos := by decide
  targets_pos := by decide
  targets_increasing := by decide

/-! ### Scores -/

structure ScoreResult where
  total : Binary64
  points : List (String × Binary64)
  band : ScoreBand
  deriving DecidableEq, Repr

def scoreBand (score : Binary64) (config : StrategyConfig) : ScoreBand :=
  if config.strongSetupScore ≤ score then .strong
  else if config.minimumTradableScore ≤ score then .tradable
  else if config.watchlistScore ≤ score then .watchlist
  else .rejected

/-- The points of one weight: its factor must lie within `0..1`. -/
def factorPoints (factors : List (String × Binary64)) (weight : String × Binary64) :
    Except Fault (String × Binary64) :=
  match factors.lookup weight.1 with
  | none => .error (.value ("missing score factors: " ++ weight.1))
  | some factor => do
      require (0 ≤ factor ∧ factor ≤ 1) ("score factor '" ++ weight.1 ++ "' must be within 0..1")
      return (weight.1, factor.mul weight.2)

/-- `weighted_score`: combine normalized factors using the versioned weights. -/
def weightedScore (factors : List (String × Binary64)) (config : StrategyConfig) : Except Fault ScoreResult := do
  let missing := (config.weights.asMapping.map Prod.fst).filter fun name => (factors.lookup name).isNone
  require (missing = []) ("missing score factors: " ++ String.intercalate ", " (missing.insertionSort (· ≤ ·)))
  let points ← config.weights.asMapping.mapM (factorPoints factors)
  let total := Binary64.min 100 (Binary64.max 0 (Binary64.sum (points.map Prod.snd)))
  return { total, points, band := scoreBand total config }

structure LiquidityResult where
  score : Binary64
  eligible : Bool
  rejectionReasons : List String
  deriving DecidableEq, Repr

/-- `max(0, value or 0) / minimum`, at most one. -/
def depthShare (value : Option Int) (minimum : Int) : Except Fault Binary64 := do
  let share ← arith (Binary64.ofQuotient (max 0 (value.getD 0)) minimum)
  return Binary64.min 1 share

/-- Whether the market is missing or crossed. -/
def marketReasons (bid ask : Decimal) : Except Fault (List String) := do
  if ← arith (Decimal.lessEqual bid 0) then return ["MISSING_OR_NON_POSITIVE_MARKET"]
  if ← arith (Decimal.lessEqual ask 0) then return ["MISSING_OR_NON_POSITIVE_MARKET"]
  if ← arith (Decimal.less ask bid) then return ["ASK_BELOW_BID"]
  return []

/-- The spread relative to a positive ask; a crossed market counts as the widest. -/
def spreadRatio (bid ask : Decimal) : Except Fault Binary64 := do
  let spread ← arith (Decimal.minus .default ask bid)
  let ratio := Binary64.ofDecimal (← arith (Decimal.divide spread ask))
  return if ratio < 0 then 1 else ratio

/-- The reasons the market gives against a leg, and its spread ratio. -/
def spreadChecks (bid ask : Option Decimal) (config : StrategyConfig) : Except Fault (List String × Binary64) :=
  match bid, ask with
  | some bid, some ask => do
      let reasons ← marketReasons bid ask
      if ← arith (Decimal.less 0 ask) then
        let ratio ← spreadRatio bid ask
        return (if config.maximumSpreadRatio < ratio then reasons ++ ["WIDE_SPREAD"] else reasons, ratio)
      else return (reasons, 1)
  | _, _ => .ok (["MISSING_OR_NON_POSITIVE_MARKET"], 1)

/-- `liquidity_score`: the spread contributes 50 points, volume and open interest 25 each. -/
def liquidityScore (bid ask : Option Decimal) (volume openInterest : Option Int) (config : StrategyConfig) :
    Except Fault LiquidityResult := do
  let (spreadReasons, ratio) ← spreadChecks bid ask config
  let low := if ∃ v ∈ volume, config.minimumVolume ≤ v then [] else ["LOW_VOLUME"]
  let thin := if ∃ v ∈ openInterest, config.minimumOpenInterest ≤ v then [] else ["LOW_OPEN_INTEREST"]
  let reasons := spreadReasons ++ low ++ thin
  let relative ← arith (ratio.div config.maximumSpreadRatio)
  let spreadPoints := (50 : Binary64).mul (Binary64.max 0 ((1 : Binary64).sub relative))
  let volumePoints := (25 : Binary64).mul (← depthShare volume config.minimumVolume)
  let oiPoints := (25 : Binary64).mul (← depthShare openInterest config.minimumOpenInterest)
  let score := Binary64.max 0 (Binary64.min 100 ((spreadPoints.add volumePoints).add oiPoints))
  let eligible : Bool := decide (reasons = [] ∧ config.minimumLiquidityScore ≤ score)
  let rejectionReasons :=
    if reasons = [] ∧ eligible = false then ["LIQUIDITY_SCORE_BELOW_MINIMUM"] else reasons
  return ⟨score, eligible, rejectionReasons⟩

/-! ### Decisions -/

structure DecisionInputs where
  dataComplete : Bool
  dataStale : Bool
  expiryValid : Bool
  extremeExpiryRisk : Bool
  eventRiskActive : Option Bool
  liquidStrikeAvailable : Bool
  affordable : Bool
  callScore : Binary64
  putScore : Binary64
  priceActionConfirmed : Option Bool
  operatingMode : OperatingMode
  deriving DecidableEq, Repr

structure DecisionOutcome where
  state : DecisionState
  reason : DecisionReason
  callBand : ScoreBand
  putBand : ScoreBand
  leadingScore : Binary64
  scoreGap : Binary64
  deriving DecidableEq, Repr

/-- The decision and its reason, by precedence. -/
def precedence (inputs : DecisionInputs) (config : StrategyConfig) : DecisionState × DecisionReason :=
  let leading := Binary64.max inputs.callScore inputs.putScore
  let gap := (inputs.callScore.sub inputs.putScore).abs
  if inputs.dataComplete = false then (.insufficientData, .dataIncomplete)
  else if inputs.dataStale then (.noTrade, .dataStale)
  else if inputs.expiryValid = false then (.noTrade, .invalidExpiry)
  else if inputs.extremeExpiryRisk then (.noTrade, .extremeExpiryRisk)
  else if inputs.eventRiskActive ≠ some false ∧ config.eventRiskBlocksNewTrades then (.noTrade, .eventRisk)
  else if inputs.liquidStrikeAvailable = false then (.noTrade, .noLiquidStrike)
  else if inputs.affordable = false then (.noTrade, .notAffordable)
  else if leading < config.watchlistScore then (.noTrade, .belowWatchlistScore)
  else if leading < config.minimumTradableScore then (.wait, .watchlistOnly)
  else if gap < config.conflictGap then (.wait, .conflictingScores)
  else if inputs.operatingMode = .quick then (.wait, .quickModeOnly)
  else if inputs.priceActionConfirmed ≠ some true then (.wait, .priceActionPending)
  else if inputs.putScore < inputs.callScore then (.buyCall, .bullishConfirmed)
  else (.buyPut, .bearishConfirmed)

/-- `resolve_decision`: the documented fail-closed precedence. -/
def resolveDecision (inputs : DecisionInputs) (config : StrategyConfig) : Except Fault DecisionOutcome := do
  require ((0 ≤ inputs.callScore ∧ inputs.callScore ≤ 100) ∧ 0 ≤ inputs.putScore ∧ inputs.putScore ≤ 100)
    "call and put scores must be within 0..100"
  let (state, reason) := precedence inputs config
  return {
    state, reason
    callBand := scoreBand inputs.callScore config
    putBand := scoreBand inputs.putScore config
    leadingScore := Binary64.max inputs.callScore inputs.putScore
    scoreGap := (inputs.callScore.sub inputs.putScore).abs }

/-- `confirm_price_action`: by the underlying, never by the option premium. -/
def confirmPriceAction (optionType : OptionType) (underlyingPrice signalCandleHigh signalCandleLow : Decimal) :
    Except Fault Bool := do
  let nonPositive ← [underlyingPrice, signalCandleHigh, signalCandleLow].anyM fun price =>
    arith (Decimal.lessEqual price 0)
  require (nonPositive = false) "price-action inputs must be positive"
  let crossed ← arith (Decimal.less signalCandleHigh signalCandleLow)
  require (crossed = false) "signal-candle high cannot be below its low"
  if optionType = .call then arith (Decimal.less signalCandleHigh underlyingPrice)
  else arith (Decimal.less underlyingPrice signalCandleLow)

/-- `sorted(set(strikes))`. -/
def distinctStrikes (strikes : List Decimal) : List Decimal :=
  (strikes.eraseDupsBy fun left right => left.value == right.value).insertionSort (· ≤ ·)

/-- The distance of a strike from the underlying. -/
def strikeDistance (underlying strike : Decimal) : Decimal :=
  Decimal.absolute .default (Decimal.sub .default strike underlying)

/-- `nearest_atm`: the listed strike at the least distance, the lower of two at the same distance. -/
def nearestAtm (underlying : Decimal) (listedStrikes : List Decimal) : Except Fault Decimal :=
  if 0 < underlying then
    match (distinctStrikes listedStrikes).argmin fun strike => (strikeDistance underlying strike).value with
    | some strike => .ok strike
    | none => .error (.value "underlying and at least one listed strike are required")
  else .error (.value "underlying and at least one listed strike are required")

/-! ### Position sizing -/

structure PositionSizeResult where
  maximumRisk : Decimal
  riskPerLot : Decimal
  premiumPerLot : Decimal
  lotsByRisk : Int
  lotsByAllocation : Int
  maximumLots : Int
  quantity : Int
  affordable : Bool
  deriving DecidableEq, Repr

/-- The whole number of lots an amount pays for. -/
def wholeLots (amount perLot : Decimal) : Except Fault Int := do
  arith (Decimal.toInt (Decimal.floorValue (← arith (Decimal.divide amount perLot))))

/-- `calculate_position_size`: the estimated costs count as risk. -/
def calculatePositionSize (accountCapital : Decimal) (riskRate maximumPremiumAllocation : Binary64)
    (entry stop : Decimal) (lotSize : Int) (costPerLot : Decimal) (config : StrategyConfig) :
    Except Fault PositionSizeResult := do
  require (∀ value ∈ [accountCapital, entry, stop, costPerLot], value.IsFinite)
    "position-sizing decimal inputs must be finite"
  require (0 < accountCapital ∧ 0 < entry ∧ 0 < lotSize) "capital, entry, and lot size must be positive"
  require (riskRate.IsFinite ∧ maximumPremiumAllocation.IsFinite) "risk and allocation rates must be finite"
  require (0 < riskRate ∧ riskRate ≤ config.maximumRiskPerTrade)
    "risk rate must be positive and within the configured maximum risk per trade"
  require (0 < maximumPremiumAllocation ∧ maximumPremiumAllocation ≤ 1)
    "premium allocation rate must be within (0, 1]"
  require (0 ≤ stop ∧ stop < entry) "a long-option stop must be within [0, entry)"
  require (0 ≤ costPerLot) "estimated costs cannot be negative"
  let lot := Decimal.ofInt lotSize
  let maximumRisk := Decimal.mul .default accountCapital riskRate.toDecimal
  let riskPerLot := Decimal.add .default
    (Decimal.mul .default (Decimal.sub .default entry stop) lot) costPerLot
  let premiumPerLot := Decimal.mul .default entry lot
  let allocation := Decimal.mul .default accountCapital maximumPremiumAllocation.toDecimal
  let lotsByRisk ← wholeLots maximumRisk riskPerLot
  let lotsByAllocation ← wholeLots allocation premiumPerLot
  let maximumLots := max 0 (min lotsByRisk lotsByAllocation)
  return {
    maximumRisk, riskPerLot, premiumPerLot, lotsByRisk, lotsByAllocation, maximumLots
    quantity := maximumLots * lotSize
    affordable := 0 < maximumLots }

end TecoQuant.Strategy
