import TecoQuant.IngestionReport
import TecoQuant.StrategySpec

/-! From a validation-bound snapshot to a ranked chain, a decision and a broker-independent plan. The
natural logarithm is the one function the platform's C library supplies. -/

namespace TecoQuant.Signal

open Domain Ingestion Strategy

/-- The evidence policy the constructor admits. -/
structure EvidencePolicy where
  version : String
  premiumMomentumSaturation : Binary64
  volatilityRatioFloor : Binary64
  volatilityRatioCeiling : Binary64
  theoreticalErrorCeiling : Binary64
  dailyThetaDragCeiling : Binary64
  rewardRiskFullScore : Binary64
  positive : ∀ x ∈ [premiumMomentumSaturation, volatilityRatioFloor, volatilityRatioCeiling,
    theoreticalErrorCeiling, dailyThetaDragCeiling, rewardRiskFullScore], x.IsFinite ∧ 0 < x
  bounds : volatilityRatioFloor < 1 ∧ 1 < volatilityRatioCeiling

def DEFAULT_EVIDENCE_POLICY : EvidencePolicy where
  version := "teco-evidence-1.0.0"
  premiumMomentumSaturation := 0.02
  volatilityRatioFloor := 0.5
  volatilityRatioCeiling := 2
  theoreticalErrorCeiling := 0.25
  dailyThetaDragCeiling := 0.1
  rewardRiskFullScore := 2
  positive := by decide +kernel
  bounds := by decide +kernel

structure EvidenceBreakdown where
  factors : List (String × Binary64)
  points : List (String × Binary64)
  total : Binary64
  deriving DecidableEq, Repr

structure RankedStrike where
  rank : Nat
  securityId : String
  strike : Decimal
  optionType : OptionType
  entryAsk : Option Decimal
  score : Binary64
  evidence : Option EvidenceBreakdown
  liquidityScore : Binary64
  eligible : Bool
  rejectionReasons : List String
  deriving DecidableEq, Repr

/-- A broker-independent plan; actionable is never an order instruction. -/
structure TradePlan where
  signalId : String
  snapshotId : String
  contractKey : String
  strategyVersion : String
  evidenceVersion : String
  generatedAt : Datetime
  decision : DecisionState
  actionable : Bool
  symbol : String
  securityId : String
  optionType : OptionType
  strike : Decimal
  expiry : Datetime
  score : Binary64
  scoreGap : Binary64
  entry : Decimal
  stop : Decimal
  targets : List Decimal
  lotSize : Int
  lots : Int
  quantity : Int
  maximumRisk : Decimal
  riskPerLot : Decimal
  premiumRequired : Decimal
  deriving DecidableEq, Repr

structure SignalPipelineResult where
  snapshotId : String
  generatedAt : Datetime
  decision : DecisionState
  reason : DecisionReason
  callScore : Binary64
  putScore : Binary64
  scoreGap : Binary64
  rankedStrikes : List RankedStrike
  tradePlan : Option TradePlan
  warnings : List String

/-- A leg with its score, and the reasons against it. -/
structure Candidate where
  quote : OptionQuote
  score : Binary64
  evidence : Option EvidenceBreakdown
  liquidityScore : Binary64
  eligible : Bool
  rejectionReasons : List String
  riskDistance : Option Decimal
  deriving DecidableEq, Repr

/-- A plan before the decision is known. -/
structure TradePlanDraft where
  signalId : String
  snapshotId : String
  contractKey : String
  strategyVersion : String
  evidenceVersion : String
  generatedAt : Datetime
  symbol : String
  securityId : String
  optionType : OptionType
  strike : Decimal
  expiry : Datetime
  score : Binary64
  scoreGap : Binary64
  entry : Decimal
  stop : Decimal
  targets : List Decimal
  lotSize : Int
  lots : Int
  quantity : Int
  maximumRisk : Decimal
  riskPerLot : Decimal
  premiumRequired : Decimal
  deriving DecidableEq, Repr

/-- `finalize`. -/
def TradePlanDraft.finalize (draft : TradePlanDraft) (decision : DecisionState) : TradePlan where
  signalId := draft.signalId
  snapshotId := draft.snapshotId
  contractKey := draft.contractKey
  strategyVersion := draft.strategyVersion
  evidenceVersion := draft.evidenceVersion
  generatedAt := draft.generatedAt
  decision := decision
  actionable := decision = .buyCall ∨ decision = .buyPut
  symbol := draft.symbol
  securityId := draft.securityId
  optionType := draft.optionType
  strike := draft.strike
  expiry := draft.expiry
  score := draft.score
  scoreGap := draft.scoreGap
  entry := draft.entry
  stop := draft.stop
  targets := draft.targets
  lotSize := draft.lotSize
  lots := draft.lots
  quantity := draft.quantity
  maximumRisk := draft.maximumRisk
  riskPerLot := draft.riskPerLot
  premiumRequired := draft.premiumRequired

/-- A pipeline: its policies, its cost estimate and the platform's logarithm. -/
structure SignalPipeline where
  strategy : StrategyConfig
  evidence : EvidencePolicy
  costPerLot : Decimal
  log : Binary64 → Binary64
  cost_finite : costPerLot.IsFinite
  cost_nonneg : ¬costPerLot < 0

/-- `(left - right).total_seconds()`; a naive and an aware datetime have no difference. -/
def totalSeconds (left right : Datetime) : Except Fault Binary64 :=
  if left.Aware ↔ right.Aware then arith (Binary64.ofQuotient (left.instant - right.instant) 1000000)
  else .error .mixedTimestamps

/-- `_clamp`. -/
def clamp (value : Binary64) : Binary64 := Binary64.min 1 (Binary64.max 0 value)

/-- `_round_up`. -/
def roundUp (value tick : Decimal) : Except Fault Decimal := do
  let ratio ← arith (Decimal.divide value tick)
  arith (Decimal.times .default ratio.ceilingValue tick)

/-- `_round_down`. -/
def roundDown (value tick : Decimal) : Except Fault Decimal := do
  let ratio ← arith (Decimal.divide value tick)
  arith (Decimal.times .default ratio.floorValue tick)

/-- `replace_quote_greeks`: an evaluation-only quote. -/
def replaceQuoteGreeks (quote : OptionQuote) (greeks : Greeks) : OptionQuote := { quote with greeks }

/-- `max(0.0, (expiry - observed).total_seconds() / (365.0 * 24 * 60 * 60))`. -/
def expiryYears (expiry observed : Datetime) : Except Fault Binary64 := do
  let seconds ← totalSeconds expiry observed
  return Binary64.max 0 (← arith (seconds.div 31536000))

namespace SignalPipeline

variable (p : SignalPipeline)

/-! ### Evidence -/

/-- `_risk_distance`. -/
def riskDistance (snapshot : AtomicSnapshot) (quote : OptionQuote) : Except Fault (Option Decimal) := do
  match quote.ask, quote.greeks.delta, snapshot.technicals.atr14 with
  | some ask, delta, atr =>
      if ← arith (Decimal.lessEqual ask 0) then return none
      match delta, atr with
      | some delta, some atr =>
          if ← arith (Decimal.lessEqual atr 0) then return none
          let premiumDistance ← arith (Decimal.times .default ask p.strategy.premiumStopRatio.toDecimal)
          let scaled ← arith (Decimal.times .default atr delta.abs.toDecimal)
          let atrDistance ← arith (Decimal.times .default scaled p.strategy.atrStopMultiple.toDecimal)
          let distance ← arith (Decimal.minimum premiumDistance atrDistance)
          return some (← arith (Decimal.maximum snapshot.contract.tickSize distance))
      | _, _ => return none
  | none, _, _ => return none

/-- `_volatility_factor`. -/
def volatilityFactor (iv reference : Binary64) : Except Fault Binary64 := do
  if ¬iv.IsFinite ∨ iv ≤ 0 ∨ ¬reference.IsFinite ∨ reference ≤ 0 then return 0
  let ratio ← arith (iv.div reference)
  if ratio < p.evidence.volatilityRatioFloor then
    return clamp (← arith (ratio.div p.evidence.volatilityRatioFloor))
  if p.evidence.volatilityRatioCeiling < ratio then
    return clamp (← arith (p.evidence.volatilityRatioCeiling.div ratio))
  let scale := Binary64.max (p.log p.evidence.volatilityRatioFloor).abs (p.log p.evidence.volatilityRatioCeiling).abs
  return clamp ((1 : Binary64).sub (← arith ((p.log ratio).abs.div scale)))

/-- How well the model's price fits the last traded price. -/
def theoreticalFit (theoretical : Option Decimal) (ltp : Decimal) : Except Fault Binary64 := do
  match theoretical with
  | some theoretical =>
      if theoretical.IsFinite ∧ 0 ≤ theoretical then
        let difference ← arith (Decimal.minus .default theoretical ltp)
        let error := Binary64.ofDecimal (← arith (Decimal.divide (Decimal.absolute .default difference) ltp))
        return clamp ((1 : Binary64).sub (← arith (error.div p.evidence.theoreticalErrorCeiling)))
      else return 0.5
  | none => return 0.5

/-- How little of the premium a day of decay costs. -/
def thetaFit (theta : Option Binary64) (ltp : Decimal) : Except Fault Binary64 := do
  match theta with
  | some theta =>
      if theta.IsFinite then
        let drag ← arith (theta.abs.div (Binary64.ofDecimal ltp))
        return clamp ((1 : Binary64).sub (← arith (drag.div p.evidence.dailyThetaDragCeiling)))
      else return 0.5
  | none => return 0.5

/-- `1.0` for a finite non-negative sensitivity or none at all, else `0.0`. -/
def sensitivityShape (sensitivity : Option Binary64) : Binary64 :=
  match sensitivity with
  | some x => if x.IsFinite ∧ 0 ≤ x then 1 else 0
  | none => 1

/-- `_greeks_factor`, for a leg with a delta and a last price. -/
def greeksFactor (snapshot : AtomicSnapshot) (greeks : Greeks) (delta : Binary64) (ltp : Decimal) :
    Except Fault Binary64 := do
  let (minimum, maximum) := p.strategy.deltaRange snapshot.context.tradingStyle
  let midpoint ← arith ((minimum.add maximum).div 2)
  let halfWidth := Binary64.max (← arith ((maximum.sub minimum).div 2)) 1e-9
  let deltaFit := clamp ((1 : Binary64).sub (← arith ((delta.abs.sub midpoint).abs.div halfWidth)))
  let theoreticalFit ← p.theoreticalFit greeks.theoreticalPrice ltp
  let thetaFit ← p.thetaFit greeks.theta ltp
  let shape := (sensitivityShape greeks.gamma).mul (sensitivityShape greeks.vega)
  return clamp
    ((((((0.45 : Binary64).mul deltaFit).add ((0.25 : Binary64).mul theoreticalFit)).add
      ((0.20 : Binary64).mul thetaFit)).add ((0.10 : Binary64).mul shape)))

/-- The future does not speak against the side; without both prices it does not either. -/
def futuresSupports (market : MarketState) (bullish : Bool) : Except Fault Bool :=
  match market.spotPrice, market.futuresPrice with
  | some spot, some futures =>
      if bullish then arith (Decimal.lessEqual spot futures) else arith (Decimal.lessEqual futures spot)
  | _, _ => .ok true

/-- The number of trend conditions that hold, over six. -/
def trendFactor (market : MarketState) (technicals : TechnicalState) (bullish : Bool)
    (underlying ema9 ema21 wma44 previousWma44 : Decimal) : Except Fault Binary64 := do
  let comparisons ← [(ema9, underlying), (ema21, ema9), (wma44, ema21), (previousWma44, wma44)].mapM fun pair =>
    arith (Decimal.less pair.1 pair.2)
  let supports := if bullish then comparisons else comparisons.map not
  let rsiSupports := match technicals.rsi14 with
    | some rsi => if bullish then decide (50 ≤ rsi ∧ rsi ≤ 75) else decide (25 ≤ rsi ∧ rsi ≤ 50)
    | none => false
  let futuresSupports ← futuresSupports market bullish
  let count := (supports ++ [rsiSupports, futuresSupports]).count true
  arith ((Binary64.ofRat count).div 6)

/-- The move of the underlying that the reference volatility expects until expiry. -/
def expectedUnderlyingMove (underlying : Decimal) (referenceVolatility years : Binary64) :
    Except Fault Decimal := do
  if 0 < years then
    let root ← arith years.sqrt
    arith (Decimal.times .default underlying (referenceVolatility.mul root).toDecimal)
  else return 0

/-- The reward an expected move brings, relative to the risk distance. -/
def riskRewardFactor (snapshot : AtomicSnapshot) (quote : OptionQuote) (underlying : Decimal)
    (referenceVolatility delta : Binary64) : Except Fault Binary64 := do
  let riskDistance ← p.riskDistance snapshot quote
  let years ← expiryYears snapshot.contract.optionExpiry snapshot.sourceTimestamp
  let expectedMove ← expectedUnderlyingMove underlying referenceVolatility years
  let expectedPremiumMove ← arith (Decimal.times .default expectedMove delta.abs.toDecimal)
  match riskDistance with
  | some distance =>
      if ← arith (Decimal.less 0 distance) then
        let multiple := Binary64.ofDecimal (← arith (Decimal.divide expectedPremiumMove distance))
        return clamp (← arith (multiple.div p.evidence.rewardRiskFullScore))
      else return 0
  | none => return 0

/-- The premium change since the previous snapshot. -/
def momentum (ltp previousLtp : Decimal) : Except Fault Binary64 := do
  let change ← arith (Decimal.minus .default ltp previousLtp)
  return Binary64.ofDecimal (← arith (Decimal.divide change previousLtp))

def openInterestFactor (momentum : Binary64) (changeOpenInterest : Int) : Binary64 :=
  if 0 < momentum ∧ 0 < changeOpenInterest then 1
  else if 0 < momentum then 0.70
  else if 0 < changeOpenInterest then 0.25
  else 0

/-- The indicators every leg needs. -/
structure Indicators where
  underlying : Decimal
  ema9 : Decimal
  ema21 : Decimal
  wma44 : Decimal
  previousWma44 : Decimal
  deriving DecidableEq, Repr

/-- The indicators of a snapshot, when all are present. -/
def indicators (snapshot : AtomicSnapshot) : Option Indicators := do
  let underlying ← snapshot.market.pricingUnderlying snapshot.contract.marketKind
  let ema9 ← snapshot.technicals.ema9
  let ema21 ← snapshot.technicals.ema21
  let wma44 ← snapshot.technicals.wma44
  let previousWma44 ← snapshot.technicals.previousWma44
  let _ ← snapshot.technicals.atr14
  return { underlying, ema9, ema21, wma44, previousWma44 }

/-- `_factors`: none when an input is missing. -/
def factors (snapshot : AtomicSnapshot) (quote : OptionQuote) (previous : Option OptionQuote)
    (liquidityPoints : Binary64) : Except Fault (Option (List (String × Binary64))) := do
  match indicators snapshot, quote.ask, quote.ltp, previous with
  | some i, some _, some ltp, some previous =>
      match previous.ltp with
      | none => return none
      | some previousLtp =>
      if ← arith (Decimal.lessEqual previousLtp 0) then return none
      match quote.impliedVolatility, snapshot.technicals.referenceVolatility, quote.greeks.delta with
      | some iv, some reference, some delta =>
          if reference ≤ 0 ∨ ¬delta.IsFinite then return none
          let bullish := decide (quote.optionType = .call)
          let trend ← trendFactor snapshot.market snapshot.technicals bullish i.underlying i.ema9 i.ema21
            i.wma44 i.previousWma44
          let momentum ← momentum ltp previousLtp
          let saturation := (2 : Binary64).mul p.evidence.premiumMomentumSaturation
          let premium := clamp ((0.5 : Binary64).add (← arith (momentum.div saturation)))
          match quote.changeOpenInterest with
          | none => return none
          | some change =>
              let greeks ← p.greeksFactor snapshot quote.greeks delta ltp
              let volatility ← p.volatilityFactor iv reference
              let riskReward ← p.riskRewardFactor snapshot quote i.underlying reference delta
              let liquidity ← arith (liquidityPoints.div 100)
              return some [
                ("trend", clamp trend), ("premium", premium),
                ("open_interest", openInterestFactor momentum change), ("liquidity", clamp liquidity),
                ("greeks", greeks), ("volatility", volatility), ("risk_reward", riskReward)]
      | _, _, _ => return none
  | _, _, _, _ => return none

/-! ### Candidates -/

/-- There is no positive previous premium. -/
def baselineMissing (previous : Option OptionQuote) : Except Fault Bool :=
  match previous.bind OptionQuote.ltp with
  | none => .ok true
  | some ltp => arith (Decimal.lessEqual ltp 0)

/-- The reasons a quote itself gives against its leg. -/
def quoteReasons (snapshot : AtomicSnapshot) (quote : OptionQuote) (previous : Option OptionQuote) :
    Except Fault (List String) := do
  let incomplete :=
    if quote.ask.isNone ∨ quote.ltp.isNone ∨ quote.impliedVolatility.isNone then ["INCOMPLETE_OPTION_QUOTE"]
    else []
  let baseline := if ← baselineMissing previous then ["PREVIOUS_SNAPSHOT_REQUIRED"] else []
  let range := p.strategy.deltaRange snapshot.context.tradingStyle
  let delta := match quote.greeks.delta with
    | none => ["DELTA_UNAVAILABLE"]
    | some delta =>
        if ¬delta.IsFinite then ["DELTA_UNAVAILABLE"]
        else if range.1 ≤ delta.abs ∧ delta.abs ≤ range.2 then []
        else ["DELTA_OUT_OF_RANGE"]
  return incomplete ++ baseline ++ delta

/-- The weighted evidence, when every factor is known. -/
def evidenceOf (factors : Option (List (String × Binary64))) : Except Fault (Option EvidenceBreakdown) :=
  match factors with
  | none => .ok none
  | some factors =>
      (weightedScore factors p.strategy).map fun scored =>
        some { factors, points := scored.points, total := scored.total }

/-- `_score_candidate`. -/
def scoreCandidate (snapshot : AtomicSnapshot) (quote : OptionQuote) (previous : Option OptionQuote) :
    Except Fault Candidate := do
  let liquidity ← Strategy.liquidityScore quote.bid quote.ask quote.volume quote.openInterest p.strategy
  let reasons := liquidity.rejectionReasons ++ (← p.quoteReasons snapshot quote previous)
  let factors ← p.factors snapshot quote previous liquidity.score
  let riskDistance ← p.riskDistance snapshot quote
  let evidence ← p.evidenceOf factors
  return {
    quote
    score := (evidence.map EvidenceBreakdown.total).getD 0
    evidence
    liquidityScore := liquidity.score
    eligible := reasons = [] ∧ evidence.isSome ∧ liquidity.eligible
    rejectionReasons := reasons.eraseDups
    riskDistance }

/-- `_best`: the first eligible candidate of a side with the greatest score. -/
def best (candidates : List Candidate) (optionType : OptionType) : Option Candidate :=
  let eligible := candidates.filter fun candidate =>
    decide (candidate.quote.optionType = optionType) && candidate.eligible
  match eligible with
  | [] => none
  | first :: rest =>
      some (rest.foldl (fun greatest candidate =>
        if greatest.score < candidate.score then candidate else greatest) first)

/-! ### Ranking -/

/-- What the ranking compares after eligibility and score. -/
structure RankKey where
  distance : Decimal
  strike : Decimal
  side : String
  deriving DecidableEq, Repr

/-- The distance of a strike from the underlying; zero without one. -/
def underlyingDistance (underlying : Option Decimal) (strike : Decimal) : Except Fault Decimal :=
  match underlying with
  | some underlying => (arith (Decimal.minus .default strike underlying)).map (Decimal.absolute .default)
  | none => .ok 0

def rankKey (underlying : Option Decimal) (candidate : Candidate) : Except Fault RankKey := do
  let distance ← underlyingDistance underlying candidate.quote.strike
  return { distance, strike := candidate.quote.strike, side := candidate.quote.optionType.value }

/-- The candidate of `left` comes before the one of `right`, or they tie. -/
def ranksBefore (left right : Candidate × RankKey) : Except Fault Bool := do
  if left.1.eligible ≠ right.1.eligible then return left.1.eligible
  if left.1.score < right.1.score then return false
  if right.1.score < left.1.score then return true
  if ¬Decimal.Equal left.2.distance right.2.distance then arith (Decimal.less left.2.distance right.2.distance)
  else if ¬Decimal.Equal left.2.strike right.2.strike then arith (Decimal.less left.2.strike right.2.strike)
  else return decide (left.2.side ≤ right.2.side)

/-- Insert before the first element that does not come earlier. A comparison that raises ends the sort. -/
def insertRanked (candidate : Candidate × RankKey) :
    List (Candidate × RankKey) → Except Fault (List (Candidate × RankKey))
  | [] => .ok [candidate]
  | next :: rest => do
      if ← ranksBefore candidate next then return candidate :: next :: rest
      return next :: (← insertRanked candidate rest)

/-- `_rank`. -/
def rank (snapshot : AtomicSnapshot) (candidates : List Candidate) : Except Fault (List RankedStrike) := do
  let underlying := snapshot.market.pricingUnderlying snapshot.contract.marketKind
  let keyed ← candidates.mapM fun candidate => do return (candidate, ← rankKey underlying candidate)
  let ordered ← keyed.foldrM insertRanked []
  return ordered.zipIdx.map fun ((candidate, _), index) => {
    rank := index + 1
    securityId := candidate.quote.securityId
    strike := candidate.quote.strike
    optionType := candidate.quote.optionType
    entryAsk := candidate.quote.ask
    score := candidate.score
    evidence := candidate.evidence
    liquidityScore := candidate.liquidityScore
    eligible := candidate.eligible
    rejectionReasons := candidate.rejectionReasons }

/-! ### Plans -/

/-- What identifies a signal. -/
def signalIdentity (snapshot : AtomicSnapshot) (quote : OptionQuote) : Json := .object [
  ("snapshot_id", toJson snapshot.snapshotId), ("contract_key", toJson snapshot.contract.contractKey),
  ("security_id", toJson quote.securityId), ("side", toJson quote.optionType),
  ("strategy", toJson snapshot.strategyVersion), ("evidence", toJson p.evidence.version)]

/-- The entry and the stop of a leg. -/
def entryAndStop (tick ask riskDistance : Decimal) : Except Fault (Decimal × Decimal) := do
  let entry ← roundUp ask tick
  let rawStop ← arith (Decimal.maximum tick (← arith (Decimal.minus .default entry riskDistance)))
  let below ← arith (Decimal.minus .default entry tick)
  let stop ← arith (Decimal.minimum below (← roundUp rawStop tick))
  return (entry, stop)

/-- `_draft_plan`, for a candidate with an ask and a risk distance. -/
def draftPlan (snapshot : AtomicSnapshot) (candidate : Candidate) (ask riskDistance : Decimal)
    (callScore putScore : Binary64) (generatedAt : Datetime) :
    Except Fault (TradePlanDraft × PositionSizeResult) := do
  let quote := candidate.quote
  let tick := snapshot.contract.tickSize
  let (entry, stop) ← entryAndStop tick ask riskDistance
  let distance ← arith (Decimal.minus .default entry stop)
  let (first, second, third) := p.strategy.targetRMultiples
  let targets ← [first, second, third].mapM fun multiple => do
    let reward ← arith (Decimal.times .default distance multiple.toDecimal)
    roundDown (← arith (Decimal.plus .default entry reward)) tick
  let position ← calculatePositionSize snapshot.context.accountCapital snapshot.context.riskPerTrade
    snapshot.context.maximumPremiumAllocation entry stop snapshot.contract.lotSize p.costPerLot p.strategy
  match snapshot.contract.optionContracts.find? fun record =>
      record.instrument.securityId == quote.securityId with
  | none => .error .stopIteration
  | some record =>
      return ({
        signalId := "signal:" ++ contentHash (p.signalIdentity snapshot quote)
        snapshotId := snapshot.snapshotId
        contractKey := snapshot.contract.contractKey
        strategyVersion := snapshot.strategyVersion
        evidenceVersion := p.evidence.version
        generatedAt
        symbol := record.instrument.symbol
        securityId := quote.securityId
        optionType := quote.optionType
        strike := quote.strike
        expiry := quote.expiry
        score := candidate.score
        scoreGap := (callScore.sub putScore).abs
        entry, stop, targets
        lotSize := snapshot.contract.lotSize
        lots := position.maximumLots
        quantity := position.quantity
        maximumRisk := position.maximumRisk
        riskPerLot := position.riskPerLot
        premiumRequired := Decimal.mul .default position.premiumPerLot (.ofInt position.maximumLots) }, position)

/-! ### Evaluation -/

/-- `_require_bound_report`. -/
def requireBoundReport (snapshot : AtomicSnapshot) (report : ValidationReport) : Except Fault Unit :=
  require (report.snapshotId = some snapshot.snapshotId ∧ report.snapshotHash = some (contentHash snapshot))
    "validation report is not bound to this snapshot"

/-- `left >= right` of two datetimes. -/
def notBefore (left right : Datetime) : Except Fault Bool :=
  if left.Aware ↔ right.Aware then .ok (decide (right.instant ≤ left.instant)) else .error .mixedTimestamps

/-- `_previous_by_security`: the legs of a compatible previous snapshot. -/
def previousBySecurity (snapshot : AtomicSnapshot) (previous : Option PreviousOptionSnapshot) :
    Except Fault (List OptionQuote) := do
  match previous with
  | none => return []
  | some previous =>
      if previous.contractKey ≠ snapshot.contract.contractKey ∨ previous.source ≠ snapshot.source ∨
          snapshot.sequence ≤ previous.sequence then return []
      if ← notBefore previous.sourceTimestamp snapshot.sourceTimestamp then return []
      let interval ← totalSeconds snapshot.sourceTimestamp previous.sourceTimestamp
      if 0 < interval ∧ interval ≤ p.strategy.liveMaxAgeSeconds then return previous.optionChain
      return []

/-- The last leg of a security, as the later entry of a dictionary wins. -/
def previousQuote (previous : List OptionQuote) (securityId : String) : Option OptionQuote :=
  previous.reverse.find? fun quote => quote.securityId == securityId

/-- The quote a leg is evaluated with: its Greeks replaced by the modelled ones, if any. -/
def evaluatedQuote (modeledGreeks : Option (List (String × Greeks))) (quote : OptionQuote) : OptionQuote :=
  match modeledGreeks with
  | none => quote
  | some greeks => ((greeks.lookup quote.securityId).map (replaceQuoteGreeks quote)).getD quote

/-- The modelled Greeks cover exactly the legs of the chain. -/
def CoversChain (modeledGreeks : Option (List (String × Greeks))) (chain : List OptionQuote) : Prop :=
  ∀ greeks ∈ modeledGreeks,
    (∀ entry ∈ greeks, entry.1 ∈ chain.map OptionQuote.securityId) ∧
      ∀ quote ∈ chain, quote.securityId ∈ greeks.map Prod.fst

instance (modeledGreeks : Option (List (String × Greeks))) (chain : List OptionQuote) :
    Decidable (CoversChain modeledGreeks chain) :=
  inferInstanceAs (Decidable (∀ greeks ∈ modeledGreeks, _))

/-- The side that leads, and its best candidate if there is one. -/
def leading (bestCall bestPut : Option Candidate) : Option Candidate :=
  let callScore := (bestCall.map Candidate.score).getD 0
  let putScore := (bestPut.map Candidate.score).getD 0
  if putScore ≤ callScore then bestCall else bestPut

/-- Whether the underlying confirms the leading side; unknown without an underlying or a leader. -/
def priceConfirmed (snapshot : AtomicSnapshot) (leader : Option Candidate) : Except Fault (Option Bool) :=
  match snapshot.market.pricingUnderlying snapshot.contract.marketKind, leader with
  | some underlying, some leader =>
      (confirmPriceAction leader.quote.optionType underlying snapshot.context.signalCandleHigh
        snapshot.context.signalCandleLow).map some
  | _, _ => .ok none

/-- The draft of the leading candidate and its size. -/
def draft (snapshot : AtomicSnapshot) (leader : Option Candidate) (callScore putScore : Binary64)
    (generatedAt : Datetime) : Except Fault (Option (TradePlanDraft × PositionSizeResult)) :=
  match leader with
  | some leader =>
      match leader.quote.ask, leader.riskDistance with
      | some ask, some riskDistance =>
          (p.draftPlan snapshot leader ask riskDistance callScore putScore generatedAt).map some
      | _, _ => .ok none
  | none => .ok none

/-- What the decision is taken from. -/
def decisionInputs (snapshot : AtomicSnapshot) (report : ValidationReport) (candidates : List Candidate)
    (position : Option PositionSizeResult) (confirmed : Option Bool) (age expirySeconds : Binary64) :
    DecisionInputs :=
  let bestCall := best candidates .call
  let bestPut := best candidates .put
  {
    dataComplete := report.Accepted ∧ (∃ call ∈ bestCall, call.evidence.isSome) ∧ ∃ put ∈ bestPut, put.evidence.isSome
    dataStale := age < -p.strategy.futureClockSkewSeconds ∨ p.strategy.liveMaxAgeSeconds < age
    expiryValid := (0 : Binary64) < expirySeconds
    extremeExpiryRisk := (0 : Binary64) < expirySeconds ∧ expirySeconds ≤ p.strategy.extremeExpirySeconds
    eventRiskActive := snapshot.context.eventRiskActive
    liquidStrikeAvailable := candidates.any Candidate.eligible
    affordable := ∃ size ∈ position, size.affordable
    callScore := (bestCall.map Candidate.score).getD 0
    putScore := (bestPut.map Candidate.score).getD 0
    priceActionConfirmed := confirmed
    operatingMode := snapshot.context.operatingMode }

/-- The evaluation of scored candidates. -/
def conclude (snapshot : AtomicSnapshot) (report : ValidationReport) (candidates : List Candidate)
    (generatedAt : Datetime) : Except Fault SignalPipelineResult := do
  let ranked ← rank snapshot candidates
  let bestCall := best candidates .call
  let bestPut := best candidates .put
  let callScore := (bestCall.map Candidate.score).getD 0
  let putScore := (bestPut.map Candidate.score).getD 0
  let leader := leading bestCall bestPut
  let confirmed ← priceConfirmed snapshot leader
  let drafted ← p.draft snapshot leader callScore putScore generatedAt
  let age ← totalSeconds generatedAt snapshot.sourceTimestamp
  let expirySeconds ← totalSeconds snapshot.contract.optionExpiry generatedAt
  let outcome ← resolveDecision
    (p.decisionInputs snapshot report candidates (drafted.map Prod.snd) confirmed age expirySeconds) p.strategy
  return {
    snapshotId := snapshot.snapshotId
    generatedAt
    decision := outcome.state
    reason := outcome.reason
    callScore, putScore
    scoreGap := outcome.scoreGap
    rankedStrikes := ranked
    tradePlan := drafted.map fun pair => pair.1.finalize outcome.state
    warnings := report.warnings.map ValidationIssue.code }

/-- The scored candidates of a chain. -/
def candidates (snapshot : AtomicSnapshot) (previous : List OptionQuote)
    (modeledGreeks : Option (List (String × Greeks))) : Except Fault (List Candidate) :=
  snapshot.optionChain.mapM fun quote =>
    p.scoreCandidate snapshot (evaluatedQuote modeledGreeks quote) (previousQuote previous quote.securityId)

/-- `evaluate`. -/
def evaluate (snapshot : AtomicSnapshot) (report : ValidationReport)
    (previousSnapshot : Option PreviousOptionSnapshot) (modeledGreeks : Option (List (String × Greeks)))
    (now : Datetime) : Except Fault SignalPipelineResult := do
  require now.Aware "signal evaluation time must be timezone-aware"
  requireBoundReport snapshot report
  let previous ← p.previousBySecurity snapshot previousSnapshot
  require (CoversChain modeledGreeks snapshot.optionChain)
    "modeled Greeks must cover the exact snapshot option chain"
  let candidates ← p.candidates snapshot previous modeledGreeks
  p.conclude snapshot report candidates now

end SignalPipeline
end TecoQuant.Signal
