import TecoQuant.ApiReadModel
import TecoQuant.StrategyDecision

/-! The status of a published workspace, computed anew at every read: what blocks the workspace, what blocks
a decision, and what the age of the data blocks. -/

namespace TecoQuant.Api

open Domain Ingestion Strategy Signal

/-- A blocker that applies or not. -/
def blocker (condition : Prop) [Decidable condition] (code : String) : List String :=
  if condition then [code] else []

/-! ### The chain around the money -/

/-- A number that is finite and positive. -/
def Positive (value : Option Decimal) : Prop := ∃ d ∈ value, d.IsFinite ∧ 0 < d

instance (value : Option Decimal) : Decidable (Positive value) :=
  inferInstanceAs (Decidable (∃ d ∈ value, d.IsFinite ∧ 0 < d))

def QuoteComplete (quote : OptionQuote) : Prop :=
  (Positive quote.bid ∧ Positive quote.ask ∧ Positive quote.ltp) ∧
    (∃ bid ∈ quote.bid, ∃ ask ∈ quote.ask, bid ≤ ask) ∧
    (∃ volume ∈ quote.volume, 0 ≤ volume) ∧
    (∃ openInterest ∈ quote.openInterest, 0 ≤ openInterest) ∧
    ∃ iv ∈ quote.impliedVolatility, iv.IsFinite ∧ 0 < iv

instance (quote : OptionQuote) : Decidable (QuoteComplete quote) :=
  inferInstanceAs (Decidable (_ ∧ (∃ bid ∈ quote.bid, ∃ ask ∈ quote.ask, bid ≤ ask) ∧
    (∃ volume ∈ quote.volume, 0 ≤ volume) ∧ (∃ openInterest ∈ quote.openInterest, 0 ≤ openInterest) ∧
      ∃ iv ∈ quote.impliedVolatility, iv.IsFinite ∧ 0 < iv))

/-- The finite positive strikes of the chain, each once, in order. -/
def listedStrikes (snapshot : AtomicSnapshot) : List Decimal :=
  distinctStrikes ((snapshot.optionChain.map OptionQuote.strike).filter fun strike => strike.IsFinite ∧ 0 < strike)

/-- The strike some intervals away from the one at the money. -/
def ladderStrike (atm interval : Decimal) (offset : Int) : Decimal :=
  Decimal.add .default atm (Decimal.mul .default (.ofInt offset) interval)

/-- The legs from two intervals below the money to two above. -/
def requiredKeys (atm interval : Decimal) : List (Decimal × OptionType) :=
  [-2, -1, 0, 1, 2].flatMap fun offset =>
    [(ladderStrike atm interval offset, .call), (ladderStrike atm interval offset, .put)]

/-- Equality of keys: of the strikes as numbers, and of the sides. -/
def SameKey (left right : Decimal × OptionType) : Prop := Decimal.Equal left.1 right.1 ∧ left.2 = right.2

instance (left right : Decimal × OptionType) : Decidable (SameKey left right) := inferInstanceAs (Decidable (_ ∧ _))

/-- Every required leg is quoted, and completely. -/
def Covered (chain : List OptionQuote) (required : List (Decimal × OptionType)) : Prop :=
  (∀ key ∈ required, ∃ quote ∈ chain, SameKey quote.key key) ∧
    ∀ quote ∈ chain, (∃ key ∈ required, SameKey quote.key key) → QuoteComplete quote

instance (chain : List OptionQuote) (required : List (Decimal × OptionType)) : Decidable (Covered chain required) :=
  inferInstanceAs (Decidable (_ ∧ ∀ quote ∈ chain, (∃ key ∈ required, SameKey quote.key key) → QuoteComplete quote))

/-- The error of `nearestAtm` is not reached: the underlying is positive and there are strikes. -/
def fiveStrikeChainComplete (snapshot : AtomicSnapshot) : Bool :=
  let interval := snapshot.contract.strikeInterval
  match snapshot.market.pricingUnderlying snapshot.contract.marketKind with
  | none => false
  | some underlying =>
      if Positive (some underlying) ∧ Positive (some interval) then
        let strikes := listedStrikes snapshot
        if strikes.length < 5 then false
        else
          match nearestAtm underlying strikes with
          | .error _ => false
          | .ok atm => decide (Covered snapshot.optionChain (requiredKeys atm interval))
      else false

/-! ### Blockers -/

def staticBlockers (publication : PublishedSnapshot) : List String :=
  let snapshot := publication.snapshot
  (publication.report.errors.map ValidationIssue.code ++
    blocker (¬Positive (snapshot.market.pricingUnderlying snapshot.contract.marketKind)) "MARKET_PRICE_UNAVAILABLE" ++
    blocker (fiveStrikeChainComplete snapshot = false) "OPTION_CHAIN_INCOMPLETE" ++
    match publication.analysis with
    | none => ["ANALYTICS_UNAVAILABLE"]
    | some analysis => blocker (analysis.rankedStrikes.length ≠ snapshot.optionChain.length)
        "STRIKE_RANKING_UNAVAILABLE").eraseDups

def decisionBlockers (publication : PublishedSnapshot) : List String :=
  (blocker (∃ quote ∈ publication.snapshot.optionChain, quote.changeOpenInterest = none)
      "CHAIN_CHANGE_OI_UNAVAILABLE" ++
    match publication.analysis with
    | none => ["ANALYTICS_UNAVAILABLE"]
    | some analysis =>
        if analysis.decision = .insufficientData then ["ANALYTICS_INSUFFICIENT_DATA"]
        else blocker (analysis.rankedStrikes = []) "STRIKE_RANKING_UNAVAILABLE").eraseDups

/-- A naive timestamp is read in the zone of the system. -/
def localized (zone : Int → Int) (t : Datetime) : Datetime := ⟨t.wall, some (t.utcoffset.getD (zone t.wall))⟩

/-- The moment of a timestamp in UTC. -/
def moment (zone : Int → Int) (t : Datetime) : Datetime := (localized zone t).toUtc

/-- `value.astimezone(UTC)`. -/
def astimezoneUtc (zone : Int → Int) (t : Datetime) : Except Fault Datetime :=
  (localized zone t).astimezone dateOverflow

/-- `(later - earlier).total_seconds()`. -/
def elapsedSeconds (later earlier : Datetime) : Binary64 :=
  Binary64.round false (((later.instant - earlier.instant : Int) : ℚ) / 1000000)

/-- The timestamps of the components. -/
def componentTimes (snapshot : AtomicSnapshot) : List Datetime :=
  snapshot.sourceTimestamp :: snapshot.market.observedAt :: snapshot.technicals.observedAt ::
    snapshot.optionChain.map OptionQuote.observedAt

/-- What the age of the data blocks, with the ages of the oldest and the newest component. -/
structure DynamicBlockers where
  blockers : List String
  oldestAge : Binary64
  newestAge : Binary64

/-- The greatest, or the least, of some ages; `0.0` of none. -/
def extremeAge (better : Binary64 → Binary64 → Binary64) : List Binary64 → Binary64
  | [] => 0
  | age :: ages => ages.foldl better age

def dynamicBlockers (zone : Int → Int) (strategy : StrategyConfig) (snapshot : AtomicSnapshot) (now : Datetime) :
    Except Fault DynamicBlockers := do
  let normalized ← (componentTimes snapshot).mapM (astimezoneUtc zone)
  let current ← astimezoneUtc zone now
  let ages := normalized.map (elapsedSeconds current)
  let expiry := snapshot.contract.optionExpiry
  let fetchedAt := snapshot.contract.master.fetchedAt
  if ¬expiry.Aware then .error (.typeError "can't compare offset-naive and offset-aware datetimes")
  else if ¬fetchedAt.Aware then .error (.typeError "can't subtract offset-naive and offset-aware datetimes")
  else
    return {
      blockers :=
        blocker (∃ age ∈ ages, strategy.liveMaxAgeSeconds < age) "STALE_MARKET_DATA" ++
        blocker (∃ age ∈ ages, age < -strategy.futureClockSkewSeconds) "FUTURE_DATED_MARKET_DATA" ++
        blocker (expiry.instant ≤ now.instant) "CONTRACT_EXPIRED" ++
        blocker (strategy.instrumentMasterMaxAgeSeconds < elapsedSeconds now fetchedAt) "INSTRUMENT_MASTER_STALE"
      oldestAge := extremeAge Binary64.max ages
      newestAge := extremeAge Binary64.min ages }

/-! ### The status -/

inductive DataMode where
  | nonLive
  | incomplete
  | stale
  | live
  deriving DecidableEq, Repr

/-- `source in _LIVE_SOURCES`. -/
def LiveSource (source : DataSource) : Prop := source = .dhanRest ∨ source = .dhanLive

instance (source : DataSource) : Decidable (LiveSource source) := inferInstanceAs (Decidable (_ ∨ _))

structure ReadStatus where
  snapshotId : String
  contractKey : String
  sequence : Int
  source : DataSource
  capturedAt : String
  receivedAt : String
  dataMode : DataMode
  complete : Bool
  fresh : Bool
  actionable : Bool
  operationalDecision : DecisionState
  blockers : List String
  decisionBlockers : List String
  warnings : List String
  evaluatedAt : String
  oldestComponentAgeSeconds : Binary64
  newestComponentAgeSeconds : Binary64
  maximumAgeSeconds : Binary64
  futureClockSkewSeconds : Binary64

/-- A trade may be entered: the decision buys, with an actionable plan. -/
def Trades (analysis : Option SignalPipelineResult) : Prop :=
  ∃ result ∈ analysis, result.decision.Buys ∧ ∃ plan ∈ result.tradePlan, plan.actionable = true

instance (analysis : Option SignalPipelineResult) : Decidable (Trades analysis) :=
  inferInstanceAs (Decidable (∃ result ∈ analysis, result.decision.Buys ∧
    ∃ plan ∈ result.tradePlan, plan.actionable = true))

/-- `_read_status`. -/
def readStatus (zone : Int → Int) (strategy : StrategyConfig) (publication : PublishedSnapshot) (now : Datetime) :
    Except Fault ReadStatus := do
  let snapshot := publication.snapshot
  let static := staticBlockers publication
  let decision := decisionBlockers publication
  let dynamic ← dynamicBlockers zone strategy snapshot now
  let stale := "STALE_MARKET_DATA" ∈ dynamic.blockers ∨ "FUTURE_DATED_MARKET_DATA" ∈ dynamic.blockers ∨
    "INSTRUMENT_MASTER_STALE" ∈ dynamic.blockers
  let operational := LiveSource snapshot.source ∧ static = [] ∧ dynamic.blockers = []
  return {
    snapshotId := snapshot.snapshotId
    contractKey := snapshot.contract.contractKey
    sequence := snapshot.sequence
    source := snapshot.source
    capturedAt := snapshot.sourceTimestamp.isoformat
    receivedAt := snapshot.receivedAt.isoformat
    dataMode :=
      if ¬LiveSource snapshot.source then .nonLive
      else if static ≠ [] then .incomplete
      else if stale then .stale
      else .live
    complete := decide (static = [])
    fresh := decide ¬stale
    actionable := decide (operational ∧ decision = [] ∧ Trades publication.analysis)
    operationalDecision :=
      if static ≠ [] then .insufficientData
      else if ¬operational then .noTrade
      else (publication.analysis.map SignalPipelineResult.decision).getD .insufficientData
    blockers := (static ++ dynamic.blockers ++ blocker (¬LiveSource snapshot.source) "NON_LIVE_SOURCE").eraseDups
    decisionBlockers := decision
    warnings := publication.report.warnings.map ValidationIssue.code
    evaluatedAt := now.isoformat
    oldestComponentAgeSeconds := dynamic.oldestAge
    newestComponentAgeSeconds := dynamic.newestAge
    maximumAgeSeconds := strategy.liveMaxAgeSeconds
    futureClockSkewSeconds := strategy.futureClockSkewSeconds }

/-- A read at a given time. -/
def readAt (zone : Int → Int) (strategy : StrategyConfig) (publication : PublishedSnapshot) (now : Datetime) :
    Except Fault ReadStatus := do
  readStatus zone strategy publication (← requireAware now "read-model evaluation time")

end TecoQuant.Api
