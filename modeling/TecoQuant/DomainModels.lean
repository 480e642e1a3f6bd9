import TecoQuant.BaseBinary64
import TecoQuant.BaseDatetime
import TecoQuant.BaseText

/-! The normalized domain records: instruments and contracts of the master, quotes, and the market,
technical and strategy states. Prices are decimals; ratios, volatilities and Greeks are floats. -/

namespace TecoQuant.Domain

inductive Exchange where
  | nse
  | bse
  | mcx
  deriving DecidableEq, Repr

def Exchange.value : Exchange → String
  | .nse => "NSE"
  | .bse => "BSE"
  | .mcx => "MCX"

inductive MarketKind where
  | index
  | stock
  | commodity
  deriving DecidableEq, Repr

def MarketKind.value : MarketKind → String
  | .index => "INDEX"
  | .stock => "STOCK"
  | .commodity => "COMMODITY"

inductive PricingModel where
  | blackScholes
  | black76
  deriving DecidableEq, Repr

def PricingModel.value : PricingModel → String
  | .blackScholes => "BLACK_SCHOLES"
  | .black76 => "BLACK_76"

inductive OptionType where
  | call
  | put
  deriving DecidableEq, Repr

def OptionType.value : OptionType → String
  | .call => "CE"
  | .put => "PE"

inductive TradingStyle where
  | intraday
  | positional
  deriving DecidableEq, Repr

def TradingStyle.value : TradingStyle → String
  | .intraday => "INTRADAY"
  | .positional => "POSITIONAL"

inductive OperatingMode where
  | quick
  | pro
  deriving DecidableEq, Repr

def OperatingMode.value : OperatingMode → String
  | .quick => "QUICK"
  | .pro => "PRO"

inductive DataSource where
  | dhanRest
  | dhanLive
  | csv
  | manual
  | replay
  deriving DecidableEq, Repr

def DataSource.value : DataSource → String
  | .dhanRest => "DHAN_REST"
  | .dhanLive => "DHAN_LIVE"
  | .csv => "CSV"
  | .manual => "MANUAL"
  | .replay => "REPLAY"

structure InstrumentId where
  exchange : Exchange
  segment : String
  securityId : String
  symbol : String
  deriving DecidableEq, Repr

def InstrumentId.canonicalKey (instrument : InstrumentId) : String :=
  instrument.exchange.value ++ ":" ++ instrument.segment ++ ":" ++ instrument.securityId

structure InstrumentMasterProvenance where
  batchId : String
  provider : String
  sourceUrl : String
  contentHash : String
  schemaVersion : String
  fetchedAt : Datetime
  rowCount : Int
  deriving DecidableEq, Repr

structure InstrumentMasterRecord where
  instrument : InstrumentId
  displayName : String
  instrumentType : String
  underlyingSecurityId : Option String
  expiry : Option Datetime
  strike : Option Decimal
  optionType : Option OptionType
  lotSize : Option Int
  tickSize : Option Decimal
  deriving DecidableEq, Repr

structure ContractSpec where
  underlying : InstrumentId
  marketKind : MarketKind
  pricingModel : PricingModel
  optionExpiry : Datetime
  lotSize : Int
  strikeInterval : Decimal
  tickSize : Decimal
  master : InstrumentMasterProvenance
  optionContracts : List InstrumentMasterRecord
  futures : Option InstrumentMasterRecord
  deriving DecidableEq, Repr

structure Greeks where
  delta : Option Binary64
  gamma : Option Binary64
  theta : Option Binary64
  vega : Option Binary64
  theoreticalPrice : Option Decimal
  deriving DecidableEq, Repr

structure OptionQuote where
  securityId : String
  strike : Decimal
  optionType : OptionType
  expiry : Datetime
  bid : Option Decimal
  ask : Option Decimal
  ltp : Option Decimal
  volume : Option Int
  openInterest : Option Int
  previousOpenInterest : Option Int
  changeOpenInterest : Option Int
  impliedVolatility : Option Binary64
  greeks : Greeks
  observedAt : Datetime
  bidQuantity : Option Int
  askQuantity : Option Int
  previousClose : Option Decimal
  changeOiSourceSnapshotId : Option String
  changeOiIntervalSeconds : Option Binary64
  deriving DecidableEq, Repr

namespace OptionQuote

/-- `key`. -/
def key (quote : OptionQuote) : Decimal × OptionType := (quote.strike, quote.optionType)

/-- `spread_ratio`. -/
def spreadRatio (quote : OptionQuote) : Except ArithmeticError (Option Binary64) :=
  match quote.bid, quote.ask with
  | some bid, some ask => do
      let spread ← Decimal.minus .default ask bid
      if ← Decimal.lessEqual ask 0 then return none
      return some (Binary64.ofDecimal (← Decimal.divide spread ask))
  | _, _ => .ok none

end OptionQuote

structure MarketState where
  observedAt : Datetime
  spotPrice : Option Decimal
  futuresPrice : Option Decimal
  previousClose : Option Decimal
  dayOpen : Option Decimal
  dayHigh : Option Decimal
  dayLow : Option Decimal
  vwap : Option Decimal
  futuresOpenInterest : Option Int
  deriving DecidableEq, Repr

def MarketState.pricingUnderlying (market : MarketState) (marketKind : MarketKind) : Option Decimal :=
  if marketKind = .commodity then market.futuresPrice else market.spotPrice

structure TechnicalState where
  observedAt : Datetime
  ema9 : Option Decimal
  ema21 : Option Decimal
  wma44 : Option Decimal
  previousWma44 : Option Decimal
  rsi14 : Option Binary64
  atr14 : Option Decimal
  referenceVolatility : Option Binary64
  timeframe : String
  completedCandle : Bool
  deriving DecidableEq, Repr

structure StrategyContext where
  operatingMode : OperatingMode
  tradingStyle : TradingStyle
  accountCapital : Decimal
  riskPerTrade : Binary64
  maximumPremiumAllocation : Binary64
  eventRiskActive : Option Bool
  priceActionConfirmed : Option Bool
  signalCandleHigh : Decimal
  signalCandleLow : Decimal
  expectedHoldingHours : Binary64
  deriving DecidableEq, Repr

structure PreviousOptionSnapshot where
  snapshotId : String
  sequence : Int
  source : DataSource
  sourceTimestamp : Datetime
  contractKey : String
  optionChain : List OptionQuote
  deriving DecidableEq, Repr

end TecoQuant.Domain
