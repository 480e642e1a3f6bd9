import Mathlib.Data.String.Basic
import TecoQuant.BaseJson
import TecoQuant.BaseSha256
import TecoQuant.DomainModels

/-! Canonical JSON, content hashes and contract identities, and the atomic snapshot, which carries the
hashes of its own components. Metadata values are JSON values. -/

namespace TecoQuant.Domain

/-! ### Canonical JSON -/

/-- `sha256(text.encode("utf-8")).hexdigest()`. -/
def sha256 (text : String) : String := String.ofList (Sha256.hexdigest (PyText.utf8 text))

namespace Serialization

def jsonableFloat (x : Binary64) : Json :=
  if x.IsFinite then .float x else .string ("NONFINITE:" ++ x.repr)

mutual

/-- `_jsonable` on a JSON value: a non-finite float becomes a string. -/
def jsonable : Json → Json
  | .float x => jsonableFloat x
  | .array items => .array (jsonableItems items)
  | .object fields => .object (jsonableFields fields)
  | value => value

def jsonableItems : List Json → List Json
  | [] => []
  | item :: rest => jsonable item :: jsonableItems rest

def jsonableFields : List (String × Json) → List (String × Json)
  | [] => []
  | (key, value) :: rest => (key, jsonable value) :: jsonableFields rest

end

def canonicalJson (value : Json) : String := (jsonable value).dumps false

def contentHash (value : Json) : String := sha256 (canonicalJson value)

end Serialization

/-- A value `_jsonable` converts. -/
class ToJson (α : Type) where
  toJson : α → Json

export ToJson (toJson)

instance : ToJson Json := ⟨id⟩

instance : ToJson String := ⟨.string⟩

instance : ToJson Int := ⟨.int⟩

instance : ToJson Bool := ⟨.bool⟩

instance : ToJson Binary64 := ⟨.float⟩

instance : ToJson Decimal := ⟨fun d => .string d.text⟩

instance : ToJson Datetime := ⟨fun t => .string t.isoformat⟩

instance {α : Type} [ToJson α] : ToJson (Option α) := ⟨fun value => (value.map toJson).getD .null⟩

instance {α : Type} [ToJson α] : ToJson (List α) := ⟨fun items => .array (items.map toJson)⟩

instance : ToJson Exchange := ⟨fun exchange => .string exchange.value⟩

instance : ToJson MarketKind := ⟨fun kind => .string kind.value⟩

instance : ToJson PricingModel := ⟨fun model => .string model.value⟩

instance : ToJson OptionType := ⟨fun side => .string side.value⟩

instance : ToJson TradingStyle := ⟨fun style => .string style.value⟩

instance : ToJson OperatingMode := ⟨fun mode => .string mode.value⟩

instance : ToJson DataSource := ⟨fun source => .string source.value⟩

instance : ToJson InstrumentId := ⟨fun instrument => .object [
  ("exchange", toJson instrument.exchange), ("segment", toJson instrument.segment),
  ("security_id", toJson instrument.securityId), ("symbol", toJson instrument.symbol)]⟩

instance : ToJson InstrumentMasterProvenance := ⟨fun master => .object [
  ("batch_id", toJson master.batchId), ("provider", toJson master.provider),
  ("source_url", toJson master.sourceUrl), ("content_hash", toJson master.contentHash),
  ("schema_version", toJson master.schemaVersion), ("fetched_at", toJson master.fetchedAt),
  ("row_count", toJson master.rowCount)]⟩

instance : ToJson InstrumentMasterRecord := ⟨fun record => .object [
  ("instrument", toJson record.instrument), ("display_name", toJson record.displayName),
  ("instrument_type", toJson record.instrumentType),
  ("underlying_security_id", toJson record.underlyingSecurityId), ("expiry", toJson record.expiry),
  ("strike", toJson record.strike), ("option_type", toJson record.optionType),
  ("lot_size", toJson record.lotSize), ("tick_size", toJson record.tickSize)]⟩

instance : ToJson ContractSpec := ⟨fun contract => .object [
  ("underlying", toJson contract.underlying), ("market_kind", toJson contract.marketKind),
  ("pricing_model", toJson contract.pricingModel), ("option_expiry", toJson contract.optionExpiry),
  ("lot_size", toJson contract.lotSize), ("strike_interval", toJson contract.strikeInterval),
  ("tick_size", toJson contract.tickSize), ("master", toJson contract.master),
  ("option_contracts", toJson contract.optionContracts), ("futures", toJson contract.futures)]⟩

instance : ToJson Greeks := ⟨fun greeks => .object [
  ("delta", toJson greeks.delta), ("gamma", toJson greeks.gamma), ("theta", toJson greeks.theta),
  ("vega", toJson greeks.vega), ("theoretical_price", toJson greeks.theoreticalPrice)]⟩

instance : ToJson OptionQuote := ⟨fun quote => .object [
  ("security_id", toJson quote.securityId), ("strike", toJson quote.strike),
  ("option_type", toJson quote.optionType), ("expiry", toJson quote.expiry), ("bid", toJson quote.bid),
  ("ask", toJson quote.ask), ("ltp", toJson quote.ltp), ("volume", toJson quote.volume),
  ("open_interest", toJson quote.openInterest),
  ("previous_open_interest", toJson quote.previousOpenInterest),
  ("change_open_interest", toJson quote.changeOpenInterest),
  ("implied_volatility", toJson quote.impliedVolatility), ("greeks", toJson quote.greeks),
  ("observed_at", toJson quote.observedAt), ("bid_quantity", toJson quote.bidQuantity),
  ("ask_quantity", toJson quote.askQuantity), ("previous_close", toJson quote.previousClose),
  ("change_oi_source_snapshot_id", toJson quote.changeOiSourceSnapshotId),
  ("change_oi_interval_seconds", toJson quote.changeOiIntervalSeconds)]⟩

instance : ToJson MarketState := ⟨fun market => .object [
  ("observed_at", toJson market.observedAt), ("spot_price", toJson market.spotPrice),
  ("futures_price", toJson market.futuresPrice), ("previous_close", toJson market.previousClose),
  ("day_open", toJson market.dayOpen), ("day_high", toJson market.dayHigh),
  ("day_low", toJson market.dayLow), ("vwap", toJson market.vwap),
  ("futures_open_interest", toJson market.futuresOpenInterest)]⟩

instance : ToJson TechnicalState := ⟨fun technicals => .object [
  ("observed_at", toJson technicals.observedAt), ("ema_9", toJson technicals.ema9),
  ("ema_21", toJson technicals.ema21), ("wma_44", toJson technicals.wma44),
  ("previous_wma_44", toJson technicals.previousWma44), ("rsi_14", toJson technicals.rsi14),
  ("atr_14", toJson technicals.atr14), ("reference_volatility", toJson technicals.referenceVolatility),
  ("timeframe", toJson technicals.timeframe), ("completed_candle", toJson technicals.completedCandle)]⟩

instance : ToJson StrategyContext := ⟨fun context => .object [
  ("operating_mode", toJson context.operatingMode), ("trading_style", toJson context.tradingStyle),
  ("account_capital", toJson context.accountCapital), ("risk_per_trade", toJson context.riskPerTrade),
  ("maximum_premium_allocation", toJson context.maximumPremiumAllocation),
  ("event_risk_active", toJson context.eventRiskActive),
  ("price_action_confirmed", toJson context.priceActionConfirmed),
  ("signal_candle_high", toJson context.signalCandleHigh),
  ("signal_candle_low", toJson context.signalCandleLow),
  ("expected_holding_hours", toJson context.expectedHoldingHours)]⟩

/-- `content_hash(value)`. -/
def contentHash {α : Type} [ToJson α] (value : α) : String := Serialization.contentHash (toJson value)

/-! ### Contract identity -/

/-- What `repr` shows of the identity material. -/
inductive Material where
  | text (value : String)
  | number (value : Int)
  | tuple (items : List Material)

namespace Material

/-- A character inside a string literal between `quote`s. Characters beyond ASCII count as printable. -/
def escapeChar (quote : Char) (c : Char) : List Char :=
  if c = quote ∨ c = '\\' then ['\\', c]
  else if c = '\n' then ['\\', 'n']
  else if c = '\r' then ['\\', 'r']
  else if c = '\t' then ['\\', 't']
  else if c.toNat < 32 ∨ c.toNat = 127 then
    ['\\', 'x', Nat.digitChar (c.toNat / 16), Nat.digitChar (c.toNat % 16)]
  else [c]

/-- `repr(text)`: single quotes unless the text has one and no double quote. -/
def reprText (value : String) : List Char :=
  let quote := if '\'' ∈ value.toList ∧ '"' ∉ value.toList then '"' else '\''
  quote :: value.toList.flatMap (escapeChar quote) ++ [quote]

mutual

def repr : Material → List Char
  | .text value => reprText value
  | .number value => Json.intText value
  | .tuple [] => ['(', ')']
  | .tuple [item] => '(' :: repr item ++ [',', ')']
  | .tuple (item :: rest) => '(' :: repr item ++ reprItems rest

/-- The further items of a tuple, to its end. -/
def reprItems : List Material → List Char
  | [] => [')']
  | item :: rest => ',' :: ' ' :: repr item ++ reprItems rest

end

end Material

/-- `_identity_timestamp`. -/
def identityTimestamp : Option Datetime → String
  | none => ""
  | some value => if value.Aware then value.toUtc.isoformat else "NAIVE:" ++ value.isoformat

/-- `_master_record_identity`. -/
def masterRecordIdentity (record : InstrumentMasterRecord) : List String := [
  record.instrument.canonicalKey, record.instrument.symbol, record.displayName, record.instrumentType,
  record.underlyingSecurityId.getD "", identityTimestamp record.expiry,
  (record.strike.map Decimal.text).getD "", (record.optionType.map OptionType.value).getD "",
  (record.lotSize.map fun lots => String.ofList (Json.intText lots)).getD "",
  (record.tickSize.map Decimal.text).getD ""]

def identityTuple (fields : List String) : Material := .tuple (fields.map .text)

namespace ContractSpec

def identityMaterial (contract : ContractSpec) : Material :=
  let options := (contract.optionContracts.map masterRecordIdentity).insertionSort (· ≤ ·)
  .tuple [
    .text contract.master.batchId, .text contract.master.provider, .text contract.master.sourceUrl,
    .text contract.master.contentHash, .text contract.master.schemaVersion,
    .text (identityTimestamp contract.master.fetchedAt), .number contract.master.rowCount,
    .text contract.underlying.canonicalKey, .text contract.marketKind.value,
    .text contract.pricingModel.value, .text (identityTimestamp contract.optionExpiry),
    .number contract.lotSize, .text contract.strikeInterval.text, .text contract.tickSize.text,
    identityTuple ((contract.futures.map masterRecordIdentity).getD []),
    .tuple (options.map identityTuple)]

def contractKey (contract : ContractSpec) : String :=
  "contract:" ++ sha256 (String.ofList contract.identityMaterial.repr)

end ContractSpec

/-! ### The atomic snapshot -/

/-- The hashes of the normalized components. -/
def normalizedComponentHashes (contract : ContractSpec) (market : MarketState)
    (technicals : TechnicalState) (context : StrategyContext) (optionChain : List OptionQuote) :
    List (String × String) := [
  ("contract", contentHash contract), ("market", contentHash market),
  ("technicals", contentHash technicals), ("context", contentHash context),
  ("option_chain", contentHash optionChain)]

/-- A dictionary of strings as a JSON value. -/
def stringDict (fields : List (String × String)) : Json :=
  .object (fields.map fun field => (field.1, .string field.2))

/-- A snapshot; construction records the hashes of its components in the metadata. -/
structure AtomicSnapshot where
  snapshotId : String
  sequence : Int
  source : DataSource
  sourceTimestamp : Datetime
  receivedAt : Datetime
  contract : ContractSpec
  market : MarketState
  technicals : TechnicalState
  context : StrategyContext
  optionChain : List OptionQuote
  strategyVersion : String
  metadata : List (String × Json)
  hashed : metadata.lookup "normalized_component_hashes" =
    some (stringDict (normalizedComponentHashes contract market technicals context optionChain))

instance : ToJson AtomicSnapshot := ⟨fun snapshot => .object [
  ("snapshot_id", toJson snapshot.snapshotId), ("sequence", toJson snapshot.sequence),
  ("source", toJson snapshot.source), ("source_timestamp", toJson snapshot.sourceTimestamp),
  ("received_at", toJson snapshot.receivedAt), ("contract", toJson snapshot.contract),
  ("market", toJson snapshot.market), ("technicals", toJson snapshot.technicals),
  ("context", toJson snapshot.context), ("option_chain", toJson snapshot.optionChain),
  ("strategy_version", toJson snapshot.strategyVersion), ("metadata", .object snapshot.metadata)]⟩

end TecoQuant.Domain
