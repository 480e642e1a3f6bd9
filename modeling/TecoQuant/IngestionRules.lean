import TecoQuant.IngestionCatalog

/-! The rules of the snapshot validator for the envelope, the contract, the market, the technical indicators
and the strategy context. A rule only adds issues; none stops the others, except where the source returns. -/

namespace TecoQuant.Ingestion

open Domain Strategy Api

/-! ### Issues -/

/-- An error, if the condition holds. -/
def errorIf (condition : Prop) [Decidable condition] (code path message : String) (observed expected : Option Json) :
    List ValidationIssue :=
  if condition then [⟨code, .error, path, message, observed, expected⟩] else []

/-- A warning, if the condition holds. -/
def warningIf (condition : Prop) [Decidable condition] (code path message : String) (observed expected : Option Json) :
    List ValidationIssue :=
  if condition then [⟨code, .warning, path, message, observed, expected⟩] else []

/-- Every issue has a property. -/
def AllIssues (P : ValidationIssue → Prop) (issues : List ValidationIssue) : Prop := ∀ issue ∈ issues, P issue

section AllIssues

variable {P : ValidationIssue → Prop} {condition : Prop} [Decidable condition] {code path message : String}
  {observed expected : Option Json} {issues issues' : List ValidationIssue}

@[simp] theorem allIssues_nil : AllIssues P [] := fun _ h => nomatch h

@[simp] theorem allIssues_append : AllIssues P (issues ++ issues') ↔ AllIssues P issues ∧ AllIssues P issues' :=
  List.forall_mem_append

@[simp] theorem allIssues_errorIf : AllIssues P (errorIf condition code path message observed expected) ↔
    (condition → P ⟨code, .error, path, message, observed, expected⟩) := by
  unfold errorIf AllIssues
  split <;> simp_all

@[simp] theorem allIssues_warningIf : AllIssues P (warningIf condition code path message observed expected) ↔
    (condition → P ⟨code, .warning, path, message, observed, expected⟩) := by
  unfold warningIf AllIssues
  split <;> simp_all

@[simp] theorem allIssues_ite : AllIssues P (if condition then issues else issues') ↔
    (condition → AllIssues P issues) ∧ (¬condition → AllIssues P issues') := by
  split <;> simp_all

@[simp] theorem allIssues_flatMap {α : Type} {l : List α} {f : α → List ValidationIssue} :
    AllIssues P (l.flatMap f) ↔ ∀ a ∈ l, AllIssues P (f a) := by
  simp only [AllIssues, List.mem_flatMap]
  exact ⟨fun h a ha issue hissue => h issue ⟨a, ha, hissue⟩, fun h issue ⟨a, ha, hissue⟩ => h a ha issue hissue⟩

@[simp] theorem allIssues_flatten {l : List (List ValidationIssue)} :
    AllIssues P l.flatten ↔ ∀ issues ∈ l, AllIssues P issues := by
  rw [← List.flatMap_id, allIssues_flatMap]
  rfl

end AllIssues

/-- A value as an issue shows it. -/
def shown {α : Type} [ToJson α] (value : α) : Option Json := some (toJson value)

def requireAware (value : Datetime) (path : String) : List ValidationIssue :=
  errorIf (¬value.Aware) "NAIVE_TIMESTAMP" path "timestamp must include an explicit timezone" none none

/-- A SHA-256 hexadecimal digest. -/
def HexDigest (text : String) : Prop :=
  text.length = 64 ∧ ∀ c ∈ text.toList, c ∈ "0123456789abcdefABCDEF".toList

instance (text : String) : Decidable (HexDigest text) := inferInstanceAs (Decidable (_ ∧ _))

/-- A text among the metadata. -/
def textOf : Option Json → Option String
  | some (.string text) => some text
  | _ => none

/-- `value.get(key)` of a mapping; other values have no items. -/
def itemOf (value : Option Json) (key : String) : Option Json :=
  match value with
  | some (.object fields) => fields.lookup key
  | _ => none

/-- `None`, or a JSON null. -/
def Missing : Option Json → Prop
  | none => True
  | some .null => True
  | some _ => False

instance (value : Option Json) : Decidable (Missing value) := by
  unfold Missing
  split <;> infer_instance

/-- A JSON value equals a dictionary of texts. -/
def SameTexts (value : Option Json) (expected : List (String × String)) : Prop :=
  match value with
  | some (.object fields) => fields.length = expected.length ∧
      ∀ field ∈ expected, textOf (fields.lookup field.1) = some field.2
  | _ => False

instance (value : Option Json) (expected : List (String × String)) : Decidable (SameTexts value expected) := by
  unfold SameTexts
  split <;> infer_instance

/-! ### The envelope -/

section Envelope

variable (config : StrategyConfig) (snapshot : AtomicSnapshot) (now : Datetime)

def sourceAgeIssues : List ValidationIssue :=
  let age := elapsedSeconds now snapshot.sourceTimestamp
  errorIf (config.liveMaxAgeSeconds < age) "STALE_DATA" "source_timestamp"
    "live snapshot exceeds the maximum data age" (shown age) (shown config.liveMaxAgeSeconds) ++
  errorIf (age < -config.futureClockSkewSeconds) "FUTURE_DATED_DATA" "source_timestamp"
    "source timestamp is materially ahead of the evaluation clock" (shown age) none

def latencyIssues : List ValidationIssue :=
  let latency := elapsedSeconds snapshot.receivedAt snapshot.sourceTimestamp
  errorIf (latency < -config.futureClockSkewSeconds) "RECEIVED_BEFORE_SOURCE" "received_at"
    "received time precedes source time beyond clock-skew tolerance" (shown latency) none

/-- The option payload of a Dhan snapshot and the hash it is kept with. -/
def PayloadPreserved (payload : Option Json) (optionHash rawHash : Option String) : Prop :=
  ¬Missing payload ∧ ∃ hash ∈ optionHash, HexDigest hash ∧
    payload.map contentHash = some hash ∧ rawHash = some hash

instance (payload : Option Json) (optionHash rawHash : Option String) :
    Decidable (PayloadPreserved payload optionHash rawHash) :=
  inferInstanceAs (Decidable (_ ∧ ∃ hash ∈ optionHash, HexDigest hash ∧
    payload.map contentHash = some hash ∧ rawHash = some hash))

def provenanceIssues : List ValidationIssue :=
  let metadata := some (Json.object snapshot.metadata)
  let rawHash := textOf (itemOf metadata "raw_payload_hash")
  let optionPayload := itemOf (itemOf metadata "raw_component_payloads") "option_chain"
  let optionHash := textOf (itemOf (itemOf metadata "raw_component_hashes") "option_chain")
  warningIf (¬∃ hash ∈ rawHash, HexDigest hash) "RAW_HASH_MISSING" "metadata.raw_payload_hash"
    "raw provider payload lacks a valid SHA-256 content address" none none ++
  errorIf (¬SameTexts (itemOf metadata "normalized_component_hashes")
      (normalizedComponentHashes snapshot.contract snapshot.market snapshot.technicals snapshot.context
        snapshot.optionChain)) "COMPONENT_HASH_MISMATCH" "metadata.normalized_component_hashes"
    "normalized component hashes do not match the evaluated snapshot" none none ++
  errorIf (snapshot.source = .dhanRest ∧ ¬PayloadPreserved optionPayload optionHash rawHash)
    "RAW_COMPONENT_PROVENANCE_INVALID" "metadata.raw_component_payloads.option_chain"
    "Dhan option payload and its content hash must be preserved together" none none

/-- `_validate_envelope`. -/
def validateEnvelope : List ValidationIssue :=
  errorIf (snapshot.sequence < 0) "INVALID_SEQUENCE" "sequence" "snapshot sequence cannot be negative"
    (shown snapshot.sequence) none ++
  errorIf (snapshot.strategyVersion ≠ config.version) "STRATEGY_VERSION_MISMATCH" "strategy_version"
    "snapshot and active strategy versions differ" (shown snapshot.strategyVersion) (shown config.version) ++
  requireAware snapshot.sourceTimestamp "source_timestamp" ++
  requireAware snapshot.receivedAt "received_at" ++
  (if snapshot.sourceTimestamp.Aware then sourceAgeIssues config snapshot now else []) ++
  (if snapshot.sourceTimestamp.Aware ∧ snapshot.receivedAt.Aware then latencyIssues config snapshot else []) ++
  provenanceIssues snapshot

end Envelope

/-! ### The contract -/

section Contract

variable (config : StrategyConfig) (tables : CharTables) (contract : ContractSpec) (now : Datetime)

def expiryIssues : List ValidationIssue :=
  let remaining := elapsedSeconds contract.optionExpiry now
  if remaining ≤ 0 then
    errorIf True "INVALID_EXPIRY" "contract.option_expiry" "option expiry must be later than evaluation time"
      (shown remaining) (shown "> 0 seconds")
  else
    warningIf (remaining ≤ config.extremeExpirySeconds) "EXTREME_EXPIRY_RISK" "contract.option_expiry"
      "time to expiry is inside the extreme-risk lockout window" (shown remaining)
      (shown config.extremeExpirySeconds)

def contractNumberIssue (invalid : Prop) [Decidable invalid] (path : String) (value : Option Json) :
    List ValidationIssue :=
  errorIf invalid "INVALID_CONTRACT_SPEC" path "contract-controlled numeric values must be positive" value none

/-- `not value.is_finite() or value <= 0`. -/
def NotPositive (value : Decimal) : Prop := ¬value.IsFinite ∨ value ≤ 0

instance (value : Decimal) : Decidable (NotPositive value) := inferInstanceAs (Decidable (_ ∨ _))

def masterAgeIssues : List ValidationIssue :=
  let age := elapsedSeconds now contract.master.fetchedAt
  if config.instrumentMasterMaxAgeSeconds < age then
    errorIf True "STALE_CONTRACT_MASTER" "contract.master.fetched_at"
      "contract metadata is older than the configured master-data limit" (shown age)
      (shown config.instrumentMasterMaxAgeSeconds)
  else
    errorIf (age < -config.futureClockSkewSeconds) "FUTURE_DATED_CONTRACT_MASTER" "contract.master.fetched_at"
      "contract verification time is ahead of the evaluation clock" (shown age) none

def masterIssues : List ValidationIssue :=
  let master := contract.master
  errorIf (∃ text ∈ [master.batchId, master.provider, master.sourceUrl, master.schemaVersion], PyText.Blank text)
    "UNVERIFIED_CONTRACT" "contract.master" "contract must identify a persisted instrument-master batch" none none ++
  errorIf (¬HexDigest master.contentHash) "INVALID_MASTER_HASH" "contract.master.content_hash"
    "instrument-master content hash must be a SHA-256 hexadecimal digest" (shown master.contentHash) none ++
  errorIf (master.rowCount ≤ 0) "EMPTY_CONTRACT_MASTER" "contract.master.row_count"
    "instrument-master batch must contain at least one record" (shown master.rowCount) none ++
  requireAware master.fetchedAt "contract.master.fetched_at" ++
  (if master.fetchedAt.Aware then masterAgeIssues config contract now else [])

def expectedSegment : Exchange → String
  | .nse => "NSE_FNO"
  | .bse => "BSE_FNO"
  | .mcx => "MCX_COMM"

def pricingIssues : List ValidationIssue :=
  let exchange := contract.underlying.exchange
  let mismatch (message : String) (expected : Option Json) :=
    errorIf True "MARKET_EXCHANGE_MISMATCH" "contract.underlying.exchange" message (shown exchange) expected
  let wrongModel (message : String) (expected : PricingModel) :=
    errorIf (contract.pricingModel ≠ expected) "WRONG_PRICING_MODEL" "contract.pricing_model" message
      (shown contract.pricingModel) (shown expected)
  if contract.marketKind = .commodity then
    (if exchange ≠ .mcx then mismatch "commodity contracts must use an MCX pricing instrument" (shown Exchange.mcx)
      else []) ++
    wrongModel "commodity options require Black-76" .black76
  else
    (if exchange = .mcx then mismatch "index and stock policies cannot use an MCX pricing instrument" none else []) ++
    wrongModel "NSE/BSE index and stock options require the Black-Scholes policy" .blackScholes

/-- A provider id that is there and not empty. -/
def providerId (record : InstrumentMasterRecord) : Option String :=
  record.underlyingSecurityId.filter fun id => id ≠ ""

/-- The provider's underlying that all option records agree on. -/
def derivativeUnderlyingId : Option String :=
  if ∃ record ∈ contract.optionContracts, providerId record = none then none
  else
    match (contract.optionContracts.filterMap providerId).eraseDups with
    | [id] => some id
    | _ => none

/-- The provider's underlying of a derivative record belongs to the contract. -/
def UnderlyingMatches (record : InstrumentMasterRecord) : Prop :=
  if contract.marketKind = .stock then record.underlyingSecurityId = some contract.underlying.securityId
  else derivativeUnderlyingId contract ≠ none ∧ record.underlyingSecurityId = derivativeUnderlyingId contract

instance (record : InstrumentMasterRecord) : Decidable (UnderlyingMatches contract record) := by
  unfold UnderlyingMatches
  infer_instance

def futureExpiryIssues (future : InstrumentMasterRecord) : List ValidationIssue :=
  match future.expiry with
  | none => errorIf True "FUTURES_EXPIRY_MISSING" "contract.futures.expiry" "mapped futures expiry is required" none none
  | some expiry =>
      requireAware expiry "contract.futures.expiry" ++
      errorIf (expiry.Aware ∧ contract.optionExpiry.Aware ∧ expiry.instant < contract.optionExpiry.instant)
        "FUTURES_EXPIRY_MISMATCH" "contract.futures.expiry" "underlying futures cannot expire before the option"
        (shown expiry) (shown contract.optionExpiry)

/-- `_validate_future_record`: the tick size of the future may differ. -/
def validateFutureRecord (future : InstrumentMasterRecord) : List ValidationIssue :=
  errorIf (future.instrument.exchange ≠ contract.underlying.exchange ∨
      future.instrument.segment.toList.flatMap tables.upper ≠ (expectedSegment contract.underlying.exchange).toList ∨
      ¬"FUT".toList <+: future.instrumentType.toList.flatMap tables.upper)
    "FUTURES_MASTER_IDENTITY_MISMATCH" "contract.futures"
    "futures exchange, segment, and instrument type must match the contract" none none ++
  errorIf (contract.marketKind = .commodity ∧ future.instrument.canonicalKey ≠ contract.underlying.canonicalKey)
    "MCX_FUTURES_MAPPING_MISMATCH" "contract.futures.instrument"
    "MCX pricing underlying must be the exact mapped futures instrument" none none ++
  errorIf (¬UnderlyingMatches contract future) "FUTURES_UNDERLYING_MISMATCH" "contract.futures.underlying_security_id"
    (match contract.marketKind with
      | .commodity => "MCX futures and options must share one exact derivative-family underlying ID"
      | .index => "index futures and options must share one exact derivative-family underlying ID"
      | .stock => "stock futures must map directly to the selected equity underlying")
    (future.underlyingSecurityId.map toJson)
    (if contract.marketKind = .stock then shown contract.underlying.securityId
      else (derivativeUnderlyingId contract).map toJson) ++
  futureExpiryIssues contract future ++
  errorIf (future.lotSize ≠ some contract.lotSize) "FUTURES_MASTER_SPEC_MISMATCH" "contract.futures"
    "futures lot size must match the selected option contract revision" (future.lotSize.map toJson)
    (shown contract.lotSize)

/-- A strike and a side as an issue shows them. -/
def keyJson (key : Decimal × OptionType) : Json := .array [toJson key.1, toJson key.2]

/-- There is an expiry, at the given moment. -/
def SameExpiry (left : Option Datetime) (right : Datetime) : Prop := ∃ expiry ∈ left, expiry.SameMoment right

instance (left : Option Datetime) (right : Datetime) : Decidable (SameExpiry left right) :=
  inferInstanceAs (Decidable (∃ expiry ∈ left, expiry.SameMoment right))

/-- The rules for one option record, after the records `seen`. -/
def optionRecordIssues (seen : List InstrumentMasterRecord) (record : InstrumentMasterRecord) (path : String) :
    List ValidationIssue :=
  match optionKey record with
  | none => errorIf True "INVALID_OPTION_MASTER_RECORD" path "option master record requires strike and side" none none
  | some key =>
      let known := seen.filter fun other => (optionKey other).isSome
      errorIf (¬Positive (some key.1)) "INVALID_OPTION_MASTER_STRIKE" (path ++ ".strike")
        "option master strike must be a positive finite decimal" (shown key.1) none ++
      errorIf ((atKey known key).isSome ∨ record.instrument.securityId ∈ known.map (·.instrument.securityId))
        "DUPLICATE_OPTION_MASTER_RECORD" path "master option mappings must have unique strike/side and security ID"
        (some (keyJson key)) none ++
      errorIf (record.instrument.exchange ≠ contract.underlying.exchange ∨
          record.instrument.segment.toList.flatMap tables.upper ≠
            (expectedSegment contract.underlying.exchange).toList ∨ ¬UnderlyingMatches contract record)
        "OPTION_MASTER_IDENTITY_MISMATCH" path
        ("index and commodity option records must share one derivative-family underlying ID; stock option records " ++
          "must map directly to the selected equity underlying") none none ++
      errorIf (¬SameExpiry record.expiry contract.optionExpiry) "OPTION_MASTER_EXPIRY_MISMATCH" (path ++ ".expiry")
        "option master expiry must match the selected expiry exactly" (record.expiry.map toJson)
        (shown contract.optionExpiry) ++
      errorIf (record.lotSize ≠ some contract.lotSize ∨
          ¬∃ tick ∈ record.tickSize, Decimal.Equal tick contract.tickSize)
        "OPTION_MASTER_SPEC_MISMATCH" path "option lot size and tick size must match the contract revision" none none

/-- `f"{name}[{index}]"`. -/
def indexedPath (name : String) (index : Nat) : String :=
  name ++ "[" ++ String.ofList (Nat.toDigits 10 index) ++ "]"

/-- The rules for each element of a list, with the elements before it. -/
def eachWithSeen {α : Type} (rule : List α → α → Nat → List ValidationIssue) (items : List α) :
    List ValidationIssue :=
  items.zipIdx.flatMap fun (item, index) => rule (items.take index) item index

/-- `_validate_contract`. -/
def validateContract : List ValidationIssue :=
  requireAware contract.optionExpiry "contract.option_expiry" ++
  (if contract.optionExpiry.Aware then expiryIssues config contract now else []) ++
  contractNumberIssue (contract.lotSize ≤ 0) "contract.lot_size" (shown contract.lotSize) ++
  contractNumberIssue (NotPositive contract.strikeInterval) "contract.strike_interval"
    (shown contract.strikeInterval) ++
  contractNumberIssue (NotPositive contract.tickSize) "contract.tick_size" (shown contract.tickSize) ++
  masterIssues config contract now ++
  pricingIssues contract ++
  (match contract.futures with
    | none => errorIf True "FUTURES_MAPPING_MISSING" "contract.futures"
        "the exact futures contract must be resolved from the same master batch" none none
    | some future => validateFutureRecord tables contract future) ++
  eachWithSeen (fun seen record index =>
    optionRecordIssues tables contract seen record (indexedPath "contract.option_contracts" index))
    contract.optionContracts

end Contract

/-! ### The market, the indicators and the context -/

section Components

variable (config : StrategyConfig) (snapshot : AtomicSnapshot)

/-- A price that has to be positive. -/
def priceIssue (code path message : String) (price : Option Decimal) : List ValidationIssue :=
  errorIf (¬Positive price) code path message (price.map toJson) none

/-- `_validate_market`. -/
def validateMarket : List ValidationIssue :=
  let market := snapshot.market
  requireAware market.observedAt "market.observed_at" ++
  priceIssue "PRICING_UNDERLYING_MISSING" "market.pricing_underlying"
    "the correct positive pricing underlying is required"
    (market.pricingUnderlying snapshot.contract.marketKind) ++
  (if snapshot.contract.marketKind = .commodity then []
    else priceIssue "FUTURES_PRICE_MISSING" "market.futures_price"
      "relevant futures price is required as directional context" market.futuresPrice) ++
  [("market.previous_close", market.previousClose), ("market.day_open", market.dayOpen),
    ("market.day_high", market.dayHigh), ("market.day_low", market.dayLow), ("market.vwap", market.vwap)].flatMap
    (fun (path, price) => priceIssue "MARKET_FIELD_MISSING" path "positive market-structure input is required" price) ++
  errorIf (∃ high ∈ market.dayHigh, ∃ low ∈ market.dayLow,
      Positive (some high) ∧ Positive (some low) ∧ high < low) "INVALID_DAY_RANGE" "market.day_high"
    "day high cannot be below day low" (market.dayHigh.map toJson) (market.dayLow.map toJson)

/-- `_validate_technicals`. -/
def validateTechnicals : List ValidationIssue :=
  let technicals := snapshot.technicals
  requireAware technicals.observedAt "technicals.observed_at" ++
  errorIf (technicals.completedCandle = false) "INCOMPLETE_TECHNICAL_CANDLE" "technicals.completed_candle"
    "technical indicators must use completed candles only" (shown technicals.completedCandle) (shown true) ++
  [("technicals.ema_9", technicals.ema9), ("technicals.ema_21", technicals.ema21),
    ("technicals.wma_44", technicals.wma44), ("technicals.previous_wma_44", technicals.previousWma44)].flatMap
    (fun (path, value) =>
      priceIssue "TECHNICAL_FIELD_MISSING" path "positive completed-candle indicator is required" value) ++
  errorIf (¬∃ rsi ∈ technicals.rsi14, rsi.IsFinite ∧ 0 ≤ rsi ∧ rsi ≤ 100) "INVALID_RSI" "technicals.rsi_14"
    "RSI must be within 0..100" (technicals.rsi14.map toJson) none ++
  priceIssue "INVALID_ATR" "technicals.atr_14" "ATR must be positive and must not be substituted with RSI"
    technicals.atr14 ++
  errorIf (¬∃ volatility ∈ technicals.referenceVolatility, volatility.IsFinite ∧ 0 < volatility)
    "REFERENCE_VOLATILITY_MISSING" "technicals.reference_volatility"
    "reference volatility must be a positive decimal ratio" (technicals.referenceVolatility.map toJson) none

/-- `_validate_context`. -/
def validateContext : List ValidationIssue :=
  let context := snapshot.context
  errorIf (NotPositive context.accountCapital) "INVALID_ACCOUNT_CAPITAL" "context.account_capital"
    "account capital must be positive" (shown context.accountCapital) none ++
  errorIf (¬(context.riskPerTrade.IsFinite ∧ 0 < context.riskPerTrade ∧
      context.riskPerTrade ≤ config.maximumRiskPerTrade)) "RISK_LIMIT_EXCEEDED" "context.risk_per_trade"
    "risk per trade must be positive and within the hard ceiling" (shown context.riskPerTrade)
    (shown config.maximumRiskPerTrade) ++
  errorIf (¬(context.maximumPremiumAllocation.IsFinite ∧ 0 < context.maximumPremiumAllocation ∧
      context.maximumPremiumAllocation ≤ 1)) "INVALID_PREMIUM_ALLOCATION" "context.maximum_premium_allocation"
    "premium allocation must be within (0, 1]" (shown context.maximumPremiumAllocation) none ++
  (if NotPositive context.signalCandleHigh ∨ NotPositive context.signalCandleLow then
    errorIf True "SIGNAL_CANDLE_MISSING" "context.signal_candle_high"
      "positive signal-candle high and low are required" none none
  else
    errorIf (context.signalCandleHigh < context.signalCandleLow) "INVALID_SIGNAL_CANDLE" "context.signal_candle_high"
      "signal-candle high cannot be below its low" (shown context.signalCandleHigh)
      (shown context.signalCandleLow)) ++
  errorIf (¬context.expectedHoldingHours.IsFinite ∨ context.expectedHoldingHours ≤ 0) "INVALID_HOLDING_PERIOD"
    "context.expected_holding_hours" "expected holding period must be positive"
    (shown context.expectedHoldingHours) none ++
  warningIf (context.eventRiskActive = none) "EVENT_RISK_UNKNOWN" "context.event_risk_active"
    "unknown event risk is accepted for display but blocks a trade decision" none none

end Components
end TecoQuant.Ingestion
