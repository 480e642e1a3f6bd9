import TecoQuant.BaseSession
import TecoQuant.IngestionReport
import TecoQuant.StrategySpec

/-! The tables of the repository: their columns, keys, checks and references, and what each statement
that inserts a row requires. A timestamp column pair is one value; an enumeration column holds its
member, and a decimal column the decimal its text denotes. -/

namespace TecoQuant.Persistence

open Domain Ingestion Strategy Transactional

/-- What a call raises. -/
inductive Fault where
  | persistence (message : String)
  | instrumentMaster (message : String)
  | contractIntegrity (message : String)
  | validationBinding (message : String)
  | snapshotOrdering (message : String)
  | changeOiProvenance (message : String)
  | integrity (constraint : String)
  | overflow
  | arithmetic (error : ArithmeticError)
  | operational (message : String)
  deriving DecidableEq, Repr

/-- What a call takes from its surroundings: the clock, which the calendar holds, a fresh identifier, the index of
statements that fail on their own, and how SQLite reads a number from a text. -/
structure Environment where
  now : Int
  clock : (Datetime.utc now).InCalendar := by decide
  uuid : String
  refused : Nat → Option Fault
  castReal : Decimal → Binary64

/-! ### Column values -/

/-- The text and the epoch microseconds of a moment in UTC. -/
structure Timestamp where
  utc : String
  us : Int
  deriving DecidableEq, Repr

/-- `_timestamp`. -/
def timestamp (value : Datetime) (path : String) : Except Fault Timestamp :=
  if ¬value.Aware then .error (.persistence (path ++ " must be timezone-aware"))
  else (value.astimezone .overflow).map fun moment => ⟨moment.isoformat, moment.instant⟩

/-- `_optional_timestamp`. -/
def optionalTimestamp (value : Option Datetime) (path : String) : Except Fault (Option Timestamp) :=
  match value with
  | none => .ok none
  | some value => (timestamp value path).map some

/-- `_decimal`, as the decimal its text denotes. -/
def decimal (value : Option Decimal) : Except Fault (Option Decimal) :=
  match value with
  | none => .ok none
  | some value =>
      if ¬value.IsFinite then .error (.persistence "persisted decimals must be finite")
      else if value.IsZero then .ok (some 0)
      else (value.normalize.mapError .arithmetic).map fun normal => some normal.plain

/-- An INTEGER parameter: the driver refuses what does not fit 64 bits. -/
def integer (value : Int) : Except Fault Int :=
  if -2 ^ 63 ≤ value ∧ value < 2 ^ 63 then .ok value else .error .overflow

def optionalInteger (value : Option Int) : Except Fault (Option Int) :=
  match value with
  | none => .ok none
  | some value => (integer value).map some

/-- A REAL parameter: a NaN is stored as NULL. -/
def real (value : Option Binary64) : Option Binary64 := value.filter fun x => decide (x ≠ .nan)

/-- `_datetime_from_us`. -/
def datetimeFromUs (value : Int) : Datetime := .utc value

theorem timestamp_eq_ok {value : Datetime} {path : String} {stamp : Timestamp} :
    timestamp value path = .ok stamp ↔ value.HasUtc ∧ (⟨value.toUtc.isoformat, value.instant⟩ : Timestamp) = stamp := by
  rw [timestamp, Except.ite_error_eq_ok, not_not, Except.map_eq_ok]
  simp only [Datetime.astimezone_eq_ok]
  constructor
  · rintro ⟨haware, _, ⟨hcalendar, rfl⟩, rfl⟩
    exact ⟨⟨haware, hcalendar⟩, by rw [Datetime.instant_toUtc]⟩
  · rintro ⟨⟨haware, hcalendar⟩, rfl⟩
    exact ⟨haware, _, ⟨hcalendar, rfl⟩, by rw [Datetime.instant_toUtc]⟩

theorem timestamp_raises {value : Datetime} (h : ¬value.HasUtc) (path : String) :
    ∃ fault, timestamp value path = .error fault := by
  cases hstamp : timestamp value path with
  | error fault => exact ⟨fault, rfl⟩
  | ok stamp => exact absurd (timestamp_eq_ok.mp hstamp).1 h

/-! ### Rows -/

structure StrategyConfigRow where
  version : String
  configHash : String
  configJson : String
  publishedAt : Timestamp
  deriving DecidableEq, Repr

structure MasterBatchRow where
  batchId : String
  provider : String
  sourceUrl : String
  contentHash : String
  schemaVersion : String
  fetchedAt : Timestamp
  rowCount : Int
  provenanceJson : String
  deriving DecidableEq, Repr

structure MasterRecordRow where
  batchId : String
  exchange : Exchange
  segment : String
  securityId : String
  canonicalKey : String
  symbol : String
  displayName : String
  instrumentType : String
  underlyingSecurityId : Option String
  expiry : Option Timestamp
  strike : Option Decimal
  optionType : Option OptionType
  lotSize : Option Int
  tickSize : Option Decimal
  recordJson : String
  deriving DecidableEq, Repr

/-- The columns that refer to an instrument of the master. -/
structure InstrumentRef where
  exchange : Exchange
  segment : String
  securityId : String
  deriving DecidableEq, Repr

structure ContractRevisionRow where
  contractKey : String
  contractHash : String
  contractJson : String
  masterBatchId : String
  underlying : InstrumentRef
  marketKind : MarketKind
  pricingModel : PricingModel
  optionExpiry : Timestamp
  lotSize : Int
  strikeInterval : String
  tickSize : String
  futures : Option InstrumentRef
  createdAt : Timestamp
  deriving DecidableEq, Repr

structure ContractOptionMappingRow where
  contractKey : String
  masterBatchId : String
  instrument : InstrumentRef
  strike : Option Decimal
  optionType : OptionType
  expiryUtc : String
  lotSize : Option Int
  tickSize : Option Decimal
  deriving DecidableEq, Repr

structure SourceOrderHeadRow where
  contractKey : String
  source : DataSource
  lastSequence : Int
  lastSourceTimestamp : Timestamp
  snapshotId : String
  deriving DecidableEq, Repr

/-- `SnapshotStatus`. -/
inductive SnapshotStatus where
  | accepted
  | rejected
  deriving DecidableEq, Repr

def SnapshotStatus.value : SnapshotStatus → String
  | .accepted => "ACCEPTED"
  | .rejected => "REJECTED"

structure IngestionAttemptRow where
  snapshotId : String
  snapshotHash : String
  contractKey : String
  source : DataSource
  sequence : Int
  sourceTimestamp : Timestamp
  sourceTimestampValid : Bool
  receivedAt : Timestamp
  receivedAtValid : Bool
  strategyVersion : String
  metadataJson : String
  snapshotJson : String
  status : SnapshotStatus
  reportHash : String
  reportJson : String
  recordedAt : Timestamp
  deriving DecidableEq, Repr

structure AcceptedSnapshotRow where
  snapshotId : String
  contractKey : String
  source : DataSource
  sequence : Int
  sourceTimestamp : Timestamp
  deriving DecidableEq, Repr

structure MarketSnapshotRow where
  snapshotId : String
  observedAt : Timestamp
  spotPrice : Option Decimal
  futuresPrice : Option Decimal
  previousClose : Option Decimal
  dayOpen : Option Decimal
  dayHigh : Option Decimal
  dayLow : Option Decimal
  vwap : Option Decimal
  futuresOpenInterest : Option Int
  deriving DecidableEq, Repr

structure TechnicalSnapshotRow where
  snapshotId : String
  observedAt : Timestamp
  ema9 : Option Decimal
  ema21 : Option Decimal
  wma44 : Option Decimal
  previousWma44 : Option Decimal
  rsi14 : Option Binary64
  atr14 : Option Decimal
  referenceVolatility : Option Binary64
  timeframe : String
  completedCandle : Bool
  deriving DecidableEq, Repr

structure StrategyContextRow where
  snapshotId : String
  operatingMode : OperatingMode
  tradingStyle : TradingStyle
  accountCapital : Decimal
  riskPerTrade : Option Binary64
  maximumPremiumAllocation : Option Binary64
  eventRiskActive : Option Bool
  priceActionConfirmed : Option Bool
  signalCandleHigh : Decimal
  signalCandleLow : Decimal
  expectedHoldingHours : Option Binary64
  deriving DecidableEq, Repr

structure OptionSnapshotRow where
  snapshotId : String
  contractKey : String
  strike : Option Decimal
  optionType : OptionType
  instrument : InstrumentRef
  expiry : Timestamp
  observedAt : Timestamp
  bid : Option Decimal
  ask : Option Decimal
  ltp : Option Decimal
  bidQuantity : Option Int
  askQuantity : Option Int
  volume : Option Int
  openInterest : Option Int
  previousOpenInterest : Option Int
  changeOpenInterest : Option Int
  changeOiSourceSnapshotId : Option String
  changeOiIntervalSeconds : Option Binary64
  impliedVolatility : Option Binary64
  previousClose : Option Decimal
  delta : Option Binary64
  gamma : Option Binary64
  theta : Option Binary64
  vega : Option Binary64
  theoreticalPrice : Option Decimal
  deriving DecidableEq, Repr

structure ValidationIssueRow where
  snapshotId : String
  issueIndex : Nat
  code : String
  severity : ValidationSeverity
  path : String
  message : String
  observedJson : Option String
  expectedJson : Option String
  issueJson : String
  deriving DecidableEq, Repr

structure ManualOverrideRow where
  overrideId : String
  baseSnapshotId : String
  fieldName : String
  importedValueJson : String
  overrideValueJson : Option String
  overriddenBy : String
  overriddenAt : Timestamp
  reason : String
  expiresAt : Option Timestamp
  createdAt : Timestamp
  deriving DecidableEq, Repr

structure AuditEventRow where
  eventId : Nat
  occurredAt : Timestamp
  eventType : String
  aggregateType : String
  aggregateId : String
  payloadJson : String
  previousHash : Option String
  eventHash : String
  deriving DecidableEq, Repr

/-- The tables, each in the order its rows were stored. -/
structure Database where
  strategyConfigs : List StrategyConfigRow
  masterBatches : List MasterBatchRow
  masterRecords : List MasterRecordRow
  contractRevisions : List ContractRevisionRow
  contractOptionMappings : List ContractOptionMappingRow
  sourceOrderHeads : List SourceOrderHeadRow
  ingestionAttempts : List IngestionAttemptRow
  acceptedSnapshots : List AcceptedSnapshotRow
  marketSnapshots : List MarketSnapshotRow
  technicalSnapshots : List TechnicalSnapshotRow
  strategyContextSnapshots : List StrategyContextRow
  optionSnapshots : List OptionSnapshotRow
  validationIssues : List ValidationIssueRow
  manualOverrides : List ManualOverrideRow
  auditEvents : List AuditEventRow
  deriving DecidableEq, Repr

/-- A fresh schema. -/
def Database.empty : Database := ⟨[], [], [], [], [], [], [], [], [], [], [], [], [], [], []⟩

/-! ### Constraints -/

section Constraints

variable (env : Environment)

/-- `CHECK (column IS NULL OR CAST(column AS REAL) > 0)`. A check of NULL passes. -/
def CastPositive (column : Option Decimal) : Prop := ∀ d ∈ column, 0 < env.castReal d

instance (column : Option Decimal) : Decidable (CastPositive env column) :=
  inferInstanceAs (Decidable (∀ d ∈ column, _))

/-- `CHECK (CAST(high AS REAL) >= CAST(low AS REAL))`. -/
def CastOrdered (high low : Option Decimal) : Prop := ∀ h ∈ high, ∀ l ∈ low, env.castReal l ≤ env.castReal h

instance (high low : Option Decimal) : Decidable (CastOrdered env high low) :=
  inferInstanceAs (Decidable (∀ h ∈ high, ∀ l ∈ low, _))

/-- `NOT NULL CHECK (column > 0 AND column < 1.0e308)`. -/
def PositiveReal (column : Option Binary64) : Prop := ∃ x ∈ column, 0 < x ∧ x < 1e308

instance (column : Option Binary64) : Decidable (PositiveReal column) :=
  inferInstanceAs (Decidable (∃ x ∈ column, _))

/-- `CHECK (length(trim(column)) > 0)`: `trim` removes spaces only and `length` stops at a NUL. -/
def Trimmed (column : String) : Prop :=
  (column.toList.dropWhile (· == ' ')).head? ≠ none ∧ (column.toList.dropWhile (· == ' ')).head? ≠ some '\x00'

instance (column : String) : Decidable (Trimmed column) := inferInstanceAs (Decidable (_ ∧ _))

namespace Database

variable (db : Database)

def AdmitsStrategyConfig (row : StrategyConfigRow) : Prop :=
  ∀ other ∈ db.strategyConfigs, other.version ≠ row.version ∧ other.configHash ≠ row.configHash

instance (row : StrategyConfigRow) : Decidable (db.AdmitsStrategyConfig row) :=
  inferInstanceAs (Decidable (∀ other ∈ db.strategyConfigs, _))

def AdmitsMasterBatch (row : MasterBatchRow) : Prop :=
  0 ≤ row.rowCount ∧ ∀ other ∈ db.masterBatches, other.batchId ≠ row.batchId ∧
    (other.provider, other.contentHash, other.fetchedAt.us, other.sourceUrl, other.schemaVersion) ≠
      (row.provider, row.contentHash, row.fetchedAt.us, row.sourceUrl, row.schemaVersion)

instance (row : MasterBatchRow) : Decidable (db.AdmitsMasterBatch row) := inferInstanceAs (Decidable (_ ∧ _))

def AdmitsMasterRecord (row : MasterRecordRow) : Prop :=
  (∃ batch ∈ db.masterBatches, batch.batchId = row.batchId) ∧
    ∀ other ∈ db.masterRecords,
      (other.batchId, other.exchange, other.segment, other.securityId) ≠
          (row.batchId, row.exchange, row.segment, row.securityId) ∧
        (other.batchId, other.canonicalKey) ≠ (row.batchId, row.canonicalKey)

instance (row : MasterRecordRow) : Decidable (db.AdmitsMasterRecord row) := inferInstanceAs (Decidable (_ ∧ _))

/-- The master batch lists the instrument. -/
def ListsInstrument (batchId : String) (instrument : InstrumentRef) : Prop :=
  ∃ record ∈ db.masterRecords, record.batchId = batchId ∧ record.exchange = instrument.exchange ∧
    record.segment = instrument.segment ∧ record.securityId = instrument.securityId

instance (batchId : String) (instrument : InstrumentRef) : Decidable (db.ListsInstrument batchId instrument) :=
  inferInstanceAs (Decidable (∃ record ∈ db.masterRecords, _))

def AdmitsContractRevision (row : ContractRevisionRow) : Prop :=
  (∀ other ∈ db.contractRevisions, other.contractKey ≠ row.contractKey ∧ other.contractHash ≠ row.contractHash) ∧
    0 < row.lotSize ∧ (∃ batch ∈ db.masterBatches, batch.batchId = row.masterBatchId) ∧
    db.ListsInstrument row.masterBatchId row.underlying ∧
    ∀ future ∈ row.futures, db.ListsInstrument row.masterBatchId future

instance (row : ContractRevisionRow) : Decidable (db.AdmitsContractRevision row) :=
  inferInstanceAs (Decidable (_ ∧ _ ∧ _ ∧ _ ∧ ∀ future ∈ row.futures, _))

def AdmitsContractOptionMapping (row : ContractOptionMappingRow) : Prop :=
  (row.strike.isSome ∧ row.lotSize.isSome ∧ row.tickSize.isSome) ∧
    (∀ other ∈ db.contractOptionMappings, other.contractKey = row.contractKey →
      (other.strike, other.optionType) ≠ (row.strike, row.optionType) ∧ other.instrument ≠ row.instrument) ∧
    (∃ revision ∈ db.contractRevisions, revision.contractKey = row.contractKey) ∧
    ∃ record ∈ db.masterRecords, record.batchId = row.masterBatchId ∧
      (⟨record.exchange, record.segment, record.securityId⟩ : InstrumentRef) = row.instrument ∧
      record.strike = row.strike ∧ record.optionType = some row.optionType ∧
      record.expiry.map Timestamp.utc = some row.expiryUtc ∧ record.lotSize = row.lotSize ∧
      record.tickSize = row.tickSize

instance (row : ContractOptionMappingRow) : Decidable (db.AdmitsContractOptionMapping row) :=
  inferInstanceAs (Decidable (_ ∧ _ ∧ _ ∧ ∃ record ∈ db.masterRecords, _))

def AdmitsSourceOrderHead (row : SourceOrderHeadRow) : Prop :=
  ∃ revision ∈ db.contractRevisions, revision.contractKey = row.contractKey

instance (row : SourceOrderHeadRow) : Decidable (db.AdmitsSourceOrderHead row) :=
  inferInstanceAs (Decidable (∃ revision ∈ db.contractRevisions, _))

def AdmitsIngestionAttempt (row : IngestionAttemptRow) : Prop :=
  ∀ other ∈ db.ingestionAttempts, other.snapshotId ≠ row.snapshotId ∧ other.snapshotHash ≠ row.snapshotHash

instance (row : IngestionAttemptRow) : Decidable (db.AdmitsIngestionAttempt row) :=
  inferInstanceAs (Decidable (∀ other ∈ db.ingestionAttempts, _))

def AdmitsAcceptedSnapshot (row : AcceptedSnapshotRow) : Prop :=
  0 ≤ row.sequence ∧
    (∀ other ∈ db.acceptedSnapshots, other.snapshotId ≠ row.snapshotId ∧
      ((other.contractKey, other.source) = (row.contractKey, row.source) →
        other.sequence ≠ row.sequence ∧ other.sourceTimestamp.us ≠ row.sourceTimestamp.us)) ∧
    (∃ attempt ∈ db.ingestionAttempts, attempt.snapshotId = row.snapshotId) ∧
    ∃ revision ∈ db.contractRevisions, revision.contractKey = row.contractKey

instance (row : AcceptedSnapshotRow) : Decidable (db.AdmitsAcceptedSnapshot row) :=
  inferInstanceAs (Decidable (_ ∧ _ ∧ _ ∧ ∃ revision ∈ db.contractRevisions, _))

/-- `REFERENCES accepted_snapshots(snapshot_id)`. -/
def Accepts (snapshotId : String) : Prop := ∃ accepted ∈ db.acceptedSnapshots, accepted.snapshotId = snapshotId

instance (snapshotId : String) : Decidable (db.Accepts snapshotId) :=
  inferInstanceAs (Decidable (∃ accepted ∈ db.acceptedSnapshots, _))

def AdmitsMarketSnapshot (row : MarketSnapshotRow) : Prop :=
  (∀ column ∈ [row.futuresPrice, row.previousClose, row.dayOpen, row.dayHigh, row.dayLow, row.vwap],
    column.isSome ∧ CastPositive env column) ∧
    CastPositive env row.spotPrice ∧ CastOrdered env row.dayHigh row.dayLow ∧ db.Accepts row.snapshotId ∧
    ∀ other ∈ db.marketSnapshots, other.snapshotId ≠ row.snapshotId

instance (row : MarketSnapshotRow) : Decidable (db.AdmitsMarketSnapshot env row) :=
  inferInstanceAs (Decidable ((∀ column ∈ [row.futuresPrice, row.previousClose, row.dayOpen, row.dayHigh,
    row.dayLow, row.vwap], _) ∧ _ ∧ _ ∧ _ ∧ ∀ other ∈ db.marketSnapshots, _))

def AdmitsTechnicalSnapshot (row : TechnicalSnapshotRow) : Prop :=
  (∀ column ∈ [row.ema9, row.ema21, row.wma44, row.previousWma44, row.atr14],
    column.isSome ∧ CastPositive env column) ∧
    (∃ rsi ∈ row.rsi14, 0 ≤ rsi ∧ rsi ≤ 100) ∧ PositiveReal row.referenceVolatility ∧ Trimmed row.timeframe ∧
    row.completedCandle = true ∧ db.Accepts row.snapshotId ∧
    ∀ other ∈ db.technicalSnapshots, other.snapshotId ≠ row.snapshotId

instance (row : TechnicalSnapshotRow) : Decidable (db.AdmitsTechnicalSnapshot env row) :=
  inferInstanceAs (Decidable ((∀ column ∈ [row.ema9, row.ema21, row.wma44, row.previousWma44, row.atr14], _) ∧
    (∃ rsi ∈ row.rsi14, _) ∧ _ ∧ _ ∧ _ ∧ _ ∧ ∀ other ∈ db.technicalSnapshots, _))

def AdmitsStrategyContext (row : StrategyContextRow) : Prop :=
  (∀ column ∈ [row.accountCapital, row.signalCandleHigh, row.signalCandleLow], 0 < env.castReal column) ∧
    (∃ risk ∈ row.riskPerTrade, 0 < risk ∧ risk ≤ 0.02) ∧
    (∃ allocation ∈ row.maximumPremiumAllocation, 0 < allocation ∧ allocation ≤ 1) ∧
    PositiveReal row.expectedHoldingHours ∧
    env.castReal row.signalCandleLow ≤ env.castReal row.signalCandleHigh ∧ db.Accepts row.snapshotId ∧
    ∀ other ∈ db.strategyContextSnapshots, other.snapshotId ≠ row.snapshotId

instance (row : StrategyContextRow) : Decidable (db.AdmitsStrategyContext env row) :=
  inferInstanceAs (Decidable ((∀ column ∈ [row.accountCapital, row.signalCandleHigh, row.signalCandleLow], _) ∧
    (∃ risk ∈ row.riskPerTrade, _) ∧ (∃ allocation ∈ row.maximumPremiumAllocation, _) ∧ _ ∧ _ ∧ _ ∧
    ∀ other ∈ db.strategyContextSnapshots, _))

/-- The change in open interest comes with its source and a positive interval, or none of them is there. -/
def ChangeOiColumns (row : OptionSnapshotRow) : Prop :=
  (row.changeOpenInterest = none ∧ row.changeOiSourceSnapshotId = none ∧ row.changeOiIntervalSeconds = none) ∨
    (row.changeOpenInterest.isSome ∧ row.changeOiSourceSnapshotId.isSome ∧ PositiveReal row.changeOiIntervalSeconds)

instance (row : OptionSnapshotRow) : Decidable (ChangeOiColumns row) := inferInstanceAs (Decidable (_ ∨ _))

def AdmitsOptionSnapshot (row : OptionSnapshotRow) : Prop :=
  (∀ column ∈ [row.strike, row.bid, row.ask, row.ltp], column.isSome ∧ CastPositive env column) ∧
    (∀ column ∈ [row.volume, row.openInterest], ∃ n ∈ column, 0 ≤ n) ∧ PositiveReal row.impliedVolatility ∧
    CastOrdered env row.ask row.bid ∧ ChangeOiColumns row ∧
    (∀ other ∈ db.optionSnapshots, other.snapshotId = row.snapshotId →
      (other.strike, other.optionType) ≠ (row.strike, row.optionType) ∧
        other.instrument.securityId ≠ row.instrument.securityId) ∧
    db.Accepts row.snapshotId ∧ (∀ source ∈ row.changeOiSourceSnapshotId, db.Accepts source) ∧
    ∃ mapping ∈ db.contractOptionMappings, mapping.contractKey = row.contractKey ∧
      mapping.strike = row.strike ∧ mapping.optionType = row.optionType ∧ mapping.instrument = row.instrument

instance (row : OptionSnapshotRow) : Decidable (db.AdmitsOptionSnapshot env row) :=
  inferInstanceAs (Decidable ((∀ column ∈ [row.strike, row.bid, row.ask, row.ltp], _) ∧
    (∀ column ∈ [row.volume, row.openInterest], _) ∧ _ ∧ _ ∧ _ ∧ (∀ other ∈ db.optionSnapshots, _) ∧ _ ∧
    (∀ source ∈ row.changeOiSourceSnapshotId, _) ∧ ∃ mapping ∈ db.contractOptionMappings, _))

def AdmitsValidationIssue (row : ValidationIssueRow) : Prop :=
  (∀ other ∈ db.validationIssues, (other.snapshotId, other.issueIndex) ≠ (row.snapshotId, row.issueIndex)) ∧
    ∃ attempt ∈ db.ingestionAttempts, attempt.snapshotId = row.snapshotId

instance (row : ValidationIssueRow) : Decidable (db.AdmitsValidationIssue row) :=
  inferInstanceAs (Decidable (_ ∧ ∃ attempt ∈ db.ingestionAttempts, _))

def AdmitsManualOverride (row : ManualOverrideRow) : Prop :=
  (∀ column ∈ [row.fieldName, row.overriddenBy, row.reason], Trimmed column) ∧
    (∀ expiry ∈ row.expiresAt, row.overriddenAt.us < expiry.us) ∧ db.Accepts row.baseSnapshotId ∧
    ∀ other ∈ db.manualOverrides, other.overrideId ≠ row.overrideId

instance (row : ManualOverrideRow) : Decidable (db.AdmitsManualOverride row) :=
  inferInstanceAs (Decidable ((∀ column ∈ [row.fieldName, row.overriddenBy, row.reason], _) ∧
    (∀ expiry ∈ row.expiresAt, _) ∧ _ ∧ ∀ other ∈ db.manualOverrides, _))

def AdmitsAuditEvent (row : AuditEventRow) : Prop :=
  ∀ other ∈ db.auditEvents, other.eventId ≠ row.eventId ∧ other.eventHash ≠ row.eventHash

instance (row : AuditEventRow) : Decidable (db.AdmitsAuditEvent row) :=
  inferInstanceAs (Decidable (∀ other ∈ db.auditEvents, _))

end Database
end Constraints

/-! ### Statements -/

section Statements

variable (env : Environment)

/-- A session of the repository on its connection. -/
abbrev Write (α : Type) : Type := Session (Connection Database) Fault α

/-- `SELECT`. -/
def select {α : Type} (read : Database → α) : Write α := Session.query env.refused read

/-- `INSERT`: the row is stored unless a constraint of its table fails. -/
def insert (table : String) (Admits : Database → Prop) [DecidablePred Admits] (store : Database → Database) :
    Write Unit :=
  Session.statement env.refused fun db =>
    if Admits db then .ok ((), store db) else .error (.integrity table)

theorem returns_insert {env : Environment} {table : String} {Admits : Database → Prop} [DecidablePred Admits]
    {store : Database → Database} {c c' : Connection Database} {u : Unit}
    (h : (insert env table Admits store).Returns c u c') : Admits c.store ∧ c'.store = store c.store := by
  have heffect := Session.returns_statement h
  rw [Except.ite_ok_eq_ok] at heffect
  exact ⟨heffect.1, (congrArg Prod.snd heffect.2).symm⟩

/-- A statement that is not refused stores a row that meets the constraints. -/
theorem insert_returns {env : Environment} {table : String} {Admits : Database → Prop} [DecidablePred Admits]
    {store : Database → Database} {db : Database} {n : Nat} (hrefused : env.refused n = none) (hadmits : Admits db) :
    (insert env table Admits store).Returns ⟨db, n⟩ () ⟨store db, n + 1⟩ := by
  unfold Session.Returns Persistence.insert Session.statement
  rw [hrefused]
  simp only [if_pos hadmits]

end Statements

end TecoQuant.Persistence
