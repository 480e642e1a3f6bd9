import TecoQuant.BaseJsonParse
import TecoQuant.PersistenceSchema

/-! The calls of the repository. Each computes its values, and then reads and writes the tables in one
transaction, which ends with one audit event. -/

namespace TecoQuant.Persistence

open Domain Ingestion Strategy Transactional

/-! ### Values as JSON -/

instance : ToJson ScoreWeights := ⟨fun weights => .object (weights.asMapping.map fun field => (field.1, .float field.2))⟩

instance : ToJson StrategyConfig := ⟨fun config => .object [
  ("version", toJson config.version), ("risk_free_rate", toJson config.riskFreeRate),
  ("dividend_yield", toJson config.dividendYield),
  ("maximum_risk_per_trade", toJson config.maximumRiskPerTrade),
  ("intraday_delta_minimum", toJson config.intradayDeltaMinimum),
  ("intraday_delta_maximum", toJson config.intradayDeltaMaximum),
  ("positional_delta_minimum", toJson config.positionalDeltaMinimum),
  ("positional_delta_maximum", toJson config.positionalDeltaMaximum),
  ("minimum_volume", toJson config.minimumVolume),
  ("minimum_open_interest", toJson config.minimumOpenInterest),
  ("maximum_spread_ratio", toJson config.maximumSpreadRatio),
  ("minimum_liquidity_score", toJson config.minimumLiquidityScore),
  ("watchlist_score", toJson config.watchlistScore),
  ("minimum_tradable_score", toJson config.minimumTradableScore),
  ("strong_setup_score", toJson config.strongSetupScore), ("conflict_gap", toJson config.conflictGap),
  ("live_max_age_seconds", toJson config.liveMaxAgeSeconds),
  ("component_skew_seconds", toJson config.componentSkewSeconds),
  ("future_clock_skew_seconds", toJson config.futureClockSkewSeconds),
  ("instrument_master_max_age_seconds", toJson config.instrumentMasterMaxAgeSeconds),
  ("extreme_expiry_seconds", toJson config.extremeExpirySeconds),
  ("premium_stop_ratio", toJson config.premiumStopRatio),
  ("atr_stop_multiple", toJson config.atrStopMultiple),
  ("target_r_multiples", toJson [config.targetRMultiples.1, config.targetRMultiples.2.1, config.targetRMultiples.2.2]),
  ("event_risk_blocks_new_trades", toJson config.eventRiskBlocksNewTrades),
  ("weights", toJson config.weights)]⟩

instance : ToJson ValidationIssue := ⟨fun issue => .object [
  ("code", toJson issue.code), ("severity", .string issue.severity.value), ("path", toJson issue.path),
  ("message", toJson issue.message), ("observed", toJson issue.observed), ("expected", toJson issue.expected)]⟩

/-- `canonical_json(value)`. -/
def canonicalJson {α : Type} [ToJson α] (value : α) : String := Serialization.canonicalJson (toJson value)

/-- `_report_payload`. -/
def reportPayload (report : ValidationReport) : Json := .object [
  ("snapshot_id", toJson report.snapshotId), ("snapshot_hash", toJson report.snapshotHash),
  ("issues", toJson report.issues)]

/-- `_indexed_metadata`. -/
def indexedMetadata (metadata : List (String × Json)) : Json :=
  .object (metadata.filter fun field => field.1 != "raw_component_payloads")

/-- A decision input that supersedes an imported one; a null value leaves it inactive. -/
structure ManualOverride where
  fieldName : String
  importedValue : Json
  overrideValue : Json
  overriddenBy : Option String
  overriddenAt : Option Datetime
  reason : Option String
  expiresAt : Option Datetime

/-- `is_active`. -/
def ManualOverride.isActive (manual : ManualOverride) : Bool :=
  match manual.overrideValue with
  | .null => false
  | _ => true

/-- `MANUAL_OVERRIDE_FIELDS`. -/
def MANUAL_OVERRIDE_FIELDS : List String := [
  "context.operating_mode", "context.trading_style", "context.account_capital", "context.risk_per_trade",
  "context.maximum_premium_allocation", "context.event_risk_active", "context.price_action_confirmed",
  "context.signal_candle_high", "context.signal_candle_low", "context.expected_holding_hours",
  "technicals.reference_volatility"]

/-- `{value!r}` of a text. -/
def quoted (value : String) : String := String.ofList (Material.reprText value)

section Calls

variable (env : Environment)

/-- `if condition: raise fault`. -/
def rejectIf (condition : Prop) [Decidable condition] (fault : Fault) : Write Unit :=
  if condition then Session.raise fault else pure ()

/-! ### Audit events -/

/-- The hash of an event. -/
def eventHash (occurredAt : Timestamp) (eventType aggregateType aggregateId : String) (payload : Json)
    (previousHash : Option String) : String :=
  contentHash (Json.object [
    ("occurred_at_utc", .string occurredAt.utc), ("occurred_at_us", .int occurredAt.us),
    ("event_type", .string eventType), ("aggregate_type", .string aggregateType),
    ("aggregate_id", .string aggregateId), ("payload", payload), ("previous_hash", toJson previousHash)])

/-- `AUTOINCREMENT`. -/
def Database.nextEventId (db : Database) : Nat := (db.auditEvents.map AuditEventRow.eventId).foldl max 0 + 1

/-- `SELECT ... ORDER BY event_id DESC LIMIT 1`. -/
def Database.latestEvent (db : Database) : Option AuditEventRow := db.auditEvents.argmax AuditEventRow.eventId

/-- `INSERT INTO audit_events`. -/
def insertAuditEvent (row : Nat → AuditEventRow) : Write Unit :=
  insert env "audit_events" (fun db => db.AdmitsAuditEvent (row db.nextEventId)) fun db =>
    { db with auditEvents := db.auditEvents ++ [row db.nextEventId] }

/-- `_append_audit`. -/
def appendAudit (eventType aggregateType aggregateId : String) (payload : Json) (occurredAt : Datetime) :
    Write Unit := do
  let occurred ← Session.ofExcept (timestamp occurredAt "audit.occurred_at")
  let previous ← select env Database.latestEvent
  let previousHash := previous.map AuditEventRow.eventHash
  insertAuditEvent env fun eventId => {
    eventId, occurredAt := occurred, eventType, aggregateType, aggregateId
    payloadJson := canonicalJson payload
    previousHash
    eventHash := eventHash occurred eventType aggregateType aggregateId payload previousHash }

/-! ### Strategy configurations -/

/-- The first publication of a version. -/
def insertStrategyConfig (config : StrategyConfig) (occurredAt : Datetime) (published : Timestamp) : Write Unit := do
  let row : StrategyConfigRow := ⟨config.version, contentHash config, canonicalJson config, published⟩
  insert env "strategy_configs" (·.AdmitsStrategyConfig row) fun db =>
    { db with strategyConfigs := db.strategyConfigs ++ [row] }
  appendAudit env "STRATEGY_CONFIG_PUBLISHED" "strategy_config" config.version
    (.object [("config_hash", .string (contentHash config))]) occurredAt

/-- The transaction of `publish_strategy_config`. -/
def publishTransaction (config : StrategyConfig) (occurredAt : Datetime) (published : Timestamp) : Write String := do
  let existing ← select env fun db => db.strategyConfigs.find? fun row => row.version == config.version
  match existing with
  | some row => do
      rejectIf (row.configHash ≠ contentHash config ∨ row.configJson ≠ canonicalJson config)
        (.persistence ("strategy version " ++ quoted config.version ++ " is immutable and already differs"))
      return contentHash config
  | none => do
      insertStrategyConfig env config occurredAt published
      return contentHash config

/-- `publish_strategy_config`. -/
def publishStrategyConfig (config : StrategyConfig) (publishedAt : Option Datetime) :
    Session Database Fault String := do
  let occurredAt := publishedAt.getD (.utc env.now)
  let published ← Session.ofExcept (timestamp occurredAt "published_at")
  Session.transaction env.refused (publishTransaction env config occurredAt published)

/-! ### The instrument master -/

/-- `_validate_master`. -/
def validateMaster (provenance : InstrumentMasterProvenance) (records : List InstrumentMasterRecord) :
    Except Fault Unit := do
  if provenance.batchId = "" ∨ provenance.provider = "" ∨ provenance.contentHash = "" then
    throw (.instrumentMaster "master provenance identity fields cannot be empty")
  let _ ← timestamp provenance.fetchedAt "master.fetched_at"
  if provenance.rowCount ≠ records.length then
    throw (.instrumentMaster "master provenance row_count must equal the complete supplied record set")
  if ¬(records.map fun record => record.instrument.canonicalKey).Nodup then
    throw (.instrumentMaster "master batch contains duplicate instrument identities")
  records.forM fun record => do
    if record.instrument.securityId = "" ∨ record.instrument.segment = "" then
      throw (.instrumentMaster "master record identity fields cannot be empty")
    let _ ← optionalTimestamp record.expiry "instrument_master_record.expiry"

/-- The columns of a master record. -/
def masterRecordRow (batchId : String) (record : InstrumentMasterRecord) : Except Fault MasterRecordRow := do
  let expiry ← optionalTimestamp record.expiry "instrument_master_record.expiry"
  let strike ← decimal record.strike
  let tickSize ← decimal record.tickSize
  let lotSize ← optionalInteger record.lotSize
  return {
    batchId
    exchange := record.instrument.exchange
    segment := record.instrument.segment
    securityId := record.instrument.securityId
    canonicalKey := record.instrument.canonicalKey
    symbol := record.instrument.symbol
    displayName := record.displayName
    instrumentType := record.instrumentType
    underlyingSecurityId := record.underlyingSecurityId
    expiry, strike
    optionType := record.optionType
    lotSize, tickSize
    recordJson := canonicalJson record }

def insertMasterRecord (batchId : String) (record : InstrumentMasterRecord) : Write Unit := do
  let row ← Session.ofExcept (masterRecordRow batchId record)
  insert env "instrument_master_records" (·.AdmitsMasterRecord row) fun db =>
    { db with masterRecords := db.masterRecords ++ [row] }

/-- The first recording of a batch. -/
def insertMasterBatch (provenance : InstrumentMasterProvenance) (records : List InstrumentMasterRecord)
    (fetchedAt : Timestamp) : Write Unit := do
  let rowCount ← Session.ofExcept (integer provenance.rowCount)
  let row : MasterBatchRow := ⟨provenance.batchId, provenance.provider, provenance.sourceUrl,
    provenance.contentHash, provenance.schemaVersion, fetchedAt, rowCount, canonicalJson provenance⟩
  insert env "instrument_master_batches" (·.AdmitsMasterBatch row) fun db =>
    { db with masterBatches := db.masterBatches ++ [row] }
  records.forM (insertMasterRecord env provenance.batchId)
  appendAudit env "INSTRUMENT_MASTER_RECORDED" "instrument_master" provenance.batchId
    (.object [("content_hash", .string provenance.contentHash), ("row_count", .int provenance.rowCount)])
    provenance.fetchedAt

/-- The persisted records of a batch are exactly the given ones. -/
def SameRecords (stored : List MasterRecordRow) (records : List InstrumentMasterRecord) : Prop :=
  (∀ row ∈ stored, ∃ record ∈ records,
    record.instrument.canonicalKey = row.canonicalKey ∧ canonicalJson record = row.recordJson) ∧
  ∀ record ∈ records, ∃ row ∈ stored,
    row.canonicalKey = record.instrument.canonicalKey ∧ row.recordJson = canonicalJson record

instance (stored : List MasterRecordRow) (records : List InstrumentMasterRecord) :
    Decidable (SameRecords stored records) :=
  inferInstanceAs (Decidable ((∀ row ∈ stored, ∃ record ∈ records, _) ∧ ∀ record ∈ records, ∃ row ∈ stored, _))

/-- The transaction of `record_instrument_master`. -/
def recordTransaction (provenance : InstrumentMasterProvenance) (records : List InstrumentMasterRecord)
    (fetchedAt : Timestamp) : Write String := do
  let existing ← select env fun db => db.masterBatches.find? fun row => row.batchId == provenance.batchId
  match existing with
  | some batch => do
      let persisted ← select env fun db => db.masterRecords.filter fun row => row.batchId == provenance.batchId
      rejectIf (batch.provenanceJson ≠ canonicalJson provenance ∨ ¬SameRecords persisted records)
        (.instrumentMaster ("instrument-master batch " ++ quoted provenance.batchId ++ " is immutable"))
      return provenance.batchId
  | none => do
      insertMasterBatch env provenance records fetchedAt
      return provenance.batchId

/-- `record_instrument_master`. -/
def recordInstrumentMaster (provenance : InstrumentMasterProvenance) (records : List InstrumentMasterRecord) :
    Session Database Fault String := do
  let _ ← Session.ofExcept (validateMaster provenance records)
  let fetchedAt ← Session.ofExcept (timestamp provenance.fetchedAt "master.fetched_at")
  Session.transaction env.refused (recordTransaction env provenance records fetchedAt)

/-! ### Contract revisions -/

def InstrumentRef.of (instrument : InstrumentId) : InstrumentRef :=
  ⟨instrument.exchange, instrument.segment, instrument.securityId⟩

/-- The master record of an instrument. -/
def Database.masterRecord (db : Database) (batchId : String) (instrument : InstrumentId) : Option MasterRecordRow :=
  db.masterRecords.find? fun row => decide (row.batchId = batchId ∧
    (⟨row.exchange, row.segment, row.securityId⟩ : InstrumentRef) = .of instrument)

/-- `_require_master_instrument`. -/
def requireMasterInstrument (batchId : String) (instrument : InstrumentId) : Write Unit := do
  let row ← select env fun db => db.masterRecord batchId instrument
  rejectIf (¬∃ stored ∈ row, stored.symbol = instrument.symbol ∧ stored.canonicalKey = instrument.canonicalKey)
    (.contractIntegrity ("instrument " ++ quoted instrument.canonicalKey ++ " is not an exact master record"))

/-- `_require_exact_master_record`. -/
def requireExactMasterRecord (batchId : String) (record : InstrumentMasterRecord) : Write Unit := do
  let row ← select env fun db => db.masterRecord batchId record.instrument
  rejectIf (¬∃ stored ∈ row, stored.recordJson = canonicalJson record)
    (.contractIntegrity ("contract record " ++ quoted record.instrument.canonicalKey ++ " differs from master data"))

/-- The key of a mapping has been seen; a missing strike or side equals only a missing one. -/
def SeenKey (seen : List InstrumentMasterRecord) (record : InstrumentMasterRecord) : Prop :=
  ∃ other ∈ seen, other.optionType = record.optionType ∧
    ∃ left ∈ other.strike, ∃ right ∈ record.strike, Decimal.Equal left right

instance (seen : List InstrumentMasterRecord) (record : InstrumentMasterRecord) : Decidable (SeenKey seen record) :=
  inferInstanceAs (Decidable (∃ other ∈ seen, _ ∧ ∃ left ∈ other.strike, ∃ right ∈ record.strike, _))

/-- The checks of one option mapping, after those of the records `seen`. -/
def checkMapping (contract : ContractSpec) (seen : List InstrumentMasterRecord)
    (record : InstrumentMasterRecord) : Write Unit := do
  rejectIf (record.strike = none ∨ record.optionType = none ∨ record.expiry = none)
    (.contractIntegrity "every option mapping needs strike, side, and expiry")
  rejectIf (SeenKey seen record ∨ ∃ other ∈ seen, other.instrument.securityId = record.instrument.securityId)
    (.contractIntegrity "contract option mappings must be one-to-one")
  rejectIf (¬∃ expiry ∈ record.expiry, Datetime.SameMoment expiry contract.optionExpiry)
    (.contractIntegrity "option mapping expiry differs from contract expiry")
  rejectIf (record.lotSize ≠ some contract.lotSize ∨ ¬∃ tick ∈ record.tickSize, Decimal.Equal tick contract.tickSize)
    (.contractIntegrity "option mapping lot/tick differs from contract revision")
  requireExactMasterRecord env contract.master.batchId record

def checkMappings (contract : ContractSpec) (seen : List InstrumentMasterRecord) :
    List InstrumentMasterRecord → Write Unit
  | [] => pure ()
  | record :: rest => do
      checkMapping env contract seen record
      checkMappings contract (record :: seen) rest

/-- The columns of an option mapping. -/
def mappingRow (contract : ContractSpec) (record : InstrumentMasterRecord) :
    Except Fault ContractOptionMappingRow :=
  match record.expiry, record.optionType with
  | some expiry, some optionType => do
      let expiry ← timestamp expiry "contract.option.expiry"
      let strike ← decimal record.strike
      let tickSize ← decimal record.tickSize
      let lotSize ← optionalInteger record.lotSize
      return ⟨contract.contractKey, contract.master.batchId, .of record.instrument, strike, optionType,
        expiry.utc, lotSize, tickSize⟩
  | _, _ => .error (.contractIntegrity "contract option mappings require expiry and option type")

def insertMapping (contract : ContractSpec) (record : InstrumentMasterRecord) : Write Unit := do
  let row ← Session.ofExcept (mappingRow contract record)
  insert env "contract_option_mappings" (·.AdmitsContractOptionMapping row) fun db =>
    { db with contractOptionMappings := db.contractOptionMappings ++ [row] }

/-- The columns of a contract revision. -/
def revisionRow (contract : ContractSpec) (createdAt : Datetime) : Except Fault ContractRevisionRow := do
  let optionExpiry ← timestamp contract.optionExpiry "contract.option_expiry"
  let createdAt ← timestamp createdAt "contract.created_at"
  let lotSize ← integer contract.lotSize
  return {
    contractKey := contract.contractKey
    contractHash := contentHash contract
    contractJson := canonicalJson contract
    masterBatchId := contract.master.batchId
    underlying := .of contract.underlying
    marketKind := contract.marketKind
    pricingModel := contract.pricingModel
    optionExpiry, lotSize
    strikeInterval := contract.strikeInterval.text
    tickSize := contract.tickSize.text
    futures := contract.futures.map fun future => .of future.instrument
    createdAt }

/-- The checks of a contract against its master batch. -/
def checkContract (contract : ContractSpec) : Write Unit := do
  let batch ← select env fun db => db.masterBatches.find? fun row => row.batchId == contract.master.batchId
  rejectIf (batch = none)
    (.instrumentMaster ("instrument-master batch " ++ quoted contract.master.batchId ++ " must be recorded first"))
  rejectIf (¬∃ stored ∈ batch, stored.provenanceJson = canonicalJson contract.master)
    (.instrumentMaster "contract provenance differs from the persisted master batch")
  let actualCount ← select env fun db =>
    (db.masterRecords.filter fun row => row.batchId == contract.master.batchId).length
  rejectIf (¬∃ stored ∈ batch, stored.rowCount = actualCount)
    (.instrumentMaster "instrument-master batch is incomplete")
  requireMasterInstrument env contract.master.batchId contract.underlying
  contract.futures.forM (requireExactMasterRecord env contract.master.batchId)
  rejectIf (contract.optionContracts = []) (.contractIntegrity "contract revision contains no option mappings")
  checkMappings env contract [] contract.optionContracts

/-- The first use of a contract. -/
def insertContract (contract : ContractSpec) (createdAt : Datetime) : Write Unit := do
  checkContract env contract
  let row ← Session.ofExcept (revisionRow contract createdAt)
  insert env "contract_revisions" (·.AdmitsContractRevision row) fun db =>
    { db with contractRevisions := db.contractRevisions ++ [row] }
  contract.optionContracts.forM (insertMapping env contract)

/-- `_ensure_contract`. -/
def ensureContract (contract : ContractSpec) (createdAt : Datetime) : Write Unit := do
  let existing ← select env fun db => db.contractRevisions.find? fun row => row.contractKey == contract.contractKey
  match existing with
  | some row =>
      rejectIf (row.contractHash ≠ contentHash contract ∨ row.contractJson ≠ canonicalJson contract)
        (.contractIntegrity ("contract revision " ++ quoted contract.contractKey ++ " is immutable"))
  | none => insertContract env contract createdAt

end Calls
end TecoQuant.Persistence
