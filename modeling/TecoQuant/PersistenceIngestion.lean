import Mathlib.Data.Prod.Lex
import TecoQuant.PersistenceRepository

/-! Saving a snapshot with its report, recording a manual override, and reading accepted option
snapshots back. -/

namespace TecoQuant.Persistence

open Domain Ingestion Strategy Transactional

/-- `_MAX_CHANGE_OI_INTERVAL_SECONDS`. -/
def MAX_CHANGE_OI_INTERVAL_SECONDS : Binary64 := 30

/-- `if condition: raise fault`, outside a transaction. -/
def raiseIf (condition : Prop) [Decidable condition] (fault : Fault) : Except Fault Unit :=
  if condition then .error fault else .ok ()

/-- `_verify_report_binding`. -/
def verifyReportBinding (snapshot : AtomicSnapshot) (snapshotHash : String) (report : ValidationReport) :
    Except Fault Unit :=
  match report.snapshotId, report.snapshotHash with
  | some reportId, some reportHash =>
      if reportId ≠ snapshot.snapshotId then
        .error (.validationBinding "ValidationReport snapshot_id does not match snapshot")
      else if reportHash ≠ snapshotHash then
        .error (.validationBinding "ValidationReport snapshot_hash does not match content")
      else .ok ()
  | _, _ => .error (.validationBinding "ValidationReport must carry snapshot_id and snapshot_hash")

/-- The timestamps of an envelope, and whether they are its own. -/
structure Stamps where
  source : Timestamp
  sourceValid : Bool
  received : Timestamp
  receivedValid : Bool
  deriving DecidableEq, Repr

/-- `_safe_audit_instant`. -/
def safeAuditInstant (value fallback : Datetime) : Datetime :=
  match timestamp value "audit.receipt_candidate" with
  | .ok _ => value
  | .error _ => fallback

/-- `_audit_timestamp`. -/
def auditTimestamp (value fallback : Datetime) : Except Fault (Timestamp × Bool) :=
  match timestamp value "audit.source_timestamp" with
  | .ok stamp => .ok (stamp, true)
  | .error _ => (timestamp fallback "audit.fallback_timestamp").map fun stamp => (stamp, false)

/-- The timestamps of an accepted snapshot must have a reading in UTC. -/
def acceptedStamps (snapshot : AtomicSnapshot) : Except Fault Stamps := do
  raiseIf (snapshot.sequence < 0) (.persistence "accepted snapshot sequence cannot be negative")
  let source ← timestamp snapshot.sourceTimestamp "source_timestamp"
  let received ← timestamp snapshot.receivedAt "received_at"
  return ⟨source, true, received, true⟩

/-- Those of a rejected one are replaced by a safe receipt instant where they are not. -/
def rejectedStamps (snapshot : AtomicSnapshot) (recordedAt : Datetime) : Except Fault Stamps := do
  let safeReceipt := safeAuditInstant snapshot.receivedAt recordedAt
  let received ← auditTimestamp snapshot.receivedAt safeReceipt
  let source ← auditTimestamp snapshot.sourceTimestamp safeReceipt
  return ⟨source.1, source.2, received.1, received.2⟩

def stamps (snapshot : AtomicSnapshot) (status : SnapshotStatus) (recordedAt : Datetime) : Except Fault Stamps :=
  match status with
  | .accepted => acceptedStamps snapshot
  | .rejected => rejectedStamps snapshot recordedAt

section Calls

variable (env : Environment)

/-! ### Gates of an accepted snapshot -/

/-- `_ensure_strategy_exists`. -/
def ensureStrategyExists (strategyVersion : String) : Write Unit := do
  let known ← select env fun db => db.strategyConfigs.any fun row => row.version == strategyVersion
  rejectIf (known = false)
    (.persistence ("strategy config " ++ quoted strategyVersion ++ " must be published before ingestion"))

/-- The head of a stream. -/
def Database.head (db : Database) (contractKey : String) (source : DataSource) : Option SourceOrderHeadRow :=
  db.sourceOrderHeads.find? fun row => decide (row.contractKey = contractKey ∧ row.source = source)

/-- `_enforce_order`. -/
def enforceOrder (contractKey : String) (source : DataSource) (sequence sourceTimestampUs : Int) : Write Unit := do
  let head ← select env fun db => db.head contractKey source
  match head with
  | none => pure ()
  | some head => do
      rejectIf (sequence ≤ head.lastSequence)
        (.snapshotOrdering ("sequence must advance beyond " ++ toString head.lastSequence ++ ", got " ++
          toString sequence))
      rejectIf (sourceTimestampUs ≤ head.lastSourceTimestamp.us)
        (.snapshotOrdering "source timestamp must advance monotonically")

/-- The prior leg a change in open interest refers to. -/
structure PriorLeg where
  accepted : AcceptedSnapshotRow
  leg : OptionSnapshotRow
  deriving DecidableEq, Repr

def Database.priorLeg (db : Database) (referenceId securityId : String) (strike : Option Decimal)
    (optionType : OptionType) : Option PriorLeg := do
  let accepted ← db.acceptedSnapshots.find? fun row => row.snapshotId == referenceId
  let leg ← db.optionSnapshots.find? fun row => decide (row.snapshotId = referenceId ∧
    row.instrument.securityId = securityId ∧ row.strike.isSome ∧ row.strike = strike ∧ row.optionType = optionType)
  return ⟨accepted, leg⟩

/-- The quotient of microseconds by a million, as a float. -/
def intervalSeconds (microseconds : Int) : Binary64 := Binary64.round false ((microseconds : ℚ) / 1000000)

/-- The checks of a change against its prior leg. -/
def checkPriorLeg (snapshot : AtomicSnapshot) (currentSourceUs : Int) (quote : OptionQuote) (change : Int)
    (declared : Binary64) (expiryUs observedUs : Int) (prior : PriorLeg) : Except Fault Unit := do
  raiseIf (prior.accepted.source ≠ .dhanRest ∨ prior.accepted.contractKey ≠ snapshot.contract.contractKey ∨
      snapshot.sequence ≤ prior.accepted.sequence ∨ prior.leg.expiry.us ≠ expiryUs)
    (.changeOiProvenance "change-OI reference differs in source, contract, sequence, or expiry")
  raiseIf (observedUs ≠ currentSourceUs)
    (.changeOiProvenance "current option observation time must equal the Dhan source time")
  let sourceInterval := intervalSeconds (currentSourceUs - prior.accepted.sourceTimestamp.us)
  let legInterval := intervalSeconds (observedUs - prior.leg.observedAt.us)
  raiseIf (prior.leg.observedAt.us ≠ prior.accepted.sourceTimestamp.us ∨ sourceInterval ≤ 0 ∨
      ¬Binary64.Equal legInterval sourceInterval ∨ (1e-9 : Binary64) < (declared.sub legInterval).abs)
    (.changeOiProvenance "declared change-OI interval differs from exact source/leg timestamps")
  raiseIf (¬∃ current ∈ quote.openInterest, ∃ previous ∈ prior.leg.openInterest, change = current - previous)
    (.changeOiProvenance "change OI does not equal current minus exact prior open interest")

/-- A change in open interest comes within the Dhan stream, with a bounded interval and a prior snapshot. -/
def declaredReference (snapshot : AtomicSnapshot) (quote : OptionQuote) : Except Fault (String × Binary64) :=
  if snapshot.source ≠ .dhanRest then
    .error (.changeOiProvenance "change OI may only be accepted within the Dhan REST stream")
  else
    match quote.changeOiSourceSnapshotId, quote.changeOiIntervalSeconds with
    | some reference, some declared =>
        if reference ≠ "" ∧ declared.IsFinite ∧ 0 < declared ∧ declared ≤ MAX_CHANGE_OI_INTERVAL_SECONDS then
          .ok (reference, declared)
        else .error (.changeOiProvenance "change OI requires a bounded interval and prior snapshot ID")
    | _, _ => .error (.changeOiProvenance "change OI requires a bounded interval and prior snapshot ID")

/-- The check of a quote with a change in open interest. -/
def verifyChange (snapshot : AtomicSnapshot) (currentSourceUs : Int) (quote : OptionQuote) (change : Int) :
    Write Unit := do
  let (reference, declared) ← Session.ofExcept (declaredReference snapshot quote)
  let expiry ← Session.ofExcept (timestamp quote.expiry "option.expiry")
  let observed ← Session.ofExcept (timestamp quote.observedAt "option.observed_at")
  let strike ← Session.ofExcept (decimal (some quote.strike))
  let prior ← select env fun db => db.priorLeg reference quote.securityId strike quote.optionType
  match prior with
  | none =>
      Session.raise (.changeOiProvenance "referenced accepted snapshot lacks the exact prior security/strike/side")
  | some prior =>
      Session.ofExcept
        (checkPriorLeg snapshot currentSourceUs quote change declared expiry.us observed.us prior)

def verifyQuoteChange (snapshot : AtomicSnapshot) (currentSourceUs : Int) (quote : OptionQuote) : Write Unit :=
  match quote.changeOpenInterest with
  | none =>
      rejectIf (quote.changeOiSourceSnapshotId.isSome ∨ quote.changeOiIntervalSeconds.isSome)
        (.changeOiProvenance "change-OI provenance cannot exist without a derived value")
  | some change => verifyChange env snapshot currentSourceUs quote change

/-- `_verify_change_oi_provenance`. -/
def verifyChangeOiProvenance (snapshot : AtomicSnapshot) : Write Unit := do
  let current ← Session.ofExcept (timestamp snapshot.sourceTimestamp "source_timestamp")
  snapshot.optionChain.forM (verifyQuoteChange env snapshot current.us)

/-- What an accepted snapshot has to pass before it is stored. -/
def admitSnapshot (snapshot : AtomicSnapshot) (recordedAt : Datetime) (sourceUs : Int) : Write Unit := do
  ensureStrategyExists env snapshot.strategyVersion
  ensureContract env snapshot.contract recordedAt
  enforceOrder env snapshot.contract.contractKey snapshot.source snapshot.sequence sourceUs
  verifyChangeOiProvenance env snapshot

/-! ### Components -/

/-- `_insert_validation_issues`. -/
def insertValidationIssues (snapshotId : String) (issues : List ValidationIssue) : Write Unit :=
  issues.zipIdx.forM fun (issue, index) =>
    let row : ValidationIssueRow := ⟨snapshotId, index, issue.code, issue.severity, issue.path, issue.message,
      issue.observed.map canonicalJson, issue.expected.map canonicalJson, canonicalJson issue⟩
    insert env "validation_issues" (·.AdmitsValidationIssue row) fun db =>
      { db with validationIssues := db.validationIssues ++ [row] }

def insertAcceptedSnapshot (row : AcceptedSnapshotRow) : Write Unit :=
  insert env "accepted_snapshots" (·.AdmitsAcceptedSnapshot row) fun db =>
    { db with acceptedSnapshots := db.acceptedSnapshots ++ [row] }

/-- The columns of a market state. -/
def marketRow (snapshotId : String) (market : MarketState) : Except Fault MarketSnapshotRow := do
  let observedAt ← timestamp market.observedAt "market.observed_at"
  let spotPrice ← decimal market.spotPrice
  let futuresPrice ← decimal market.futuresPrice
  let previousClose ← decimal market.previousClose
  let dayOpen ← decimal market.dayOpen
  let dayHigh ← decimal market.dayHigh
  let dayLow ← decimal market.dayLow
  let vwap ← decimal market.vwap
  let futuresOpenInterest ← optionalInteger market.futuresOpenInterest
  return ⟨snapshotId, observedAt, spotPrice, futuresPrice, previousClose, dayOpen, dayHigh, dayLow, vwap,
    futuresOpenInterest⟩

def insertMarket (snapshotId : String) (market : MarketState) : Write Unit := do
  let row ← Session.ofExcept (marketRow snapshotId market)
  insert env "market_snapshots" (·.AdmitsMarketSnapshot env row) fun db =>
    { db with marketSnapshots := db.marketSnapshots ++ [row] }

/-- The columns of a technical state. -/
def technicalRow (snapshotId : String) (technicals : TechnicalState) : Except Fault TechnicalSnapshotRow := do
  let observedAt ← timestamp technicals.observedAt "technicals.observed_at"
  let ema9 ← decimal technicals.ema9
  let ema21 ← decimal technicals.ema21
  let wma44 ← decimal technicals.wma44
  let previousWma44 ← decimal technicals.previousWma44
  let atr14 ← decimal technicals.atr14
  return ⟨snapshotId, observedAt, ema9, ema21, wma44, previousWma44, real technicals.rsi14, atr14,
    real technicals.referenceVolatility, technicals.timeframe, technicals.completedCandle⟩

def insertTechnicals (snapshotId : String) (technicals : TechnicalState) : Write Unit := do
  let row ← Session.ofExcept (technicalRow snapshotId technicals)
  insert env "technical_snapshots" (·.AdmitsTechnicalSnapshot env row) fun db =>
    { db with technicalSnapshots := db.technicalSnapshots ++ [row] }

/-- The columns of a strategy context. -/
def contextRow (snapshotId : String) (context : StrategyContext) : StrategyContextRow where
  snapshotId := snapshotId
  operatingMode := context.operatingMode
  tradingStyle := context.tradingStyle
  accountCapital := context.accountCapital
  riskPerTrade := real context.riskPerTrade
  maximumPremiumAllocation := real context.maximumPremiumAllocation
  eventRiskActive := context.eventRiskActive
  priceActionConfirmed := context.priceActionConfirmed
  signalCandleHigh := context.signalCandleHigh
  signalCandleLow := context.signalCandleLow
  expectedHoldingHours := real context.expectedHoldingHours

def insertContext (snapshotId : String) (context : StrategyContext) : Write Unit :=
  insert env "strategy_context_snapshots" (·.AdmitsStrategyContext env (contextRow snapshotId context)) fun db =>
    { db with strategyContextSnapshots := db.strategyContextSnapshots ++ [contextRow snapshotId context] }

/-- The mapping of a quote; the last record of a security wins. -/
def mappedRecord (contract : ContractSpec) (quote : OptionQuote) : Except Fault InstrumentMasterRecord :=
  match contract.optionContracts.reverse.find? fun record => record.instrument.securityId == quote.securityId with
  | none =>
      .error (.contractIntegrity
        ("option security ID " ++ quoted quote.securityId ++ " is not in the contract revision"))
  | some mapped =>
      if (∃ strike ∈ mapped.strike, Decimal.Equal strike quote.strike) ∧ mapped.optionType = some quote.optionType then
        .ok mapped
      else
        .error (.contractIntegrity ("option security ID " ++ quoted quote.securityId ++ " does not map to " ++
          quote.strike.text ++ "/" ++ quote.optionType.value))

/-- The columns of an option quote. -/
def optionRow (snapshot : AtomicSnapshot) (quote : OptionQuote) : Except Fault OptionSnapshotRow := do
  let mapped ← mappedRecord snapshot.contract quote
  let expiry ← timestamp quote.expiry "option.expiry"
  let observedAt ← timestamp quote.observedAt "option.observed_at"
  let strike ← decimal (some quote.strike)
  let bid ← decimal quote.bid
  let ask ← decimal quote.ask
  let ltp ← decimal quote.ltp
  let previousClose ← decimal quote.previousClose
  let theoreticalPrice ← decimal quote.greeks.theoreticalPrice
  let bidQuantity ← optionalInteger quote.bidQuantity
  let askQuantity ← optionalInteger quote.askQuantity
  let volume ← optionalInteger quote.volume
  let openInterest ← optionalInteger quote.openInterest
  let previousOpenInterest ← optionalInteger quote.previousOpenInterest
  let changeOpenInterest ← optionalInteger quote.changeOpenInterest
  return {
    snapshotId := snapshot.snapshotId
    contractKey := snapshot.contract.contractKey
    strike
    optionType := quote.optionType
    instrument := ⟨mapped.instrument.exchange, mapped.instrument.segment, quote.securityId⟩
    expiry, observedAt, bid, ask, ltp, bidQuantity, askQuantity, volume, openInterest, previousOpenInterest
    changeOpenInterest
    changeOiSourceSnapshotId := quote.changeOiSourceSnapshotId
    changeOiIntervalSeconds := real quote.changeOiIntervalSeconds
    impliedVolatility := real quote.impliedVolatility
    previousClose
    delta := real quote.greeks.delta
    gamma := real quote.greeks.gamma
    theta := real quote.greeks.theta
    vega := real quote.greeks.vega
    theoreticalPrice }

def insertOption (snapshot : AtomicSnapshot) (quote : OptionQuote) : Write Unit := do
  let row ← Session.ofExcept (optionRow snapshot quote)
  insert env "option_snapshots" (·.AdmitsOptionSnapshot env row) fun db =>
    { db with optionSnapshots := db.optionSnapshots ++ [row] }

/-- `_insert_accepted_components`. -/
def insertAcceptedComponents (snapshot : AtomicSnapshot) (source : Timestamp) : Write Unit := do
  let sequence ← Session.ofExcept (integer snapshot.sequence)
  insertAcceptedSnapshot env
    ⟨snapshot.snapshotId, snapshot.contract.contractKey, snapshot.source, sequence, source⟩
  insertMarket env snapshot.snapshotId snapshot.market
  insertTechnicals env snapshot.snapshotId snapshot.technicals
  insertContext env snapshot.snapshotId snapshot.context
  snapshot.optionChain.forM (insertOption env snapshot)

/-- `ON CONFLICT(contract_key, source) DO UPDATE`. -/
def upsertHead (heads : List SourceOrderHeadRow) (row : SourceOrderHeadRow) : List SourceOrderHeadRow :=
  if heads.any fun head => decide (head.contractKey = row.contractKey ∧ head.source = row.source) then
    heads.map fun head => if head.contractKey = row.contractKey ∧ head.source = row.source then row else head
  else heads ++ [row]

def storeHead (snapshot : AtomicSnapshot) (source : Timestamp) : Write Unit :=
  let row : SourceOrderHeadRow :=
    ⟨snapshot.contract.contractKey, snapshot.source, snapshot.sequence, source, snapshot.snapshotId⟩
  insert env "source_order_heads" (·.AdmitsSourceOrderHead row) fun db =>
    { db with sourceOrderHeads := upsertHead db.sourceOrderHeads row }

/-! ### Saving -/

/-- The columns of an attempt. -/
def attemptRow (snapshot : AtomicSnapshot) (report : ValidationReport) (status : SnapshotStatus)
    (stamps : Stamps) (recordedAt : Timestamp) : Except Fault IngestionAttemptRow := do
  let sequence ← integer snapshot.sequence
  return {
    snapshotId := snapshot.snapshotId
    snapshotHash := contentHash snapshot
    contractKey := snapshot.contract.contractKey
    source := snapshot.source
    sequence
    sourceTimestamp := stamps.source
    sourceTimestampValid := stamps.sourceValid
    receivedAt := stamps.received
    receivedAtValid := stamps.receivedValid
    strategyVersion := snapshot.strategyVersion
    metadataJson := canonicalJson (indexedMetadata snapshot.metadata)
    snapshotJson := canonicalJson snapshot
    status
    reportHash := contentHash (reportPayload report)
    reportJson := canonicalJson (reportPayload report)
    recordedAt }

def insertAttempt (row : IngestionAttemptRow) : Write Unit :=
  insert env "ingestion_attempts" (·.AdmitsIngestionAttempt row) fun db =>
    { db with ingestionAttempts := db.ingestionAttempts ++ [row] }

/-- The attempt and its issues. -/
def storeAttempt (snapshot : AtomicSnapshot) (report : ValidationReport) (status : SnapshotStatus)
    (stamps : Stamps) (recordedAt : Timestamp) : Write Unit := do
  let row ← Session.ofExcept (attemptRow snapshot report status stamps recordedAt)
  insertAttempt env row
  insertValidationIssues env snapshot.snapshotId report.issues

/-- `SNAPSHOT_INGESTED`. -/
def auditIngestion (snapshot : AtomicSnapshot) (status : SnapshotStatus) : Write Unit :=
  appendAudit env "SNAPSHOT_INGESTED" "snapshot" snapshot.snapshotId
    (.object [("contract_key", .string snapshot.contract.contractKey),
      ("snapshot_hash", .string (contentHash snapshot)), ("status", .string status.value)]) (.utc env.now)

/-- The transaction of `save_ingestion`. -/
def saveTransaction (snapshot : AtomicSnapshot) (report : ValidationReport) (status : SnapshotStatus)
    (stamps : Stamps) (recordedAt : Timestamp) : Write SnapshotStatus :=
  match status with
  | .accepted => do
      admitSnapshot env snapshot (.utc env.now) stamps.source.us
      storeAttempt env snapshot report status stamps recordedAt
      insertAcceptedComponents env snapshot stamps.source
      storeHead env snapshot stamps.source
      auditIngestion env snapshot status
      return status
  | .rejected => do
      storeAttempt env snapshot report status stamps recordedAt
      auditIngestion env snapshot status
      return status

/-- `save_ingestion`. -/
def saveIngestion (snapshot : AtomicSnapshot) (report : ValidationReport) :
    Session Database Fault SnapshotStatus := do
  let _ ← Session.ofExcept (verifyReportBinding snapshot (contentHash snapshot) report)
  let status : SnapshotStatus := if report.Accepted then .accepted else .rejected
  let recordedAt ← Session.ofExcept (timestamp (.utc env.now) "recorded_at")
  let stamps ← Session.ofExcept (stamps snapshot status (.utc env.now))
  Session.transaction env.refused (saveTransaction env snapshot report status stamps recordedAt)

/-! ### Manual overrides -/

/-- The checks of an expiry. -/
def validateExpiry (manual : ManualOverride) (overriddenAt : Datetime) : Except Fault Unit :=
  match manual.expiresAt with
  | none => .ok ()
  | some expiresAt => do
      let _ ← timestamp expiresAt "override.expires_at"
      if manual.isActive = false then .error (.persistence "inactive manual override cannot expire")
      else if expiresAt.instant ≤ overriddenAt.instant then
        .error (.persistence "manual-override expiry must follow its override timestamp")
      else .ok ()

/-- `_validate_manual_override`; the actor, the time and the reason it has checked. -/
def validateManualOverride (manual : ManualOverride) : Except Fault (String × Datetime × String) := do
  raiseIf (manual.fieldName ∉ MANUAL_OVERRIDE_FIELDS) (.persistence "unsupported manual-override field")
  let actor := manual.overriddenBy.getD ""
  raiseIf (PyText.Blank actor) (.persistence "manual override requires a non-empty actor")
  let reason := manual.reason.getD ""
  raiseIf (PyText.Blank reason) (.persistence "manual override requires a non-empty reason")
  match manual.overriddenAt with
  | none => .error (.persistence "manual override requires an override timestamp")
  | some overriddenAt => do
      let _ ← timestamp overriddenAt "override.overridden_at"
      let _ ← validateExpiry manual overriddenAt
      return (actor, overriddenAt, reason)

/-- `_json_path`. -/
def jsonPath (document : Json) (path : List String) : Option Json :=
  path.foldlM (fun current segment => current.get? segment) document

/-- The imported value of a field in the accepted base snapshot. -/
def importedValue (base : Option IngestionAttemptRow) (fieldName : String) : Except Fault Json :=
  match base with
  | none => .error (.persistence "manual override requires an accepted base snapshot")
  | some attempt =>
      match (Json.loads attempt.snapshotJson).bind fun document => jsonPath document (fieldName.splitOn ".") with
      | none => .error (.persistence "manual-override field does not resolve in the accepted base snapshot")
      | some value => .ok value

/-- The attempt of an accepted snapshot. -/
def Database.acceptedAttempt (db : Database) (snapshotId : String) : Option IngestionAttemptRow :=
  if db.Accepts snapshotId then db.ingestionAttempts.find? fun row => row.snapshotId == snapshotId else none

/-- The transaction of `add_manual_override`. -/
def overrideTransaction (baseSnapshotId : String) (manual : ManualOverride) (actor reason : String)
    (overriddenAt : Timestamp) (expiresAt : Option Timestamp) (createdAt : Timestamp) : Write String := do
  let base ← select env fun db => db.acceptedAttempt baseSnapshotId
  let imported ← Session.ofExcept (importedValue base manual.fieldName)
  rejectIf (canonicalJson manual.importedValue ≠ canonicalJson imported)
    (.persistence "manual override imported_value differs from the immutable base snapshot")
  let row : ManualOverrideRow := ⟨env.uuid, baseSnapshotId, manual.fieldName, canonicalJson manual.importedValue,
    if manual.isActive then some (canonicalJson manual.overrideValue) else none, actor, overriddenAt, reason,
    expiresAt, createdAt⟩
  insert env "manual_overrides" (·.AdmitsManualOverride row) fun db =>
    { db with manualOverrides := db.manualOverrides ++ [row] }
  appendAudit env "MANUAL_OVERRIDE_RECORDED" "snapshot" baseSnapshotId
    (.object [("override_id", .string env.uuid), ("field_name", .string manual.fieldName),
      ("active", .bool manual.isActive)]) (.utc env.now)
  return env.uuid

/-- `add_manual_override`. -/
def addManualOverride (baseSnapshotId : String) (manual : ManualOverride) : Session Database Fault String := do
  let (actor, overriddenAt, reason) ← Session.ofExcept (validateManualOverride manual)
  let overridden ← Session.ofExcept (timestamp overriddenAt "override.overridden_at")
  let expires ← Session.ofExcept (optionalTimestamp manual.expiresAt "override.expires_at")
  let created ← Session.ofExcept (timestamp (.utc env.now) "override.created_at")
  Session.transaction env.refused
    (overrideTransaction env baseSnapshotId manual actor reason overridden expires created)

end Calls

/-! ### Reading option snapshots -/

/-- `_option_from_row`; the columns of an accepted leg are not NULL. -/
def optionFromRow (row : OptionSnapshotRow) : OptionQuote where
  securityId := row.instrument.securityId
  strike := row.strike.getD 0
  optionType := row.optionType
  expiry := datetimeFromUs row.expiry.us
  bid := row.bid
  ask := row.ask
  ltp := row.ltp
  volume := row.volume
  openInterest := row.openInterest
  previousOpenInterest := row.previousOpenInterest
  changeOpenInterest := row.changeOpenInterest
  impliedVolatility := row.impliedVolatility
  greeks := ⟨row.delta, row.gamma, row.theta, row.vega, row.theoreticalPrice⟩
  observedAt := datetimeFromUs row.observedAt.us
  bidQuantity := row.bidQuantity
  askQuantity := row.askQuantity
  previousClose := row.previousClose
  changeOiSourceSnapshotId := row.changeOiSourceSnapshotId
  changeOiIntervalSeconds := row.changeOiIntervalSeconds

/-- By strike, then by side. -/
def chainOrder (left right : OptionQuote) : Prop :=
  left.strike < right.strike ∨ ¬right.strike < left.strike ∧ left.optionType.value ≤ right.optionType.value

instance (left right : OptionQuote) : Decidable (chainOrder left right) := inferInstanceAs (Decidable (_ ∨ _))

/-- The stored legs of an accepted snapshot. -/
def Database.previousSnapshot (db : Database) (header : AcceptedSnapshotRow) : PreviousOptionSnapshot where
  snapshotId := header.snapshotId
  sequence := header.sequence
  source := header.source
  sourceTimestamp := datetimeFromUs header.sourceTimestamp.us
  contractKey := header.contractKey
  optionChain := ((db.optionSnapshots.filter fun row => row.snapshotId == header.snapshotId).map
    optionFromRow).insertionSort chainOrder

/-- `accepted_option_snapshot`. -/
def acceptedOptionSnapshot (db : Database) (snapshotId : String) : Option PreviousOptionSnapshot :=
  (db.acceptedSnapshots.find? fun row => row.snapshotId == snapshotId).map db.previousSnapshot

/-- The rows the filters of `latest_previous_option_snapshot` leave. -/
def Database.precedingRows (db : Database) (contractKey : String) (source : DataSource)
    (beforeSequence beforeUs : Option Int) : List AcceptedSnapshotRow :=
  db.acceptedSnapshots.filter fun row => decide (row.contractKey = contractKey ∧ row.source = source ∧
    (∀ sequence ∈ beforeSequence, row.sequence < sequence) ∧ ∀ us ∈ beforeUs, row.sourceTimestamp.us < us)

/-- The order of a row's time and sequence, from the computable order of the integers. -/
instance rowOrder : Preorder (Int ×ₗ Int) := (Prod.Lex.instLinearOrder Int Int).toPreorder

/-- `latest_previous_option_snapshot`. -/
def latestPreviousOptionSnapshot (db : Database) (contractKey : String) (source : DataSource)
    (beforeSequence : Option Int) (beforeSourceTimestamp : Option Datetime) :
    Except Fault (Option PreviousOptionSnapshot) := do
  let before ← optionalTimestamp beforeSourceTimestamp "before_source_timestamp"
  let beforeSequence ← optionalInteger beforeSequence
  let rows := db.precedingRows contractKey source beforeSequence (before.map Timestamp.us)
  -- `ORDER BY source_timestamp_us DESC, sequence DESC LIMIT 1`.
  let header := rows.argmax fun row => toLex (row.sourceTimestamp.us, row.sequence)
  return header.map db.previousSnapshot

end TecoQuant.Persistence
