import TecoQuant.IngestionRules

/-! The validator of atomic snapshots: the rules for the option chain and its quotes, for the earlier snapshots
that changes of open interest refer to, and for the ages of the components. -/

namespace TecoQuant.Ingestion

open Domain Strategy Api

/-- The validator; the loader gives the accepted snapshot of an id, or the type name of what it raises. -/
structure SnapshotValidator where
  config : StrategyConfig
  tables : CharTables
  changeOiReferenceLoader : Option (String → Except String (Option PreviousOptionSnapshot))

/-! ### Quotes -/

section Quote

variable (config : StrategyConfig) (source : DataSource) (quote : OptionQuote) (path : String)

def countIssue (name : String) (count : Option Int) : List ValidationIssue :=
  errorIf (¬∃ n ∈ count, 0 ≤ n) "QUOTE_FIELD_MISSING" (path ++ name)
    "volume and open interest must be present and non-negative" (count.map toJson) none

/-- The interval over which a change of open interest was taken is short enough. -/
def BoundedInterval : Prop :=
  (∃ id ∈ quote.changeOiSourceSnapshotId, id ≠ "") ∧ ∃ seconds ∈ quote.changeOiIntervalSeconds,
    seconds.IsFinite ∧ 0 < seconds ∧ seconds ≤ config.liveMaxAgeSeconds

instance : Decidable (BoundedInterval config quote) :=
  inferInstanceAs (Decidable ((∃ id ∈ quote.changeOiSourceSnapshotId, id ≠ "") ∧
    ∃ seconds ∈ quote.changeOiIntervalSeconds,
      seconds.IsFinite ∧ 0 < seconds ∧ seconds ≤ config.liveMaxAgeSeconds))

def changeOiIssues : List ValidationIssue :=
  match quote.changeOpenInterest with
  | none =>
      warningIf True "CHANGE_OI_BASELINE_REQUIRED" (path ++ ".change_open_interest")
        "snapshot can seed the next interval but cannot produce an OI score" none none ++
      errorIf (quote.changeOiSourceSnapshotId ≠ none ∨ quote.changeOiIntervalSeconds ≠ none)
        "ORPHAN_CHANGE_OI_PROVENANCE" (path ++ ".change_oi_source_snapshot_id")
        "change-OI provenance cannot exist without a derived value" none none
  | some _ =>
      if source ≠ .dhanRest then
        errorIf True "INVALID_CHANGE_OI_SOURCE" (path ++ ".change_open_interest")
          "intraday change OI may only be derived within the Dhan REST stream" (shown source)
          (shown DataSource.dhanRest)
      else
        errorIf (¬BoundedInterval config quote) "INVALID_CHANGE_OI_PROVENANCE" (path ++ ".change_oi_source_snapshot_id")
          "change OI requires a prior accepted snapshot and bounded positive interval"
          (some (.object [("snapshot_id", toJson quote.changeOiSourceSnapshotId),
            ("interval_seconds", toJson quote.changeOiIntervalSeconds)])) none

/-- `_validate_quote`; the spread ratio of numbers that are not finite raises. -/
def validateQuote : Except ArithmeticError (List ValidationIssue) := do
  let spreadRatio ← quote.spreadRatio
  let twoSided := "bid, ask, and LTP must be present and positive"
  return requireAware quote.expiry (path ++ ".expiry") ++
    requireAware quote.observedAt (path ++ ".observed_at") ++
    errorIf (¬Positive (some quote.strike)) "INVALID_STRIKE" (path ++ ".strike") "strike must be positive"
      (shown quote.strike) none ++
    priceIssue "QUOTE_FIELD_MISSING" (path ++ ".bid") twoSided quote.bid ++
    priceIssue "QUOTE_FIELD_MISSING" (path ++ ".ask") twoSided quote.ask ++
    priceIssue "QUOTE_FIELD_MISSING" (path ++ ".ltp") twoSided quote.ltp ++
    errorIf (∃ bid ∈ quote.bid, ∃ ask ∈ quote.ask, Positive (some bid) ∧ Positive (some ask) ∧ ask < bid)
      "ASK_BELOW_BID" (path ++ ".ask") "ask cannot be below bid" (quote.ask.map toJson)
      (quote.bid.map fun bid => .string (">= " ++ bid.text)) ++
    warningIf (∃ ratio ∈ spreadRatio, config.maximumSpreadRatio < ratio) "WIDE_SPREAD" (path ++ ".spread_ratio")
      "leg exceeds the configured executable spread" (spreadRatio.map toJson) (shown config.maximumSpreadRatio) ++
    countIssue path ".volume" quote.volume ++
    countIssue path ".open_interest" quote.openInterest ++
    changeOiIssues config source quote path ++
    errorIf (¬∃ iv ∈ quote.impliedVolatility, iv.IsFinite ∧ 0 < iv) "IV_UNAVAILABLE" (path ++ ".implied_volatility")
      "the current IV-dependent policy cannot score a leg without positive IV" (quote.impliedVolatility.map toJson) none

end Quote

/-! ### References of changes of open interest -/

section Reference

variable (snapshot : AtomicSnapshot) (quote : OptionQuote) (path : String)

/-- The leg of an earlier snapshot that a quote continues. -/
def SameLeg (prior : OptionQuote) : Prop :=
  prior.securityId = quote.securityId ∧ Decimal.Equal prior.strike quote.strike ∧
    prior.optionType = quote.optionType ∧ prior.expiry.SameMoment quote.expiry

instance (prior : OptionQuote) : Decidable (SameLeg quote prior) := inferInstanceAs (Decidable (_ ∧ _))

/-- The declared interval is the one between the snapshots, and their sources and legs are of one moment. -/
def CoherentInterval (previous : PreviousOptionSnapshot) (prior : OptionQuote) : Prop :=
  let legInterval := elapsedSeconds quote.observedAt prior.observedAt
  snapshot.sourceTimestamp.instant = quote.observedAt.instant ∧
    previous.sourceTimestamp.instant = prior.observedAt.instant ∧
    0 < elapsedSeconds snapshot.sourceTimestamp previous.sourceTimestamp ∧
    legInterval = elapsedSeconds snapshot.sourceTimestamp previous.sourceTimestamp ∧
    ∃ declared ∈ quote.changeOiIntervalSeconds,
      declared.IsFinite ∧ ¬(1e-9 : Binary64) < (declared.sub legInterval).abs

instance (previous : PreviousOptionSnapshot) (prior : OptionQuote) :
    Decidable (CoherentInterval snapshot quote previous prior) :=
  inferInstanceAs (Decidable (_ ∧ _ ∧ _ ∧ _ ∧ ∃ declared ∈ quote.changeOiIntervalSeconds,
    declared.IsFinite ∧ ¬(1e-9 : Binary64) < (declared.sub (elapsedSeconds quote.observedAt prior.observedAt)).abs))

/-- `quote.open_interest - prior.open_interest`. -/
def openInterestDelta (prior : OptionQuote) : Option Int :=
  match quote.openInterest, prior.openInterest with
  | some current, some before => some (current - before)
  | _, _ => none

/-- The rules for the one matching leg. -/
def priorLegIssues (previous : PreviousOptionSnapshot) (prior : OptionQuote) : List ValidationIssue :=
  if ∃ t ∈ [snapshot.sourceTimestamp, quote.observedAt, previous.sourceTimestamp, prior.observedAt], ¬t.Aware then
    errorIf True "CHANGE_OI_TIMESTAMP_INVALID" (path ++ ".change_oi_interval_seconds")
      "current and prior source/leg timestamps must all be timezone-aware" none none
  else
    errorIf (¬CoherentInterval snapshot quote previous prior) "CHANGE_OI_INTERVAL_MISMATCH"
      (path ++ ".change_oi_interval_seconds")
      "declared interval must exactly match coherent prior/current source and leg times"
      (quote.changeOiIntervalSeconds.map toJson) (shown (elapsedSeconds quote.observedAt prior.observedAt)) ++
    errorIf (openInterestDelta quote prior = none ∨ quote.changeOpenInterest ≠ openInterestDelta quote prior)
      "CHANGE_OI_DELTA_MISMATCH" (path ++ ".change_open_interest")
      "change OI must equal current open interest minus the exact prior leg's open interest"
      (quote.changeOpenInterest.map toJson) ((openInterestDelta quote prior).map toJson)

/-- The rules for the snapshot that was loaded. -/
def previousIssues (referenceId : String) (previous : PreviousOptionSnapshot) : List ValidationIssue :=
  if previous.snapshotId ≠ referenceId ∨ previous.source ≠ .dhanRest ∨
      previous.contractKey ≠ snapshot.contract.contractKey ∨ snapshot.sequence ≤ previous.sequence then
    errorIf True "CHANGE_OI_REFERENCE_MISMATCH" (path ++ ".change_oi_source_snapshot_id")
      "referenced snapshot must be an earlier Dhan snapshot of the exact contract"
      (some (.object [("snapshot_id", toJson previous.snapshotId), ("source", toJson previous.source),
        ("contract_key", toJson previous.contractKey), ("sequence", toJson previous.sequence)])) none
  else
    match previous.optionChain.filter fun prior => SameLeg quote prior with
    | [prior] => priorLegIssues snapshot quote path previous prior
    | legs => errorIf True "CHANGE_OI_PRIOR_LEG_MISMATCH" (path ++ ".change_oi_source_snapshot_id")
        "referenced snapshot must contain exactly one matching security/expiry/strike/side"
        (shown (legs.length : Int)) (shown (1 : Int))

/-- The snapshot a quote's change refers to, where the validator looks at it. -/
def referenceOf : Option String :=
  if quote.changeOpenInterest = none ∨ snapshot.source ≠ .dhanRest then none
  else quote.changeOiSourceSnapshotId.filter fun id => id ≠ ""

/-- `_validate_change_oi_reference`, after the quotes `seen`: a failed load is reported once for an id. -/
def validateChangeOiReference (loader : Option (String → Except String (Option PreviousOptionSnapshot)))
    (seen : List OptionQuote) : List ValidationIssue :=
  let path' := path ++ ".change_oi_source_snapshot_id"
  match referenceOf snapshot quote with
  | none => []
  | some referenceId =>
      let notAccepted := errorIf True "CHANGE_OI_REFERENCE_NOT_ACCEPTED" path'
        "referenced change-OI snapshot is not an accepted snapshot" (shown referenceId) none
      match loader with
      | none => errorIf True "CHANGE_OI_REFERENCE_UNAVAILABLE" path'
          "change OI cannot be accepted without loading its accepted prior snapshot" (shown referenceId) none
      | some load =>
          match load referenceId with
          | .error raised =>
              if ∃ other ∈ seen, referenceOf snapshot other = some referenceId then notAccepted
              else errorIf True "CHANGE_OI_REFERENCE_LOAD_FAILED" path' "accepted prior snapshot could not be loaded"
                (shown raised) none
          | .ok none => notAccepted
          | .ok (some previous) => previousIssues snapshot quote path referenceId previous

end Reference

/-! ### The chain -/

section Chain

variable (snapshot : AtomicSnapshot)

/-- `master_by_key`: of two records with one key the last counts. -/
def masterAt (key : Decimal × OptionType) : Option InstrumentMasterRecord :=
  atKey snapshot.contract.optionContracts.reverse key

/-- The rules for a quote's place in the chain and in the master, after the quotes `seen`. -/
def mappingIssues (seen : List OptionQuote) (quote : OptionQuote) (path : String) : List ValidationIssue :=
  errorIf (∃ other ∈ seen, SameKey other.key quote.key) "DUPLICATE_STRIKE_SIDE" path
    "strike and option side must be unique within a snapshot" (some (keyJson quote.key)) none ++
  (if quote.securityId = "" then
    errorIf True "SECURITY_ID_MISSING" (path ++ ".security_id") "provider security ID is required" none none
  else
    errorIf (∃ other ∈ seen, other.securityId = quote.securityId) "DUPLICATE_SECURITY_ID" (path ++ ".security_id")
      "security ID cannot identify more than one option leg" (shown quote.securityId) none) ++
  (match masterAt snapshot quote.key with
    | none => errorIf True "OPTION_NOT_IN_CONTRACT_MASTER" path
        "strike and side are absent from the selected master revision" (some (keyJson quote.key)) none
    | some record =>
        errorIf (record.instrument.securityId ≠ quote.securityId) "OPTION_SECURITY_ID_MISMATCH"
          (path ++ ".security_id") "quote security ID does not match the master strike/side mapping"
          (shown quote.securityId) (shown record.instrument.securityId)) ++
  errorIf (¬quote.expiry.SameMoment snapshot.contract.optionExpiry) "MIXED_EXPIRY" (path ++ ".expiry")
    "option leg expiry differs from the selected contract" (shown quote.expiry)
    (shown snapshot.contract.optionExpiry)

/-- A quote cannot refer to its own snapshot. -/
def selfReferenceIssues (quote : OptionQuote) (path : String) : List ValidationIssue :=
  errorIf (quote.changeOiSourceSnapshotId = some snapshot.snapshotId) "SELF_REFERENTIAL_CHANGE_OI"
    (path ++ ".change_oi_source_snapshot_id") "change OI cannot derive from the current snapshot" none none

/-- The required keys that are not known, each once, in order. -/
def missingKeys (known : Decimal × OptionType → Prop) [DecidablePred known] (atm interval : Decimal) :
    List (Decimal × OptionType) :=
  ((requiredKeys atm interval).eraseDupsBy fun left right => SameKey left right).filter fun key => ¬known key

/-- The rules for the five strikes around the one nearest to the underlying. -/
def topologyIssues (strikes : List Decimal) (atm interval : Decimal) : List ValidationIssue :=
  let expected := [-2, -1, 0, 1, 2].map (ladderStrike atm interval)
  let missingStrikes := expected.filter fun strike => ¬∃ listed ∈ strikes, Decimal.Equal listed strike
  let missingMaster := missingKeys (fun key => (masterAt snapshot key).isSome) atm interval
  let missingLegs := missingKeys (fun key => ∃ quote ∈ snapshot.optionChain, SameKey quote.key key) atm interval
  errorIf (missingStrikes ≠ []) "FIVE_STRIKE_TOPOLOGY_INVALID" "option_chain"
    "ATM-2 through ATM+2 are not present at the verified interval" (shown missingStrikes) (shown expected) ++
  errorIf (missingMaster ≠ []) "FIVE_STRIKE_MASTER_MAPPING_MISSING" "contract.option_contracts"
    "verified master must map both sides of ATM-2 through ATM+2" (some (.array (missingMaster.map keyJson))) none ++
  errorIf (missingLegs ≠ []) "FIVE_STRIKE_LEG_MISSING" "option_chain"
    "both CE and PE are required for each of the five strikes" (some (.array (missingLegs.map keyJson))) none

/-- The end of `_validate_chain`; the error of `nearestAtm` is not reached. -/
def fiveStrikeIssues : List ValidationIssue :=
  match snapshot.market.pricingUnderlying snapshot.contract.marketKind with
  | none => []
  | some underlying =>
      if ¬Positive (some underlying) then []
      else
        let strikes := listedStrikes snapshot
        if strikes.length < 5 then
          errorIf True "FIVE_STRIKES_UNAVAILABLE" "option_chain" "at least five unique strikes are required"
            (shown (strikes.length : Int)) (shown (5 : Int))
        else
          match nearestAtm underlying strikes with
          | .error _ => []
          | .ok atm =>
              if ¬Positive (some snapshot.contract.strikeInterval) then []
              else topologyIssues snapshot strikes atm snapshot.contract.strikeInterval

variable (validator : SnapshotValidator)

/-- The rules for one quote, after the quotes before it. -/
def quoteIssues (seen : List OptionQuote) (quote : OptionQuote) (path : String) :
    Except ArithmeticError (List ValidationIssue) := do
  let issues ← validateQuote validator.config snapshot.source quote path
  return mappingIssues snapshot seen quote path ++ issues ++
    validateChangeOiReference snapshot quote path validator.changeOiReferenceLoader seen ++
    selfReferenceIssues snapshot quote path

/-- `_validate_chain`. -/
def validateChain : Except ArithmeticError (List ValidationIssue) :=
  if snapshot.optionChain = [] then
    .ok (errorIf True "OPTION_CHAIN_MISSING" "option_chain" "option chain cannot be empty" none none)
  else do
    let issues ← snapshot.optionChain.zipIdx.mapM fun (quote, index) =>
      quoteIssues snapshot validator (snapshot.optionChain.take index) quote (indexedPath "option_chain" index)
    return issues.flatten ++ fiveStrikeIssues snapshot

end Chain

/-! ### The ages of the components -/

section Coherence

variable (config : StrategyConfig) (snapshot : AtomicSnapshot) (now : Datetime)

/-- The timestamps of the components with their paths. -/
def componentPaths : List (String × Datetime) :=
  ("source_timestamp", snapshot.sourceTimestamp) :: ("market.observed_at", snapshot.market.observedAt) ::
    ("technicals.observed_at", snapshot.technicals.observedAt) ::
    snapshot.optionChain.zipIdx.map fun (quote, index) =>
      (indexedPath "option_chain" index ++ ".observed_at", quote.observedAt)

def componentAgeIssues (path : String) (value : Datetime) : List ValidationIssue :=
  let age := elapsedSeconds now value
  if ¬value.Aware then []
  else if config.liveMaxAgeSeconds < age then
    errorIf True "STALE_COMPONENT" path "snapshot component is stale" (shown age) (shown config.liveMaxAgeSeconds)
  else
    errorIf (age < -config.futureClockSkewSeconds) "FUTURE_DATED_COMPONENT" path
      "snapshot component is ahead of the evaluation clock" (shown age) none

/-- `max` and `min` of some moments keep the first of equal ones. -/
def extremeMoment (better : Datetime → Datetime → Bool) (first : Datetime) (rest : List Datetime) : Datetime :=
  rest.foldl (fun best value => if better value best then value else best) first

def skewIssues (values : List Datetime) : List ValidationIssue :=
  match values with
  | [] => []
  | first :: rest =>
      let latest := extremeMoment (fun value best => best.instant < value.instant) first rest
      let earliest := extremeMoment (fun value best => value.instant < best.instant) first rest
      let skew := elapsedSeconds latest earliest
      errorIf (config.componentSkewSeconds < skew) "ATOMIC_SNAPSHOT_SKEW" "snapshot"
        "components do not belong to one coherent evaluation window" (shown skew) (shown config.componentSkewSeconds)

/-- `_validate_component_coherence`. -/
def validateComponentCoherence : List ValidationIssue :=
  (componentPaths snapshot).flatMap (fun (path, value) => componentAgeIssues config now path value) ++
    skewIssues config (((componentPaths snapshot).map Prod.snd).filter fun value => value.Aware)

end Coherence

/-! ### Validation -/

namespace SnapshotValidator

variable (validator : SnapshotValidator) (snapshot : AtomicSnapshot) (now : Datetime)

/-- The issues of a snapshot at an aware time. -/
def issues : Except ArithmeticError (List ValidationIssue) := do
  let chain ← validateChain snapshot validator
  return validateEnvelope validator.config snapshot now ++
    validateContract validator.config validator.tables snapshot.contract now ++
    validateMarket snapshot ++ validateTechnicals snapshot ++ validateContext validator.config snapshot ++
    chain ++ validateComponentCoherence validator.config snapshot now

/-- `validate`; a naive time is all that is reported. -/
def validate : Except ArithmeticError ValidationReport := do
  let issues ← (if now.Aware then validator.issues snapshot now else .ok (requireAware now "evaluation_time"))
  return ⟨issues, some snapshot.snapshotId, some (contentHash snapshot)⟩

end SnapshotValidator
end TecoQuant.Ingestion
