import TecoQuant.BaseDict
import TecoQuant.BaseExcept
import TecoQuant.SignalPipeline

/-! The automated signal service: the analytics of a chain, bound to the verified contract, and the pipeline on
the Greeks they give. The pricing formulas are a parameter. -/

namespace TecoQuant.Signal

open Domain Ingestion Strategy

/-- What the service raises. -/
inductive ServiceFault where
  | value (message : String)
  | analyticsInput (message : String)
  | pricing (message : String)
  | evaluation (fault : Strategy.Fault)
  deriving DecidableEq, Repr

/-- A step of the strategy or the pipeline as a step of the service. -/
def evaluation {α : Type} : Except Strategy.Fault α → Except ServiceFault α
  | .ok a => .ok a
  | .error fault => .error (.evaluation fault)

/-- `if not condition: raise AnalyticsInputError(message)`. -/
def requireInput (condition : Prop) [Decidable condition] (message : String) : Except ServiceFault Unit :=
  if condition then .ok () else .error (.analyticsInput message)

/-- What a leg is priced from. -/
structure PricingInputs where
  model : PricingModel
  optionType : OptionType
  underlying : Decimal
  strike : Decimal
  volatility : Binary64
  timeToExpiry : Binary64
  riskFreeRate : Binary64
  dividendYield : Binary64
  deriving DecidableEq, Repr

/-- `price_option` and `expected_move`, or the text of what they raise. -/
abbrev LegPricing := PricingInputs → Except String Greeks

section Analytics

/-- The price of the contract's pricing instrument. -/
def pricingPrice (label : String) (price : Option Decimal) : Except ServiceFault Decimal :=
  match price with
  | some price =>
      if price.IsFinite ∧ 0 < price then .ok price
      else .error (.analyticsInput (label ++ " must be finite and positive"))
  | none => .error (.analyticsInput (label ++ " must be finite and positive"))

/-- `_pricing_identity`. -/
def pricingIdentity (contract : ContractSpec) (market : MarketState) (pricingSecurityId : String) :
    Except ServiceFault Decimal :=
  match contract.pricingModel with
  | .blackScholes => do
      requireInput (contract.marketKind ≠ .commodity ∧ contract.underlying.exchange ∈ [Exchange.nse, .bse])
        "Black-Scholes requires an NSE/BSE spot contract"
      requireInput (pricingSecurityId = contract.underlying.securityId)
        "spot pricing security does not match the contract underlying"
      pricingPrice "spot price" market.spotPrice
  | .black76 => do
      requireInput (contract.marketKind = .commodity) "Black-76 is restricted to commodity futures contracts"
      requireInput (contract.underlying.exchange = .mcx) "commodity Black-76 contract must be an MCX contract"
      match contract.futures with
      | none => .error (.analyticsInput "Black-76 contract is missing its exact futures record")
      | some future => do
          requireInput (future.instrument.exchange = .mcx) "Black-76 pricing future must be an MCX instrument"
          requireInput (pricingSecurityId = future.instrument.securityId)
            "futures pricing security does not match the exact contract future"
          pricingPrice "futures price" market.futuresPrice

/-- `year_fraction`, on the default basis of 365 days. -/
def yearFraction (observedAt expiry : Datetime) : Except ServiceFault Binary64 := do
  requireInput observedAt.Aware "pricing observation time must be timezone-aware"
  requireInput expiry.Aware "option expiry must be timezone-aware"
  let seconds ← evaluation (totalSeconds expiry observedAt)
  requireInput (seconds.IsFinite ∧ ¬seconds ≤ 0) "option expiry must be after the observation time"
  evaluation (arith (seconds.div 31536000))

/-- The leg is one of the contract's verified option records. -/
def KnownContract (contract : ContractSpec) (quote : OptionQuote) : Prop :=
  ∃ record ∈ contract.optionContracts, record.instrument.securityId = quote.securityId ∧
    (∃ strike ∈ record.strike, Decimal.Equal strike quote.strike) ∧ record.optionType = some quote.optionType ∧
    ∃ expiry ∈ record.expiry, Datetime.SameMoment expiry quote.expiry

instance (contract : ContractSpec) (quote : OptionQuote) : Decidable (KnownContract contract quote) :=
  inferInstanceAs (Decidable (∃ _ ∈ _, _))

/-- The order of the legs: by strike, side and security. -/
def LegBefore (left right : OptionQuote) : Prop :=
  left.strike.value < right.strike.value ∨ left.strike.value = right.strike.value ∧
    (left.optionType.value < right.optionType.value ∨ left.optionType = right.optionType ∧
      left.securityId ≤ right.securityId)

instance : DecidableRel LegBefore := fun _ _ => inferInstanceAs (Decidable (_ ∨ _))

/-- The checks of a leg before the legs are sorted. -/
def requireIdentified (quote : OptionQuote) : Except ServiceFault Unit := do
  requireInput (¬PyText.Blank quote.securityId) "option security id is required"
  requireInput (quote.strike.IsFinite ∧ 0 < quote.strike)
    ("option " ++ quote.securityId ++ " strike must be positive")

/-- The volatility of a leg. -/
def requireVolatility (quote : OptionQuote) : Except ServiceFault Binary64 :=
  match quote.impliedVolatility with
  | some volatility =>
      if volatility.IsFinite ∧ 0 < volatility then .ok volatility
      else .error (.analyticsInput ("option " ++ quote.securityId ++ " IV must be finite and positive"))
  | none => .error (.analyticsInput ("option " ++ quote.securityId ++ " IV must be finite and positive"))

variable (price : LegPricing) (contract : ContractSpec) (asOf : Datetime)
  (underlying : Decimal) (riskFreeRate dividendYield : Binary64)

/-- The Greeks of one leg. -/
def analyzeLeg (quote : OptionQuote) : Except ServiceFault Greeks := do
  requireInput quote.observedAt.Aware ("option " ++ quote.securityId ++ " has a naive observation time")
  requireInput (quote.observedAt.instant ≤ asOf.instant) ("option " ++ quote.securityId ++ " is from the future")
  requireInput (Datetime.SameMoment quote.expiry contract.optionExpiry)
    ("option " ++ quote.securityId ++ " expiry does not match the contract")
  requireInput (KnownContract contract quote)
    ("option " ++ quote.securityId ++ " is absent from the verified master")
  let volatility ← requireVolatility quote
  let years ← yearFraction asOf quote.expiry
  match price ⟨contract.pricingModel, quote.optionType, underlying, quote.strike, volatility, years, riskFreeRate,
      dividendYield⟩ with
  | .ok greeks => return greeks
  | .error message => .error (.pricing message)

/-- The legs in order, after those with the keys `seen`. -/
def analyzeLegs (seen : List (Decimal × OptionType)) : List OptionQuote → Except ServiceFault (List (String × Greeks))
  | [] => .ok []
  | quote :: rest => do
      requireInput (¬∃ key ∈ seen, Decimal.Equal key.1 quote.strike ∧ key.2 = quote.optionType)
        ("duplicate option leg for " ++ quote.strike.text ++ " " ++ quote.optionType.value)
      let greeks ← analyzeLeg price contract asOf underlying riskFreeRate dividendYield quote
      return (quote.securityId, greeks) :: (← analyzeLegs (quote.key :: seen) rest)

omit underlying in
/-- `analyze_option_chain`, as far as the security and the Greeks of each leg. -/
def analyzeOptionChain (market : MarketState) (quotes : List OptionQuote) (pricingSecurityId : String) :
    Except ServiceFault (List (String × Greeks)) := do
  requireInput asOf.Aware "chain evaluation time must be timezone-aware"
  requireInput market.observedAt.Aware "market observation time must be timezone-aware"
  requireInput (market.observedAt.instant ≤ asOf.instant) "market observation cannot be after evaluation time"
  requireInput (¬PyText.Blank pricingSecurityId) "pricing security id is required"
  requireInput (riskFreeRate.IsFinite ∧ dividendYield.IsFinite) "pricing rates must be finite"
  let underlying ← pricingIdentity contract market pricingSecurityId
  let _ ← quotes.mapM requireIdentified
  let legs ← analyzeLegs price contract asOf underlying riskFreeRate dividendYield []
    (quotes.insertionSort LegBefore)
  requireInput (legs ≠ []) "option chain cannot be empty"
  return legs

end Analytics

structure AutomatedSignalService where
  pipeline : SignalPipeline
  strategy : StrategyConfig
  price : LegPricing

namespace AutomatedSignalService

/-- The security a contract is priced from. -/
def pricingSecurity (contract : ContractSpec) : Except ServiceFault String :=
  match contract.pricingModel with
  | .blackScholes => .ok contract.underlying.securityId
  | .black76 =>
      match contract.futures with
      | some future => .ok future.instrument.securityId
      | none => .error (.value "Black-76 evaluation requires the exact mapped future")

/-- The modelled Greeks by security; a later leg of a security replaces an earlier one. -/
def modeledGreeks (legs : List (String × Greeks)) : List (String × Greeks) :=
  legs.foldl (fun greeks leg => Dict.assign leg.1 leg.2 greeks) []

/-- `evaluate`. -/
def evaluate (service : AutomatedSignalService) (snapshot : AtomicSnapshot) (report : ValidationReport)
    (previousSnapshot : Option PreviousOptionSnapshot) (now : Datetime) :
    Except ServiceFault SignalPipelineResult := do
  let contract := snapshot.contract
  let pricingSecurityId ← pricingSecurity contract
  let legs ← analyzeOptionChain service.price contract now service.strategy.riskFreeRate
    (if contract.pricingModel = .black76 then 0 else service.strategy.dividendYield) snapshot.market
    snapshot.optionChain pricingSecurityId
  evaluation (service.pipeline.evaluate snapshot report previousSnapshot (some (modeledGreeks legs)) now)

end AutomatedSignalService

/-! ### Returned evaluations -/

theorem requireInput_eq_ok {condition : Prop} [Decidable condition] {message : String} {value : Unit} :
    requireInput condition message = .ok value ↔ condition := by
  simp [requireInput]

theorem evaluation_eq_ok {α : Type} {x : Except Strategy.Fault α} {a : α} : evaluation x = .ok a ↔ x = .ok a := by
  cases x <;> simp [evaluation]

/-- What the analytics establish about a leg. -/
structure AnalyzedLeg (contract : ContractSpec) (quote : OptionQuote) : Prop where
  identified : ¬PyText.Blank quote.securityId
  strike : quote.strike.IsFinite ∧ 0 < quote.strike
  expiry : Datetime.SameMoment quote.expiry contract.optionExpiry
  known : KnownContract contract quote

section Analyzed

variable {price : LegPricing} {contract : ContractSpec} {asOf : Datetime} {underlying : Decimal}
  {riskFreeRate dividendYield : Binary64} {seen : List (Decimal × OptionType)} {quotes : List OptionQuote}
  {quote : OptionQuote} {legs : List (String × Greeks)}

theorem analyzeLeg_eq_ok {greeks : Greeks}
    (h : analyzeLeg price contract asOf underlying riskFreeRate dividendYield quote = .ok greeks) :
    Datetime.SameMoment quote.expiry contract.optionExpiry ∧ KnownContract contract quote := by
  unfold analyzeLeg at h
  obtain ⟨_, -, h⟩ := Except.bind_eq_ok.mp h
  obtain ⟨_, -, h⟩ := Except.bind_eq_ok.mp h
  obtain ⟨_, hexpiry, h⟩ := Except.bind_eq_ok.mp h
  obtain ⟨_, hknown, -⟩ := Except.bind_eq_ok.mp h
  exact ⟨requireInput_eq_ok.mp hexpiry, requireInput_eq_ok.mp hknown⟩

/-- Every leg has been analyzed. -/
theorem analyzeLegs_all (h : analyzeLegs price contract asOf underlying riskFreeRate dividendYield seen quotes = .ok legs)
    (hquote : quote ∈ quotes) :
    Datetime.SameMoment quote.expiry contract.optionExpiry ∧ KnownContract contract quote := by
  induction quotes generalizing seen legs with
  | nil => cases hquote
  | cons first rest ih =>
      unfold analyzeLegs at h
      obtain ⟨_, -, h⟩ := Except.bind_eq_ok.mp h
      obtain ⟨greeks, hfirst, h⟩ := Except.bind_eq_ok.mp h
      obtain ⟨others, hrest, -⟩ := Except.bind_eq_ok.mp h
      rcases List.mem_cons.mp hquote with rfl | hmem
      · exact analyzeLeg_eq_ok hfirst
      · exact ih hrest hmem

theorem analyzeOptionChain_all {market : MarketState} {pricingSecurityId : String}
    (h : analyzeOptionChain price contract asOf riskFreeRate dividendYield market quotes pricingSecurityId = .ok legs)
    (hquote : quote ∈ quotes) : AnalyzedLeg contract quote := by
  unfold analyzeOptionChain at h
  obtain ⟨_, -, h⟩ := Except.bind_eq_ok.mp h
  obtain ⟨_, -, h⟩ := Except.bind_eq_ok.mp h
  obtain ⟨_, -, h⟩ := Except.bind_eq_ok.mp h
  obtain ⟨_, -, h⟩ := Except.bind_eq_ok.mp h
  obtain ⟨_, -, h⟩ := Except.bind_eq_ok.mp h
  obtain ⟨underlying, -, h⟩ := Except.bind_eq_ok.mp h
  obtain ⟨_, hidentified, h⟩ := Except.bind_eq_ok.mp h
  obtain ⟨analyzed, hlegs, -⟩ := Except.bind_eq_ok.mp h
  obtain ⟨hexpiry, hknown⟩ := analyzeLegs_all hlegs ((List.mem_insertionSort _).mpr hquote)
  obtain ⟨_, -, hquote⟩ := Except.mapM_all hidentified hquote
  obtain ⟨_, hsecurity, hstrike⟩ := Except.bind_eq_ok.mp hquote
  exact ⟨requireInput_eq_ok.mp hsecurity, requireInput_eq_ok.mp hstrike, hexpiry, hknown⟩

end Analyzed

/-- A returned evaluation has analyzed every leg of the chain and evaluated the pipeline. -/
theorem AutomatedSignalService.evaluate_eq_ok {service : AutomatedSignalService} {snapshot : AtomicSnapshot}
    {report : ValidationReport} {previousSnapshot : Option PreviousOptionSnapshot} {now : Datetime}
    {result : SignalPipelineResult} (h : service.evaluate snapshot report previousSnapshot now = .ok result) :
    (∀ quote ∈ snapshot.optionChain, AnalyzedLeg snapshot.contract quote) ∧
      ∃ greeks, service.pipeline.evaluate snapshot report previousSnapshot (some greeks) now = .ok result := by
  unfold evaluate at h
  obtain ⟨pricingSecurityId, -, h⟩ := Except.bind_eq_ok.mp h
  obtain ⟨legs, hlegs, h⟩ := Except.bind_eq_ok.mp h
  exact ⟨fun quote hquote => analyzeOptionChain_all hlegs hquote, modeledGreeks legs, evaluation_eq_ok.mp h⟩

end TecoQuant.Signal
