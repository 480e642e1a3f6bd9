import TecoQuant.ApiReadStatus
import TecoQuant.BaseDict

/-! Contracts resolved from the instrument master: the five strikes around the money of one family of options,
and the map from their symbols to their security ids. -/

namespace TecoQuant.Ingestion

open Domain Strategy Api

/-- What a resolution raises: `DhanCatalogError`, or an error of the strategy's arithmetic. -/
inductive CatalogFault where
  | catalogError (message : String)
  | strategy (fault : Strategy.Fault)
  deriving DecidableEq, Repr

structure UniverseDefinition where
  symbol : String
  marketKind : MarketKind
  pricingModel : PricingModel
  deriving DecidableEq, Repr

structure DhanContractFamily where
  definition : UniverseDefinition
  provenance : InstrumentMasterProvenance
  underlying : InstrumentMasterRecord
  future : InstrumentMasterRecord
  optionExpiry : Datetime
  optionRecords : List InstrumentMasterRecord
  optionChainSecurityId : String
  optionChainSegment : String
  historicalInstrument : String
  deriving DecidableEq, Repr

structure ResolvedDhanContract where
  symbol : String
  contract : ContractSpec
  optionChainSecurityId : String
  optionChainSegment : String
  historicalSecurityId : String
  historicalSegment : String
  historicalInstrument : String
  subscriptions : List (String × String)
  deriving DecidableEq, Repr

/-! ### The strikes around the money -/

/-- The strike and the side of a record that has both. -/
def optionKey (record : InstrumentMasterRecord) : Option (Decimal × OptionType) :=
  match record.strike, record.optionType with
  | some strike, some side => some (strike, side)
  | _, _ => none

/-- The record of a strike and a side. -/
def atKey (records : List InstrumentMasterRecord) (key : Decimal × OptionType) : Option InstrumentMasterRecord :=
  records.find? fun record => decide (∃ known ∈ optionKey record, SameKey known key)

/-- One record into `by_key`; those without a strike or a side are left out. -/
def indexRecord (byKey : List InstrumentMasterRecord) (record : InstrumentMasterRecord) :
    Except CatalogFault (List InstrumentMasterRecord) :=
  match optionKey record with
  | none => .ok byKey
  | some key =>
      if (atKey byKey key).isSome then .error (.catalogError "duplicate option strike/side in master")
      else .ok (byKey ++ [record])

/-- The strikes listed on both sides, in order. -/
def strikesWithBoth (byKey : List InstrumentMasterRecord) : List Decimal :=
  (distinctStrikes (byKey.filterMap InstrumentMasterRecord.strike)).filter fun strike =>
    (atKey byKey (strike, .call)).isSome && (atKey byKey (strike, .put)).isSome

/-- The differences of adjacent strikes, each once, in order. -/
def strikeIntervals (ordered : List Decimal) : List Decimal :=
  distinctStrikes (((ordered.zip ordered.tail).filter fun (left, right) => left < right).map
    fun (left, right) => Decimal.sub .default right left)

/-- The ten legs at an interval around the money, when the master lists them all. -/
def ladder (byKey : List InstrumentMasterRecord) (atm interval : Decimal) : Option (List InstrumentMasterRecord) :=
  (requiredKeys atm interval).mapM (atKey byKey)

def selectFiveStrikes (records : List InstrumentMasterRecord) (pricingUnderlying : Decimal) :
    Except CatalogFault (List InstrumentMasterRecord × Decimal) := do
  let byKey ← records.foldlM indexRecord []
  let ordered := strikesWithBoth byKey
  if ordered.length < 5 then .error (.catalogError "fewer than five complete option strikes are listed")
  else
    let atm ← (nearestAtm pricingUnderlying ordered).mapError .strategy
    match (strikeIntervals ordered).findSome? fun interval => (ladder byKey atm interval).map (·, interval) with
    | some selection => .ok selection
    | none => .error (.catalogError "master does not contain exact ATM-2..ATM+2 CE/PE records")

/-! ### Resolution -/

/-- The value that all records have. -/
def sharedValue {α : Type} (same : α → α → Bool) (values : List (Option α)) (message : String) :
    Except CatalogFault α :=
  let sameValue : Option α → Option α → Bool
    | some left, some right => same left right
    | none, none => true
    | _, _ => false
  match values.eraseDupsBy sameValue with
  | [some value] => .ok value
  | _ => .error (.catalogError message)

/-- The instruments to subscribe to, each once. -/
def uniqueSubscriptions (tables : CharTables) (values : List (String × String)) : List (String × String) :=
  (values.map fun (segment, securityId) => (tables.normalize segment, PyText.strip securityId)).eraseDups

def subscriptionKey (record : InstrumentMasterRecord) : String × String :=
  (record.instrument.segment, record.instrument.securityId)

namespace DhanContractFamily

/-- `contract_at`: the lot and tick sizes are those of the option legs, not those of the future. -/
def contractAt (tables : CharTables) (family : DhanContractFamily) (pricingUnderlying : Decimal) :
    Except CatalogFault ResolvedDhanContract := do
  if ¬(pricingUnderlying.IsFinite ∧ 0 < pricingUnderlying) then
    .error (.catalogError "pricing underlying must be a positive finite Decimal")
  else
    let (selected, interval) ← selectFiveStrikes family.optionRecords pricingUnderlying
    let lotSize ← sharedValue (· == ·) (selected.map InstrumentMasterRecord.lotSize)
      "selected option contracts have inconsistent lot sizes"
    let tickSize ← sharedValue (fun left right => decide (Decimal.Equal left right))
      (selected.map InstrumentMasterRecord.tickSize) "selected option contracts have inconsistent tick sizes"
    let candidates := subscriptionKey family.future :: selected.map subscriptionKey
    return {
      symbol := family.definition.symbol
      contract := {
        underlying := family.underlying.instrument
        marketKind := family.definition.marketKind
        pricingModel := family.definition.pricingModel
        optionExpiry := family.optionExpiry
        lotSize
        strikeInterval := interval
        tickSize
        master := family.provenance
        optionContracts := selected
        futures := some family.future }
      optionChainSecurityId := family.optionChainSecurityId
      optionChainSegment := family.optionChainSegment
      historicalSecurityId := family.underlying.instrument.securityId
      historicalSegment := family.underlying.instrument.segment
      historicalInstrument := family.historicalInstrument
      subscriptions := uniqueSubscriptions tables
        (if family.definition.marketKind = .index then candidates
          else subscriptionKey family.underlying :: candidates) }

end DhanContractFamily

/-- What a record gives the registry. -/
def registryItem (record : InstrumentMasterRecord) : String × String :=
  (record.instrument.symbol, record.instrument.securityId)

/-- `execution_registry`: of two records with one symbol the last counts. -/
def ResolvedDhanContract.executionRegistry (resolved : ResolvedDhanContract) : List (String × String) :=
  (resolved.contract.optionContracts.map registryItem).foldl
    (fun items (symbol, securityId) => Dict.assign symbol securityId items) []

/-- The check of a family's options: no strike and side twice, no security id twice; symbols are not looked at. -/
def ensureUnambiguousOptionRecords (seen : List InstrumentMasterRecord) :
    List InstrumentMasterRecord → Except CatalogFault Unit
  | [] => .ok ()
  | record :: records =>
      match optionKey record with
      | none => .error (.catalogError "option record lacks strike or side")
      | some key =>
          if (atKey seen key).isSome ∨ record.instrument.securityId ∈ seen.map (·.instrument.securityId) then
            .error (.catalogError "option master mapping is ambiguous")
          else ensureUnambiguousOptionRecords (seen ++ [record]) records

/-! ### What a resolution returns -/

section Selection

variable {records byKey selected : List InstrumentMasterRecord} {pricingUnderlying interval : Decimal}

theorem selectFiveStrikes_eq_ok
    (h : selectFiveStrikes records pricingUnderlying = .ok (selected, interval)) :
    ∃ byKey atm, records.foldlM indexRecord [] = .ok byKey ∧ 5 ≤ (strikesWithBoth byKey).length ∧
      nearestAtm pricingUnderlying (strikesWithBoth byKey) = .ok atm ∧
      (strikeIntervals (strikesWithBoth byKey)).findSome? (fun interval =>
        (ladder byKey atm interval).map (·, interval)) = some (selected, interval) := by
  unfold selectFiveStrikes at h
  obtain ⟨byKey, hbyKey, h⟩ := Except.bind_eq_ok.mp h
  obtain ⟨hfive, h⟩ := Except.ite_error_eq_ok.mp h
  obtain ⟨atm, hatm, h⟩ := Except.bind_eq_ok.mp h
  split at h
  · rename_i selection hfound
    cases h
    refine ⟨byKey, atm, hbyKey, not_lt.mp hfive, ?_, hfound⟩
    cases hnearest : nearestAtm pricingUnderlying (strikesWithBoth byKey) with
    | error fault => simp [hnearest, Except.mapError] at hatm
    | ok nearest =>
        rw [hnearest] at hatm
        cases hatm
        rfl
  · cases h

end Selection

/-- A resolved contract has the selected legs and the selected interval. -/
theorem contractAt_eq_ok {tables : CharTables} {family : DhanContractFamily} {pricingUnderlying : Decimal}
    {resolved : ResolvedDhanContract} (h : family.contractAt tables pricingUnderlying = .ok resolved) :
    (pricingUnderlying.IsFinite ∧ 0 < pricingUnderlying) ∧
      selectFiveStrikes family.optionRecords pricingUnderlying =
        .ok (resolved.contract.optionContracts, resolved.contract.strikeInterval) := by
  unfold DhanContractFamily.contractAt at h
  split at h
  · cases h
  rename_i hpositive
  obtain ⟨⟨selected, interval⟩, hselect, h⟩ := Except.bind_eq_ok.mp h
  obtain ⟨lotSize, -, h⟩ := Except.bind_eq_ok.mp h
  obtain ⟨tickSize, -, h⟩ := Except.bind_eq_ok.mp h
  cases h
  exact ⟨not_not.mp hpositive, hselect⟩

/-! ### A family of one commodity -/

/-- A leg of a crude-oil option. -/
def crudeLeg (symbol : String) (strike : Nat) (side : OptionType) (securityId : String) : InstrumentMasterRecord where
  instrument := ⟨.mcx, "MCX_COMM", securityId, symbol⟩
  displayName := symbol
  instrumentType := "OPTFUT"
  underlyingSecurityId := some "500"
  expiry := some (.utc 1783000000000000)
  strike := some (.finite false strike 0)
  optionType := some side
  lotSize := some 100
  tickSize := some (.finite false 1 (-1))

/-- Five strikes on both sides; the symbols are those the provider gives. -/
def crudeLegs (symbol : String → String) : List InstrumentMasterRecord :=
  [(6400, "1", "2"), (6450, "3", "4"), (6500, "5", "6"), (6550, "7", "8"), (6600, "9", "10")].flatMap
    fun (strike, callId, putId) =>
      [crudeLeg (symbol callId) strike .call callId, crudeLeg (symbol putId) strike .put putId]

def crudeFuture : InstrumentMasterRecord where
  instrument := ⟨.mcx, "MCX_COMM", "500", "CRUDEOIL"⟩
  displayName := "CRUDEOIL FUT"
  instrumentType := "FUTCOM"
  underlyingSecurityId := none
  expiry := some (.utc 1784000000000000)
  strike := none
  optionType := none
  lotSize := some 100
  tickSize := some 1

def crudeFamily (symbol : String → String) : DhanContractFamily where
  definition := ⟨"CRUDEOIL", .commodity, .black76⟩
  provenance := ⟨"b", "DHAN", "u", "h", "s", .utc 0, 11⟩
  underlying := crudeFuture
  future := crudeFuture
  optionExpiry := .utc 1783000000000000
  optionRecords := crudeLegs symbol
  optionChainSecurityId := "500"
  optionChainSegment := "MCX_COMM"
  historicalInstrument := "FUTCOM"

/-- The contract around a price of 6512. -/
def crudeContract (symbol : String → String) : ResolvedDhanContract where
  symbol := "CRUDEOIL"
  contract := {
    underlying := crudeFuture.instrument
    marketKind := .commodity
    pricingModel := .black76
    optionExpiry := .utc 1783000000000000
    lotSize := 100
    strikeInterval := 50
    tickSize := .finite false 1 (-1)
    master := ⟨"b", "DHAN", "u", "h", "s", .utc 0, 11⟩
    optionContracts := crudeLegs symbol
    futures := some crudeFuture }
  optionChainSecurityId := "500"
  optionChainSegment := "MCX_COMM"
  historicalSecurityId := "500"
  historicalSegment := "MCX_COMM"
  historicalInstrument := "FUTCOM"
  subscriptions := ("MCX_COMM", "500") :: (crudeLegs symbol).map subscriptionKey

end TecoQuant.Ingestion
