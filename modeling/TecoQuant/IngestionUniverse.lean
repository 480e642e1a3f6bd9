import TecoQuant.BaseSaturation
import TecoQuant.IngestionCatalog

/-! The supported universe, and the filter of the instrument master that keeps its complete families. -/

namespace TecoQuant.Ingestion

open Domain Api

/-- A definition of the supported universe, with the names its records go by. -/
structure SupportedDefinition extends UniverseDefinition where
  aliases : List String
  exchange : Exchange
  deriving DecidableEq, Repr

/-- `SUPPORTED_UNIVERSE`. -/
def supportedUniverse : List SupportedDefinition := [
  ⟨⟨"NIFTY", .index, .blackScholes⟩, ["NIFTY", "NIFTY 50"], .nse⟩,
  ⟨⟨"BANKNIFTY", .index, .blackScholes⟩, ["BANKNIFTY", "NIFTY BANK"], .nse⟩,
  ⟨⟨"SENSEX", .index, .blackScholes⟩, ["SENSEX", "BSE SENSEX"], .bse⟩,
  ⟨⟨"RELIANCE", .stock, .blackScholes⟩, ["RELIANCE", "RELIANCE INDUSTRIES", "RELIANCE INDUSTRIES LTD"], .nse⟩,
  ⟨⟨"TCS", .stock, .blackScholes⟩, ["TCS", "TATA CONSULTANCY SERVICES", "TATA CONSULTANCY SERVICES LTD"], .nse⟩,
  ⟨⟨"INFY", .stock, .blackScholes⟩, ["INFY", "INFOSYS"], .nse⟩,
  ⟨⟨"GOLD", .commodity, .black76⟩, ["GOLD"], .mcx⟩,
  ⟨⟨"CRUDEOIL", .commodity, .black76⟩, ["CRUDEOIL", "CRUDE OIL"], .mcx⟩,
  ⟨⟨"SILVER", .commodity, .black76⟩, ["SILVER"], .mcx⟩]

structure NormalizedInstrumentRecord where
  exchange : String
  segment : String
  securityId : String
  symbol : String
  displayName : String
  instrument : String
  instrumentType : String
  underlyingSecurityId : Option String
  underlyingSymbol : Option String
  expiry : Option String
  strike : Option Decimal
  optionType : Option OptionType
  lotSize : Option Int
  tickSize : Option Decimal
  deriving DecidableEq, Repr

/-! ### Names -/

/-- `text.upper()`. -/
def capitals (tables : CharTables) (text : String) : List Char := text.toList.flatMap tables.upper

/-- `_token`: the letters and digits of the capitals. -/
def token (tables : CharTables) (value : String) : String :=
  String.ofList ((capitals tables value).filter tables.isAlnum)

/-- A character of `[A-Z0-9]`. -/
def wordChar (c : Char) : Bool := ('A' ≤ c && c ≤ 'Z') || ('0' ≤ c && c ≤ '9')

/-- The first alphanumeric word of the capitals, empty when there is none. -/
def firstWord (tables : CharTables) (value : String) : String :=
  String.ofList (((capitals tables value).dropWhile (!wordChar ·)).takeWhile wordChar)

/-- A whole name is an alias, or the first word of the trading or display symbol is. -/
def relatedToDefinition (tables : CharTables) (record : NormalizedInstrumentRecord)
    (definition : SupportedDefinition) : Bool :=
  let aliases := definition.aliases.map (token tables)
  let isAlias (value : String) : Bool := value ≠ "" && decide (token tables value ∈ aliases)
  [record.underlyingSymbol.getD "", record.symbol, record.displayName].any isAlias ||
    ([record.symbol, record.displayName].map (firstWord tables)).any isAlias

/-- A definition of the record's exchange names it. -/
def matchesDefinition (tables : CharTables) (record : NormalizedInstrumentRecord) : Bool :=
  supportedUniverse.any fun definition =>
    record.exchange = definition.exchange.value && relatedToDefinition tables record definition

/-! ### Families -/

/-- The pairs of an exchange and a security id under which a record is related to others: its own, and that of its
underlying when it names one. -/
def NormalizedInstrumentRecord.identities (record : NormalizedInstrumentRecord) : List (String × String) :=
  (record.exchange, record.securityId) ::
    (record.underlyingSecurityId.toList.filter (· ≠ "")).map fun underlying => (record.exchange, underlying)

/-- The order of the keys `(exchange, segment, security_id)`. -/
def MasterKeyLe (left right : NormalizedInstrumentRecord) : Prop :=
  left.exchange < right.exchange ∨ left.exchange = right.exchange ∧
    (left.segment < right.segment ∨ left.segment = right.segment ∧ ¬right.securityId < left.securityId)

instance decidableMasterKeyLe : DecidableRel MasterKeyLe :=
  fun left right => inferInstanceAs (Decidable (left.exchange < right.exchange ∨ left.exchange = right.exchange ∧
    (left.segment < right.segment ∨ left.segment = right.segment ∧ ¬right.securityId < left.securityId)))

/-- Keep complete derivative families: the records of the definitions, and by repeated sweeps those that share an
identity with a record already kept. -/
def filterSupportedInstruments (tables : CharTables) (walk : Saturation.Walk)
    (records : List NormalizedInstrumentRecord) : List NormalizedInstrumentRecord :=
  let state := Saturation.close NormalizedInstrumentRecord.identities (matchesDefinition tables) records
  (Saturation.recordsAt walk records state).insertionSort MasterKeyLe

/-- The record is connected to one that a definition names. -/
def InUniverse (tables : CharTables) (records : List NormalizedInstrumentRecord)
    (record : NormalizedInstrumentRecord) : Prop :=
  Saturation.Reached NormalizedInstrumentRecord.identities (matchesDefinition tables) records record

variable (tables : CharTables) (walk : Saturation.Walk) (records : List NormalizedInstrumentRecord)

open Classical in
theorem filterSupportedInstruments_perm :
    (filterSupportedInstruments tables walk records).Perm (records.filter fun record => InUniverse tables records record) :=
  (List.perm_insertionSort _ _).trans (Saturation.recordsAt_close_perm _ _ _ walk)

theorem mem_filterSupportedInstruments {record : NormalizedInstrumentRecord} :
    record ∈ filterSupportedInstruments tables walk records ↔ InUniverse tables records record := by
  classical
  rw [(filterSupportedInstruments_perm tables walk records).mem_iff, List.mem_filter, decide_eq_true_eq]
  exact and_iff_right_of_imp Saturation.Reached.mem

/-- What is kept does not depend on the order of the master, nor on that in which the selection is walked. -/
theorem filterSupportedInstruments_shuffled (walk' : Saturation.Walk) {shuffled : List NormalizedInstrumentRecord}
    (h : records.Perm shuffled) :
    (filterSupportedInstruments tables walk records).Perm (filterSupportedInstruments tables walk' shuffled) := by
  classical
  have hsame : (fun record => decide (InUniverse tables records record)) =
      fun record => decide (InUniverse tables shuffled record) :=
    funext fun record => decide_eq_decide.mpr (Saturation.reached_congr h)
  have hkept := filterSupportedInstruments_perm tables walk' shuffled
  rw [← hsame] at hkept
  exact (filterSupportedInstruments_perm tables walk records).trans ((h.filter _).trans hkept.symm)

open Classical in
/-- The filter keeps the least closure of the named records under shared identities. -/
theorem filterSupportedInstruments_leastClosure (tables : CharTables) (walk : Saturation.Walk)
    (records : List NormalizedInstrumentRecord) :
    (filterSupportedInstruments tables walk records).Perm
        (records.filter fun record => Saturation.Reached NormalizedInstrumentRecord.identities
          (matchesDefinition tables) records record) ∧
      (∀ record ∈ filterSupportedInstruments tables walk records, ∀ other ∈ records,
        (∃ identity ∈ record.identities, identity ∈ other.identities) →
          other ∈ filterSupportedInstruments tables walk records) ∧
      (∀ family : NormalizedInstrumentRecord → Prop,
        (∀ record ∈ records, matchesDefinition tables record = true → family record) →
        (∀ record ∈ records, ∀ other ∈ records, family record →
          (∃ identity ∈ record.identities, identity ∈ other.identities) → family other) →
        ∀ record ∈ filterSupportedInstruments tables walk records, family record) ∧
      ∀ (walk' : Saturation.Walk) (shuffled : List NormalizedInstrumentRecord), records.Perm shuffled →
        (filterSupportedInstruments tables walk records).Perm (filterSupportedInstruments tables walk' shuffled) := by
  refine ⟨filterSupportedInstruments_perm tables walk records, ?_, ?_, ?_⟩
  · intro record hrecord other hother hshared
    rw [mem_filterSupportedInstruments] at hrecord ⊢
    exact hrecord.linked ⟨hother, hshared⟩
  · intro family hnamed hclosed record hrecord
    rw [mem_filterSupportedInstruments] at hrecord
    exact hrecord.induction hnamed hclosed
  · exact fun walk' shuffled h => filterSupportedInstruments_shuffled tables walk records walk' h

end TecoQuant.Ingestion
