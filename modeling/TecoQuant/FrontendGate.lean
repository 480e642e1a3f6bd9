import Mathlib.Data.Rat.Floor
import TecoQuant.BaseText

/-! The browser's two authorities over one snapshot: the operational gate and the risk trade plan. Strikes
are finite numbers. What the language leaves to its engine (the parsing of dates, the text of a number) and
the sizing of a position, which is floating point, are parameters. -/

namespace TecoQuant.Frontend

/-- The white space and line ends that `trim` removes. -/
def isTrimmed (c : Char) : Bool :=
  let n := c.toNat
  (9 ≤ n && n ≤ 13) || n == 32 || n == 0xa0 || n == 0x1680 || (0x2000 ≤ n && n ≤ 0x200a) || n == 0x2028 ||
    n == 0x2029 || n == 0x202f || n == 0x205f || n == 0x3000 || n == 0xfeff

/-- `text.trim()`. -/
def trim (text : String) : String :=
  String.ofList ((text.toList.dropWhile isTrimmed).reverse.dropWhile isTrimmed).reverse

/-- A number of the language, by its value. -/
inductive Number where
  | nan
  | negInfinity
  | finite (value : ℚ)
  | infinity
  deriving DecidableEq

/-- `left > right`. -/
def Number.gt : Number → Number → Bool
  | .nan, _ | _, .nan => false
  | .infinity, right => right ≠ .infinity
  | .negInfinity, _ => false
  | .finite _, .infinity => false
  | .finite _, .negInfinity => true
  | .finite left, .finite right => right < left

/-- What the engine decides: the time value of a date text, none when it is invalid, and the text of a
number. -/
structure Engine where
  parseDate : String → Option Int
  numberText : Number → String

inductive Decision where
  | buyCall | buyPut | wait | noTrade | insufficientData
  deriving DecidableEq, Repr

def Decision.text : Decision → String
  | .buyCall => "BUY CALL"
  | .buyPut => "BUY PUT"
  | .wait => "WAIT"
  | .noTrade => "NO TRADE"
  | .insufficientData => "INSUFFICIENT DATA"

inductive DataMode where
  | demo | live | stale
  deriving DecidableEq, Repr

def DataMode.text : DataMode → String
  | .demo => "DEMO"
  | .live => "LIVE"
  | .stale => "STALE"

inductive Side where
  | ce | pe
  deriving DecidableEq, Repr

def Side.text : Side → String
  | .ce => "CE"
  | .pe => "PE"

structure CalculatorInput where
  id : String
  effectiveValue : String
  deriving DecidableEq

structure OptionLeg where
  securityId : String
  deriving DecidableEq

structure OptionStrike where
  strike : ℚ
  call : Option OptionLeg
  put : Option OptionLeg
  deriving DecidableEq

structure RankingEntry where
  side : Side
  strike : ℚ
  askEntry : Number
  rejectionReasons : List String
  deriving DecidableEq

structure BackendSnapshotAuthority where
  complete : Bool
  fresh : Bool
  actionable : Bool
  blockers : List String
  validationAccepted : Bool
  deriving DecidableEq

/-- The parts of a snapshot that the two authorities read. -/
structure MarketSnapshot where
  expiry : String
  lotSize : Number
  capturedAt : String
  dataMode : DataMode
  inputs : List CalculatorInput
  chain : List OptionStrike
  decision : Decision
  ranking : List RankingEntry
  backendAuthority : Option BackendSnapshotAuthority
  deriving DecidableEq

/-! ### The operational gate -/

inductive BackendConnectionState where
  | connected | disconnected | stale | notConfigured
  deriving DecidableEq, Repr

inductive GateCode where
  | ready | demoData | staleData | backendUnavailable | missingStrikes | invalidExpiry | eventRisk
  | backendBlocked | noEligibleStrike | nonActionableDecision
  deriving DecidableEq, Repr

structure OperationalGate where
  code : GateCode
  decision : Decision
  signalingAllowed : Bool
  reason : String
  dataAgeSeconds : Number

/-- The options of the gate; a date may be invalid. -/
structure GateOptions where
  connectionState : Option BackendConnectionState
  now : Option (Option Int)
  staleAfterSeconds : Option Number

/-- `snapshot.inputs.find((input) => input.id === id)?.effectiveValue`. -/
def effectiveInput (snapshot : MarketSnapshot) (id : String) : Option String :=
  (snapshot.inputs.find? (·.id = id)).map CalculatorInput.effectiveValue

/-- A missing value is not active. -/
def eventRiskIsActive (snapshot : MarketSnapshot) : Bool :=
  match effectiveInput snapshot "event_risk" with
  | none => false
  | some value => PyText.upper (trim value) ∉ ["CLEAR", "NO", "FALSE", "0"]

/-- `/^\d{4}-\d{2}-\d{2}$/`. -/
def IsDateText (value : String) : Prop :=
  value.length = 10 ∧ ∀ item ∈ value.toList.zipIdx, if item.2 = 4 ∨ item.2 = 7 then item.1 = '-' else item.1.isDigit

instance (value : String) : Decidable (IsDateText value) := inferInstanceAs (Decidable (_ ∧ _))

def optionExpiryInstant (engine : Engine) (value : String) : Option Int :=
  let normalized := trim value
  engine.parseDate (if IsDateText normalized then normalized ++ "T23:59:59+05:30" else normalized)

/-- The whole seconds from the capture to now, from zero up. -/
def dataAgeSeconds (capturedAt now : Option Int) : Number :=
  match capturedAt, now with
  | none, _ => .infinity
  | some _, none => .nan
  | some capturedAt, some now => .finite (max 0 ((now - capturedAt) / 1000))

/-- `expiry <= capturedAt`, false when the capture is invalid. -/
def expiresBy (expiry : Int) (capturedAt : Option Int) : Bool :=
  match capturedAt with
  | none => false
  | some capturedAt => expiry ≤ capturedAt

def OptionStrike.incomplete (row : OptionStrike) : Bool := row.call.isNone || row.put.isNone

def BackendSnapshotAuthority.blocked (authority : BackendSnapshotAuthority) : Bool :=
  !authority.complete || !authority.fresh || !authority.validationAccepted || !authority.actionable

/-- The gate of a snapshot, at the clock of the engine when the options name no time. -/
def evaluateOperationalGate (engine : Engine) (clock : Int) (snapshot : MarketSnapshot) (options : GateOptions) :
    OperationalGate :=
  let now := options.now.getD (some clock)
  let staleAfterSeconds := options.staleAfterSeconds.getD (.finite 30)
  let capturedAt := engine.parseDate snapshot.capturedAt
  let age := dataAgeSeconds capturedAt now
  if snapshot.chain.length ≠ 5 ∨ snapshot.chain.any OptionStrike.incomplete then
    ⟨.missingStrikes, .insufficientData, false,
      "The complete ATM−2 through ATM+2 chain is unavailable.", age⟩
  else
    let expiry := optionExpiryInstant engine snapshot.expiry
    if expiry = none ∨ ∃ instant ∈ expiry, expiresBy instant capturedAt then
      ⟨.invalidExpiry, .noTrade, false,
        "The selected option expiry is invalid or already expired at the snapshot time.", age⟩
    else if eventRiskIsActive snapshot then
      ⟨.eventRisk, .noTrade, false, "The event-risk gate is active.", age⟩
    else if snapshot.dataMode = .demo then
      ⟨.demoData, .noTrade, false, "Demo data cannot generate an operational signal.", age⟩
    else if snapshot.dataMode = .stale ∨ age.gt staleAfterSeconds then
      ⟨.staleData, .noTrade, false,
        "Market data is older than the " ++ engine.numberText staleAfterSeconds ++ "-second limit.", age⟩
    else if options.connectionState ≠ none ∧ options.connectionState ≠ some .connected then
      ⟨.backendUnavailable, .noTrade, false, "The validated backend read service is unavailable.", age⟩
    else
      match snapshot.backendAuthority.filter BackendSnapshotAuthority.blocked with
      | some authority =>
          ⟨.backendBlocked, .noTrade, false, authority.blockers.head?.getD
            "The backend has not authorized this analytical snapshot as actionable.", age⟩
      | none =>
          if ¬∃ entry ∈ snapshot.ranking, entry.rejectionReasons = [] then
            ⟨.noEligibleStrike, .noTrade, false,
              "Every candidate strike has at least one rejection reason.", age⟩
          else if snapshot.decision = .buyCall ∨ snapshot.decision = .buyPut then
            ⟨.ready, snapshot.decision, true,
              "Validated data and the analytical decision are operationally eligible.", age⟩
          else
            ⟨.nonActionableDecision, snapshot.decision, false,
              "The analytical result is not an actionable directional decision.", age⟩

/-! ### The risk trade plan -/

/-- The overrides of the charge schedule. -/
structure ChargeOverrides where
  fixedPerOrder : Option Number
  entryNotionalRate : Option Number
  exitNotionalRate : Option Number

structure RiskControls where
  capital : Number
  riskPercent : Number
  allocationPercent : Number
  stop : Number
  charges : Option ChargeOverrides

structure PositionSizingRequest extends RiskControls where
  entryAsk : Number
  lotSize : Number

/-- The parts of a sizing that the plan reads. -/
inductive PositionSizing where
  | invalid (errors : List String)
  | valid (recommendedLots : Nat) (affordabilityMessage : Option String)

/-- The blockers of a sizing: its errors, or that no lot is affordable. -/
def PositionSizing.blockers : PositionSizing → List String
  | .invalid errors => errors
  | .valid 0 (some message) => [message]
  | .valid _ _ => []

structure ResolvedRankedLeg where
  key : String
  ranking : RankingEntry
  leg : Option OptionLeg

structure RiskTradePlan where
  selected : Option ResolvedRankedLeg
  sizing : Option PositionSizing
  dataMode : DataMode
  effectiveEventRisk : Option String
  decision : Decision
  actionable : Bool
  blockers : List String

def rankedLegKey (engine : Engine) (entry : RankingEntry) : String :=
  engine.numberText (.finite entry.strike) ++ ":" ++ entry.side.text

/-- The first entry of a key, when the chain has its strike. -/
def resolveRankedLeg (engine : Engine) (snapshot : MarketSnapshot) (selectedLegKey : String) :
    Option ResolvedRankedLeg := do
  let ranking ← snapshot.ranking.find? (rankedLegKey engine · = selectedLegKey)
  let row ← snapshot.chain.find? (·.strike = ranking.strike)
  return ⟨selectedLegKey, ranking, if ranking.side = .ce then row.call else row.put⟩

/-- The decision that authorizes a side. -/
def Side.requiredDecision (side : Side) : Decision := if side = .ce then .buyCall else .buyPut

/-- The blockers of a selected leg other than those of its sizing, in order. -/
def planBlockers (snapshot : MarketSnapshot) (eventRisk : Option String) (ranking : RankingEntry) : List String :=
  (if snapshot.dataMode ≠ .live then
    ["Live market data is required; current data mode is " ++ snapshot.dataMode.text ++ "."] else []) ++
  (if eventRisk.map PyText.upper ≠ some "CLEAR" then
    ["Event risk must be explicitly CLEAR; effective value is " ++ eventRisk.getD "MISSING" ++ "."] else []) ++
  (if snapshot.decision ≠ ranking.side.requiredDecision then
    ["Decision " ++ snapshot.decision.text ++ " does not authorize " ++ ranking.side.text ++ "."] else []) ++
  (if ranking.rejectionReasons ≠ [] then
    ["Selected contract is rejected: " ++ "; ".intercalate ranking.rejectionReasons ++ "."] else []) ++
  match snapshot.backendAuthority with
  | none => []
  | some authority =>
      if authority.actionable then []
      else [authority.blockers.head?.getD "The backend has not authorized this snapshot as actionable."]

/-- The plan of a selected leg under the controls. -/
def buildRiskTradePlan (engine : Engine) (calculatePositionSize : PositionSizingRequest → PositionSizing)
    (snapshot : MarketSnapshot) (selectedLegKey : String) (controls : RiskControls) : RiskTradePlan :=
  let selected := resolveRankedLeg engine snapshot selectedLegKey
  let eventRisk := (effectiveInput snapshot "event_risk").map trim
  match selected with
  | none =>
      ⟨none, none, snapshot.dataMode, eventRisk, snapshot.decision, false,
        ["Select a ranked contract before sizing a position."]⟩
  | some leg =>
      let sizing := calculatePositionSize ⟨controls, leg.ranking.askEntry, snapshot.lotSize⟩
      let blockers := sizing.blockers ++ planBlockers snapshot eventRisk leg.ranking
      ⟨some leg, some sizing, snapshot.dataMode, eventRisk, snapshot.decision, blockers = [], blockers⟩

/-! ### Where the two agree -/

section

variable {engine : Engine} {clock : Int} {snapshot : MarketSnapshot} {options : GateOptions}
  {calculatePositionSize : PositionSizingRequest → PositionSizing}

/-- What the gate has checked when it lets a snapshot signal. -/
theorem signals_checked (h : (evaluateOperationalGate engine clock snapshot options).signalingAllowed = true) :
    eventRiskIsActive snapshot = false ∧ snapshot.dataMode = .live ∧
      (∀ authority ∈ snapshot.backendAuthority, authority.actionable = true) ∧
      (∃ entry ∈ snapshot.ranking, entry.rejectionReasons = []) ∧
      (snapshot.decision = .buyCall ∨ snapshot.decision = .buyPut) := by
  unfold evaluateOperationalGate at h
  cases hauthority : snapshot.backendAuthority.filter BackendSnapshotAuthority.blocked with
  | some authority =>
      simp only [hauthority] at h
      split_ifs at h
  | none =>
      simp only [hauthority] at h
      split_ifs at h with hchain hexpiry hrisk hdemo hstale hconnection hranking hdecision
      refine ⟨by simpa using hrisk, ?_, fun authority hmem => ?_, hranking, hdecision⟩
      · cases hmode : snapshot.dataMode with
        | live => rfl
        | demo => exact absurd hmode hdemo
        | stale => exact absurd (.inl hmode) hstale
      · have hfree := Option.filter_eq_none_iff.mp hauthority authority hmem
        simp only [BackendSnapshotAuthority.blocked, Bool.or_eq_true, not_or, Bool.not_eq_true,
          Bool.not_eq_false'] at hfree
        exact hfree.2

/-- The event risk is present and clear by the rule of the plan. -/
def Cleared (snapshot : MarketSnapshot) : Prop :=
  ∃ value ∈ effectiveInput snapshot "event_risk", PyText.upper (trim value) = "CLEAR"

/-- The ranking offers a leg on the side of the decision: it is the first of its key, it is not rejected,
and the chain has its strike. -/
def Offered (engine : Engine) (snapshot : MarketSnapshot) : Prop :=
  ∃ entry ∈ snapshot.ranking,
    snapshot.ranking.find? (rankedLegKey engine · = rankedLegKey engine entry) = some entry ∧
    entry.rejectionReasons = [] ∧ snapshot.decision = entry.side.requiredDecision ∧
    ∃ row ∈ snapshot.chain, row.strike = entry.strike

/-- The plan of a leg has no blocker but those of its sizing, whatever the controls. -/
def Unblocked (engine : Engine) (calculatePositionSize : PositionSizingRequest → PositionSizing)
    (snapshot : MarketSnapshot) (entry : RankingEntry) : Prop :=
  ∀ controls, ∃ sizing,
    (buildRiskTradePlan engine calculatePositionSize snapshot (rankedLegKey engine entry) controls).sizing =
      some sizing ∧
    (buildRiskTradePlan engine calculatePositionSize snapshot (rankedLegKey engine entry) controls).blockers =
      sizing.blockers

/-- The plan agrees with a gate that lets a snapshot signal. -/
structure Agrees (engine : Engine) (calculatePositionSize : PositionSizingRequest → PositionSizing)
    (snapshot : MarketSnapshot) : Prop where
  leg : ∃ entry ∈ snapshot.ranking, Unblocked engine calculatePositionSize snapshot entry
  eventRisk : Cleared snapshot
  dataMode : snapshot.dataMode = .live
  offered : ∃ entry ∈ snapshot.ranking, entry.rejectionReasons = [] ∧
    snapshot.decision = entry.side.requiredDecision

theorem resolveRankedLeg_eq_some {key : String} {leg : ResolvedRankedLeg} :
    resolveRankedLeg engine snapshot key = some leg ↔ ∃ ranking row,
      snapshot.ranking.find? (rankedLegKey engine · = key) = some ranking ∧
      snapshot.chain.find? (·.strike = ranking.strike) = some row ∧
      leg = ⟨key, ranking, if ranking.side = .ce then row.call else row.put⟩ := by
  simp only [resolveRankedLeg, Option.bind_eq_bind, Option.bind_eq_some_iff, Option.pure_def, Option.some.injEq]
  constructor
  · rintro ⟨ranking, hranking, row, hrow, rfl⟩
    exact ⟨ranking, row, hranking, hrow, rfl⟩
  · rintro ⟨ranking, row, hranking, hrow, rfl⟩
    exact ⟨ranking, hranking, row, hrow, rfl⟩

/-- The other blockers of a leg are none exactly when the plan's own gates are clear. -/
theorem planBlockers_eq_nil {eventRisk : Option String} {ranking : RankingEntry} :
    planBlockers snapshot eventRisk ranking = [] ↔ snapshot.dataMode = .live ∧
      eventRisk.map PyText.upper = some "CLEAR" ∧ snapshot.decision = ranking.side.requiredDecision ∧
      ranking.rejectionReasons = [] ∧ ∀ authority ∈ snapshot.backendAuthority, authority.actionable = true := by
  have hauthority : (match snapshot.backendAuthority with
      | none => []
      | some authority => if authority.actionable then []
          else [authority.blockers.head?.getD "The backend has not authorized this snapshot as actionable."]) = [] ↔
      ∀ authority ∈ snapshot.backendAuthority, authority.actionable = true := by
    cases snapshot.backendAuthority <;> simp
  simp only [planBlockers, List.append_eq_nil_iff, hauthority, ite_eq_right_iff, List.cons_ne_nil, imp_false,
    not_not, and_assoc, ne_eq]

/-- A leg is unblocked when its key resolves to a leg that the plan's own gates let through. -/
theorem unblocked_iff {entry : RankingEntry} : Unblocked engine calculatePositionSize snapshot entry ↔
    ∃ leg, resolveRankedLeg engine snapshot (rankedLegKey engine entry) = some leg ∧
      planBlockers snapshot ((effectiveInput snapshot "event_risk").map trim) leg.ranking = [] := by
  unfold Unblocked buildRiskTradePlan
  cases hleg : resolveRankedLeg engine snapshot (rankedLegKey engine entry) with
  | none =>
      constructor
      · intro h
        obtain ⟨sizing, hsizing, -⟩ := h ⟨.nan, .nan, .nan, .nan, none⟩
        cases hsizing
      · rintro ⟨leg, hleg, -⟩
        cases hleg
  | some leg =>
      constructor
      · intro h
        obtain ⟨sizing, hsizing, hblockers⟩ := h ⟨.nan, .nan, .nan, .nan, none⟩
        cases hsizing
        exact ⟨leg, rfl, List.append_right_eq_self.mp hblockers⟩
      · rintro ⟨_, hsame, hblockers⟩ controls
        cases hsame
        exact ⟨_, rfl, List.append_right_eq_self.mpr hblockers⟩

theorem cleared_iff : Cleared snapshot ↔
    ((effectiveInput snapshot "event_risk").map trim).map PyText.upper = some "CLEAR" := by
  simp [Cleared, Option.map_eq_some_iff]

/-- Where the gate lets a snapshot signal, the plan agrees exactly when the event risk is present and clear
and the ranking offers a leg on the side of the decision. -/
theorem gate_agrees_iff (engine : Engine) (clock : Int)
    (calculatePositionSize : PositionSizingRequest → PositionSizing) (snapshot : MarketSnapshot)
    (options : GateOptions)
    (hsignals : (evaluateOperationalGate engine clock snapshot options).signalingAllowed = true) :
    Agrees engine calculatePositionSize snapshot ↔ Cleared snapshot ∧ Offered engine snapshot := by
  obtain ⟨-, hmode, hauthority, -, -⟩ := signals_checked hsignals
  constructor
  · rintro ⟨⟨entry, -, hunblocked⟩, hcleared, -, -⟩
    obtain ⟨leg, hleg, hblockers⟩ := unblocked_iff.mp hunblocked
    obtain ⟨ranking, row, hranking, hrow, rfl⟩ := resolveRankedLeg_eq_some.mp hleg
    obtain ⟨-, -, hside, hfree, -⟩ := planBlockers_eq_nil.mp hblockers
    have hkey : rankedLegKey engine ranking = rankedLegKey engine entry := by
      simpa using List.find?_some hranking
    refine ⟨hcleared, ranking, List.mem_of_find?_eq_some hranking, hkey ▸ hranking, hfree, hside, row,
      List.mem_of_find?_eq_some hrow, by simpa using List.find?_some hrow⟩
  · rintro ⟨hcleared, entry, hentry, hfirst, hfree, hside, row, hrow, hstrike⟩
    obtain ⟨found, hfound⟩ : ∃ found, snapshot.chain.find? (·.strike = entry.strike) = some found := by
      rw [← Option.isSome_iff_exists, List.find?_isSome]
      exact ⟨row, hrow, by simpa using hstrike⟩
    refine ⟨⟨entry, hentry, unblocked_iff.mpr ⟨_, resolveRankedLeg_eq_some.mpr
      ⟨entry, found, hfirst, hfound, rfl⟩, ?_⟩⟩, hcleared, hmode, entry, hentry, hfree, hside⟩
    exact planBlockers_eq_nil.mpr ⟨hmode, cleared_iff.mp hcleared, hside, hfree, hauthority⟩

end

/-! ### A snapshot -/

/-- An engine for two dates and every number. -/
def Engine.sample : Engine where
  parseDate text := if text = "2026-08-21T06:12:08Z" then some 1787292728000 else some 1787824800000
  numberText number := match number with
    | .finite value => toString value.num
    | _ => "NaN"

/-- A live snapshot that decides for a call, with one ranked leg of a side. -/
def sampleSnapshot (side : Side) (inputs : List CalculatorInput) : MarketSnapshot where
  expiry := "2026-08-27T15:30:00+05:30"
  lotSize := .finite 65
  capturedAt := "2026-08-21T06:12:08Z"
  dataMode := .live
  inputs := inputs
  chain := [24900, 24950, 25000, 25050, 25100].map fun strike => ⟨strike, some ⟨"call"⟩, some ⟨"put"⟩⟩
  decision := .buyCall
  ranking := [⟨side, 25000, .finite 120, []⟩]
  backendAuthority := some ⟨true, true, true, [], true⟩

def GateOptions.sample : GateOptions := ⟨some .connected, some (some 1787292740000), none⟩

theorem gate_agrees_iff_sample : Agrees .sample (fun _ => .valid 1 none)
    (sampleSnapshot .ce [⟨"event_risk", "CLEAR"⟩]) ↔ Cleared (sampleSnapshot .ce [⟨"event_risk", "CLEAR"⟩]) ∧
      Offered .sample (sampleSnapshot .ce [⟨"event_risk", "CLEAR"⟩]) :=
  gate_agrees_iff .sample 0 (fun _ => .valid 1 none) (sampleSnapshot .ce [⟨"event_risk", "CLEAR"⟩]) .sample
    (by decide +kernel)

/-- Without an event-risk input, or with a ranked leg of the other side only, the gate lets a snapshot signal
for which no plan is free of blockers. -/
theorem gate_disagrees :
    ((evaluateOperationalGate .sample 0 (sampleSnapshot .ce []) .sample).signalingAllowed = true ∧
      ∀ calculatePositionSize, ¬Agrees .sample calculatePositionSize (sampleSnapshot .ce [])) ∧
    (evaluateOperationalGate .sample 0 (sampleSnapshot .pe [⟨"event_risk", "CLEAR"⟩]) .sample).signalingAllowed =
      true ∧ ∀ calculatePositionSize,
        ¬Agrees .sample calculatePositionSize (sampleSnapshot .pe [⟨"event_risk", "CLEAR"⟩]) := by
  refine ⟨⟨by decide +kernel, fun _ h => ?_⟩, by decide +kernel, fun _ h => ?_⟩
  · obtain ⟨value, hvalue, -⟩ := h.eventRisk
    cases hvalue
  · obtain ⟨entry, hentry, -, hside⟩ := h.offered
    obtain rfl := List.mem_singleton.mp hentry
    cases hside

end TecoQuant.Frontend
