import TecoQuant.SignalEvaluation

/-! The side of a decision and the side of its plan. The leader of the plan is chosen by
`call_score >= put_score`, the side of the decision by `call_score > put_score`: they differ on a tie. -/

namespace TecoQuant.Signal.SignalPipeline

open Domain Ingestion Strategy

variable {p : SignalPipeline} {snapshot : AtomicSnapshot} {report : ValidationReport}
  {cs : List Candidate} {now : Datetime} {result : SignalPipelineResult}

/-- The pricing underlying has left the signal candle on a side. -/
def Breaks (snapshot : AtomicSnapshot) (side : OptionType) : Prop :=
  ∃ underlying, snapshot.market.pricingUnderlying snapshot.contract.marketKind = some underlying ∧
    match side with
    | .call => Decimal.less snapshot.context.signalCandleHigh underlying = .ok true
    | .put => Decimal.less underlying snapshot.context.signalCandleLow = .ok true

/-- The plan buys a leg of a side that the underlying confirms. -/
def PlansSide (snapshot : AtomicSnapshot) (result : SignalPipelineResult) (side : OptionType) : Prop :=
  (∃ plan, result.tradePlan = some plan ∧ plan.optionType = side) ∧ Breaks snapshot side

/-- The decision and the plan name the same side. -/
def SameSide (snapshot : AtomicSnapshot) (result : SignalPipelineResult) : Prop :=
  (result.decision = .buyCall → PlansSide snapshot result .call) ∧
    (result.decision = .buyPut → PlansSide snapshot result .put)

/-- The best scores of the two sides tie while every gate is open. -/
def BuysOnTie (p : SignalPipeline) (snapshot : AtomicSnapshot) (report : ValidationReport)
    (previousSnapshot : Option PreviousOptionSnapshot) (modeledGreeks : Option (List (String × Greeks)))
    (now : Datetime) : Prop :=
  ∃ previous cs, p.previousBySecurity snapshot previousSnapshot = .ok previous ∧
    p.candidates snapshot previous modeledGreeks = .ok cs ∧
    Binary64.Equal (sideScore cs .call) (sideScore cs .put) ∧
    ∃ c : Conclusion p snapshot report cs now, c.Opens

theorem confirmPriceAction_breaks {side : OptionType} {underlying : Decimal}
    (hunderlying : snapshot.market.pricingUnderlying snapshot.contract.marketKind = some underlying)
    (h : confirmPriceAction side underlying snapshot.context.signalCandleHigh
      snapshot.context.signalCandleLow = .ok true) : Breaks snapshot side := by
  unfold confirmPriceAction at h
  obtain ⟨_, -, h⟩ := Except.bind_eq_ok.mp h
  obtain ⟨_, -, h⟩ := Except.bind_eq_ok.mp h
  obtain ⟨_, -, h⟩ := Except.bind_eq_ok.mp h
  obtain ⟨_, -, h⟩ := Except.bind_eq_ok.mp h
  refine ⟨underlying, hunderlying, ?_⟩
  cases side with
  | call => exact arith_eq_ok.mp h
  | put => exact arith_eq_ok.mp h

/-- An evaluation computes one conclusion. -/
theorem Conclusion.unique (c c' : Conclusion p snapshot report cs now) : c = c' := by
  obtain ⟨confirmed, drafted, age, expirySeconds, hprice, hplan, haged, hexpires, hscores⟩ := c
  obtain ⟨confirmed', drafted', age', expirySeconds', hprice', hplan', haged', hexpires', hscores'⟩ := c'
  obtain rfl := Except.ok.inj (hprice.symm.trans hprice')
  obtain rfl := Except.ok.inj (hplan.symm.trans hplan')
  obtain rfl := Except.ok.inj (haged.symm.trans haged')
  obtain rfl := Except.ok.inj (hexpires.symm.trans hexpires')
  rfl

namespace Conclusion

theorem scores_finite (c : Conclusion p snapshot report cs now) :
    (sideScore cs .call).IsFinite ∧ (sideScore cs .put).IsFinite :=
  ⟨Binary64.isFinite_of_between (by trivial) (by trivial) c.scores.1,
    Binary64.isFinite_of_between (by trivial) (by trivial) c.scores.2⟩

/-- Behind open gates the plan buys the leader's side, and the price confirms it. -/
theorem opens_plans (c : Conclusion p snapshot report cs now) (h : c.Opens)
    (hplan : result.tradePlan = c.drafted.map fun pair => pair.1.finalize result.decision) :
    ∃ leader, leading (best cs .call) (best cs .put) = some leader ∧
      PlansSide snapshot result leader.quote.optionType := by
  obtain ⟨d, position, leader, ask, riskDistance, hdrafted, -, hleader, -, -, hdraft⟩ := c.opens_drafted h
  obtain ⟨underlying, hunderlying, hconfirmed⟩ := c.opens_confirmed h hleader
  obtain ⟨_, _, -, -, -, hside, -⟩ := draftPlan_eq_ok hdraft
  rw [hdrafted] at hplan
  exact ⟨leader, hleader, ⟨_, hplan, hside⟩, confirmPriceAction_breaks hunderlying hconfirmed⟩

/-- The leader is a call when the calls do not score less. -/
theorem leader_call {leader : Candidate}
    (hleader : leading (best cs .call) (best cs .put) = some leader)
    (hscore : sideScore cs .put ≤ sideScore cs .call) : leader.quote.optionType = .call := by
  rw [leading_eq, if_pos hscore] at hleader
  exact (best_eq_some hleader).2.1

theorem leader_put {leader : Candidate}
    (hleader : leading (best cs .call) (best cs .put) = some leader)
    (hscore : ¬sideScore cs .put ≤ sideScore cs .call) : leader.quote.optionType = .put := by
  rw [leading_eq, if_neg hscore] at hleader
  exact (best_eq_some hleader).2.1

end Conclusion

/-- The decision and the plan name the same side, unless the best scores tie behind open gates. -/
theorem evaluate_sameSide_iff (p : SignalPipeline) (snapshot : AtomicSnapshot) (report : ValidationReport)
    (previousSnapshot : Option PreviousOptionSnapshot) (modeledGreeks : Option (List (String × Greeks)))
    (now : Datetime) (result : SignalPipelineResult)
    (h : p.evaluate snapshot report previousSnapshot modeledGreeks now = .ok result) :
    SameSide snapshot result ↔ ¬BuysOnTie p snapshot report previousSnapshot modeledGreeks now := by
  obtain ⟨-, -, -, previous, cs, hprevious, hcandidates, hconclude⟩ := evaluate_eq_ok h
  obtain ⟨c, hdecision, hplan, -⟩ := conclude_eq_ok hconclude
  obtain ⟨hcall, hput⟩ := c.scores_finite
  constructor
  · rintro hsame ⟨previous', cs', hprevious', hcandidates', htie, c', hopen⟩
    obtain rfl := Except.ok.inj (hprevious.symm.trans hprevious')
    obtain rfl := Except.ok.inj (hcandidates.symm.trans hcandidates')
    rw [Conclusion.unique c' c] at hopen
    -- On a tie the decision is BUY_PUT, but the leader is the best call.
    have hbuy : result.decision = .buyPut :=
      hdecision.trans (buyPut_iff.mpr ⟨hopen, (Binary64.not_lt_iff hput hcall).mpr htie.1⟩)
    obtain ⟨⟨plan, hsome, hside⟩, -⟩ := hsame.2 hbuy
    obtain ⟨leader, hleader, ⟨plan', hsome', hside'⟩, -⟩ := c.opens_plans hopen hplan
    obtain rfl := Option.some.inj (hsome.symm.trans hsome')
    exact absurd (hside.symm.trans (hside'.trans (Conclusion.leader_call hleader htie.2))) (by decide)
  · intro hties
    constructor
    · intro hbuy
      obtain ⟨hopen, hless⟩ := buyCall_iff.mp (hdecision.symm.trans hbuy)
      obtain ⟨leader, hleader, hplans⟩ := c.opens_plans hopen hplan
      have hle : sideScore cs .put ≤ sideScore cs .call :=
        (Binary64.le_iff hput hcall).mpr ((Binary64.lt_iff hput hcall).mp hless).le
      rwa [Conclusion.leader_call hleader hle] at hplans
    · intro hbuy
      obtain ⟨hopen, hless⟩ := buyPut_iff.mp (hdecision.symm.trans hbuy)
      obtain ⟨leader, hleader, hplans⟩ := c.opens_plans hopen hplan
      have hle : sideScore cs .call ≤ sideScore cs .put := (Binary64.not_lt_iff hput hcall).mp hless
      have hstrict : ¬sideScore cs .put ≤ sideScore cs .call := fun hge =>
        hties ⟨previous, cs, hprevious, hcandidates, ⟨hle, hge⟩, c, hopen⟩
      rwa [Conclusion.leader_put hleader hstrict] at hplans

/-- A previous snapshot of the same stream with a smaller sequence is used if its time allows it. -/
theorem previousBySecurity_compatible {previous : PreviousOptionSnapshot}
    (hkey : previous.contractKey = snapshot.contract.contractKey) (hsource : previous.source = snapshot.source)
    (hsequence : previous.sequence < snapshot.sequence) :
    p.previousBySecurity snapshot (some previous) = do
      if ← notBefore previous.sourceTimestamp snapshot.sourceTimestamp then return []
      let interval ← totalSeconds snapshot.sourceTimestamp previous.sourceTimestamp
      if 0 < interval ∧ interval ≤ p.strategy.liveMaxAgeSeconds then return previous.optionChain
      return [] := by
  have hcompatible : ¬(previous.contractKey ≠ snapshot.contract.contractKey ∨
      previous.source ≠ snapshot.source ∨ snapshot.sequence ≤ previous.sequence) := by
    rintro (h | h | h)
    · exact h hkey
    · exact h hsource
    · exact absurd hsequence h.not_gt
  unfold previousBySecurity
  dsimp only
  rw [if_neg hcompatible]

section Tie

/-- Without a conflict gap equal scores may trade. -/
def gaplessConfig : StrategyConfig := { DEFAULT_STRATEGY_CONFIG with
  conflictGap := 0
  finite := by decide +kernel
  gap_range := by decide +kernel }

def gaplessPipeline : SignalPipeline where
  strategy := gaplessConfig
  evidence := DEFAULT_EVIDENCE_POLICY
  costPerLot := 0
  -- Not called below: the volatility ratio lies under its floor.
  log := id
  cost_finite := trivial
  cost_nonneg := by decide +kernel

def tieTime : Datetime := .utc 1000000000

def tieExpiry : Datetime := .utc 900000000000

def tieInstrument (securityId : String) : InstrumentId := ⟨.nse, "NSE_FNO", securityId, "NIFTY " ++ securityId⟩

def tieRecord (securityId : String) (side : OptionType) : InstrumentMasterRecord :=
  ⟨tieInstrument securityId, "NIFTY", "OPTIDX", some "13", tieExpiry, some 100, side, some 1, some 1⟩

def tieContract : ContractSpec where
  underlying := tieInstrument "13"
  marketKind := .index
  pricingModel := .blackScholes
  optionExpiry := tieExpiry
  lotSize := 1
  strikeInterval := 100
  tickSize := 1
  master := ⟨"batch", "DHAN", "url", "hash", "v1", tieTime, 2⟩
  optionContracts := [tieRecord "1" .call, tieRecord "2" .put]
  futures := none

/-- The call and the put mirror each other. -/
def tieQuote (securityId : String) (side : OptionType) (ltp : Decimal) (delta : Binary64) : OptionQuote where
  securityId := securityId
  strike := 100
  optionType := side
  expiry := tieExpiry
  bid := some 100
  ask := some 100
  ltp := ltp
  volume := some 1000
  openInterest := some 1000
  previousOpenInterest := none
  changeOpenInterest := some 1
  impliedVolatility := some 0.49
  greeks := ⟨delta, none, none, none, none⟩
  observedAt := tieTime
  bidQuantity := none
  askQuantity := none
  previousClose := none
  changeOiSourceSnapshotId := none
  changeOiIntervalSeconds := none

def tieChain : List OptionQuote := [tieQuote "1" .call 100 0.575, tieQuote "2" .put 100 (-0.575)]

def tieMarket : MarketState := ⟨tieTime, some 100, some 100, none, none, none, none, none, none⟩

/-- Two of the four trend comparisons hold, and an RSI of 50 supports either side. -/
def tieTechnicals : TechnicalState :=
  ⟨tieTime, some 99, some 101, some 100, some 101, some 50, some 20, some 1, "15m", true⟩

/-- The underlying of 100 is above the signal candle. -/
def tieContext : StrategyContext := ⟨.pro, .intraday, 10000, 0.02, 1, some false, none, 99, 98, 1⟩

def tieSnapshot : AtomicSnapshot where
  snapshotId := "snapshot"
  sequence := 2
  source := .dhanRest
  sourceTimestamp := tieTime
  receivedAt := tieTime
  contract := tieContract
  market := tieMarket
  technicals := tieTechnicals
  context := tieContext
  optionChain := tieChain
  strategyVersion := STRATEGY_VERSION
  metadata := [("normalized_component_hashes",
    stringDict (normalizedComponentHashes tieContract tieMarket tieTechnicals tieContext tieChain))]
  hashed := rfl

def tieReport : ValidationReport := ⟨[], tieSnapshot.snapshotId, contentHash tieSnapshot⟩

/-- Ten seconds earlier both premiums were lower. -/
def tiePrevious : PreviousOptionSnapshot where
  snapshotId := "previous"
  sequence := 1
  source := .dhanRest
  sourceTimestamp := .utc 990000000
  contractKey := tieContract.contractKey
  optionChain := [tieQuote "1" .call 98 0.575, tieQuote "2" .put 98 (-0.575)]

theorem tie_previous :
    gaplessPipeline.previousBySecurity tieSnapshot (some tiePrevious) = .ok tiePrevious.optionChain :=
  (previousBySecurity_compatible rfl rfl (by decide)).trans (by decide +kernel)

/-- The decision is BUY_PUT, the plan buys the call. -/
theorem tie_evaluates :
    ∃ result, gaplessPipeline.evaluate tieSnapshot tieReport (some tiePrevious) none tieTime = .ok result ∧
      result.decision = .buyPut ∧ result.tradePlan.map TradePlan.optionType = some .call := by
  have hconclude : (gaplessPipeline.candidates tieSnapshot tiePrevious.optionChain none >>= fun cs =>
      gaplessPipeline.conclude tieSnapshot tieReport cs tieTime).map (fun result =>
        (result.decision, result.tradePlan.map TradePlan.optionType)) = .ok (.buyPut, some .call) := by
    decide +kernel
  obtain ⟨result, hresult, hview⟩ := Except.map_eq_ok.mp hconclude
  refine ⟨result, ?_, (Prod.mk.inj hview).1, (Prod.mk.inj hview).2⟩
  unfold evaluate requireBoundReport
  rw [require_bind (by decide), require_bind ⟨rfl, rfl⟩, tie_previous]
  exact hresult

theorem evaluate_buys_other_side :
    ¬∀ (p : SignalPipeline) (snapshot : AtomicSnapshot) (report : ValidationReport)
      (previousSnapshot : Option PreviousOptionSnapshot) (modeledGreeks : Option (List (String × Greeks)))
      (now : Datetime) (result : SignalPipelineResult),
      p.evaluate snapshot report previousSnapshot modeledGreeks now = .ok result → SameSide snapshot result := by
  intro hsame
  obtain ⟨result, hresult, hdecision, hside⟩ := tie_evaluates
  obtain ⟨⟨plan, hplan, hput⟩, -⟩ := (hsame _ _ _ _ _ _ _ hresult).2 hdecision
  rw [hplan] at hside
  exact absurd (hput.symm.trans (Option.some.inj hside)) (by decide)

/-- The theorem at the tie. -/
theorem evaluate_sameSide_iff_tie :
    ∃ result, gaplessPipeline.evaluate tieSnapshot tieReport (some tiePrevious) none tieTime = .ok result ∧
      (SameSide tieSnapshot result ↔
        ¬BuysOnTie gaplessPipeline tieSnapshot tieReport (some tiePrevious) none tieTime) := by
  obtain ⟨result, hresult, -⟩ := tie_evaluates
  exact ⟨result, hresult, evaluate_sameSide_iff _ _ _ _ _ _ result hresult⟩

end Tie

end TecoQuant.Signal.SignalPipeline
