import TecoQuant.BaseBinary64Shortest
import TecoQuant.BaseDecimalError
import TecoQuant.SignalSides

/-! What a BUY decision guarantees: the report, the clocks, the event and mode gates, an eligible leg on
either side, the scores, and a plan whose prices and size stay within the account's limits up to the
rounding of the decimal context. -/

namespace TecoQuant.Signal.SignalPipeline

open Domain Ingestion Strategy

variable {p : SignalPipeline} {snapshot : AtomicSnapshot} {report : ValidationReport}
  {cs : List Candidate} {now : Datetime} {result : SignalPipelineResult}
  {previousSnapshot : Option PreviousOptionSnapshot} {modeledGreeks : Option (List (String × Greeks))}

/-! ### Eligible legs -/

/-- A leg of the chain that nothing speaks against. -/
structure EligibleLeg (p : SignalPipeline) (snapshot : AtomicSnapshot)
    (previousSnapshot : Option PreviousOptionSnapshot) (modeledGreeks : Option (List (String × Greeks)))
    (quote : OptionQuote) : Prop where
  listed : quote ∈ snapshot.optionChain
  unrejected : ∃ previous candidate, p.previousBySecurity snapshot previousSnapshot = .ok previous ∧
    p.scoreCandidate snapshot (evaluatedQuote modeledGreeks quote) (previousQuote previous quote.securityId) =
      .ok candidate ∧ candidate.rejectionReasons = []
  delta : ∃ delta, (evaluatedQuote modeledGreeks quote).greeks.delta = some delta ∧ delta.IsFinite ∧
    (p.strategy.deltaRange snapshot.context.tradingStyle).1 ≤ delta.abs ∧
      delta.abs ≤ (p.strategy.deltaRange snapshot.context.tradingStyle).2
  liquid : ∃ liquidity, liquidityScore quote.bid quote.ask quote.volume quote.openInterest p.strategy =
    .ok liquidity ∧ liquidity.eligible = true

/-- Replacing the Greeks leaves the rest of a quote alone. -/
theorem evaluatedQuote_eq (modeledGreeks : Option (List (String × Greeks))) (quote : OptionQuote) :
    ∃ greeks, evaluatedQuote modeledGreeks quote = { quote with greeks } := by
  unfold evaluatedQuote
  split
  · exact ⟨quote.greeks, rfl⟩
  · rename_i greeks
    cases greeks.lookup quote.securityId with
    | none => exact ⟨quote.greeks, rfl⟩
    | some modelled => exact ⟨modelled, rfl⟩

theorem quoteReasons_nil {quote : OptionQuote} {previous : Option OptionQuote}
    (h : p.quoteReasons snapshot quote previous = .ok []) :
    ∃ delta, quote.greeks.delta = some delta ∧ delta.IsFinite ∧
      (p.strategy.deltaRange snapshot.context.tradingStyle).1 ≤ delta.abs ∧
        delta.abs ≤ (p.strategy.deltaRange snapshot.context.tradingStyle).2 := by
  unfold quoteReasons at h
  obtain ⟨missing, -, h⟩ := Except.bind_eq_ok.mp h
  have hnil := Except.ok.inj h
  obtain ⟨-, hdelta⟩ := List.append_eq_nil_iff.mp hnil
  cases hvalue : quote.greeks.delta with
  | none => simp [hvalue] at hdelta
  | some delta =>
      rw [hvalue] at hdelta
      dsimp only at hdelta
      split at hdelta
      · cases hdelta
      · rename_i hfinite
        split at hdelta
        · rename_i hrange
          exact ⟨delta, rfl, not_not.mp hfinite, hrange⟩
        · cases hdelta

/-- What makes a scored candidate eligible. -/
theorem scoreCandidate_eligible {quote : OptionQuote} {previous : Option OptionQuote} {c : Candidate}
    (h : p.scoreCandidate snapshot quote previous = .ok c) :
    c.quote = quote ∧ (c.eligible = true → c.rejectionReasons = [] ∧
      (∃ delta, quote.greeks.delta = some delta ∧ delta.IsFinite ∧
        (p.strategy.deltaRange snapshot.context.tradingStyle).1 ≤ delta.abs ∧
          delta.abs ≤ (p.strategy.deltaRange snapshot.context.tradingStyle).2) ∧
      ∃ liquidity, liquidityScore quote.bid quote.ask quote.volume quote.openInterest p.strategy = .ok liquidity ∧
        liquidity.eligible = true) := by
  unfold scoreCandidate at h
  obtain ⟨liquidity, hliquidity, h⟩ := Except.bind_eq_ok.mp h
  obtain ⟨reasons, hreasons, h⟩ := Except.bind_eq_ok.mp h
  obtain ⟨factors, -, h⟩ := Except.bind_eq_ok.mp h
  obtain ⟨riskDistance, -, h⟩ := Except.bind_eq_ok.mp h
  obtain ⟨evidence, -, h⟩ := Except.bind_eq_ok.mp h
  cases h
  refine ⟨rfl, fun heligible => ?_⟩
  obtain ⟨hnone, -, heligible⟩ := of_decide_eq_true heligible
  obtain ⟨-, hquote⟩ := List.append_eq_nil_iff.mp hnone
  refine ⟨by rw [hnone]; rfl, quoteReasons_nil (hquote ▸ hreasons), liquidity, hliquidity, heligible⟩

/-- An eligible candidate is an eligible leg of the chain, with its Greeks replaced. -/
theorem candidate_leg {previous : List OptionQuote}
    (hprevious : p.previousBySecurity snapshot previousSnapshot = .ok previous)
    (hcandidates : p.candidates snapshot previous modeledGreeks = .ok cs) {c : Candidate} (hc : c ∈ cs)
    (heligible : c.eligible = true) :
    ∃ quote, EligibleLeg p snapshot previousSnapshot modeledGreeks quote ∧ c.quote = evaluatedQuote modeledGreeks quote := by
  obtain ⟨quote, hquote, hscore⟩ := Except.mapM_mem hcandidates hc
  obtain ⟨hsame, heligibility⟩ := scoreCandidate_eligible hscore
  obtain ⟨hreasons, hdelta, hliquid⟩ := heligibility heligible
  obtain ⟨greeks, hreplaced⟩ := evaluatedQuote_eq modeledGreeks quote
  refine ⟨quote, ⟨hquote, ⟨previous, c, hprevious, hscore, hreasons⟩, hdelta, ?_⟩, hsame⟩
  rwa [hreplaced] at hliquid

/-! ### Prices and sizes -/

/-- At most, up to a relative error of `4 * 10 ^ (-27)`. -/
def AtMost (x y : ℚ) : Prop := x * 10 ^ 27 ≤ y * (10 ^ 27 + 4)

theorem finite_of_pos {d : Decimal} (h : 0 < d.value) : d.IsFinite := by
  cases d with
  | finite negative coefficient exponent => trivial
  | infinity negative => exact absurd h (lt_irrefl 0)
  | nan => exact absurd h (lt_irrefl 0)

/-- Rounding up to a positive tick does not fall below the value. -/
theorem roundUp_atLeast {value tick entry : Decimal} (h : roundUp value tick = .ok entry)
    (hvalue : 0 < value.value) (htick : 0 < tick.value) : AtMost value.value entry.value := by
  unfold roundUp at h
  obtain ⟨ratio, hratio, h⟩ := Except.bind_eq_ok.mp h
  obtain ⟨hfinite, hnear⟩ := Decimal.divide_near (finite_of_pos hvalue) (finite_of_pos htick)
    (arith_eq_ok.mp hratio)
  obtain ⟨hceiling, hle⟩ := Decimal.le_ceilingValue hfinite
  have hproduct := arith_eq_ok.mp h
  rw [Decimal.times_of_finite hceiling (finite_of_pos htick)] at hproduct
  have hentry := Except.ok.inj hproduct ▸ Decimal.mul_near hceiling (finite_of_pos htick)
  have hquotient : 0 < value.value / tick.value := div_pos hvalue htick
  have hratioPos : 0 < ratio.value := hnear.pos hquotient
  have hlow := hnear.ge hquotient.le
  have hprod : 0 ≤ ratio.ceilingValue.value * tick.value := mul_nonneg (hratioPos.le.trans hle) htick.le
  have hhigh := hentry.ge hprod
  have hscaled : value.value * (10 ^ 27 - 1) ≤ ratio.ceilingValue.value * tick.value * 10 ^ 27 := by
    have hdiv : value.value / tick.value * tick.value = value.value := div_mul_cancel₀ _ htick.ne'
    calc value.value * (10 ^ 27 - 1) = value.value / tick.value * (10 ^ 27 - 1) * tick.value := by
          rw [mul_right_comm, hdiv]
      _ ≤ ratio.value * 10 ^ 27 * tick.value := mul_le_mul_of_nonneg_right hlow htick.le
      _ ≤ ratio.ceilingValue.value * 10 ^ 27 * tick.value := by gcongr
      _ = ratio.ceilingValue.value * tick.value * 10 ^ 27 := by ring
  unfold AtMost
  linarith

/-- What a size is computed from. -/
theorem calculatePositionSize_eq_ok {capital entry stop cost : Decimal} {riskRate allocationRate : Binary64}
    {lotSize : Int} {config : StrategyConfig} {position : PositionSizeResult}
    (h : calculatePositionSize capital riskRate allocationRate entry stop lotSize cost config = .ok position) :
    (capital.IsFinite ∧ entry.IsFinite ∧ stop.IsFinite ∧ cost.IsFinite) ∧
      (0 < capital.value ∧ 0 < entry.value ∧ 0 < lotSize) ∧ (riskRate.IsFinite ∧ allocationRate.IsFinite) ∧
      (0 ≤ stop.value ∧ stop.value < entry.value) ∧ 0 ≤ cost.value ∧
      position.maximumRisk = Decimal.mul .default capital riskRate.toDecimal ∧
      position.riskPerLot = Decimal.add .default
        (Decimal.mul .default (Decimal.sub .default entry stop) (.ofInt lotSize)) cost ∧
      position.premiumPerLot = Decimal.mul .default entry (.ofInt lotSize) ∧
      (∃ byRisk byAllocation, wholeLots position.maximumRisk position.riskPerLot = .ok byRisk ∧
        wholeLots (Decimal.mul .default capital allocationRate.toDecimal) position.premiumPerLot = .ok byAllocation ∧
        position.maximumLots = max 0 (min byRisk byAllocation)) ∧
      position.quantity = position.maximumLots * lotSize ∧
      (position.affordable = true → 0 < position.maximumLots) := by
  unfold calculatePositionSize at h
  obtain ⟨_, hfinite, h⟩ := Except.bind_eq_ok.mp h
  obtain ⟨_, hpositive, h⟩ := Except.bind_eq_ok.mp h
  obtain ⟨_, hrates, h⟩ := Except.bind_eq_ok.mp h
  obtain ⟨_, -, h⟩ := Except.bind_eq_ok.mp h
  obtain ⟨_, -, h⟩ := Except.bind_eq_ok.mp h
  obtain ⟨_, hstop, h⟩ := Except.bind_eq_ok.mp h
  obtain ⟨_, hcost, h⟩ := Except.bind_eq_ok.mp h
  obtain ⟨byRisk, hrisk, h⟩ := Except.bind_eq_ok.mp h
  obtain ⟨byAllocation, hallocation, h⟩ := Except.bind_eq_ok.mp h
  cases h
  have hfinite := require_eq_ok.mp hfinite
  have hpositive := require_eq_ok.mp hpositive
  have hstop := require_eq_ok.mp hstop
  have hcost := require_eq_ok.mp hcost
  simp only [List.forall_mem_cons, List.not_mem_nil, IsEmpty.forall_iff, implies_true, and_true] at hfinite
  rw [Decimal.lt_iff, Decimal.lt_iff, Decimal.value_zero] at hpositive
  rw [Decimal.le_iff, Decimal.lt_iff, Decimal.value_zero] at hstop
  rw [Decimal.le_iff, Decimal.value_zero] at hcost
  exact ⟨hfinite, hpositive, require_eq_ok.mp hrates, hstop, hcost, rfl, rfl, rfl,
    ⟨byRisk, byAllocation, hrisk, hallocation, rfl⟩, rfl, of_decide_eq_true⟩

/-- A positive number of lots does not cost more than the amount. -/
theorem wholeLots_atMost {amount perLot : Decimal} {lots : Int} (h : wholeLots amount perLot = .ok lots)
    (hamount : amount.IsFinite) (hperLot : 0 < perLot.value) (hlots : 0 < lots) :
    0 < amount.value ∧ lots * perLot.value * 10 ^ 27 ≤ amount.value * (10 ^ 27 + 1) := by
  unfold wholeLots at h
  obtain ⟨ratio, hratio, h⟩ := Except.bind_eq_ok.mp h
  obtain ⟨hfinite, hnear⟩ := Decimal.divide_near hamount (finite_of_pos hperLot) (arith_eq_ok.mp hratio)
  have hfloor := arith_eq_ok.mp h
  rw [Decimal.toInt_floorValue hfinite] at hfloor
  have hle : (lots : ℚ) ≤ ratio.value := by
    rw [← Except.ok.inj hfloor]
    exact Int.floor_le _
  have hlotsPos : (0 : ℚ) < lots := by exact_mod_cast hlots
  have hquotient := hnear.exact_pos (hlotsPos.trans_le hle)
  have hamountPos : 0 < amount.value := (div_pos_iff_of_pos_right hperLot).mp hquotient
  refine ⟨hamountPos, ?_⟩
  have hhigh := hnear.le hquotient.le
  have hdiv : amount.value / perLot.value * perLot.value = amount.value := div_mul_cancel₀ _ hperLot.ne'
  calc lots * perLot.value * 10 ^ 27 ≤ ratio.value * perLot.value * 10 ^ 27 := by gcongr
    _ = ratio.value * 10 ^ 27 * perLot.value := by ring
    _ ≤ amount.value / perLot.value * (10 ^ 27 + 1) * perLot.value :=
        mul_le_mul_of_nonneg_right hhigh hperLot.le
    _ = amount.value * (10 ^ 27 + 1) := by rw [mul_right_comm, hdiv]

/-- An affordable size stays within the limits of the account. -/
theorem size_atMost {capital entry stop cost : Decimal} {riskRate allocationRate : Binary64}
    {lotSize : Int} {config : StrategyConfig} {position : PositionSizeResult}
    (h : calculatePositionSize capital riskRate allocationRate entry stop lotSize cost config = .ok position)
    (haffordable : position.affordable = true) :
    0 < position.maximumLots ∧
      AtMost (position.maximumLots * position.riskPerLot.value) (capital.value * riskRate.toDecimal.value) ∧
      AtMost (Decimal.mul .default position.premiumPerLot (.ofInt position.maximumLots)).value
        (capital.value * allocationRate.toDecimal.value) ∧
      0 < position.riskPerLot.value ∧
      AtMost (Decimal.mul .default position.riskPerLot (.ofInt position.maximumLots)).value
        (capital.value * riskRate.toDecimal.value) := by
  obtain ⟨⟨hcapital, hentry, hstop, hcost⟩, ⟨-, hentryPos, hlotSize⟩, ⟨hrisk, hallocation⟩, ⟨-, hbelow⟩,
    hcostNonneg, hmaximumRisk, hriskPerLot, hpremiumPerLot, ⟨byRisk, byAllocation, hbyRisk, hbyAllocation, hlots⟩,
    -, hpositive⟩ := calculatePositionSize_eq_ok h
  have hlotsPos := hpositive haffordable
  have hlot : 0 < (Decimal.ofInt lotSize).value := by
    rw [Decimal.ofInt_value]
    exact_mod_cast hlotSize
  -- The prices of a lot are positive.
  have hdistance : 0 < (Decimal.sub .default entry stop).value :=
    (Decimal.sub_near hentry hstop).pos (sub_pos.mpr hbelow)
  have hlotRisk : 0 < (Decimal.mul .default (Decimal.sub .default entry stop) (.ofInt lotSize)).value :=
    (Decimal.mul_near (finite_of_pos hdistance) (finite_of_pos hlot)).pos (mul_pos hdistance hlot)
  have hperRisk : 0 < position.riskPerLot.value := by
    rw [hriskPerLot]
    exact (Decimal.add_near (finite_of_pos hlotRisk) hcost).pos (add_pos_of_pos_of_nonneg hlotRisk hcostNonneg)
  have hperPremium : 0 < position.premiumPerLot.value := by
    rw [hpremiumPerLot]
    exact (Decimal.mul_near hentry (finite_of_pos hlot)).pos (mul_pos hentryPos hlot)
  have hbyRiskPos : 0 < byRisk := by omega
  have hbyAllocationPos : 0 < byAllocation := by omega
  have hleRisk : (position.maximumLots : ℚ) ≤ byRisk := by exact_mod_cast (by omega : position.maximumLots ≤ byRisk)
  have hleAllocation : (position.maximumLots : ℚ) ≤ byAllocation := by
    exact_mod_cast (by omega : position.maximumLots ≤ byAllocation)
  have hlotsQ : (0 : ℚ) < position.maximumLots := by exact_mod_cast hlotsPos
  have hmaximumNear := Decimal.mul_near hcapital (Binary64.toDecimal_isFinite hrisk)
  rw [← hmaximumRisk] at hmaximumNear
  have hallocationNear := Decimal.mul_near hcapital (Binary64.toDecimal_isFinite hallocation)
  obtain ⟨hmaximumPos, hriskLots⟩ := wholeLots_atMost hbyRisk
    (hmaximumRisk ▸ Decimal.mul_isFinite hcapital (Binary64.toDecimal_isFinite hrisk)) hperRisk hbyRiskPos
  obtain ⟨hallocationPos, hpremiumLots⟩ := wholeLots_atMost hbyAllocation
    (Decimal.mul_isFinite hcapital (Binary64.toDecimal_isFinite hallocation)) hperPremium hbyAllocationPos
  have hriskHigh := hmaximumNear.le (hmaximumNear.exact_pos hmaximumPos).le
  have hallocationHigh := hallocationNear.le (hallocationNear.exact_pos hallocationPos).le
  have hcapitalRisk := (hmaximumNear.exact_pos hmaximumPos).le
  have hfewer : position.maximumLots * position.riskPerLot.value * 10 ^ 27 ≤
      byRisk * position.riskPerLot.value * 10 ^ 27 := by gcongr
  have hfinite : (Decimal.ofInt position.maximumLots).IsFinite := trivial
  refine ⟨hlotsPos, ?_, ?_, hperRisk, ?_⟩
  · unfold AtMost
    linarith
  · have hcapitalAllocation := (hallocationNear.exact_pos hallocationPos).le
    have hproduct := Decimal.mul_near (finite_of_pos hperPremium) hfinite
    rw [Decimal.ofInt_value] at hproduct
    have hpremium := hproduct.le (by positivity)
    have hfewer : position.premiumPerLot.value * position.maximumLots * 10 ^ 27 ≤
        byAllocation * position.premiumPerLot.value * 10 ^ 27 := by
      rw [mul_comm position.premiumPerLot.value]
      gcongr
    unfold AtMost
    linarith
  · have hproduct := Decimal.mul_near (finite_of_pos hperRisk) hfinite
    rw [Decimal.ofInt_value, mul_comm position.riskPerLot.value] at hproduct
    have hloss := hproduct.le (by positivity)
    unfold AtMost
    linarith

/-! ### What a BUY guarantees -/

/-- An actionable plan for an eligible leg, within the limits of the account. -/
structure SoundPlan (p : SignalPipeline) (snapshot : AtomicSnapshot)
    (previousSnapshot : Option PreviousOptionSnapshot) (modeledGreeks : Option (List (String × Greeks)))
    (plan : TradePlan) : Prop where
  actionable : plan.actionable = true
  leg : ∃ quote ask, EligibleLeg p snapshot previousSnapshot modeledGreeks quote ∧ quote.ask = some ask ∧
    plan.securityId = quote.securityId ∧ plan.optionType = quote.optionType ∧ plan.strike = quote.strike ∧
    (0 < snapshot.contract.tickSize.value → AtMost ask.value plan.entry.value)
  lots : 1 ≤ plan.lots
  quantity : plan.lotSize = snapshot.contract.lotSize ∧ plan.quantity = plan.lots * plan.lotSize
  risk : AtMost (plan.lots * plan.riskPerLot.value)
    (snapshot.context.accountCapital.value * snapshot.context.riskPerTrade.toDecimal.value)
  premium : AtMost plan.premiumRequired.value
    (snapshot.context.accountCapital.value * snapshot.context.maximumPremiumAllocation.toDecimal.value)

/-- What a BUY has passed. -/
structure BuyGates (p : SignalPipeline) (snapshot : AtomicSnapshot) (report : ValidationReport)
    (previousSnapshot : Option PreviousOptionSnapshot) (modeledGreeks : Option (List (String × Greeks)))
    (now : Datetime) (result : SignalPipelineResult) : Prop where
  accepted : report.Accepted
  fresh : ∃ age, totalSeconds now snapshot.sourceTimestamp = .ok age ∧
    -p.strategy.futureClockSkewSeconds ≤ age ∧ age ≤ p.strategy.liveMaxAgeSeconds
  expiry : ∃ seconds, totalSeconds snapshot.contract.optionExpiry now = .ok seconds ∧
    p.strategy.extremeExpirySeconds < seconds
  event : p.strategy.eventRiskBlocksNewTrades = true → snapshot.context.eventRiskActive = some false
  mode : snapshot.context.operatingMode ≠ .quick
  sides : ∀ side, ∃ quote, EligibleLeg p snapshot previousSnapshot modeledGreeks quote ∧ quote.optionType = side
  score : p.strategy.minimumTradableScore ≤ Binary64.max result.callScore result.putScore
  gap : result.scoreGap = (result.callScore.sub result.putScore).abs ∧ p.strategy.conflictGap ≤ result.scoreGap
  planned : ∃ plan, result.tradePlan = some plan ∧ SoundPlan p snapshot previousSnapshot modeledGreeks plan

theorem totalSeconds_ne_nan {left right : Datetime} {seconds : Binary64}
    (h : totalSeconds left right = .ok seconds) : seconds ≠ .nan := by
  unfold totalSeconds at h
  split at h
  · exact Binary64.ofQuotient_ne_nan (arith_eq_ok.mp h)
  · cases h

theorem entryAndStop_entry {tick ask riskDistance entry stop : Decimal}
    (h : entryAndStop tick ask riskDistance = .ok (entry, stop)) : roundUp ask tick = .ok entry := by
  unfold entryAndStop at h
  obtain ⟨entry', hentry, h⟩ := Except.bind_eq_ok.mp h
  obtain ⟨_, -, h⟩ := Except.bind_eq_ok.mp h
  obtain ⟨_, -, h⟩ := Except.bind_eq_ok.mp h
  obtain ⟨_, -, h⟩ := Except.bind_eq_ok.mp h
  obtain ⟨_, -, h⟩ := Except.bind_eq_ok.mp h
  obtain ⟨_, -, h⟩ := Except.bind_eq_ok.mp h
  cases h
  exact hentry

/-- A positive entry is not below the ask it was rounded up from. -/
theorem entry_atLeast {tick ask entry : Decimal} (h : roundUp ask tick = .ok entry) (hentry : 0 < entry.value)
    (htick : 0 < tick.value) : AtMost ask.value entry.value := by
  by_cases hask : 0 < ask.value
  · exact roundUp_atLeast h hask htick
  · have hnonpositive : ask.value ≤ 0 := not_lt.mp hask
    unfold AtMost
    linarith

/-- An affordable draft becomes a sound plan. -/
theorem draftPlan_sound {candidate : Candidate} {ask riskDistance : Decimal} {callScore putScore : Binary64}
    {d : TradePlanDraft} {position : PositionSizeResult} {quote : OptionQuote} {decision : DecisionState}
    (h : p.draftPlan snapshot candidate ask riskDistance callScore putScore now = .ok (d, position))
    (haffordable : position.affordable = true) (hleg : EligibleLeg p snapshot previousSnapshot modeledGreeks quote)
    (hquote : candidate.quote = evaluatedQuote modeledGreeks quote) (hask : candidate.quote.ask = some ask)
    (hbuys : decision.Buys) : SoundPlan p snapshot previousSnapshot modeledGreeks (d.finalize decision) := by
  obtain ⟨entry, stop, hprices, hsize, hsecurity, hside, hstrike, hentry, -, hlotSize, hlots, hquantity, -,
    hriskPerLot, hpremium⟩ := draftPlan_eq_ok h
  obtain ⟨-, ⟨-, hentryPos, -⟩, -, -, -, -, -, -, -, hsizeQuantity, -⟩ := calculatePositionSize_eq_ok hsize
  obtain ⟨hpositive, hrisk, hallocation, -⟩ := size_atMost hsize haffordable
  obtain ⟨greeks, hreplaced⟩ := evaluatedQuote_eq modeledGreeks quote
  rw [hreplaced] at hquote
  rw [hquote] at hsecurity hside hstrike hask
  refine {
    actionable := decide_eq_true hbuys
    leg := ⟨quote, ask, hleg, hask, hsecurity, hside, hstrike, fun htick => ?_⟩
    lots := ?_
    quantity := ⟨hlotSize, ?_⟩
    risk := ?_
    premium := ?_ }
  · show AtMost ask.value d.entry.value
    rw [hentry]
    exact entry_atLeast (entryAndStop_entry hprices) hentryPos htick
  · show 1 ≤ d.lots
    rw [hlots]
    exact hpositive
  · show d.quantity = d.lots * d.lotSize
    rw [hquantity, hsizeQuantity, hlots, hlotSize]
  · show AtMost (d.lots * d.riskPerLot.value) _
    rw [hlots, hriskPerLot]
    exact hrisk
  · show AtMost d.premiumRequired.value _
    rw [hpremium]
    exact hallocation

namespace Conclusion

/-- Open gates speak for the snapshot and its plan. -/
theorem opens_gates (c : Conclusion p snapshot report cs now) (h : c.Opens) {previous : List OptionQuote}
    (hprevious : p.previousBySecurity snapshot previousSnapshot = .ok previous)
    (hcandidates : p.candidates snapshot previous modeledGreeks = .ok cs) (hbuys : result.decision.Buys)
    (hplan : result.tradePlan = c.drafted.map fun pair => pair.1.finalize result.decision)
    (hcall : result.callScore = sideScore cs .call) (hput : result.putScore = sideScore cs .put)
    (hgap : result.scoreGap = ((sideScore cs .call).sub (sideScore cs .put)).abs) :
    BuyGates p snapshot report previousSnapshot modeledGreeks now result := by
  obtain ⟨hcallFinite, hputFinite⟩ := c.scores_finite
  have hage := totalSeconds_ne_nan c.aged
  have hseconds := totalSeconds_ne_nan c.expires
  have hskew : (-p.strategy.futureClockSkewSeconds).IsFinite :=
    Binary64.neg_isFinite (p.strategy.finite _ (by simp))
  have hstale : ¬(c.age < -p.strategy.futureClockSkewSeconds ∨ p.strategy.liveMaxAgeSeconds < c.age) :=
    of_decide_eq_false h.fresh
  have hvalid : (0 : Binary64) < c.expirySeconds := of_decide_eq_true h.expiry
  have hcalm : ¬((0 : Binary64) < c.expirySeconds ∧ c.expirySeconds ≤ p.strategy.extremeExpirySeconds) :=
    of_decide_eq_false h.calm
  obtain ⟨haccepted, -⟩ := of_decide_eq_true h.complete
  obtain ⟨hyoung, hold⟩ := not_or.mp hstale
  obtain ⟨d, position, leader, ask, riskDistance, hdrafted, haffordable, hleader, hask, -, hdraft⟩ :=
    c.opens_drafted h
  refine {
    accepted := haccepted
    fresh := ⟨c.age, c.aged, Binary64.le_of_not_lt hage hskew hyoung, ?_⟩
    expiry := ⟨c.expirySeconds, c.expires, ?_⟩
    event := fun hblocks => ?_
    mode := h.mode
    sides := fun side => ?_
    score := ?_
    gap := ⟨by rw [hgap, hcall, hput], ?_⟩
    planned := ⟨d.finalize result.decision, by rw [hplan, hdrafted]; rfl, ?_⟩ }
  · exact Binary64.le_of_not_gt hage (p.strategy.finite _ (by simp)) hold
  · exact Binary64.lt_of_not_le hseconds (p.strategy.finite _ (by simp)) fun hle => hcalm ⟨hvalid, hle⟩
  · rcases h.event with hclear | hallows
    · exact hclear
    · exact absurd (hallows.symm.trans hblocks) Bool.false_ne_true
  · obtain ⟨candidate, hbest⟩ := c.opens_best h side
    obtain ⟨hmem, hside, heligible⟩ := best_eq_some hbest
    obtain ⟨quote, hleg, hquote⟩ := candidate_leg hprevious hcandidates hmem heligible
    obtain ⟨greeks, hreplaced⟩ := evaluatedQuote_eq modeledGreeks quote
    rw [hquote, hreplaced] at hside
    exact ⟨quote, hleg, hside⟩
  · rw [hcall, hput]
    exact (Binary64.not_lt_iff (Binary64.max_isFinite hcallFinite hputFinite)
      (p.strategy.finite _ (by simp))).mp h.tradable
  · rw [hgap]
    exact Binary64.le_of_not_lt (Binary64.abs_sub_ne_nan hcallFinite hputFinite)
      (p.strategy.finite _ (by simp)) h.separated
  · -- The leader is the best of its side, so it is an eligible leg.
    obtain ⟨hmem, heligible⟩ : leader ∈ cs ∧ leader.eligible = true := by
      rw [leading_eq] at hleader
      split at hleader
      · exact ⟨(best_eq_some hleader).1, (best_eq_some hleader).2.2⟩
      · exact ⟨(best_eq_some hleader).1, (best_eq_some hleader).2.2⟩
    obtain ⟨quote, hleg, hquote⟩ := candidate_leg hprevious hcandidates hmem heligible
    exact draftPlan_sound hdraft haffordable hleg hquote hask hbuys

end Conclusion

/-- A BUY has passed every gate, and only a BUY comes with an actionable plan. -/
theorem evaluate_buys (p : SignalPipeline) (snapshot : AtomicSnapshot) (report : ValidationReport)
    (previousSnapshot : Option PreviousOptionSnapshot) (modeledGreeks : Option (List (String × Greeks)))
    (now : Datetime) (result : SignalPipelineResult)
    (h : p.evaluate snapshot report previousSnapshot modeledGreeks now = .ok result) :
    (result.decision.Buys → BuyGates p snapshot report previousSnapshot modeledGreeks now result) ∧
      ∀ plan, result.tradePlan = some plan → (plan.actionable = true ↔ result.decision.Buys) ∧
        plan.decision = result.decision := by
  obtain ⟨-, -, -, previous, cs, hprevious, hcandidates, hconclude⟩ := evaluate_eq_ok h
  obtain ⟨c, hdecision, hplan, hcall, hput, hgap⟩ := conclude_eq_ok hconclude
  refine ⟨fun hbuys => ?_, fun plan hsome => ?_⟩
  · have hopen : c.Opens := buys_iff.mp (hdecision ▸ hbuys)
    exact c.opens_gates hopen hprevious hcandidates hbuys hplan hcall hput hgap
  · rw [hplan] at hsome
    obtain ⟨pair, -, hfinal⟩ := Option.map_eq_some_iff.mp hsome
    subst hfinal
    exact ⟨decide_eq_true_iff, rfl⟩

section PreciseAsk

/-- The pipeline of the default policies and no costs. -/
def costlessPipeline : SignalPipeline := { gaplessPipeline with strategy := DEFAULT_STRATEGY_CONFIG }

/-- An ask of 29 digits, one more than the context keeps. -/
def preciseAsk : Decimal := .finite false 10000000000000000000000000001 (-26)

def preciseChain : List OptionQuote :=
  [{ tieQuote "1" .call 100 0.575 with ask := some preciseAsk }, tieQuote "2" .put 100 (-0.575)]

/-- Every trend condition speaks for the calls. -/
def bullishTechnicals : TechnicalState :=
  ⟨tieTime, some 99, some 98, some 97, some 96, some 60, some 20, some 1, "15m", true⟩

def preciseSnapshot : AtomicSnapshot := { tieSnapshot with
  technicals := bullishTechnicals
  optionChain := preciseChain
  metadata := [("normalized_component_hashes",
    stringDict (normalizedComponentHashes tieContract tieMarket bullishTechnicals tieContext preciseChain))]
  hashed := rfl }

def preciseReport : ValidationReport := ⟨[], preciseSnapshot.snapshotId, contentHash preciseSnapshot⟩

theorem precise_previous :
    costlessPipeline.previousBySecurity preciseSnapshot (some tiePrevious) = .ok tiePrevious.optionChain :=
  (previousBySecurity_compatible rfl rfl (by decide)).trans (by decide +kernel)

/-- The plan enters at 100, below every ask of the leg. -/
theorem precise_evaluates :
    ∃ result, costlessPipeline.evaluate preciseSnapshot preciseReport (some tiePrevious) none tieTime = .ok result ∧
      result.decision = .buyCall ∧
      result.tradePlan.map (fun plan => (plan.securityId, plan.entry)) = some ("1", .finite false 100 0) := by
  have hconclude : (costlessPipeline.candidates preciseSnapshot tiePrevious.optionChain none >>= fun cs =>
      costlessPipeline.conclude preciseSnapshot preciseReport cs tieTime).map (fun result =>
        (result.decision, result.tradePlan.map fun plan => (plan.securityId, plan.entry))) =
          .ok (.buyCall, some ("1", .finite false 100 0)) := by
    decide +kernel
  obtain ⟨result, hresult, hview⟩ := Except.map_eq_ok.mp hconclude
  refine ⟨result, ?_, (Prod.mk.inj hview).1, (Prod.mk.inj hview).2⟩
  unfold evaluate requireBoundReport
  rw [require_bind (by decide), require_bind ⟨rfl, rfl⟩, precise_previous]
  exact hresult

theorem evaluate_enters_below_ask :
    ¬∀ (p : SignalPipeline) (snapshot : AtomicSnapshot) (report : ValidationReport)
      (previousSnapshot : Option PreviousOptionSnapshot) (modeledGreeks : Option (List (String × Greeks)))
      (now : Datetime) (result : SignalPipelineResult),
      p.evaluate snapshot report previousSnapshot modeledGreeks now = .ok result → result.decision.Buys →
        ∃ plan quote ask, result.tradePlan = some plan ∧ quote ∈ snapshot.optionChain ∧
          plan.securityId = quote.securityId ∧ quote.ask = some ask ∧ ask.value ≤ plan.entry.value := by
  intro hclaim
  obtain ⟨result, hresult, hdecision, hview⟩ := precise_evaluates
  obtain ⟨plan, quote, ask, hplan, hquote, hsecurity, hask, hle⟩ :=
    hclaim _ _ _ _ _ _ _ hresult (.inl hdecision)
  rw [hplan] at hview
  obtain ⟨hid, hentry⟩ := Prod.mk.inj (Option.some.inj hview)
  rw [hid] at hsecurity
  rw [hentry] at hle
  rcases List.mem_pair.mp hquote with hcall | hput
  · rw [hcall] at hask
    rw [← Option.some.inj hask] at hle
    exact absurd hle (by decide +kernel)
  · rw [hput] at hsecurity
    exact absurd hsecurity (by decide)

/-- The theorem at the 29-digit ask. -/
theorem evaluate_buys_precise :
    ∃ result, costlessPipeline.evaluate preciseSnapshot preciseReport (some tiePrevious) none tieTime = .ok result ∧
      result.decision.Buys ∧
        BuyGates costlessPipeline preciseSnapshot preciseReport (some tiePrevious) none tieTime result := by
  obtain ⟨result, hresult, hdecision, -⟩ := precise_evaluates
  exact ⟨result, hresult, .inl hdecision, (evaluate_buys _ _ _ _ _ _ result hresult).1 (.inl hdecision)⟩

end PreciseAsk

end TecoQuant.Signal.SignalPipeline
