import TecoQuant.SignalPipeline
import TecoQuant.StrategySizing

/-! The prices of a plan over the values of its decimals: on the ticks, the stop never wider than the risk that was
scored, and targets that rise exactly when the multiples of the stop separate whole ticks. -/

namespace TecoQuant.Signal

open Domain Strategy

/-- What the prices and the size of a plan are drawn from, for a leg with an ask, a delta and an average range. -/
structure DraftInputs where
  tick : ℚ
  ask : ℚ
  delta : Binary64
  atr : ℚ
  accountCapital : ℚ
  riskPerTrade : Binary64
  maximumPremiumAllocation : Binary64
  lotSize : Int
  costPerLot : ℚ
  delta_finite : delta.IsFinite
  rates_float : riskPerTrade.Representable ∧ maximumPremiumAllocation.Representable

structure DraftValues where
  entry : ℚ
  stop : ℚ
  targets : ℚ × ℚ × ℚ
  position : PositionSize
  deriving DecidableEq, Repr

section

variable (ctx : DecimalContext)

/-- `_round_up`. -/
def roundUpTo (value tick : ℚ) : Except Fault ℚ := do
  return ctx.mul ⌈← quotientOf ctx value tick⌉ tick

/-- `_round_down`. -/
def roundDownTo (value tick : ℚ) : Except Fault ℚ := do
  return ctx.mul ⌊← quotientOf ctx value tick⌋ tick

namespace DraftInputs

variable (inputs : DraftInputs) (config : StrategyConfig)

/-- `_risk_distance`. -/
def riskDistance : Option ℚ :=
  if inputs.ask ≤ 0 then none
  else if inputs.atr ≤ 0 then none
  else
    let premiumDistance := ctx.mul inputs.ask config.premiumStopRatio.toDecimal.value
    let atrDistance := ctx.mul (ctx.mul inputs.atr inputs.delta.abs.toDecimal.value)
      config.atrStopMultiple.toDecimal.value
    some (max inputs.tick (min premiumDistance atrDistance))

/-- The entry and the stop of `_draft_plan`. -/
def entryAndStop (distance : ℚ) : Except Fault (ℚ × ℚ) := do
  let entry ← roundUpTo ctx inputs.ask inputs.tick
  let rawStop := max inputs.tick (ctx.sub entry distance)
  let stop := min (ctx.sub entry inputs.tick) (← roundUpTo ctx rawStop inputs.tick)
  return (entry, stop)

/-- A target of `_draft_plan`. -/
def target (entry riskDistance : ℚ) (multiple : Binary64) : Except Fault ℚ :=
  roundDownTo ctx (ctx.add entry (ctx.mul riskDistance multiple.toDecimal.value)) inputs.tick

/-- `_draft_plan`, for a candidate with a risk distance. -/
def draftPlan (distance : ℚ) : Except Fault DraftValues := do
  let (entry, stop) ← inputs.entryAndStop ctx distance
  let riskDistance := ctx.sub entry stop
  let first ← inputs.target ctx entry riskDistance config.targetRMultiples.1
  let second ← inputs.target ctx entry riskDistance config.targetRMultiples.2.1
  let third ← inputs.target ctx entry riskDistance config.targetRMultiples.2.2
  let position ← positionSize ctx {
    accountCapital := inputs.accountCapital
    riskRate := inputs.riskPerTrade
    maximumPremiumAllocation := inputs.maximumPremiumAllocation
    entry := entry
    stop := stop
    lotSize := inputs.lotSize
    costPerLot := inputs.costPerLot
    rates_float := inputs.rates_float } config
  return ⟨entry, stop, (first, second, third), position⟩

end DraftInputs

end

/-! ### Whole ticks -/

section

variable {value tick : ℚ}

theorem roundUpTo_exact (value : ℚ) (htick : 0 < tick) : roundUpTo .exact value tick = .ok (⌈value / tick⌉ * tick) := by
  rw [roundUpTo, quotientOf, DecimalContext.div_eq_some _ htick]
  rfl

theorem roundDownTo_exact (value : ℚ) (htick : 0 < tick) :
    roundDownTo .exact value tick = .ok (⌊value / tick⌋ * tick) := by
  rw [roundDownTo, quotientOf, DecimalContext.div_eq_some _ htick]
  rfl

/-- Rounding up gives the smallest tick multiple that is no less. -/
theorem roundUp_isLeast (value : ℚ) (htick : 0 < tick) :
    IsLeast {price | value ≤ price ∧ ∃ n : ℤ, price = n * tick} (⌈value / tick⌉ * tick) := by
  refine ⟨⟨?_, ⌈value / tick⌉, rfl⟩, ?_⟩
  · rw [← div_le_iff₀ htick]
    exact Int.le_ceil _
  · rintro price ⟨hle, n, rfl⟩
    rw [← div_le_iff₀ htick] at hle
    exact mul_le_mul_of_nonneg_right (Int.cast_le.mpr (Int.ceil_le.mpr hle)) htick.le

/-- A whole number of ticks moved by some distance. -/
theorem ceil_ticks_sub (n : ℤ) (distance : ℚ) (htick : 0 < tick) :
    ⌈(n * tick - distance) / tick⌉ = n - ⌊distance / tick⌋ := by
  rw [sub_div, mul_div_cancel_right₀ _ htick.ne', sub_eq_add_neg, Int.ceil_intCast_add, Int.ceil_neg, ← sub_eq_add_neg]

theorem floor_ticks_add (n : ℤ) (distance : ℚ) (htick : 0 < tick) :
    ⌊(n * tick + distance) / tick⌋ = n + ⌊distance / tick⌋ := by
  rw [add_div, mul_div_cancel_right₀ _ htick.ne', Int.floor_intCast_add]

end

namespace DraftInputs

variable (inputs : DraftInputs) (config : StrategyConfig)

/-- The ticks of the entry. -/
def entryTicks : ℤ := ⌈inputs.ask / inputs.tick⌉

/-- The ticks between the entry and the stop: those the risk distance covers, but fewer than the entry has and at
least one. -/
def stopTicks (distance : ℚ) : ℤ := max 1 (min (inputs.entryTicks - 1) ⌊distance / inputs.tick⌋)

/-- The ticks of a target above the entry. -/
def rewardTicks (distance : ℚ) (multiple : Binary64) : ℤ := ⌊inputs.stopTicks distance * multiple.toDecimal.value⌋

/-- The multiples of the stop separate whole ticks. -/
def Separated (distance : ℚ) : Prop :=
  0 < inputs.rewardTicks distance config.targetRMultiples.1 ∧
    inputs.rewardTicks distance config.targetRMultiples.1 < inputs.rewardTicks distance config.targetRMultiples.2.1 ∧
    inputs.rewardTicks distance config.targetRMultiples.2.1 < inputs.rewardTicks distance config.targetRMultiples.2.2

variable {inputs config} {distance : ℚ} {plan : DraftValues}

theorem le_riskDistance (h : inputs.riskDistance .exact config = some distance) :
    0 < inputs.ask ∧ inputs.tick ≤ distance := by
  unfold riskDistance at h
  split_ifs at h with hask
  rw [← Option.some.inj h]
  exact ⟨not_le.mp hask, le_max_left _ _⟩

theorem entryTicks_pos (htick : 0 < inputs.tick) (hask : 0 < inputs.ask) : 1 ≤ inputs.entryTicks :=
  Int.one_le_ceil_iff.mpr (div_pos hask htick)

theorem one_le_floor (htick : 0 < inputs.tick) (hdistance : inputs.tick ≤ distance) : 1 ≤ ⌊distance / inputs.tick⌋ := by
  rw [Int.le_floor, Int.cast_one, one_le_div htick]
  exact hdistance

/-- The entry and the stop in ticks. -/
theorem entryAndStop_exact (htick : 0 < inputs.tick) (hask : 0 < inputs.ask) (hdistance : inputs.tick ≤ distance) :
    inputs.entryAndStop .exact distance = .ok (inputs.entryTicks * inputs.tick,
      (inputs.entryTicks - inputs.stopTicks distance : ℤ) * inputs.tick) := by
  have hentry := entryTicks_pos htick hask
  have hcovered := one_le_floor htick hdistance
  have hraw : ⌈max inputs.tick (inputs.entryTicks * inputs.tick - distance) / inputs.tick⌉ =
      max 1 (inputs.entryTicks - ⌊distance / inputs.tick⌋) := by
    rw [← max_div_div_right htick.le, Int.ceil_mono.map_max, div_self htick.ne', Int.ceil_one, ceil_ticks_sub _ _ htick]
  rw [entryAndStop, roundUpTo_exact _ htick]
  refine Except.bind_eq_ok.mpr ⟨_, rfl, ?_⟩
  dsimp only
  rw [roundUpTo_exact _ htick]
  refine Except.bind_eq_ok.mpr ⟨_, rfl, ?_⟩
  have hstop : min (inputs.entryTicks * inputs.tick - inputs.tick)
      ((max 1 (inputs.entryTicks - ⌊distance / inputs.tick⌋) : ℤ) * inputs.tick) =
        (inputs.entryTicks - inputs.stopTicks distance : ℤ) * inputs.tick := by
    have hbelow : inputs.entryTicks * inputs.tick - inputs.tick = (inputs.entryTicks - 1 : ℤ) * inputs.tick := by
      push_cast
      ring
    rw [hbelow, ← min_mul_of_nonneg _ _ htick.le, ← Int.cast_min]
    congr 2
    unfold stopTicks
    omega
  refine congrArg Except.ok (Prod.ext rfl ?_)
  rw [← hstop, ← hraw]
  rfl

theorem target_exact (htick : 0 < inputs.tick) (n : ℤ) (multiple : Binary64) :
    inputs.target .exact (n * inputs.tick) (inputs.stopTicks distance * inputs.tick) multiple =
      .ok ((n + inputs.rewardTicks distance multiple : ℤ) * inputs.tick) := by
  rw [target, roundDownTo_exact _ htick]
  dsimp only [DecimalContext.exact_add, DecimalContext.exact_mul]
  have hscaled : inputs.stopTicks distance * inputs.tick * multiple.toDecimal.value / inputs.tick =
      inputs.stopTicks distance * multiple.toDecimal.value := by
    field_simp
  rw [floor_ticks_add _ _ htick, hscaled]
  rfl

/-- The prices of a plan in ticks. -/
theorem draftPlan_exact (htick : 0 < inputs.tick) (hask : 0 < inputs.ask) (hdistance : inputs.tick ≤ distance)
    (h : inputs.draftPlan .exact config distance = .ok plan) :
    plan.entry = inputs.entryTicks * inputs.tick ∧
      plan.stop = (inputs.entryTicks - inputs.stopTicks distance : ℤ) * inputs.tick ∧
      plan.targets = (
        (inputs.entryTicks + inputs.rewardTicks distance config.targetRMultiples.1 : ℤ) * inputs.tick,
        (inputs.entryTicks + inputs.rewardTicks distance config.targetRMultiples.2.1 : ℤ) * inputs.tick,
        (inputs.entryTicks + inputs.rewardTicks distance config.targetRMultiples.2.2 : ℤ) * inputs.tick) := by
  rw [draftPlan, entryAndStop_exact htick hask hdistance] at h
  obtain ⟨_, hpair, h⟩ := Except.bind_eq_ok.mp h
  cases hpair
  have hrisk : DecimalContext.exact.sub (inputs.entryTicks * inputs.tick)
      ((inputs.entryTicks - inputs.stopTicks distance : ℤ) * inputs.tick) = inputs.stopTicks distance * inputs.tick := by
    rw [DecimalContext.exact_sub]
    push_cast
    ring
  dsimp only at h
  rw [hrisk, target_exact htick, target_exact htick, target_exact htick] at h
  obtain ⟨_, hfirst, h⟩ := Except.bind_eq_ok.mp h
  obtain ⟨_, hsecond, h⟩ := Except.bind_eq_ok.mp h
  obtain ⟨_, hthird, h⟩ := Except.bind_eq_ok.mp h
  obtain ⟨_, -, h⟩ := Except.bind_eq_ok.mp h
  cases hfirst
  cases hsecond
  cases hthird
  cases h
  exact ⟨rfl, rfl, rfl⟩

end DraftInputs

/-! ### The decimals of the code -/

section

variable {tick ask distance : Decimal}

theorem roundUp_values {value price : Decimal} (hvalue : value.IsFinite) (htick : 0 < tick.value)
    (h : roundUp value tick = .ok price) :
    price.IsFinite ∧ roundUpTo .default value.value tick.value = .ok price.value := by
  have hfinite := Decimal.isFinite_of_pos htick
  unfold roundUp at h
  obtain ⟨ratio, hratio, h⟩ := Except.bind_eq_ok.mp h
  obtain ⟨hratioFinite, hratioValue⟩ := Decimal.divide_value hvalue hfinite (arith_eq_ok.mp hratio)
  obtain ⟨hceiling, hceilingValue⟩ := Decimal.ceilingValue_value hratioFinite
  have hproduct := arith_eq_ok.mp h
  rw [Decimal.times_of_finite hceiling hfinite] at hproduct
  rw [← Except.ok.inj hproduct]
  refine ⟨Decimal.mul_isFinite hceiling hfinite, ?_⟩
  rw [Decimal.mul_value hceiling hfinite, hceilingValue, hratioValue, roundUpTo, quotientOf,
    DecimalContext.div_eq_some _ htick]
  rfl

theorem roundDown_values {value price : Decimal} (hvalue : value.IsFinite) (htick : 0 < tick.value)
    (h : roundDown value tick = .ok price) :
    price.IsFinite ∧ roundDownTo .default value.value tick.value = .ok price.value := by
  have hfinite := Decimal.isFinite_of_pos htick
  unfold roundDown at h
  obtain ⟨ratio, hratio, h⟩ := Except.bind_eq_ok.mp h
  obtain ⟨hratioFinite, hratioValue⟩ := Decimal.divide_value hvalue hfinite (arith_eq_ok.mp hratio)
  obtain ⟨hfloor, hfloorValue⟩ := Decimal.floorValue_value hratioFinite
  have hproduct := arith_eq_ok.mp h
  rw [Decimal.times_of_finite hfloor hfinite] at hproduct
  rw [← Except.ok.inj hproduct]
  refine ⟨Decimal.mul_isFinite hfloor hfinite, ?_⟩
  rw [Decimal.mul_value hfloor hfinite, hfloorValue, hratioValue, roundDownTo, quotientOf,
    DecimalContext.div_eq_some _ htick]
  rfl

theorem entryAndStop_values {inputs : DraftInputs} {entry stop : Decimal} (htick : 0 < tick.value) (hask : ask.IsFinite)
    (hdistance : distance.IsFinite) (hinputs : inputs.tick = tick.value ∧ inputs.ask = ask.value)
    (h : SignalPipeline.entryAndStop tick ask distance = .ok (entry, stop)) :
    (entry.IsFinite ∧ stop.IsFinite) ∧
      inputs.entryAndStop .default distance.value = .ok (entry.value, stop.value) := by
  have htickFinite := Decimal.isFinite_of_pos htick
  unfold SignalPipeline.entryAndStop at h
  obtain ⟨entry', hentry, h⟩ := Except.bind_eq_ok.mp h
  obtain ⟨difference, hdifference, h⟩ := Except.bind_eq_ok.mp h
  obtain ⟨raw, hraw, h⟩ := Except.bind_eq_ok.mp h
  obtain ⟨below, hbelow, h⟩ := Except.bind_eq_ok.mp h
  obtain ⟨rounded, hrounded, h⟩ := Except.bind_eq_ok.mp h
  obtain ⟨stop', hstop, h⟩ := Except.bind_eq_ok.mp h
  cases h
  obtain ⟨hentryFinite, hentryValue⟩ := roundUp_values hask htick hentry
  obtain ⟨hdifferenceFinite, hdifferenceValue⟩ := Decimal.minus_value hentryFinite hdistance (arith_eq_ok.mp hdifference)
  obtain ⟨hrawFinite, hrawValue⟩ := Decimal.maximum_value htickFinite hdifferenceFinite (arith_eq_ok.mp hraw)
  obtain ⟨hbelowFinite, hbelowValue⟩ := Decimal.minus_value hentryFinite htickFinite (arith_eq_ok.mp hbelow)
  obtain ⟨hroundedFinite, hroundedValue⟩ := roundUp_values hrawFinite htick hrounded
  obtain ⟨hstopFinite, hstopValue⟩ := Decimal.minimum_value hbelowFinite hroundedFinite (arith_eq_ok.mp hstop)
  refine ⟨⟨hentryFinite, hstopFinite⟩, ?_⟩
  rw [DraftInputs.entryAndStop, hinputs.1, hinputs.2]
  refine Except.bind_eq_ok.mpr ⟨_, hentryValue, ?_⟩
  rw [hrawValue, hdifferenceValue] at hroundedValue
  refine Except.bind_eq_ok.mpr ⟨_, hroundedValue, ?_⟩
  rw [hstopValue, hbelowValue]
  rfl

theorem target_values {inputs : DraftInputs} {entry price : Decimal} {multiple : Binary64} (htick : 0 < tick.value)
    (hentry : entry.IsFinite) (hdistance : distance.IsFinite) (hmultiple : multiple.IsFinite)
    (hinputs : inputs.tick = tick.value)
    (h : (do
      let reward ← arith (Decimal.times .default distance multiple.toDecimal)
      roundDown (← arith (Decimal.plus .default entry reward)) tick) = .ok price) :
    inputs.target .default entry.value distance.value multiple = .ok price.value := by
  have hfactor := Binary64.toDecimal_isFinite hmultiple
  obtain ⟨reward, hreward, h⟩ := Except.bind_eq_ok.mp h
  obtain ⟨raw, hraw, h⟩ := Except.bind_eq_ok.mp h
  rw [Decimal.times_of_finite hdistance hfactor] at hreward
  obtain rfl := Except.ok.inj (arith_eq_ok.mp hreward)
  have hrewardFinite := Decimal.mul_isFinite hdistance hfactor
  rw [Decimal.plus_of_finite hentry hrewardFinite] at hraw
  obtain rfl := Except.ok.inj (arith_eq_ok.mp hraw)
  have hprice := (roundDown_values (Decimal.add_isFinite hentry hrewardFinite) htick h).2
  rw [Decimal.add_value hentry hrewardFinite, Decimal.mul_value hdistance hfactor] at hprice
  rw [DraftInputs.target, hinputs]
  exact hprice

/-- What a pipeline draws a plan of a snapshot from, for a leg. -/
structure DraftInputs.Of (inputs : DraftInputs) (p : SignalPipeline) (snapshot : AtomicSnapshot) (quote : OptionQuote)
    (ask atr : Decimal) : Prop where
  quoted : quote.ask = some ask
  ranged : snapshot.technicals.atr14 = some atr
  finite : ask.IsFinite ∧ atr.IsFinite
  tick : inputs.tick = snapshot.contract.tickSize.value
  ask : inputs.ask = ask.value
  delta : quote.greeks.delta = some inputs.delta
  atr : inputs.atr = atr.value
  accountCapital : inputs.accountCapital = snapshot.context.accountCapital.value
  riskPerTrade : inputs.riskPerTrade = snapshot.context.riskPerTrade
  maximumPremiumAllocation : inputs.maximumPremiumAllocation = snapshot.context.maximumPremiumAllocation
  lotSize : inputs.lotSize = snapshot.contract.lotSize
  costPerLot : inputs.costPerLot = p.costPerLot.value

section

variable {p : SignalPipeline} {snapshot : AtomicSnapshot} {candidate : Candidate} {atr : Decimal} {inputs : DraftInputs}

theorem riskDistance_values {quote : OptionQuote} (hinputs : inputs.Of p snapshot quote ask atr)
    (htick : 0 < inputs.tick)
    (h : p.riskDistance snapshot quote = .ok (some distance)) :
    distance.IsFinite ∧ inputs.riskDistance .default p.strategy = some distance.value := by
  obtain ⟨hask, hatr⟩ := hinputs.finite
  have htickFinite : snapshot.contract.tickSize.IsFinite := Decimal.isFinite_of_pos (hinputs.tick ▸ htick)
  have hzero : (0 : Decimal).IsFinite := trivial
  have hratio := Binary64.toDecimal_isFinite (p.strategy.finite p.strategy.premiumStopRatio (by simp))
  have hmultiple := Binary64.toDecimal_isFinite (p.strategy.finite p.strategy.atrStopMultiple (by simp))
  have hdelta : inputs.delta.abs.toDecimal.IsFinite := by
    have hfinite := inputs.delta_finite
    refine Binary64.toDecimal_isFinite ?_
    cases hcase : inputs.delta <;> rw [hcase] at hfinite <;> exact hfinite
  unfold SignalPipeline.riskDistance at h
  rw [hinputs.quoted, hinputs.delta, hinputs.ranged] at h
  dsimp only at h
  rw [Decimal.lessEqual_of_finite hask hzero, Decimal.lessEqual_of_finite hatr hzero] at h
  obtain ⟨noAsk, hnoAsk, h⟩ := Except.bind_eq_ok.mp h
  obtain rfl := Except.ok.inj (arith_eq_ok.mp hnoAsk)
  by_cases haskZero : ask ≤ 0
  · rw [decide_eq_true haskZero] at h
    cases h
  rw [decide_eq_false haskZero] at h
  obtain ⟨noRange, hnoRange, h⟩ := Except.bind_eq_ok.mp h
  obtain rfl := Except.ok.inj (arith_eq_ok.mp hnoRange)
  by_cases hatrZero : atr ≤ 0
  · rw [decide_eq_true hatrZero] at h
    cases h
  rw [decide_eq_false hatrZero] at h
  obtain ⟨premium, hpremium, h⟩ := Except.bind_eq_ok.mp h
  obtain ⟨scaled, hscaled, h⟩ := Except.bind_eq_ok.mp h
  obtain ⟨range, hrange, h⟩ := Except.bind_eq_ok.mp h
  obtain ⟨narrower, hnarrower, h⟩ := Except.bind_eq_ok.mp h
  obtain ⟨wider, hwider, h⟩ := Except.bind_eq_ok.mp h
  obtain rfl := Option.some.inj (Except.ok.inj h)
  rw [Decimal.times_of_finite hask hratio] at hpremium
  obtain rfl := Except.ok.inj (arith_eq_ok.mp hpremium)
  rw [Decimal.times_of_finite hatr hdelta] at hscaled
  obtain rfl := Except.ok.inj (arith_eq_ok.mp hscaled)
  have hscaledFinite := Decimal.mul_isFinite hatr hdelta
  rw [Decimal.times_of_finite hscaledFinite hmultiple] at hrange
  obtain rfl := Except.ok.inj (arith_eq_ok.mp hrange)
  obtain ⟨hnarrowerFinite, hnarrowerValue⟩ := Decimal.minimum_value (Decimal.mul_isFinite hask hratio)
    (Decimal.mul_isFinite hscaledFinite hmultiple) (arith_eq_ok.mp hnarrower)
  obtain ⟨hfinite, hvalue⟩ := Decimal.maximum_value htickFinite hnarrowerFinite (arith_eq_ok.mp hwider)
  rw [Decimal.le_iff, Decimal.value_zero] at haskZero hatrZero
  refine ⟨hfinite, ?_⟩
  rw [DraftInputs.riskDistance, hinputs.ask, hinputs.atr, hinputs.tick, if_neg haskZero, if_neg hatrZero, hvalue,
    hnarrowerValue, Decimal.mul_value hask hratio, Decimal.mul_value hscaledFinite hmultiple,
    Decimal.mul_value hatr hdelta]
  rfl

/-- The risk distance, the prices and the size that the code draws are those of the values in the default context. -/
theorem draftPlan_values {callScore putScore : Binary64} {generatedAt : Datetime} {draft : TradePlanDraft}
    {position : PositionSizeResult} (hinputs : inputs.Of p snapshot candidate.quote ask atr) (htick : 0 < inputs.tick)
    (hdistance : p.riskDistance snapshot candidate.quote = .ok (some distance))
    (h : p.draftPlan snapshot candidate ask distance callScore putScore generatedAt = .ok (draft, position)) :
    inputs.riskDistance .default p.strategy = some distance.value ∧
      ∃ first second third, draft.targets = [first, second, third] ∧
        inputs.draftPlan .default p.strategy distance.value = .ok {
          entry := draft.entry.value
          stop := draft.stop.value
          targets := (first.value, second.value, third.value)
          position := position.values } := by
  obtain ⟨hdistanceFinite, hdistanceValue⟩ := riskDistance_values hinputs htick hdistance
  have htick' : 0 < snapshot.contract.tickSize.value := hinputs.tick ▸ htick
  obtain ⟨hfirstFinite, hsecondFinite, hthirdFinite⟩ := p.strategy.targets_finite
  unfold SignalPipeline.draftPlan at h
  obtain ⟨⟨entry, stop⟩, hprices, h⟩ := Except.bind_eq_ok.mp h
  obtain ⟨width, hwidth, h⟩ := Except.bind_eq_ok.mp h
  obtain ⟨targets, htargets, h⟩ := Except.bind_eq_ok.mp h
  obtain ⟨size, hsize, h⟩ := Except.bind_eq_ok.mp h
  obtain ⟨⟨hentry, hstop⟩, hpricesValue⟩ :=
    entryAndStop_values htick' hinputs.finite.1 hdistanceFinite ⟨hinputs.tick, hinputs.ask⟩ hprices
  obtain ⟨hwidthFinite, hwidthValue⟩ := Decimal.minus_value hentry hstop (arith_eq_ok.mp hwidth)
  rw [List.mapM_cons, List.mapM_cons, List.mapM_cons, List.mapM_nil] at htargets
  obtain ⟨first, hfirst, htargets⟩ := Except.bind_eq_ok.mp htargets
  obtain ⟨_, hrest, htargets⟩ := Except.bind_eq_ok.mp htargets
  obtain ⟨second, hsecond, hrest⟩ := Except.bind_eq_ok.mp hrest
  obtain ⟨_, hlast, hrest⟩ := Except.bind_eq_ok.mp hrest
  obtain ⟨third, hthird, hlast⟩ := Except.bind_eq_ok.mp hlast
  cases hlast
  cases hrest
  cases htargets
  have hdrawn : draft.entry = entry ∧ draft.stop = stop ∧ draft.targets = [first, second, third] ∧ position = size := by
    split at h
    · cases h
    · cases h
      exact ⟨rfl, rfl, rfl, rfl⟩
  obtain ⟨rfl, rfl, htargets, rfl⟩ := hdrawn
  refine ⟨hdistanceValue, first, second, third, htargets, ?_⟩
  have hfirstValue := target_values htick' hentry hwidthFinite hfirstFinite hinputs.tick hfirst
  have hsecondValue := target_values htick' hentry hwidthFinite hsecondFinite hinputs.tick hsecond
  have hthirdValue := target_values htick' hentry hwidthFinite hthirdFinite hinputs.tick hthird
  rw [hwidthValue] at hfirstValue hsecondValue hthirdValue
  have hfloat : snapshot.context.riskPerTrade.Representable ∧
      snapshot.context.maximumPremiumAllocation.Representable := by
    rw [← hinputs.riskPerTrade, ← hinputs.maximumPremiumAllocation]
    exact inputs.rates_float
  have hsizeValue := calculatePositionSize_values hfloat hsize
  refine Except.bind_eq_ok.mpr ⟨_, hpricesValue, ?_⟩
  refine Except.bind_eq_ok.mpr ⟨_, hfirstValue, ?_⟩
  refine Except.bind_eq_ok.mpr ⟨_, hsecondValue, ?_⟩
  refine Except.bind_eq_ok.mpr ⟨_, hthirdValue, ?_⟩
  refine Except.bind_eq_ok.mpr ⟨position.values, ?_, rfl⟩
  rw [← hsizeValue]
  congr 1
  rw [SizeInputs.mk.injEq]
  exact ⟨hinputs.accountCapital, hinputs.riskPerTrade, hinputs.maximumPremiumAllocation, rfl, rfl, hinputs.lotSize,
    hinputs.costPerLot⟩

end

end

/-! ### Geometry -/

/-- The entry and the stop are right: on the ticks, the entry the smallest one at or above the ask, the stop below it
by no more than the risk distance. -/
structure DraftValues.Anchored (plan : DraftValues) (inputs : DraftInputs) (distance : ℚ) : Prop where
  ticks : ∀ price ∈ [plan.entry, plan.stop, plan.targets.1, plan.targets.2.1, plan.targets.2.2],
    ∃ n : ℤ, price = n * inputs.tick
  entry : IsLeast {price | inputs.ask ≤ price ∧ ∃ n : ℤ, price = n * inputs.tick} plan.entry
  stop : 0 ≤ plan.stop ∧ plan.stop < plan.entry
  risk : inputs.tick ≤ plan.entry - plan.stop ∧ plan.entry - plan.stop ≤ distance

/-- The targets rise from the entry as well. -/
structure DraftValues.Sound (plan : DraftValues) (inputs : DraftInputs) (distance : ℚ) : Prop extends
    plan.Anchored inputs distance where
  targets : plan.entry < plan.targets.1 ∧ plan.targets.1 < plan.targets.2.1 ∧ plan.targets.2.1 < plan.targets.2.2

section

variable {inputs : DraftInputs} {config : StrategyConfig} {distance : ℚ} {plan : DraftValues}

theorem draftPlan_anchored (htick : 0 < inputs.tick) (hask : 0 < inputs.ask) (hdistance : inputs.tick ≤ distance)
    (h : inputs.draftPlan .exact config distance = .ok plan) : plan.Anchored inputs distance := by
  obtain ⟨hentry, hstop, htargets⟩ := DraftInputs.draftPlan_exact htick hask hdistance h
  have hticks := DraftInputs.entryTicks_pos htick hask
  have hcovered := DraftInputs.one_le_floor htick hdistance
  have hwidth : 1 ≤ inputs.stopTicks distance ∧ inputs.stopTicks distance ≤ inputs.entryTicks ∧
      inputs.stopTicks distance ≤ ⌊distance / inputs.tick⌋ := by
    unfold DraftInputs.stopTicks
    omega
  have hdifference : plan.entry - plan.stop = inputs.stopTicks distance * inputs.tick := by
    rw [hentry, hstop]
    push_cast
    ring
  have hone : (1 : ℚ) ≤ inputs.stopTicks distance := by exact_mod_cast hwidth.1
  constructor
  case ticks =>
    rw [hentry, hstop, htargets]
    intro price hprice
    simp only [List.mem_cons, List.not_mem_nil, or_false] at hprice
    rcases hprice with rfl | rfl | rfl | rfl | rfl <;> exact ⟨_, rfl⟩
  case entry =>
    rw [hentry]
    exact roundUp_isLeast inputs.ask htick
  case stop =>
    refine ⟨?_, ?_⟩
    · rw [hstop]
      exact mul_nonneg (Int.cast_nonneg (sub_nonneg.mpr hwidth.2.1)) htick.le
    · rw [← sub_pos, hdifference]
      exact mul_pos (zero_lt_one.trans_le hone) htick
  case risk =>
    rw [hdifference]
    refine ⟨le_mul_of_one_le_left htick.le hone, ?_⟩
    rw [← le_div_iff₀ htick]
    exact Int.le_floor.mp hwidth.2.2

/-- Ticks apart are prices apart. -/
theorem ticks_lt {m n : ℤ} (htick : 0 < inputs.tick) : (m * inputs.tick : ℚ) < n * inputs.tick ↔ m < n := by
  rw [mul_lt_mul_iff_of_pos_right htick, Int.cast_lt]

/-- The targets rise from the entry exactly when their multiples of the stop separate whole ticks. -/
theorem targets_rise_iff (htick : 0 < inputs.tick) (hask : 0 < inputs.ask) (hdistance : inputs.tick ≤ distance)
    (h : inputs.draftPlan .exact config distance = .ok plan) :
    (plan.entry < plan.targets.1 ∧ plan.targets.1 < plan.targets.2.1 ∧ plan.targets.2.1 < plan.targets.2.2) ↔
      inputs.Separated config distance := by
  obtain ⟨hentry, -, htargets⟩ := DraftInputs.draftPlan_exact htick hask hdistance h
  rw [hentry, htargets, ticks_lt htick, ticks_lt htick, ticks_lt htick, lt_add_iff_pos_right, add_lt_add_iff_left,
    add_lt_add_iff_left]
  rfl

/-- Multiples a whole stop apart separate the ticks of any stop. -/
theorem separated_of_steps (hfirst : 1 ≤ config.targetRMultiples.1.toDecimal.value)
    (hsecond : config.targetRMultiples.1.toDecimal.value + 1 ≤ config.targetRMultiples.2.1.toDecimal.value)
    (hthird : config.targetRMultiples.2.1.toDecimal.value + 1 ≤ config.targetRMultiples.2.2.toDecimal.value) :
    inputs.Separated config distance := by
  have hwidth : 1 ≤ inputs.stopTicks distance := le_max_left _ _
  have hone : (1 : ℚ) ≤ inputs.stopTicks distance := by exact_mod_cast hwidth
  have hstep : ∀ {m n : ℚ}, m + 1 ≤ n → ⌊inputs.stopTicks distance * m⌋ < ⌊inputs.stopTicks distance * n⌋ := by
    intro m n hmn
    have hle : inputs.stopTicks distance * m + 1 ≤ inputs.stopTicks distance * n := by nlinarith
    have hfloor := Int.floor_le_floor hle
    rw [Int.floor_add_one] at hfloor
    omega
  refine ⟨?_, hstep hsecond, hstep hthird⟩
  have hzero : ⌊inputs.stopTicks distance * (0 : ℚ)⌋ <
      ⌊inputs.stopTicks distance * config.targetRMultiples.1.toDecimal.value⌋ := hstep (by rwa [zero_add])
  rwa [mul_zero, Int.floor_zero] at hzero

/-- **When the geometry of a plan holds**: the entry and the stop are always right, and the targets rise from the entry
exactly when the multiples of the stop separate whole ticks. -/
theorem draftPlan_sound_iff (htick : 0 < inputs.tick) (hdistance : inputs.riskDistance .exact config = some distance)
    (h : inputs.draftPlan .exact config distance = .ok plan) :
    plan.Anchored inputs distance ∧ (plan.Sound inputs distance ↔ inputs.Separated config distance) := by
  obtain ⟨hask, hle⟩ := DraftInputs.le_riskDistance hdistance
  have hanchored := draftPlan_anchored htick hask hle h
  have hrising := targets_rise_iff htick hask hle h
  exact ⟨hanchored, fun hsound => hrising.mp hsound.targets, fun hseparated => ⟨hanchored, hrising.mpr hseparated⟩⟩

/-- The whole geometry holds where the targets start at one stop and lie at least a stop apart. -/
theorem draftPlan_sound_of_steps (htick : 0 < inputs.tick)
    (hdistance : inputs.riskDistance .exact config = some distance)
    (h : inputs.draftPlan .exact config distance = .ok plan)
    (hfirst : 1 ≤ config.targetRMultiples.1.toDecimal.value)
    (hsecond : config.targetRMultiples.1.toDecimal.value + 1 ≤ config.targetRMultiples.2.1.toDecimal.value)
    (hthird : config.targetRMultiples.2.1.toDecimal.value + 1 ≤ config.targetRMultiples.2.2.toDecimal.value) :
    plan.Sound inputs distance := by
  obtain ⟨hask, hle⟩ := DraftInputs.le_riskDistance hdistance
  refine ⟨draftPlan_anchored htick hask hle h, ?_⟩
  exact (targets_rise_iff htick hask hle h).mpr (separated_of_steps hfirst hsecond hthird)

end

theorem rates_float_sample : (0.005 : Binary64).Representable ∧ (0.1 : Binary64).Representable := by decide +kernel

/-- A cheap option on ticks of five paise. -/
def DraftInputs.sample : DraftInputs where
  tick := 5 / 100
  ask := 10 / 100
  delta := 0.5
  atr := 10
  accountCapital := 100000
  riskPerTrade := 0.005
  maximumPremiumAllocation := 0.1
  lotSize := 15
  costPerLot := 50
  delta_finite := by decide +kernel
  rates_float := rates_float_sample

theorem draftPlan_sample : DraftInputs.sample.draftPlan .exact DEFAULT_STRATEGY_CONFIG (1 / 20) = .ok
    ⟨1 / 10, 1 / 20, (15 / 100, 1 / 5, 1 / 4), ⟨500, 203 / 4, 3 / 2, 9, 6666, 9, 135, true⟩⟩ := by decide +kernel

theorem riskDistance_sample : DraftInputs.sample.riskDistance .exact DEFAULT_STRATEGY_CONFIG = some (1 / 20) := by
  decide +kernel

theorem draftPlan_sound_iff_sample : ∃ plan : DraftValues,
    (DraftInputs.sample.draftPlan .exact DEFAULT_STRATEGY_CONFIG (1 / 20) = .ok plan ∧
      DraftInputs.sample.riskDistance .exact DEFAULT_STRATEGY_CONFIG = some (1 / 20)) ∧
    plan.Anchored .sample (1 / 20) ∧
      (plan.Sound .sample (1 / 20) ↔ DraftInputs.sample.Separated DEFAULT_STRATEGY_CONFIG (1 / 20)) :=
  ⟨_, ⟨draftPlan_sample, riskDistance_sample⟩,
    draftPlan_sound_iff (by decide +kernel) riskDistance_sample draftPlan_sample⟩

theorem draftPlan_sound_of_steps_sample : ∃ plan : DraftValues,
    DraftInputs.sample.draftPlan .exact DEFAULT_STRATEGY_CONFIG (1 / 20) = .ok plan ∧ plan.Sound .sample (1 / 20) := by
  have hsteps : 1 ≤ DEFAULT_STRATEGY_CONFIG.targetRMultiples.1.toDecimal.value ∧
      DEFAULT_STRATEGY_CONFIG.targetRMultiples.1.toDecimal.value + 1 ≤
        DEFAULT_STRATEGY_CONFIG.targetRMultiples.2.1.toDecimal.value ∧
      DEFAULT_STRATEGY_CONFIG.targetRMultiples.2.1.toDecimal.value + 1 ≤
        DEFAULT_STRATEGY_CONFIG.targetRMultiples.2.2.toDecimal.value := by decide +kernel
  exact ⟨_, draftPlan_sample, draftPlan_sound_of_steps (by decide +kernel) riskDistance_sample draftPlan_sample
    hsteps.1 hsteps.2.1 hsteps.2.2⟩

/-- Targets at half a stop, a stop and one and a half. -/
def halfMultiples : StrategyConfig where
  __ := DEFAULT_STRATEGY_CONFIG
  targetRMultiples := (0.5, 1, 1.5)
  targets_finite := by decide +kernel
  targets_pos := by decide +kernel
  targets_increasing := by decide +kernel

/-- With a stop of one tick the first target is the entry and the other two are one price. -/
theorem draftPlan_not_sound : ¬∀ (inputs : DraftInputs) (config : StrategyConfig) (distance : ℚ) (plan : DraftValues),
    0 < inputs.tick → inputs.riskDistance .exact config = some distance →
      inputs.draftPlan .exact config distance = .ok plan → plan.Sound inputs distance := by
  intro h
  have hplan : DraftInputs.sample.draftPlan .exact halfMultiples (1 / 20) = .ok
      ⟨1 / 10, 1 / 20, (1 / 10, 15 / 100, 15 / 100), ⟨500, 203 / 4, 3 / 2, 9, 6666, 9, 135, true⟩⟩ := by decide +kernel
  have hsound := h .sample halfMultiples (1 / 20) _ (by decide +kernel) (by decide +kernel) hplan
  exact absurd hsound.targets.1 (lt_irrefl _)

end TecoQuant.Signal
