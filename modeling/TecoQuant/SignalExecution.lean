import TecoQuant.BaseBinary64Rounding
import TecoQuant.ExecutionGates
import TecoQuant.SignalAdapters
import TecoQuant.SignalGates
import TecoQuant.SignalService

/-! From an actionable signal plan to the execution controller: which gates the evaluation has already
answered, and which checks of a submission are left. -/

namespace TecoQuant.Signal

open Domain Ingestion Strategy

/-! ### Clocks -/

theorem totalSeconds_eq_ok {left right : Datetime} {seconds : Binary64} (h : totalSeconds left right = .ok seconds) :
    (left.Aware ↔ right.Aware) ∧
      seconds = Binary64.round false (((left.instant - right.instant : Int) : ℚ) / 1000000) := by
  unfold totalSeconds at h
  split at h
  · rename_i haware
    have hquotient := arith_eq_ok.mp h
    rw [Binary64.ofQuotient, if_neg (by decide)] at hquotient
    refine ⟨haware, ?_⟩
    split at hquotient
    · cases hquotient
    · exact (Except.ok.inj hquotient).symm
  · cases h

section Microseconds

variable {elapsed : Int} {limit : Binary64} {bound : Int}

/-- A rounded number of seconds does not exceed a limit that excludes one more microsecond than the bound. -/
theorem le_of_seconds_le (h : Binary64.round false ((elapsed : ℚ) / 1000000) ≤ limit)
    (hlimit : ¬Binary64.round false (((bound + 1 : Int) : ℚ) / 1000000) ≤ limit) : elapsed ≤ bound := by
  by_contra hlate
  have hquotient : ((bound + 1 : Int) : ℚ) / 1000000 ≤ (elapsed : ℚ) / 1000000 := by
    gcongr
    exact_mod_cast not_le.mp hlate
  exact hlimit (Binary64.le_trans (Binary64.round_mono false hquotient) h)

theorem le_of_le_seconds (h : limit ≤ Binary64.round false ((elapsed : ℚ) / 1000000))
    (hlimit : ¬limit ≤ Binary64.round false (((bound - 1 : Int) : ℚ) / 1000000)) : bound ≤ elapsed := by
  by_contra hearly
  have hquotient : (elapsed : ℚ) / 1000000 ≤ ((bound - 1 : Int) : ℚ) / 1000000 := by
    gcongr
    exact_mod_cast Int.le_sub_one_of_lt (not_le.mp hearly)
  exact hlimit (Binary64.le_trans h (Binary64.round_mono false hquotient))

theorem lt_of_lt_seconds (h : limit < Binary64.round false ((elapsed : ℚ) / 1000000))
    (hlimit : ¬limit < Binary64.round false ((bound : ℚ) / 1000000)) : bound < elapsed := by
  by_contra hearly
  have hquotient : (elapsed : ℚ) / 1000000 ≤ (bound : ℚ) / 1000000 := by
    gcongr
    exact not_lt.mp hearly
  exact hlimit (Binary64.lt_of_lt_of_le h (Binary64.round_mono false hquotient))

end Microseconds

/-! ### Handed plans -/

/-- What an actionable plan brings along, when the strategy is the default one. -/
structure Handed (snapshot : AtomicSnapshot) (now : Datetime) (plan : TradePlan) : Prop where
  actionable : plan.actionable = true
  bound : plan.snapshotId = snapshot.snapshotId ∧ plan.contractKey = snapshot.contract.contractKey ∧
    plan.strategyVersion = snapshot.strategyVersion
  signal : ¬PyText.Blank plan.signalId
  security : ¬PyText.Blank plan.securityId
  generated : plan.generatedAt = now ∧ now.Aware
  quantity : 0 < plan.quantity
  entry : 0 < plan.entry.value
  loss : 0 < plan.riskPerLot.value ∧ 0 < plan.lots ∧
    SignalPipeline.AtMost (Decimal.mul .default plan.riskPerLot (.ofInt plan.lots)).value
      (snapshot.context.accountCapital.value * snapshot.context.riskPerTrade.toDecimal.value)
  data : snapshot.sourceTimestamp.Aware ∧ -2000000 ≤ now.instant - snapshot.sourceTimestamp.instant ∧
    now.instant - snapshot.sourceTimestamp.instant ≤ 30000000
  expiry : plan.expiry.Aware ∧ 32400000000 < plan.expiry.instant - now.instant
  event : snapshot.context.eventRiskActive = some false

namespace SignalPipeline

variable {p : SignalPipeline} {snapshot : AtomicSnapshot} {report : ValidationReport}
  {previousSnapshot : Option PreviousOptionSnapshot} {modeledGreeks : Option (List (String × Greeks))}
  {now : Datetime} {result : SignalPipelineResult} {plan : TradePlan}

/-- What binds a draft to its snapshot. -/
theorem draftPlan_identity {candidate : Candidate} {ask riskDistance : Decimal} {callScore putScore : Binary64}
    {d : TradePlanDraft} {position : PositionSizeResult}
    (h : p.draftPlan snapshot candidate ask riskDistance callScore putScore now = .ok (d, position)) :
    (∃ digest, d.signalId = "signal:" ++ digest) ∧ d.snapshotId = snapshot.snapshotId ∧
      d.contractKey = snapshot.contract.contractKey ∧ d.strategyVersion = snapshot.strategyVersion ∧
      d.generatedAt = now ∧ d.expiry = candidate.quote.expiry := by
  unfold draftPlan at h
  obtain ⟨_, -, h⟩ := Except.bind_eq_ok.mp h
  obtain ⟨_, -, h⟩ := Except.bind_eq_ok.mp h
  obtain ⟨_, -, h⟩ := Except.bind_eq_ok.mp h
  obtain ⟨_, -, h⟩ := Except.bind_eq_ok.mp h
  split at h
  · cases h
  · cases h
    exact ⟨⟨_, rfl⟩, rfl, rfl, rfl, rfl, rfl⟩

theorem signalId_named (digest : String) : ¬PyText.Blank ("signal:" ++ digest) := by
  rw [PyText.blank_iff]
  intro hall
  exact absurd (hall 's' (by simp)) (by decide)

/-- An actionable plan comes from the draft of an eligible leg whose gates are open. -/
theorem evaluate_actionable (h : p.evaluate snapshot report previousSnapshot modeledGreeks now = .ok result)
    (hplan : result.tradePlan = some plan) (hactionable : plan.actionable = true) :
    BuyGates p snapshot report previousSnapshot modeledGreeks now result ∧
      ∃ candidate ask riskDistance callScore putScore d position quote,
        p.draftPlan snapshot candidate ask riskDistance callScore putScore now = .ok (d, position) ∧
        position.affordable = true ∧ plan = d.finalize result.decision ∧ quote ∈ snapshot.optionChain ∧
        candidate.quote = evaluatedQuote modeledGreeks quote := by
  obtain ⟨-, -, -, previous, cs, hprevious, hcandidates, hconclude⟩ := evaluate_eq_ok h
  obtain ⟨c, hdecision, hresult, hcall, hput, hgap⟩ := conclude_eq_ok hconclude
  rw [hresult] at hplan
  obtain ⟨pair, hdrafted, rfl⟩ := Option.map_eq_some_iff.mp hplan
  have hbuys : result.decision.Buys := of_decide_eq_true hactionable
  have hopen : c.Opens := buys_iff.mp (hdecision ▸ hbuys)
  obtain ⟨d, position, candidate, ask, riskDistance, hpair, haffordable, hleader, -, -, hdraft⟩ := c.opens_drafted hopen
  rw [hdrafted] at hpair
  cases hpair
  obtain ⟨side, hbest⟩ : ∃ side, best cs side = some candidate := by
    rw [leading_eq] at hleader
    split at hleader
    · exact ⟨_, hleader⟩
    · exact ⟨_, hleader⟩
  obtain ⟨hmem, -, heligible⟩ := best_eq_some hbest
  obtain ⟨quote, hleg, hquote⟩ := candidate_leg hprevious hcandidates hmem heligible
  exact ⟨c.opens_gates hopen hprevious hcandidates hbuys hresult hcall hput hgap, candidate, ask, riskDistance, _, _, d,
    position, quote, hdraft, haffordable, rfl, hleg.listed, hquote⟩

end SignalPipeline

/-- The service hands over only plans that answer the clock, expiry, event and size gates. -/
theorem AutomatedSignalService.evaluate_handed {service : AutomatedSignalService} {snapshot : AtomicSnapshot}
    {report : ValidationReport} {previousSnapshot : Option PreviousOptionSnapshot} {now : Datetime}
    {result : SignalPipelineResult} {plan : TradePlan}
    (hdefault : service.pipeline.strategy = DEFAULT_STRATEGY_CONFIG)
    (h : service.evaluate snapshot report previousSnapshot now = .ok result)
    (hplan : result.tradePlan = some plan) (hactionable : plan.actionable = true) : Handed snapshot now plan := by
  obtain ⟨hanalyzed, greeks, hevaluate⟩ := evaluate_eq_ok h
  obtain ⟨haware, -⟩ := SignalPipeline.evaluate_eq_ok hevaluate
  obtain ⟨hgates, candidate, ask, riskDistance, callScore, putScore, d, position, quote, hdraft, haffordable, rfl,
    hquote, hreplaced⟩ := SignalPipeline.evaluate_actionable hevaluate hplan hactionable
  obtain ⟨⟨digest, hsignal⟩, hsnapshot, hcontract, hversion, hgenerated, hexpiry⟩ :=
    SignalPipeline.draftPlan_identity hdraft
  obtain ⟨entry, stop, -, hsize, hsecurity, -, -, hentry, -, -, hlots, hquantity, -, hriskPerLot, -⟩ :=
    SignalPipeline.draftPlan_eq_ok hdraft
  obtain ⟨-, ⟨-, hentryPos, hlotSize⟩, -, -, -, -, -, -, -, hsizeQuantity, -⟩ :=
    SignalPipeline.calculatePositionSize_eq_ok hsize
  obtain ⟨hlotsPos, -, -, hperRisk, hloss⟩ := SignalPipeline.size_atMost hsize haffordable
  obtain ⟨modelled, hsame⟩ := SignalPipeline.evaluatedQuote_eq (some greeks) quote
  have hleg := hanalyzed quote hquote
  rw [hreplaced, hsame] at hsecurity hexpiry
  obtain ⟨age, hage, hyoung, hold⟩ := hgates.fresh
  obtain ⟨seconds, hseconds, hlate⟩ := hgates.expiry
  obtain ⟨hsource, rfl⟩ := totalSeconds_eq_ok hage
  obtain ⟨hcontractAware, rfl⟩ := totalSeconds_eq_ok hseconds
  have hevent := hgates.event
  rw [hdefault] at hyoung hold hlate hevent
  exact {
    actionable := hactionable
    bound := ⟨hsnapshot, hcontract, hversion⟩
    signal := by
      show ¬PyText.Blank d.signalId
      rw [hsignal]
      exact SignalPipeline.signalId_named digest
    security := by
      show ¬PyText.Blank d.securityId
      rw [hsecurity]
      exact hleg.identified
    generated := ⟨hgenerated, haware⟩
    quantity := by
      show 0 < d.quantity
      rw [hquantity, hsizeQuantity]
      exact mul_pos hlotsPos hlotSize
    entry := by
      show 0 < d.entry.value
      rw [hentry]
      exact hentryPos
    loss := by
      show 0 < d.riskPerLot.value ∧ 0 < d.lots ∧
        SignalPipeline.AtMost (Decimal.mul .default d.riskPerLot (.ofInt d.lots)).value _
      rw [hriskPerLot, hlots]
      exact ⟨hperRisk, hlotsPos, hloss⟩
    data := ⟨hsource.mp haware, le_of_le_seconds hyoung (by decide +kernel), le_of_seconds_le hold (by decide +kernel)⟩
    expiry := by
      show d.expiry.Aware ∧ 32400000000 < d.expiry.instant - now.instant
      rw [hexpiry, hleg.expiry.2]
      exact ⟨hleg.expiry.1.mpr (hcontractAware.mpr haware), lt_of_lt_seconds hlate (by decide +kernel)⟩
    event := hevent rfl }

/-! ### The adapter -/

/-- The execution plan of a handed plan. -/
def handedPlan (plan : TradePlan) (snapshot : AtomicSnapshot) : Execution.TradePlan where
  signalId := plan.signalId
  correlationId := plan.signalId
  symbol := plan.symbol
  securityId := plan.securityId
  side := .buy
  quantity := plan.quantity
  limitPrice := plan.entry
  maximumLoss := Decimal.mul .default plan.riskPerLot (.ofInt plan.lots)
  signalTime := plan.generatedAt
  dataTime := snapshot.sourceTimestamp
  validUntil := plan.generatedAt.plus executionValidity
  contractExpiry := plan.expiry
  eventRiskActive := some false
  expiryRiskClear := true
  strategyVersion := plan.strategyVersion

section Handed

variable {snapshot : AtomicSnapshot} {now : Datetime} {plan : TradePlan}

theorem requireSameSnapshot_handed (h : Handed snapshot now plan) : requireSameSnapshot plan snapshot = .ok () := by
  unfold requireSameSnapshot
  rw [if_neg]
  rintro (hne | hne | hne)
  · exact hne h.bound.1
  · exact hne h.bound.2.1
  · exact hne h.bound.2.2

theorem maximumLoss_handed (h : Handed snapshot now plan) :
    maximumLoss plan = .ok (Decimal.mul .default plan.riskPerLot (.ofInt plan.lots)) := by
  have hlots : (Decimal.ofInt plan.lots).IsFinite := trivial
  unfold maximumLoss
  rw [Decimal.times_of_finite (SignalPipeline.finite_of_pos h.loss.1) hlots]

theorem addDuration_eq (t : Datetime) (duration : Int) : addDuration t duration =
    if (t.plus duration).InCalendar then .ok (t.plus duration) else .error (.overflowError "date value out of range") :=
  rfl

@[simp] theorem instant_plus (t : Datetime) (duration : Int) : (t.plus duration).instant = t.instant + duration := by
  show t.wall + duration - t.utcoffset.getD 0 = t.wall - t.utcoffset.getD 0 + duration
  omega

/-- The adapter takes a handed plan, unless half a minute later the calendar ends. -/
theorem toExecutionPlan_handed (h : Handed snapshot now plan) :
    toExecutionPlan plan snapshot executionValidity executionExpiryBuffer =
      if (plan.generatedAt.plus executionValidity).InCalendar then .ok (handedPlan plan snapshot)
      else .error (.overflowError "date value out of range") := by
  obtain ⟨hgenerated, haware⟩ := h.generated
  obtain ⟨hexpiryAware, hexpiry⟩ := h.expiry
  have hactionable : ¬plan.actionable = false := by rw [h.actionable]; decide
  have hgeneratedAware : plan.generatedAt.Aware := hgenerated ▸ haware
  have hlaterAware : (plan.generatedAt.plus executionValidity).Aware := hgeneratedAware
  have hearlier : earlier plan.expiry (plan.generatedAt.plus executionValidity) =
      .ok (plan.generatedAt.plus executionValidity) := by
    have hbefore : (plan.generatedAt.plus executionValidity).instant < plan.expiry.instant := by
      rw [instant_plus, hgenerated, executionValidity]
      omega
    unfold earlier
    rw [if_pos (iff_of_true hexpiryAware hlaterAware), if_pos hbefore]
  have hduration : duration plan.expiry plan.generatedAt = .ok (plan.expiry.instant - plan.generatedAt.instant) := by
    unfold duration
    rw [if_pos (iff_of_true hexpiryAware hgeneratedAware)]
  have hclear : executionExpiryBuffer < plan.expiry.instant - plan.generatedAt.instant := by
    rw [hgenerated, executionExpiryBuffer]
    omega
  unfold toExecutionPlan
  rw [requireSameSnapshot_handed h]
  show (if plan.actionable = false then _ else if _ then _ else _) = _
  rw [if_neg hactionable, if_neg (by decide), maximumLoss_handed h, addDuration_eq]
  split
  · show (earlier plan.expiry (plan.generatedAt.plus executionValidity) >>= _) = _
    rw [hearlier]
    show (duration plan.expiry plan.generatedAt >>= _) = _
    rw [hduration]
    show Except.ok _ = Except.ok _
    rw [h.event, decide_eq_true hclear]
    rfl
  · rfl

end Handed

end TecoQuant.Signal

/-! ### The controller -/

namespace TecoQuant.Execution

open Atomic ExecutionController

/-- The default timing of a policy; its ceilings and its mode may be any. -/
def ExecutionPolicy.DefaultTiming (policy : ExecutionPolicy) : Prop :=
  policy.maxDataAgeSeconds = 30 ∧ policy.futureClockSkewSeconds = 2 ∧ policy.minExpiryBufferSeconds = 900

/-- The text of the check that refuses a plan, of those about its names, the registry and the ceilings. -/
def ExecutionController.refusal (c : ExecutionController) (plan : TradePlan) : Option String :=
  if PyText.Blank plan.symbol then some "symbol is required"
  else if PyText.Blank plan.strategyVersion then some "strategy_version is required"
  else if c.instrumentRegistry.lookup plan.symbol ≠ some plan.securityId then
    some "symbol/security ID does not match the execution registry"
  else if c.policy.maxOrderQuantity < plan.quantity then some "quantity exceeds the configured limit"
  else if ¬plan.maximumLoss ≤ c.policy.maxPlanLoss then some "maximum plan loss exceeds the configured limit"
  else if ¬Decimal.mul .default plan.limitPrice (.ofInt plan.quantity) ≤ c.policy.maxOrderNotional then
    some "order notional exceeds the configured limit"
  else none

/-- A plan that passes every other check. -/
structure ExecutionController.Answered (c : ExecutionController) (plan : TradePlan) (now : Datetime) : Prop where
  signal : ¬PyText.Blank plan.signalId
  correlation : ¬PyText.Blank plan.correlationId
  security : ¬PyText.Blank plan.securityId
  quantity : 0 < plan.quantity
  price : plan.limitPrice.IsFinite ∧ 0 < plan.limitPrice
  loss : plan.maximumLoss.IsFinite ∧ 0 < plan.maximumLoss
  aware : plan.signalTime.Aware ∧ plan.dataTime.Aware ∧ plan.validUntil.Aware ∧ plan.contractExpiry.Aware
  fresh : now.secondsSince plan.dataTime ≤ c.policy.maxDataAgeSeconds ∧
    -c.policy.futureClockSkewSeconds ≤ now.secondsSince plan.dataTime
  signalled : plan.signalTime.secondsSince now ≤ c.policy.futureClockSkewSeconds
  valid : now.instant < plan.validUntil.instant
  event : plan.eventRiskActive = some false
  expiry : plan.expiryRiskClear = true
  buffer : c.policy.minExpiryBufferSeconds < plan.contractExpiry.secondsSince now

section Refusal

variable {α : Type} {condition : Prop} [Decidable condition] {next : Unit → Except Fault α}

theorem require_bind_of (h : condition) (message : String) : (require condition message >>= next) = next () := by
  rw [require, if_pos h]
  rfl

theorem require_bind_not (h : ¬condition) (message : String) :
    (require condition message >>= next) = .error ⟨.planValidation, message⟩ := by
  rw [require, if_neg h]
  rfl

theorem requireText_bind_of {value : String} (h : ¬PyText.Blank value) (name : String) :
    (requireText name value >>= next) = next () := by
  rw [requireText, if_neg h]
  rfl

theorem requireText_bind_blank {value : String} (h : PyText.Blank value) (name : String) :
    (requireText name value >>= next) = .error ⟨.planValidation, name ++ " is required"⟩ := by
  rw [requireText, if_pos h]
  rfl

theorem requireAware_bind_of {value : Datetime} (h : value.Aware) (name : String) :
    (requireAware value name >>= next) = next () := by
  rw [requireAware, if_pos h]
  rfl

end Refusal

variable {c : ExecutionController} {plan : TradePlan} {now : Datetime}

/-- The checks of an answered plan refuse it by its names, the registry or a ceiling, or not at all. -/
theorem planChecks_answered (h : c.Answered plan now) :
    c.planChecks plan now =
      match c.refusal plan with
      | some message => .error ⟨.planValidation, message⟩
      | none => .ok () := by
  unfold planChecks refusal
  rw [requireText_bind_of h.signal, requireText_bind_of h.correlation]
  by_cases hsymbol : PyText.Blank plan.symbol
  · rw [requireText_bind_blank hsymbol, if_pos hsymbol]
    rfl
  rw [requireText_bind_of hsymbol, if_neg hsymbol, requireText_bind_of h.security]
  by_cases hversion : PyText.Blank plan.strategyVersion
  · rw [requireText_bind_blank hversion, if_pos hversion]
    rfl
  rw [requireText_bind_of hversion, if_neg hversion]
  by_cases hregistry : c.instrumentRegistry.lookup plan.symbol = some plan.securityId
  swap
  · rw [require_bind_not hregistry, if_pos hregistry]
  rw [require_bind_of hregistry, if_neg (not_not.mpr hregistry)]
  by_cases hquantity : c.policy.maxOrderQuantity < plan.quantity
  · rw [require_bind_not (fun hall => absurd hall.2 (not_le.mpr hquantity)), if_pos hquantity]
  rw [require_bind_of ⟨h.quantity, not_lt.mp hquantity⟩, if_neg hquantity, require_bind_of h.price]
  by_cases hloss : plan.maximumLoss ≤ c.policy.maxPlanLoss
  swap
  · rw [require_bind_not (fun hall => hloss hall.2.2), if_pos hloss]
  rw [require_bind_of ⟨h.loss.1, h.loss.2, hloss⟩, if_neg (not_not.mpr hloss)]
  by_cases hnotional : Decimal.mul .default plan.limitPrice (.ofInt plan.quantity) ≤ c.policy.maxOrderNotional
  swap
  · rw [require_bind_not hnotional, if_pos hnotional]
  obtain ⟨hsignal, hdata, hvalid, hexpiry⟩ := h.aware
  rw [require_bind_of hnotional, if_neg (not_not.mpr hnotional), requireAware_bind_of hsignal,
    requireAware_bind_of hdata, requireAware_bind_of hvalid, requireAware_bind_of hexpiry]
  dsimp only
  rw [require_bind_of h.fresh.1, require_bind_of h.fresh.2, require_bind_of h.signalled, require_bind_of h.valid,
    require_bind_of h.event, require_bind_of h.expiry, require, if_pos h.buffer]

/-- A fresh ledger is within every kill limit, at a time whose UTC day can be told. -/
theorem withinLimits_fresh (c : ExecutionController) (createdAt : Int) {now : Datetime}
    (hcalendar : now.toUtc.InCalendar) : c.WithinLimits (.fresh createdAt) now := by
  obtain ⟨hfinite, hpositive⟩ := c.policy.amounts_pos c.policy.maxDailyLoss (by simp)
  refine ⟨rfl, hcalendar, fun hloss => ?_, fun hlosses => ?_⟩
  · have hsum : (Ledger.fresh createdAt).dailyRealizedPnl now.utcDay = 0 := rfl
    rw [Decimal.lt_iff, Decimal.value_zero] at hpositive
    rw [hsum, Decimal.le_iff, Decimal.value_zero] at hloss
    exact absurd hloss (not_le.mpr (Decimal.neg_value_neg hfinite hpositive))
  · have hnone : (Ledger.fresh createdAt).consecutiveLosses = 0 := rfl
    rw [hnone] at hlosses
    exact absurd c.policy.limits_pos.2 (not_lt.mpr hlosses)

/-- The world after an admitted plan has been recorded. -/
def World.received (createdAt : Int) (plan : TradePlan) (now : Datetime) : World :=
  { World.fresh createdAt with ledger := (Ledger.recordSignal plan .received now (.fresh createdAt)).2 }

/-- At a time whose UTC day cannot be told a submission on a fresh ledger raises before it reads the plan. -/
theorem run_submit_fresh_overflows (c : ExecutionController) (plan : TradePlan) (haware : now.Aware)
    (hcalendar : ¬now.toUtc.InCalendar) (createdAt : Int) :
    run (perform c.live) (c.submit plan now) (.fresh createdAt) = (.error dateOverflow, .fresh createdAt) := by
  have hkill : run (perform c.live) (c.checkKillLimits now) (.fresh createdAt) =
      (.error dateOverflow, .fresh createdAt) := by
    unfold checkKillLimits
    rw [Datetime.astimezone, if_neg hcalendar]
    rfl
  unfold submit
  rw [run_bind_ok _ (by rw [requireAware, if_pos haware]; rfl)]
  exact run_bind_error _ hkill _

/-- An answered plan on a fresh ledger: it is refused and nothing changes, or it is recorded and dispatched. -/
theorem run_submit_fresh (hutc : now.HasUtc) (h : c.Answered plan now) (createdAt : Int) :
    run (perform c.live) (c.submit plan now) (.fresh createdAt) =
      match c.refusal plan with
      | some message => (.error ⟨.planValidation, message⟩, .fresh createdAt)
      | none => run (perform c.live) (c.dispatch plan now) (.received createdAt plan now) := by
  have hchecks := planChecks_answered h
  unfold submit
  rw [run_bind_ok _ (by rw [requireAware, if_pos hutc.1]; rfl)]
  rcases run_checkKillLimits_cases c (.fresh createdAt) now c.live with ⟨-, hkill⟩ | ⟨hlimits, -⟩
  swap
  · exact absurd (withinLimits_fresh c createdAt hutc.2) hlimits
  rw [run_bind_ok _ hkill]
  cases hrefusal : c.refusal plan with
  | some message =>
      rw [hrefusal] at hchecks
      refine run_bind_error _ ?_ _
      unfold validatePlan
      rw [run_bind_ok _ (run_requireNewSignal _ true plan.signalId), hchecks]
      rfl
  | none =>
      rw [hrefusal] at hchecks
      have hvalid : run (perform c.live) (c.validatePlan plan now true) (.fresh createdAt) = (.ok (), .fresh createdAt) := by
        unfold validatePlan
        rw [run_bind_ok _ (run_requireNewSignal _ true plan.signalId), hchecks]
        rfl
      rw [run_bind_ok _ hvalid]
      have hrecorded : (Ledger.recordSignal plan .received now (.fresh createdAt)).1 = .ok () := by
        simp [Ledger.recordSignal, Ledger.transaction, Ledger.timestamp_of_hasUtc hutc, Ledger.insertSignal,
          Ledger.SignalConstraints,
          Ledger.fresh, Ledger.onIntegrityError, Ledger.event, bind, Except.bind, pure, Except.pure]
      have hrecord : run (perform c.live) (recordSignal plan .received now) (.fresh createdAt) =
          (.ok (), .received createdAt plan now) := by
        rw [run_recordSignal]
        exact Prod.ext hrecorded rfl
      exact run_bind_ok _ hrecord _

end TecoQuant.Execution

/-! ### Handing over -/

namespace TecoQuant.Signal

open Domain Ingestion Strategy Atomic Execution

theorem handed_answered {snapshot : AtomicSnapshot} {now : Datetime} {plan : TradePlan} {c : ExecutionController}
    (h : Handed snapshot now plan) (htiming : c.policy.DefaultTiming) : c.Answered (handedPlan plan snapshot) now := by
  obtain ⟨hage, hskew, hbuffer⟩ := htiming
  obtain ⟨hgenerated, haware⟩ := h.generated
  obtain ⟨hdata, hyoung, hold⟩ := h.data
  obtain ⟨hexpiryAware, hexpiry⟩ := h.expiry
  have hlots : (Decimal.ofInt plan.lots).IsFinite := trivial
  have hrisk := SignalPipeline.finite_of_pos h.loss.1
  have hgeneratedAware : plan.generatedAt.Aware := hgenerated ▸ haware
  exact {
    signal := h.signal
    correlation := h.signal
    security := h.security
    quantity := h.quantity
    price := ⟨SignalPipeline.finite_of_pos h.entry, by rw [Decimal.lt_iff, Decimal.value_zero]; exact h.entry⟩
    loss := by
      refine ⟨Decimal.mul_isFinite hrisk hlots, ?_⟩
      rw [Decimal.lt_iff, Decimal.value_zero]
      refine (Decimal.mul_near hrisk hlots).pos ?_
      rw [Decimal.ofInt_value]
      exact mul_pos h.loss.1 (by exact_mod_cast h.loss.2.1)
    aware := ⟨hgeneratedAware, hdata, hgeneratedAware, hexpiryAware⟩
    fresh := by
      rw [hage, hskew]
      show ((now.instant - snapshot.sourceTimestamp.instant : Int) : ℚ) / 1000000 ≤ 30 ∧
        -2 ≤ ((now.instant - snapshot.sourceTimestamp.instant : Int) : ℚ) / 1000000
      rw [div_le_iff₀ (by norm_num), le_div_iff₀ (by norm_num)]
      constructor
      · exact_mod_cast hold
      · exact_mod_cast hyoung
    signalled := by
      rw [hskew]
      show ((plan.generatedAt.instant - now.instant : Int) : ℚ) / 1000000 ≤ 2
      rw [hgenerated, sub_self]
      norm_num
    valid := by
      show now.instant < (plan.generatedAt.plus executionValidity).instant
      rw [instant_plus, hgenerated, executionValidity]
      omega
    event := rfl
    expiry := rfl
    buffer := by
      rw [hbuffer]
      show 900 < ((plan.expiry.instant - now.instant : Int) : ℚ) / 1000000
      rw [lt_div_iff₀ (by norm_num)]
      exact_mod_cast (by omega : (900000000 : Int) < plan.expiry.instant - now.instant) }

/-- An actionable plan of the service reaches the controller unless half a minute later the calendar ends. Its
maximum loss is the account's risk up to rounding, and on a fresh ledger only its names, the registry and the
ceilings can refuse it, or the calendar when it cannot hold the time in UTC. -/
theorem submit_handed (service : AutomatedSignalService) (snapshot : AtomicSnapshot) (report : ValidationReport)
    (previousSnapshot : Option PreviousOptionSnapshot) (now : Datetime) (result : SignalPipelineResult)
    (plan : TradePlan) (hdefault : service.pipeline.strategy = DEFAULT_STRATEGY_CONFIG)
    (h : service.evaluate snapshot report previousSnapshot now = .ok result)
    (hplan : result.tradePlan = some plan) (hactionable : plan.actionable = true) :
    (¬(now.plus executionValidity).InCalendar →
      toExecutionPlan plan snapshot executionValidity executionExpiryBuffer =
        .error (.overflowError "date value out of range")) ∧
      ((now.plus executionValidity).InCalendar → ∃ executionPlan,
        toExecutionPlan plan snapshot executionValidity executionExpiryBuffer = .ok executionPlan ∧
        SignalPipeline.AtMost executionPlan.maximumLoss.value
          (snapshot.context.accountCapital.value * snapshot.context.riskPerTrade.toDecimal.value) ∧
        ∀ (c : ExecutionController) (createdAt : Int), c.policy.DefaultTiming →
          run (perform c.live) (c.submit executionPlan now) (.fresh createdAt) =
            if ¬now.toUtc.InCalendar then (.error dateOverflow, .fresh createdAt)
            else match c.refusal executionPlan with
            | some message => (.error ⟨.planValidation, message⟩, .fresh createdAt)
            | none => run (perform c.live) (c.dispatch executionPlan now) (.received createdAt executionPlan now)) := by
  have hhanded := service.evaluate_handed hdefault h hplan hactionable
  have hadapter := toExecutionPlan_handed hhanded
  obtain ⟨hgenerated, haware⟩ := hhanded.generated
  rw [hgenerated] at hadapter
  constructor
  · intro hend
    rw [hadapter, if_neg hend]
  · intro hcalendar
    rw [if_pos hcalendar] at hadapter
    refine ⟨handedPlan plan snapshot, hadapter, hhanded.loss.2.2, fun c createdAt htiming => ?_⟩
    by_cases hday : now.toUtc.InCalendar
    · rw [if_neg (not_not.mpr hday)]
      exact run_submit_fresh ⟨haware, hday⟩ (handed_answered hhanded htiming) createdAt
    · rw [if_pos hday]
      exact run_submit_fresh_overflows c _ haware hday createdAt

section Desk

/-- A chain of one call and one put whose trend conditions all speak for the call. -/
structure Desk where
  now : Datetime
  expiry : Datetime
  symbol : String
  version : String
  capital : Decimal

namespace Desk

variable (desk : Desk)

def record (securityId : String) (side : OptionType) : InstrumentMasterRecord :=
  ⟨⟨.nse, "NSE_FNO", securityId, desk.symbol⟩, "NIFTY", "OPTIDX", some "13", desk.expiry, some 20000, side, some 8,
    some 1⟩

def contract : ContractSpec := { SignalPipeline.tieContract with
  optionExpiry := desk.expiry
  lotSize := 8
  optionContracts := [desk.record "1" .call, desk.record "2" .put] }

def quote (observedAt : Datetime) (securityId : String) (side : OptionType) (premium : Decimal) : OptionQuote :=
  { SignalPipeline.tieQuote securityId side premium 0 with
    strike := 20000
    expiry := desk.expiry
    bid := some premium
    ask := some premium
    impliedVolatility := some 0.27
    observedAt := observedAt }

def chain : List OptionQuote := [desk.quote desk.now "1" .call 200, desk.quote desk.now "2" .put 190]

def market : MarketState := ⟨desk.now, some 20000, some 20010, none, none, none, none, none, none⟩

def technicals : TechnicalState :=
  ⟨desk.now, some 19990, some 19980, some 19970, some 19960, some 60, some 50, some 0.55, "15m", true⟩

def context : StrategyContext := ⟨.pro, .intraday, desk.capital, 0.02, 1, some false, none, 19950, 19900, 1⟩

def snapshot : AtomicSnapshot where
  snapshotId := "snapshot"
  sequence := 2
  source := .dhanRest
  sourceTimestamp := desk.now
  receivedAt := desk.now
  contract := desk.contract
  market := desk.market
  technicals := desk.technicals
  context := desk.context
  optionChain := desk.chain
  strategyVersion := desk.version
  metadata := [("normalized_component_hashes",
    stringDict (normalizedComponentHashes desk.contract desk.market desk.technicals desk.context desk.chain))]
  hashed := rfl

def report : ValidationReport := ⟨[], desk.snapshot.snapshotId, contentHash desk.snapshot⟩

/-- Ten seconds earlier the call was cheaper and the put dearer. -/
def previous : PreviousOptionSnapshot where
  snapshotId := "previous"
  sequence := 1
  source := .dhanRest
  sourceTimestamp := desk.now.plus (-10000000)
  contractKey := desk.contract.contractKey
  optionChain := [desk.quote (desk.now.plus (-10000000)) "1" .call 196, desk.quote (desk.now.plus (-10000000)) "2" .put 194]

/-- The Black-Scholes Greeks of the two legs three days and one day before their expiry. -/
def greeks (inputs : PricingInputs) : Greeks :=
  match inputs.optionType, decide ((0.005 : Binary64) < inputs.timeToExpiry) with
  | .call, true => ⟨some 0.5129177482719083, some 0.0008144686271645241, some (-34.18750806227302),
      some 7.2298037041453656, some (.finite false 20022398759004682 (-14))⟩
  | .put, true => ⟨some (-0.4870822517280917), some 0.0008144686271645241, some (-30.901457747005463),
      some 7.2298037041453656, some (.finite false 19036340546767133 (-14))⟩
  | .call, false => ⟨some 0.5074563013191519, some 0.0014116929279105754, some (-58.03991453471335),
      some 4.17411492137955, some (.finite false 11436075581332261 (-14))⟩
  | .put, false => ⟨some (-0.49254369868084813), some 0.0014116929279105754, some (-54.75278331502887),
      some 4.17411492137955, some (.finite false 11107567556053436 (-14))⟩

/-- The Greeks of both legs at a time to expiry. -/
def chainGreeks (timeToExpiry : Binary64) : List (String × Greeks) :=
  [("1", greeks ⟨.blackScholes, .call, 20000, 20000, 0.27, timeToExpiry, 0.06, 0⟩),
    ("2", greeks ⟨.blackScholes, .put, 20000, 20000, 0.27, timeToExpiry, 0.06, 0⟩)]

end Desk

def deskService : AutomatedSignalService :=
  ⟨SignalPipeline.costlessPipeline, DEFAULT_STRATEGY_CONFIG, fun inputs => .ok (Desk.greeks inputs)⟩

/-- The legs of a desk as the analytics return them. -/
def Desk.legs (desk : Desk) : Except ServiceFault (List (String × Greeks)) :=
  analyzeOptionChain deskService.price desk.contract desk.now 0.06 0 desk.market desk.chain "13"

/-- The evaluation of a desk ends with an actionable plan. -/
def Desk.Plans (desk : Desk) (plan : TradePlan) : Prop :=
  ∃ result, deskService.evaluate desk.snapshot desk.report (some desk.previous) desk.now = .ok result ∧
    result.tradePlan = some plan ∧ plan.actionable = true

/-- An evaluation of a desk, from what the analytics and the pipeline compute. -/
theorem desk_plans (desk : Desk) (legs : List (String × Greeks)) {symbol : String} {riskPerLot : Decimal} {lots : Int}
    (hlegs : desk.legs = .ok legs) (haware : desk.now.Aware)
    (hprevious : SignalPipeline.costlessPipeline.previousBySecurity desk.snapshot (some desk.previous) =
      .ok desk.previous.optionChain)
    (hcovers : SignalPipeline.CoversChain (some (AutomatedSignalService.modeledGreeks legs)) desk.chain)
    (hview : (SignalPipeline.costlessPipeline.candidates desk.snapshot desk.previous.optionChain
        (some (AutomatedSignalService.modeledGreeks legs)) >>= fun cs =>
      SignalPipeline.costlessPipeline.conclude desk.snapshot desk.report cs desk.now).map
        (fun result => result.tradePlan.map fun plan => (plan.actionable, plan.symbol, plan.riskPerLot, plan.lots)) =
          .ok (some (true, symbol, riskPerLot, lots))) :
    ∃ plan, desk.Plans plan ∧ plan.symbol = symbol ∧ plan.riskPerLot = riskPerLot ∧ plan.lots = lots := by
  obtain ⟨result, hresult, hplan⟩ := Except.map_eq_ok.mp hview
  obtain ⟨plan, hsome, hfields⟩ := Option.map_eq_some_iff.mp hplan
  obtain ⟨hactionable, hfields⟩ := Prod.mk.inj hfields
  obtain ⟨hsymbol, hfields⟩ := Prod.mk.inj hfields
  obtain ⟨hrisk, hlots⟩ := Prod.mk.inj hfields
  refine ⟨plan, ⟨result, ?_, hsome, hactionable⟩, hsymbol, hrisk, hlots⟩
  have hpipeline : SignalPipeline.costlessPipeline.evaluate desk.snapshot desk.report (some desk.previous)
      (some (AutomatedSignalService.modeledGreeks legs)) desk.now = .ok result := by
    unfold SignalPipeline.evaluate SignalPipeline.requireBoundReport
    rw [require_bind haware, require_bind ⟨rfl, rfl⟩, hprevious]
    show (Strategy.require (SignalPipeline.CoversChain _ desk.chain) _ >>= _) = _
    rw [require_bind hcovers]
    exact hresult
  show (desk.legs >>= fun legs => evaluation (SignalPipeline.costlessPipeline.evaluate desk.snapshot desk.report
    (some desk.previous) (some (AutomatedSignalService.modeledGreeks legs)) desk.now)) = _
  rw [hlegs]
  exact evaluation_eq_ok.mpr hpipeline

theorem Desk.Plans.handed {desk : Desk} {plan : TradePlan} (h : desk.Plans plan) :
    Handed desk.snapshot desk.now plan := by
  obtain ⟨result, hresult, hplan, hactionable⟩ := h
  exact deskService.evaluate_handed rfl hresult hplan hactionable

/-- An account of 20000, less five in the twenty-fourth decimal place, and an option without a symbol. -/
def namelessDesk : Desk :=
  ⟨.utc 1000000000000, .utc 1259200000000, "", "v1", .finite false 19999999999999999999999999995 (-24)⟩

theorem nameless_plans :
    ∃ plan, namelessDesk.Plans plan ∧ plan.symbol = "" ∧ plan.riskPerLot = 200 ∧ plan.lots = 2 :=
  desk_plans namelessDesk (Desk.chainGreeks 1) (by decide +kernel) rfl
    ((SignalPipeline.previousBySecurity_compatible rfl rfl (by decide)).trans (by decide +kernel))
    (by decide +kernel) (by decide +kernel)

/-- An option with a symbol, in a snapshot without a strategy version. -/
def unversionedDesk : Desk := ⟨.utc 1000000000000, .utc 1259200000000, "NIFTY", "", 25000⟩

theorem unversioned_plans :
    ∃ plan, unversionedDesk.Plans plan ∧ plan.symbol = "NIFTY" ∧ plan.riskPerLot = 200 ∧ plan.lots = 2 :=
  desk_plans unversionedDesk (Desk.chainGreeks 1) (by decide +kernel) rfl
    ((SignalPipeline.previousBySecurity_compatible rfl rfl (by decide)).trans (by decide +kernel))
    (by decide +kernel) (by decide +kernel)

/-- A clock east of Greenwich that shows the last second of the calendar, a day before it ends in UTC. -/
def lastDesk : Desk := ⟨⟨253402300799999999, some 86340000000⟩, .utc 253402300799000000, "NIFTY", "v1", 25000⟩

theorem last_plans : ∃ plan, lastDesk.Plans plan ∧ plan.symbol = "NIFTY" ∧ plan.riskPerLot = 200 ∧ plan.lots = 2 :=
  desk_plans lastDesk (Desk.chainGreeks 0) (by decide +kernel) rfl
    ((SignalPipeline.previousBySecurity_compatible rfl rfl (by decide)).trans (by decide +kernel))
    (by decide +kernel) (by decide +kernel)

/-- A clock east of Greenwich ten seconds into the calendar, which has not begun in UTC. -/
def firstDesk : Desk :=
  ⟨⟨-62135596790000000, some 19800000000⟩, .utc (-62135357390000000), "NIFTY", "v1", 25000⟩

theorem first_plans : ∃ plan, firstDesk.Plans plan ∧ plan.symbol = "NIFTY" ∧ plan.riskPerLot = 200 ∧ plan.lots = 2 :=
  desk_plans firstDesk (Desk.chainGreeks 1) (by decide +kernel) rfl
    ((SignalPipeline.previousBySecurity_compatible rfl rfl (by decide)).trans (by decide +kernel))
    (by decide +kernel) (by decide +kernel)

/-- Manual approval, for a registry of both symbols. -/
def deskController : ExecutionController := .ofMode .manualApproval [("", "1"), ("NIFTY", "1")] none

/-- What a desk's plan meets at the controller on a fresh ledger. -/
theorem desk_refused {desk : Desk} {plan : TradePlan} {message : String} (h : desk.Plans plan)
    (hcalendar : desk.now.toUtc.InCalendar)
    (hrefusal : deskController.refusal (handedPlan plan desk.snapshot) = some message) :
    (run (perform none) (deskController.submit (handedPlan plan desk.snapshot) desk.now) (.fresh 0)).1 =
      .error ⟨.planValidation, message⟩ := by
  have htiming : deskController.policy.DefaultTiming := ⟨rfl, rfl, rfl⟩
  have hrun := run_submit_fresh ⟨h.handed.generated.2, hcalendar⟩ (handed_answered h.handed htiming) 0
  rw [hrefusal] at hrun
  exact congrArg Prod.fst hrun

/-- Four plans that are not taken for another reason, the first with a maximum loss above the account's risk. -/
theorem submit_handed_exceptions :
    (∃ plan executionPlan, namelessDesk.Plans plan ∧
        toExecutionPlan plan namelessDesk.snapshot executionValidity executionExpiryBuffer = .ok executionPlan ∧
        namelessDesk.context.accountCapital.value * namelessDesk.context.riskPerTrade.toDecimal.value <
          executionPlan.maximumLoss.value ∧
        (run (perform none) (deskController.submit executionPlan namelessDesk.now) (.fresh 0)).1 =
          .error ⟨.planValidation, "symbol is required"⟩) ∧
      (∃ plan executionPlan, unversionedDesk.Plans plan ∧
        toExecutionPlan plan unversionedDesk.snapshot executionValidity executionExpiryBuffer = .ok executionPlan ∧
        (run (perform none) (deskController.submit executionPlan unversionedDesk.now) (.fresh 0)).1 =
          .error ⟨.planValidation, "strategy_version is required"⟩) ∧
      (∃ plan, lastDesk.Plans plan ∧
        toExecutionPlan plan lastDesk.snapshot executionValidity executionExpiryBuffer =
          .error (.overflowError "date value out of range")) ∧
      ∃ plan executionPlan, firstDesk.Plans plan ∧
        toExecutionPlan plan firstDesk.snapshot executionValidity executionExpiryBuffer = .ok executionPlan ∧
        (run (perform none) (deskController.submit executionPlan firstDesk.now) (.fresh 0)).1 =
          .error dateOverflow := by
  refine ⟨?_, ?_, ?_, ?_⟩
  · obtain ⟨plan, hplan, hsymbol, hrisk, hlots⟩ := nameless_plans
    refine ⟨plan, handedPlan plan namelessDesk.snapshot, hplan, ?_, ?_, desk_refused hplan (by decide) ?_⟩
    · rw [toExecutionPlan_handed hplan.handed, hplan.handed.generated.1, if_pos (by decide)]
    · show _ < (Decimal.mul .default plan.riskPerLot (.ofInt plan.lots)).value
      rw [hrisk, hlots]
      decide +kernel
    · have hblank : PyText.Blank (handedPlan plan namelessDesk.snapshot).symbol := by
        show PyText.Blank plan.symbol
        rw [hsymbol]
        decide
      exact if_pos hblank
  · obtain ⟨plan, hplan, hsymbol, -⟩ := unversioned_plans
    refine ⟨plan, handedPlan plan unversionedDesk.snapshot, hplan, ?_, desk_refused hplan (by decide) ?_⟩
    · rw [toExecutionPlan_handed hplan.handed, hplan.handed.generated.1, if_pos (by decide)]
    · have hnamed : ¬PyText.Blank (handedPlan plan unversionedDesk.snapshot).symbol := by
        show ¬PyText.Blank plan.symbol
        rw [hsymbol]
        decide
      have hversion : PyText.Blank (handedPlan plan unversionedDesk.snapshot).strategyVersion := by
        show PyText.Blank plan.strategyVersion
        rw [hplan.handed.bound.2.2]
        decide
      exact (if_neg hnamed).trans (if_pos hversion)
  · obtain ⟨plan, hplan, -⟩ := last_plans
    refine ⟨plan, hplan, ?_⟩
    rw [toExecutionPlan_handed hplan.handed, hplan.handed.generated.1, if_neg (by decide)]
  · obtain ⟨plan, hplan, -⟩ := first_plans
    refine ⟨plan, handedPlan plan firstDesk.snapshot, hplan, ?_, ?_⟩
    · rw [toExecutionPlan_handed hplan.handed, hplan.handed.generated.1, if_pos (by decide)]
    · exact congrArg Prod.fst (run_submit_fresh_overflows deskController _ hplan.handed.generated.2 (by decide) 0)

/-- The theorem at the option without a symbol. -/
theorem submit_handed_nameless : ∃ plan executionPlan, namelessDesk.Plans plan ∧
    toExecutionPlan plan namelessDesk.snapshot executionValidity executionExpiryBuffer = .ok executionPlan := by
  obtain ⟨plan, hplan, -⟩ := nameless_plans
  obtain ⟨result, hresult, hsome, hactionable⟩ := hplan
  obtain ⟨executionPlan, hadapter, -⟩ :=
    (submit_handed deskService _ _ _ _ result plan rfl hresult hsome hactionable).2 (by decide)
  exact ⟨plan, executionPlan, ⟨result, hresult, hsome, hactionable⟩, hadapter⟩

end Desk

end TecoQuant.Signal
