import TecoQuant.SignalPipeline
import TecoQuant.StrategyDecision

/-! Reading a returned evaluation backwards: the candidates it scored, the leader it drafted a plan for,
and the gates a BUY decision has passed. -/

namespace TecoQuant.Signal.SignalPipeline

open Domain Ingestion Strategy

variable {p : SignalPipeline} {snapshot : AtomicSnapshot} {report : ValidationReport}
  {cs : List Candidate} {now : Datetime} {result : SignalPipelineResult}

/-! ### The best candidate of a side -/

/-- The score of a side: that of its best candidate, or zero. -/
def sideScore (cs : List Candidate) (side : OptionType) : Binary64 :=
  ((best cs side).map Candidate.score).getD 0

theorem foldl_greatest_mem (first : Candidate) (rest : List Candidate) :
    rest.foldl (fun greatest candidate =>
      if greatest.score < candidate.score then candidate else greatest) first ∈ first :: rest := by
  induction rest generalizing first with
  | nil => exact List.mem_singleton_self first
  | cons next rest ih =>
      rw [List.foldl_cons]
      split
      · exact List.mem_cons_of_mem _ (ih next)
      · rcases List.mem_cons.mp (ih first) with hfirst | hrest
        · rw [hfirst]
          exact List.mem_cons_self
        · exact List.mem_cons_of_mem _ (List.mem_cons_of_mem _ hrest)

/-- The best candidate of a side is an eligible leg of that side. -/
theorem best_eq_some {side : OptionType} {c : Candidate} (h : best cs side = some c) :
    c ∈ cs ∧ c.quote.optionType = side ∧ c.eligible = true := by
  unfold best at h
  dsimp only at h
  split at h
  · cases h
  · rename_i first rest heligible
    cases h
    have hmem := foldl_greatest_mem first rest
    rw [← heligible, List.mem_filter, Bool.and_eq_true, decide_eq_true_eq] at hmem
    exact hmem

/-- The leader is the best call when the calls do not score less, else the best put. -/
theorem leading_eq (cs : List Candidate) :
    leading (best cs .call) (best cs .put) =
      if sideScore cs .put ≤ sideScore cs .call then best cs .call else best cs .put := rfl

/-! ### Drafts -/

/-- What a draft takes from its candidate and from the size of the position. -/
theorem draftPlan_eq_ok {candidate : Candidate} {ask riskDistance : Decimal} {callScore putScore : Binary64}
    {d : TradePlanDraft} {position : PositionSizeResult}
    (h : p.draftPlan snapshot candidate ask riskDistance callScore putScore now = .ok (d, position)) :
    ∃ entry stop, entryAndStop snapshot.contract.tickSize ask riskDistance = .ok (entry, stop) ∧
      calculatePositionSize snapshot.context.accountCapital snapshot.context.riskPerTrade
        snapshot.context.maximumPremiumAllocation entry stop snapshot.contract.lotSize p.costPerLot p.strategy =
          .ok position ∧
      d.securityId = candidate.quote.securityId ∧ d.optionType = candidate.quote.optionType ∧
      d.strike = candidate.quote.strike ∧ d.entry = entry ∧ d.stop = stop ∧
      d.lotSize = snapshot.contract.lotSize ∧ d.lots = position.maximumLots ∧ d.quantity = position.quantity ∧
      d.maximumRisk = position.maximumRisk ∧ d.riskPerLot = position.riskPerLot ∧
      d.premiumRequired = Decimal.mul .default position.premiumPerLot (.ofInt position.maximumLots) := by
  unfold draftPlan at h
  obtain ⟨⟨entry, stop⟩, hentry, h⟩ := Except.bind_eq_ok.mp h
  obtain ⟨distance, -, h⟩ := Except.bind_eq_ok.mp h
  obtain ⟨targets, -, h⟩ := Except.bind_eq_ok.mp h
  obtain ⟨size, hsize, h⟩ := Except.bind_eq_ok.mp h
  split at h
  · cases h
  · cases h
    exact ⟨entry, stop, hentry, hsize, rfl, rfl, rfl, rfl, rfl, rfl, rfl, rfl, rfl, rfl, rfl⟩

theorem draft_eq_ok {leader : Option Candidate} {callScore putScore : Binary64}
    {d : TradePlanDraft} {position : PositionSizeResult}
    (h : p.draft snapshot leader callScore putScore now = .ok (some (d, position))) :
    ∃ candidate ask riskDistance, leader = some candidate ∧ candidate.quote.ask = some ask ∧
      candidate.riskDistance = some riskDistance ∧
      p.draftPlan snapshot candidate ask riskDistance callScore putScore now = .ok (d, position) := by
  unfold draft at h
  split at h
  · rename_i candidate
    split at h
    · rename_i ask riskDistance hask hrisk
      obtain ⟨pair, hpair, hsome⟩ := Except.map_eq_ok.mp h
      cases hsome
      exact ⟨candidate, ask, riskDistance, rfl, hask, hrisk, hpair⟩
    · cases h
  · cases h

/-! ### Conclusions -/

/-- What an evaluation of scored candidates computes on its way. -/
structure Conclusion (p : SignalPipeline) (snapshot : AtomicSnapshot) (report : ValidationReport)
    (cs : List Candidate) (now : Datetime) where
  confirmed : Option Bool
  drafted : Option (TradePlanDraft × PositionSizeResult)
  age : Binary64
  expirySeconds : Binary64
  price : priceConfirmed snapshot (leading (best cs .call) (best cs .put)) = .ok confirmed
  plan : p.draft snapshot (leading (best cs .call) (best cs .put)) (sideScore cs .call) (sideScore cs .put) now =
    .ok drafted
  aged : totalSeconds now snapshot.sourceTimestamp = .ok age
  expires : totalSeconds snapshot.contract.optionExpiry now = .ok expirySeconds
  scores : (0 ≤ sideScore cs .call ∧ sideScore cs .call ≤ 100) ∧ 0 ≤ sideScore cs .put ∧ sideScore cs .put ≤ 100

namespace Conclusion

/-- The inputs of the decision. -/
def inputs (c : Conclusion p snapshot report cs now) : DecisionInputs :=
  p.decisionInputs snapshot report cs (c.drafted.map Prod.snd) c.confirmed c.age c.expirySeconds

/-- Every gate is open. -/
def Opens (c : Conclusion p snapshot report cs now) : Prop := OpenGates c.inputs p.strategy

end Conclusion

theorem conclude_eq_ok (h : p.conclude snapshot report cs now = .ok result) :
    ∃ c : Conclusion p snapshot report cs now,
      result.decision = (precedence c.inputs p.strategy).1 ∧
      result.tradePlan = c.drafted.map (fun pair => pair.1.finalize result.decision) ∧
      result.callScore = sideScore cs .call ∧ result.putScore = sideScore cs .put ∧
      result.scoreGap = ((sideScore cs .call).sub (sideScore cs .put)).abs := by
  unfold conclude at h
  obtain ⟨ranked, -, h⟩ := Except.bind_eq_ok.mp h
  obtain ⟨confirmed, hprice, h⟩ := Except.bind_eq_ok.mp h
  obtain ⟨drafted, hplan, h⟩ := Except.bind_eq_ok.mp h
  obtain ⟨age, hage, h⟩ := Except.bind_eq_ok.mp h
  obtain ⟨expirySeconds, hexpires, h⟩ := Except.bind_eq_ok.mp h
  obtain ⟨outcome, houtcome, h⟩ := Except.bind_eq_ok.mp h
  obtain ⟨hscores, hstate, -, hgap⟩ := resolveDecision_eq_ok houtcome
  cases h
  exact ⟨⟨confirmed, drafted, age, expirySeconds, hprice, hplan, hage, hexpires, hscores⟩, hstate, rfl, rfl,
    rfl, hgap⟩

/-- A returned evaluation had a bound report and concluded from the scored chain. -/
theorem evaluate_eq_ok {previousSnapshot : Option PreviousOptionSnapshot}
    {modeledGreeks : Option (List (String × Greeks))}
    (h : p.evaluate snapshot report previousSnapshot modeledGreeks now = .ok result) :
    now.Aware ∧
      (report.snapshotId = some snapshot.snapshotId ∧ report.snapshotHash = some (contentHash snapshot)) ∧
      CoversChain modeledGreeks snapshot.optionChain ∧
      ∃ previous cs, p.previousBySecurity snapshot previousSnapshot = .ok previous ∧
        p.candidates snapshot previous modeledGreeks = .ok cs ∧
        p.conclude snapshot report cs now = .ok result := by
  unfold evaluate requireBoundReport at h
  obtain ⟨_, haware, h⟩ := Except.bind_eq_ok.mp h
  obtain ⟨_, hbound, h⟩ := Except.bind_eq_ok.mp h
  obtain ⟨previous, hprevious, h⟩ := Except.bind_eq_ok.mp h
  obtain ⟨_, hcovers, h⟩ := Except.bind_eq_ok.mp h
  obtain ⟨cs, hcandidates, h⟩ := Except.bind_eq_ok.mp h
  exact ⟨require_eq_ok.mp haware, require_eq_ok.mp hbound, require_eq_ok.mp hcovers, previous, cs, hprevious,
    hcandidates, h⟩

/-! ### BUY decisions -/

namespace Conclusion

variable (c : Conclusion p snapshot report cs now)

/-- Open gates come with a confirmed leader and an affordable draft. -/
theorem opens_drafted (h : c.Opens) :
    ∃ d position candidate ask riskDistance, c.drafted = some (d, position) ∧ position.affordable = true ∧
      leading (best cs .call) (best cs .put) = some candidate ∧ candidate.quote.ask = some ask ∧
      candidate.riskDistance = some riskDistance ∧
      p.draftPlan snapshot candidate ask riskDistance (sideScore cs .call) (sideScore cs .put) now =
        .ok (d, position) := by
  have haffordable := of_decide_eq_true h.affordable
  cases hdrafted : c.drafted with
  | none => simp [hdrafted] at haffordable
  | some pair =>
      obtain ⟨d, position⟩ := pair
      have hplan := c.plan
      rw [hdrafted] at hplan haffordable
      obtain ⟨candidate, ask, riskDistance, hleader, hask, hrisk, hdraft⟩ := draft_eq_ok hplan
      exact ⟨d, position, candidate, ask, riskDistance, rfl, by simpa using haffordable, hleader, hask, hrisk,
        hdraft⟩

/-- Open gates come with a best leg on either side. -/
theorem opens_best (h : c.Opens) (side : OptionType) : ∃ candidate, best cs side = some candidate := by
  have hcomplete := of_decide_eq_true h.complete
  obtain ⟨-, ⟨call, hcall, -⟩, put, hput, -⟩ := hcomplete
  cases side with
  | call => exact ⟨call, hcall⟩
  | put => exact ⟨put, hput⟩

/-- Open gates come with a price that confirms the leader. -/
theorem opens_confirmed (h : c.Opens) {leader : Candidate}
    (hleader : leading (best cs .call) (best cs .put) = some leader) :
    ∃ underlying, snapshot.market.pricingUnderlying snapshot.contract.marketKind = some underlying ∧
      confirmPriceAction leader.quote.optionType underlying snapshot.context.signalCandleHigh
        snapshot.context.signalCandleLow = .ok true := by
  have hconfirmed : c.confirmed = some true := h.confirmed
  have hprice := c.price
  rw [hleader, hconfirmed] at hprice
  unfold priceConfirmed at hprice
  split at hprice
  · rename_i underlying candidate hunderlying hcandidate
    cases hcandidate
    obtain ⟨confirmed, hok, hsome⟩ := Except.map_eq_ok.mp hprice
    cases hsome
    exact ⟨underlying, hunderlying, hok⟩
  · cases hprice

end Conclusion
end TecoQuant.Signal.SignalPipeline
