import TecoQuant.StrategySpec

/-! What a BUY decision says about its inputs: every gate of the precedence let it pass, and the greater
score names the side. -/

namespace TecoQuant.Strategy

open Domain

theorem arith_eq_ok {α : Type} {x : Except ArithmeticError α} {a : α} : arith x = .ok a ↔ x = .ok a := by
  cases x <;> simp [arith]

theorem require_eq_ok {condition : Prop} [Decidable condition] {message : String} {u : Unit} :
    require condition message = .ok u ↔ condition := by
  unfold require
  split <;> simp_all

theorem require_bind {α : Type} {condition : Prop} [Decidable condition] (h : condition) (message : String)
    (next : Unit → Except Fault α) : (require condition message >>= next) = next () := by
  rw [require, if_pos h]
  rfl

/-- A BUY side, as the decision names it. -/
def DecisionState.Buys (state : DecisionState) : Prop := state = .buyCall ∨ state = .buyPut

instance (state : DecisionState) : Decidable state.Buys := inferInstanceAs (Decidable (_ ∨ _))

/-- A BUY did not stop at a gate. -/
theorem passes_gate {blocked : Prop} [Decidable blocked] {stop next : DecisionState × DecisionReason}
    (h : (if blocked then stop else next).1.Buys) (hstop : ¬stop.1.Buys) : ¬blocked ∧ next.1.Buys := by
  by_cases hblocked : blocked
  · rw [if_pos hblocked] at h
    exact absurd h hstop
  · rw [if_neg hblocked] at h
    exact ⟨hblocked, h⟩

/-- Every gate of the precedence is open. -/
structure OpenGates (inputs : DecisionInputs) (config : StrategyConfig) : Prop where
  complete : inputs.dataComplete = true
  fresh : inputs.dataStale = false
  expiry : inputs.expiryValid = true
  calm : inputs.extremeExpiryRisk = false
  event : inputs.eventRiskActive = some false ∨ config.eventRiskBlocksNewTrades = false
  liquid : inputs.liquidStrikeAvailable = true
  affordable : inputs.affordable = true
  listed : ¬Binary64.max inputs.callScore inputs.putScore < config.watchlistScore
  tradable : ¬Binary64.max inputs.callScore inputs.putScore < config.minimumTradableScore
  separated : ¬(inputs.callScore.sub inputs.putScore).abs < config.conflictGap
  mode : inputs.operatingMode ≠ .quick
  confirmed : inputs.priceActionConfirmed = some true

section Precedence

variable {inputs : DecisionInputs} {config : StrategyConfig}

/-- Past the gates the greater score decides. -/
theorem precedence_of_open (h : OpenGates inputs config) :
    (precedence inputs config).1 = if inputs.putScore < inputs.callScore then .buyCall else .buyPut := by
  obtain ⟨hcomplete, hfresh, hexpiry, hcalm, hevent, hliquid, haffordable, hlisted, htradable, hseparated,
    hmode, hconfirmed⟩ := h
  have hrisk : ¬(inputs.eventRiskActive ≠ some false ∧ config.eventRiskBlocksNewTrades = true) := by
    rintro ⟨hactive, hblocks⟩
    rcases hevent with hclear | hallows
    · exact hactive hclear
    · exact Bool.false_ne_true (hallows.symm.trans hblocks)
  rw [precedence, if_neg (by simp [hcomplete]), if_neg (by simp [hfresh]), if_neg (by simp [hexpiry]),
    if_neg (by simp [hcalm]), if_neg hrisk, if_neg (by simp [hliquid]), if_neg (by simp [haffordable]),
    if_neg hlisted, if_neg htradable, if_neg hseparated, if_neg hmode, if_neg (by simp [hconfirmed])]
  split <;> rfl

/-- A BUY passed every gate. -/
theorem open_of_buys (h : (precedence inputs config).1.Buys) : OpenGates inputs config := by
  obtain ⟨hcomplete, h⟩ := passes_gate h (by decide)
  obtain ⟨hfresh, h⟩ := passes_gate h (by decide)
  obtain ⟨hexpiry, h⟩ := passes_gate h (by decide)
  obtain ⟨hcalm, h⟩ := passes_gate h (by decide)
  obtain ⟨hevent, h⟩ := passes_gate h (by decide)
  obtain ⟨hliquid, h⟩ := passes_gate h (by decide)
  obtain ⟨haffordable, h⟩ := passes_gate h (by decide)
  obtain ⟨hlisted, h⟩ := passes_gate h (by decide)
  obtain ⟨htradable, h⟩ := passes_gate h (by decide)
  obtain ⟨hseparated, h⟩ := passes_gate h (by decide)
  obtain ⟨hmode, h⟩ := passes_gate h (by decide)
  obtain ⟨hconfirmed, -⟩ := passes_gate h (by decide)
  refine {
    complete := eq_true_of_ne_false hcomplete
    fresh := eq_false_of_ne_true hfresh
    expiry := eq_true_of_ne_false hexpiry
    calm := eq_false_of_ne_true hcalm
    event := ?_
    liquid := eq_true_of_ne_false hliquid
    affordable := eq_true_of_ne_false haffordable
    listed := hlisted
    tradable := htradable
    separated := hseparated
    mode := hmode
    confirmed := not_not.mp hconfirmed }
  by_cases hclear : inputs.eventRiskActive = some false
  · exact .inl hclear
  · exact .inr (eq_false_of_ne_true fun hblocks => hevent ⟨hclear, hblocks⟩)

/-- The decision is a BUY exactly when every gate is open. -/
theorem buys_iff : (precedence inputs config).1.Buys ↔ OpenGates inputs config := by
  refine ⟨open_of_buys, fun h => ?_⟩
  rw [precedence_of_open h, DecisionState.Buys]
  split
  · exact .inl rfl
  · exact .inr rfl

theorem buyCall_iff :
    (precedence inputs config).1 = .buyCall ↔ OpenGates inputs config ∧ inputs.putScore < inputs.callScore := by
  constructor
  · intro h
    have hopen := open_of_buys (.inl h)
    rw [precedence_of_open hopen] at h
    exact ⟨hopen, by by_contra hside; rw [if_neg hside] at h; cases h⟩
  · rintro ⟨hopen, hside⟩
    rw [precedence_of_open hopen, if_pos hside]

theorem buyPut_iff :
    (precedence inputs config).1 = .buyPut ↔ OpenGates inputs config ∧ ¬inputs.putScore < inputs.callScore := by
  constructor
  · intro h
    have hopen := open_of_buys (.inr h)
    rw [precedence_of_open hopen] at h
    exact ⟨hopen, by intro hside; rw [if_pos hside] at h; cases h⟩
  · rintro ⟨hopen, hside⟩
    rw [precedence_of_open hopen, if_neg hside]

end Precedence

/-- What a resolved decision is made of. -/
theorem resolveDecision_eq_ok {inputs : DecisionInputs} {config : StrategyConfig} {outcome : DecisionOutcome}
    (h : resolveDecision inputs config = .ok outcome) :
    ((0 ≤ inputs.callScore ∧ inputs.callScore ≤ 100) ∧ 0 ≤ inputs.putScore ∧ inputs.putScore ≤ 100) ∧
      outcome.state = (precedence inputs config).1 ∧ outcome.reason = (precedence inputs config).2 ∧
      outcome.scoreGap = (inputs.callScore.sub inputs.putScore).abs := by
  obtain ⟨_, hrange, h⟩ := Except.bind_eq_ok.mp h
  cases h
  exact ⟨require_eq_ok.mp hrange, rfl, rfl, rfl⟩

end TecoQuant.Strategy
