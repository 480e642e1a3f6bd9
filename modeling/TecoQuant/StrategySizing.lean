import Mathlib.Order.Bounds.Basic
import TecoQuant.BaseBinary64Shortest
import TecoQuant.BaseDecimalQuotient
import TecoQuant.StrategyDecision

/-! Position sizing over the values of its decimals, in exact arithmetic or in the default context: the size is the
largest within both limits of the account, and easier inputs give no smaller size. -/

namespace TecoQuant.Strategy

/-- `left / right` over the values of decimals. -/
def quotientOf (ctx : DecimalContext) (left right : ℚ) : Except Fault ℚ :=
  match ctx.div left right with
  | some quotient => .ok quotient
  | none => .error (.arithmetic (if left = 0 then .invalidOperation else .divisionByZero))

/-- What a position is sized from. -/
structure SizeInputs where
  accountCapital : ℚ
  riskRate : Binary64
  maximumPremiumAllocation : Binary64
  entry : ℚ
  stop : ℚ
  lotSize : Int
  costPerLot : ℚ
  rates_float : riskRate.Representable ∧ maximumPremiumAllocation.Representable

structure PositionSize where
  maximumRisk : ℚ
  riskPerLot : ℚ
  premiumPerLot : ℚ
  lotsByRisk : Int
  lotsByAllocation : Int
  maximumLots : Int
  quantity : Int
  affordable : Bool
  deriving DecidableEq, Repr

/-- The whole number of lots an amount pays for. -/
def lotsFor (ctx : DecimalContext) (amount perLot : ℚ) : Except Fault Int := do
  return ⌊← quotientOf ctx amount perLot⌋

/-- `calculate_position_size`. -/
def positionSize (ctx : DecimalContext) (inputs : SizeInputs) (config : StrategyConfig) :
    Except Fault PositionSize := do
  require (0 < inputs.accountCapital ∧ 0 < inputs.entry ∧ 0 < inputs.lotSize)
    "capital, entry, and lot size must be positive"
  require (inputs.riskRate.IsFinite ∧ inputs.maximumPremiumAllocation.IsFinite) "risk and allocation rates must be finite"
  require (0 < inputs.riskRate ∧ inputs.riskRate ≤ config.maximumRiskPerTrade)
    "risk rate must be positive and within the configured maximum risk per trade"
  require (0 < inputs.maximumPremiumAllocation ∧ inputs.maximumPremiumAllocation ≤ 1)
    "premium allocation rate must be within (0, 1]"
  require (0 ≤ inputs.stop ∧ inputs.stop < inputs.entry) "a long-option stop must be within [0, entry)"
  require (0 ≤ inputs.costPerLot) "estimated costs cannot be negative"
  let maximumRisk := ctx.mul inputs.accountCapital inputs.riskRate.toDecimal.value
  let riskPerLot := ctx.add (ctx.mul (ctx.sub inputs.entry inputs.stop) inputs.lotSize) inputs.costPerLot
  let premiumPerLot := ctx.mul inputs.entry inputs.lotSize
  let allocation := ctx.mul inputs.accountCapital inputs.maximumPremiumAllocation.toDecimal.value
  let lotsByRisk ← lotsFor ctx maximumRisk riskPerLot
  let lotsByAllocation ← lotsFor ctx allocation premiumPerLot
  let maximumLots := max 0 (min lotsByRisk lotsByAllocation)
  return {
    maximumRisk, riskPerLot, premiumPerLot, lotsByRisk, lotsByAllocation, maximumLots
    quantity := maximumLots * inputs.lotSize
    affordable := 0 < maximumLots }

namespace SizeInputs

/-- The inputs a size is calculated for. -/
structure Accepted (inputs : SizeInputs) (config : StrategyConfig) : Prop where
  positive : 0 < inputs.accountCapital ∧ 0 < inputs.entry ∧ 0 < inputs.lotSize
  finite : inputs.riskRate.IsFinite ∧ inputs.maximumPremiumAllocation.IsFinite
  risk : 0 < inputs.riskRate ∧ inputs.riskRate ≤ config.maximumRiskPerTrade
  allocation : 0 < inputs.maximumPremiumAllocation ∧ inputs.maximumPremiumAllocation ≤ 1
  stop : 0 ≤ inputs.stop ∧ inputs.stop < inputs.entry
  cost : 0 ≤ inputs.costPerLot

section

variable (ctx : DecimalContext) (inputs : SizeInputs)

/-- The capital at risk and the capital for premiums. -/
def riskLimit : ℚ := ctx.mul inputs.accountCapital inputs.riskRate.toDecimal.value

def premiumLimit : ℚ := ctx.mul inputs.accountCapital inputs.maximumPremiumAllocation.toDecimal.value

/-- The risk and the premium of one lot. -/
def riskPerLot : ℚ := ctx.add (ctx.mul (ctx.sub inputs.entry inputs.stop) inputs.lotSize) inputs.costPerLot

def premiumPerLot : ℚ := ctx.mul inputs.entry inputs.lotSize

/-- The lots each limit pays for. -/
def lotsByRisk : Int := ⌊ctx.round (inputs.riskLimit ctx / inputs.riskPerLot ctx)⌋

def lotsByAllocation : Int := ⌊ctx.round (inputs.premiumLimit ctx / inputs.premiumPerLot ctx)⌋

end

variable {ctx : DecimalContext} {inputs inputs' : SizeInputs} {config config' : StrategyConfig}

theorem Accepted.riskPerLot_pos (h : inputs.Accepted config) (ctx : DecimalContext) : 0 < inputs.riskPerLot ctx := by
  have hlot : (0 : ℚ) < inputs.lotSize := Int.cast_pos.mpr h.positive.2.2
  have hrisk := ctx.mul_positive (ctx.sub_positive h.stop.2) hlot
  exact ctx.round_pos (add_pos_of_pos_of_nonneg hrisk h.cost)

theorem Accepted.premiumPerLot_pos (h : inputs.Accepted config) (ctx : DecimalContext) :
    0 < inputs.premiumPerLot ctx :=
  ctx.mul_positive h.positive.2.1 (Int.cast_pos.mpr h.positive.2.2)

/-- Nothing divides by zero. -/
theorem lotsFor_eq_ok {amount perLot : ℚ} (hperLot : 0 < perLot) :
    lotsFor ctx amount perLot = .ok ⌊ctx.round (amount / perLot)⌋ := by
  rw [lotsFor, quotientOf, ctx.div_eq_some hperLot]
  rfl

/-- The size of accepted inputs. -/
def sized (ctx : DecimalContext) (inputs : SizeInputs) : PositionSize where
  maximumRisk := inputs.riskLimit ctx
  riskPerLot := inputs.riskPerLot ctx
  premiumPerLot := inputs.premiumPerLot ctx
  lotsByRisk := inputs.lotsByRisk ctx
  lotsByAllocation := inputs.lotsByAllocation ctx
  maximumLots := max 0 (min (inputs.lotsByRisk ctx) (inputs.lotsByAllocation ctx))
  quantity := max 0 (min (inputs.lotsByRisk ctx) (inputs.lotsByAllocation ctx)) * inputs.lotSize
  affordable := 0 < max 0 (min (inputs.lotsByRisk ctx) (inputs.lotsByAllocation ctx))

theorem positionSize_of_accepted (h : inputs.Accepted config) (ctx : DecimalContext) :
    positionSize ctx inputs config = .ok (inputs.sized ctx) := by
  have hrisk := @lotsFor_eq_ok ctx (inputs.riskLimit ctx) _ (h.riskPerLot_pos ctx)
  have hallocation := @lotsFor_eq_ok ctx (inputs.premiumLimit ctx) _ (h.premiumPerLot_pos ctx)
  rw [positionSize, require_bind h.positive, require_bind h.finite, require_bind h.risk, require_bind h.allocation,
    require_bind h.stop, require_bind h.cost]
  exact Except.bind_eq_ok.mpr ⟨_, hrisk, Except.bind_eq_ok.mpr ⟨_, hallocation, rfl⟩⟩

/-- Inputs that are not accepted are refused with a message. -/
theorem positionSize_of_not_accepted (h : ¬inputs.Accepted config) (ctx : DecimalContext) :
    ∃ message, positionSize ctx inputs config = .error (.value message) := by
  by_contra hnone
  have hpasses : ∀ {condition : Prop} [Decidable condition] {message : String} {next : Unit → Except Fault PositionSize},
      (¬∃ message', (require condition message >>= next) = .error (.value message')) →
        condition ∧ ¬∃ message', next () = .error (.value message') := by
    intro condition _ message next hnone
    by_cases hcondition : condition
    · rw [require_bind hcondition] at hnone
      exact ⟨hcondition, hnone⟩
    · refine absurd ⟨message, ?_⟩ hnone
      rw [require, if_neg hcondition]
      rfl
  rw [positionSize] at hnone
  obtain ⟨hpositive, hnone⟩ := hpasses hnone
  obtain ⟨hfinite, hnone⟩ := hpasses hnone
  obtain ⟨hrisk, hnone⟩ := hpasses hnone
  obtain ⟨hallocation, hnone⟩ := hpasses hnone
  obtain ⟨hstop, hnone⟩ := hpasses hnone
  obtain ⟨hcost, hnone⟩ := hpasses hnone
  exact h ⟨hpositive, hfinite, hrisk, hallocation, hstop, hcost⟩

theorem positionSize_eq_ok {size : PositionSize} :
    positionSize ctx inputs config = .ok size ↔ inputs.Accepted config ∧ size = inputs.sized ctx := by
  constructor
  · intro h
    by_cases haccepted : inputs.Accepted config
    · rw [positionSize_of_accepted haccepted] at h
      exact ⟨haccepted, (Except.ok.inj h).symm⟩
    · obtain ⟨message, hrefused⟩ := positionSize_of_not_accepted haccepted ctx
      rw [hrefused] at h
      cases h
  · rintro ⟨haccepted, rfl⟩
    exact positionSize_of_accepted haccepted ctx

/-! ### Maximality -/

theorem rate_nonneg {rate : Binary64} (hfloat : rate.Representable) (hfinite : rate.IsFinite) (hpos : 0 < rate) :
    0 ≤ rate.toDecimal.value := by
  cases rate with
  | finite negative value =>
      obtain rfl := hfloat.unsigned hpos
      rw [Binary64.toDecimal_value hpos]
      positivity
  | _ => exact hfinite.elim

/-- The numbers of lots within both limits of the account. -/
def affordableLots (inputs : SizeInputs) : Set ℤ :=
  {n | 0 ≤ n ∧ n * ((inputs.entry - inputs.stop) * inputs.lotSize + inputs.costPerLot) ≤
      inputs.accountCapital * inputs.riskRate.toDecimal.value ∧
    n * inputs.entry * inputs.lotSize ≤ inputs.accountCapital * inputs.maximumPremiumAllocation.toDecimal.value}

theorem le_floor_div_iff {n : ℤ} {amount perLot : ℚ} (h : 0 < perLot) :
    n ≤ ⌊amount / perLot⌋ ↔ n * perLot ≤ amount := by
  rw [Int.le_floor, le_div_iff₀ h]

theorem le_lots_iff (h : inputs.Accepted config) {n : ℤ} :
    n ≤ min (inputs.lotsByRisk .exact) (inputs.lotsByAllocation .exact) ↔
      n * ((inputs.entry - inputs.stop) * inputs.lotSize + inputs.costPerLot) ≤
        inputs.accountCapital * inputs.riskRate.toDecimal.value ∧
      n * inputs.entry * inputs.lotSize ≤
        inputs.accountCapital * inputs.maximumPremiumAllocation.toDecimal.value := by
  have hrisk := @le_floor_div_iff n (inputs.riskLimit .exact) _ (h.riskPerLot_pos .exact)
  have hpremium := @le_floor_div_iff n (inputs.premiumLimit .exact) _ (h.premiumPerLot_pos .exact)
  rw [le_min_iff, mul_assoc (n : ℚ)]
  exact and_congr hrisk hpremium

/-- The size is the largest number of lots within both limits. -/
theorem sized_isGreatest (h : inputs.Accepted config) :
    IsGreatest inputs.affordableLots (inputs.sized .exact).maximumLots := by
  have hnone : 0 ≤ min (inputs.lotsByRisk .exact) (inputs.lotsByAllocation .exact) := by
    rw [le_lots_iff h, Int.cast_zero, zero_mul, zero_mul, zero_mul]
    have hrisk := rate_nonneg inputs.rates_float.1 h.finite.1 h.risk.1
    have hallocation := rate_nonneg inputs.rates_float.2 h.finite.2 h.allocation.1
    exact ⟨mul_nonneg h.positive.1.le hrisk, mul_nonneg h.positive.1.le hallocation⟩
  have hlots : (inputs.sized .exact).maximumLots = min (inputs.lotsByRisk .exact) (inputs.lotsByAllocation .exact) :=
    max_eq_right hnone
  rw [hlots]
  refine ⟨⟨hnone, (le_lots_iff h).mp le_rfl⟩, fun n hn => ?_⟩
  exact (le_lots_iff h).mpr hn.2

theorem affordable_iff (h : inputs.Accepted config) :
    (inputs.sized .exact).affordable = true ↔ 1 ∈ inputs.affordableLots := by
  have hgreatest := sized_isGreatest h
  have haffordable : (inputs.sized .exact).affordable = true ↔ 0 < (inputs.sized .exact).maximumLots :=
    decide_eq_true_iff
  rw [haffordable]
  constructor
  · intro hpos
    have hle : (1 : ℤ) ≤ min (inputs.lotsByRisk .exact) (inputs.lotsByAllocation .exact) := by
      rcases lt_max_iff.mp hpos with hzero | hmin
      · exact absurd hzero (lt_irrefl 0)
      · exact hmin
    exact ⟨zero_le_one, (le_lots_iff h).mp hle⟩
  · intro hone
    exact hgreatest.2 hone

/-! ### Monotonicity -/

/-- Inputs that ask no more of an account that allows no less, at one stop. -/
structure Eases (inputs inputs' : SizeInputs) : Prop where
  capital : inputs.accountCapital ≤ inputs'.accountCapital
  risk : inputs.riskRate ≤ inputs'.riskRate
  allocation : inputs.maximumPremiumAllocation ≤ inputs'.maximumPremiumAllocation
  entry : inputs'.entry ≤ inputs.entry
  stop : inputs'.stop = inputs.stop
  lot : inputs'.lotSize ≤ inputs.lotSize
  cost : inputs'.costPerLot ≤ inputs.costPerLot

/-- A larger amount pays for no fewer cheaper lots. -/
theorem floor_mono (hctx : ctx.Orderly) {amount amount' perLot perLot' : ℚ} (hnonneg : 0 ≤ amount)
    (hamount : amount ≤ amount') (hpos : 0 < perLot') (hperLot : perLot' ≤ perLot) :
    ⌊ctx.round (amount / perLot)⌋ ≤ ⌊ctx.round (amount' / perLot')⌋ :=
  Int.floor_le_floor (hctx.mono (div_le_div₀ (hnonneg.trans hamount) hamount hpos hperLot))

theorem limit_nonneg (hctx : ctx.Orderly) {capital rate : ℚ} (hcapital : 0 ≤ capital) (hrate : 0 ≤ rate) :
    0 ≤ ctx.mul capital rate := by
  rw [← hctx.zero]
  exact hctx.mono (mul_nonneg hcapital hrate)

theorem sized_mono (hctx : ctx.Orderly) (h : inputs.Accepted config) (h' : inputs'.Accepted config')
    (heases : inputs.Eases inputs') : (inputs.sized ctx).maximumLots ≤ (inputs'.sized ctx).maximumLots := by
  have hrate := Binary64.toDecimal_mono inputs.rates_float.1 inputs'.rates_float.1 ⟨h.finite.1, h'.finite.1⟩ h.risk.1
    heases.risk
  have hshare := Binary64.toDecimal_mono inputs.rates_float.2 inputs'.rates_float.2 ⟨h.finite.2, h'.finite.2⟩
    h.allocation.1 heases.allocation
  have hrateNonneg := rate_nonneg inputs.rates_float.1 h.finite.1 h.risk.1
  have hshareNonneg := rate_nonneg inputs.rates_float.2 h.finite.2 h.allocation.1
  have hlot : (inputs'.lotSize : ℚ) ≤ inputs.lotSize := Int.cast_le.mpr heases.lot
  have hlotNonneg : (0 : ℚ) ≤ inputs'.lotSize := (Int.cast_pos.mpr h'.positive.2.2).le
  have hcapital := h.positive.1.le
  have hrisk : inputs.lotsByRisk ctx ≤ inputs'.lotsByRisk ctx := by
    refine floor_mono hctx (limit_nonneg hctx hcapital hrateNonneg) ?_ (h'.riskPerLot_pos ctx) ?_
    · exact hctx.mono (mul_le_mul heases.capital hrate hrateNonneg (hcapital.trans heases.capital))
    · have hdistance : ctx.sub inputs'.entry inputs'.stop ≤ ctx.sub inputs.entry inputs.stop := by
        rw [heases.stop]
        exact hctx.mono (sub_le_sub_right heases.entry _)
      have hpos := (ctx.sub_positive h.stop.2).le
      exact hctx.mono (add_le_add (hctx.mono (mul_le_mul hdistance hlot hlotNonneg hpos)) heases.cost)
  have hallocation : inputs.lotsByAllocation ctx ≤ inputs'.lotsByAllocation ctx := by
    refine floor_mono hctx (limit_nonneg hctx hcapital hshareNonneg) ?_ (h'.premiumPerLot_pos ctx) ?_
    · exact hctx.mono (mul_le_mul heases.capital hshare hshareNonneg (hcapital.trans heases.capital))
    · exact hctx.mono (mul_le_mul heases.entry hlot hlotNonneg h.positive.2.1.le)
  exact max_le_max le_rfl (min_le_min hrisk hallocation)

end SizeInputs

/-! ### The decimals of the code -/

/-- The values of a size. -/
def PositionSizeResult.values (position : PositionSizeResult) : PositionSize where
  maximumRisk := position.maximumRisk.value
  riskPerLot := position.riskPerLot.value
  premiumPerLot := position.premiumPerLot.value
  lotsByRisk := position.lotsByRisk
  lotsByAllocation := position.lotsByAllocation
  maximumLots := position.maximumLots
  quantity := position.quantity
  affordable := position.affordable

theorem wholeLots_values {amount perLot : Decimal} {lots : Int} (hamount : amount.IsFinite) (hperLot : perLot.IsFinite)
    (h : wholeLots amount perLot = .ok lots) : lots = ⌊DecimalContext.default.round (amount.value / perLot.value)⌋ := by
  unfold wholeLots at h
  obtain ⟨ratio, hratio, h⟩ := Except.bind_eq_ok.mp h
  obtain ⟨hfinite, hvalue⟩ := Decimal.divide_value hamount hperLot (arith_eq_ok.mp hratio)
  have hfloor := arith_eq_ok.mp h
  rw [Decimal.toInt_floorValue hfinite, hvalue] at hfloor
  exact (Except.ok.inj hfloor).symm

/-- The decimals of `calculate_position_size` are the values of the size in the default context. -/
theorem calculatePositionSize_values {capital entry stop cost : Decimal} {riskRate allocationRate : Binary64}
    {lotSize : Int} {config : StrategyConfig} {position : PositionSizeResult}
    (hfloat : riskRate.Representable ∧ allocationRate.Representable)
    (h : calculatePositionSize capital riskRate allocationRate entry stop lotSize cost config = .ok position) :
    positionSize .default ⟨capital.value, riskRate, allocationRate, entry.value, stop.value, lotSize, cost.value, hfloat⟩
      config = .ok position.values := by
  unfold calculatePositionSize at h
  obtain ⟨_, hfinite, h⟩ := Except.bind_eq_ok.mp h
  obtain ⟨_, hpositive, h⟩ := Except.bind_eq_ok.mp h
  obtain ⟨_, hrates, h⟩ := Except.bind_eq_ok.mp h
  obtain ⟨_, hrisk, h⟩ := Except.bind_eq_ok.mp h
  obtain ⟨_, hallocation, h⟩ := Except.bind_eq_ok.mp h
  obtain ⟨_, hstop, h⟩ := Except.bind_eq_ok.mp h
  obtain ⟨_, hcost, h⟩ := Except.bind_eq_ok.mp h
  obtain ⟨byRisk, hbyRisk, h⟩ := Except.bind_eq_ok.mp h
  obtain ⟨byAllocation, hbyAllocation, h⟩ := Except.bind_eq_ok.mp h
  have hfinite := require_eq_ok.mp hfinite
  have hpositive := require_eq_ok.mp hpositive
  have hrates := require_eq_ok.mp hrates
  have hstop := require_eq_ok.mp hstop
  have hcost := require_eq_ok.mp hcost
  simp only [List.forall_mem_cons, List.not_mem_nil, IsEmpty.forall_iff, implies_true, and_true] at hfinite
  obtain ⟨hcapital, hentry, hstopFinite, hcostFinite⟩ := hfinite
  rw [Decimal.lt_iff, Decimal.lt_iff, Decimal.value_zero] at hpositive
  rw [Decimal.le_iff, Decimal.lt_iff, Decimal.value_zero] at hstop
  rw [Decimal.le_iff, Decimal.value_zero] at hcost
  have hlot : (Decimal.ofInt lotSize).IsFinite := trivial
  have hdistance := Decimal.sub_isFinite hentry hstopFinite
  have hloss := Decimal.mul_isFinite hdistance hlot
  have hriskRate := Binary64.toDecimal_isFinite hrates.1
  have hallocationRate := Binary64.toDecimal_isFinite hrates.2
  have hbyRisk := wholeLots_values (Decimal.mul_isFinite hcapital hriskRate) (Decimal.add_isFinite hloss hcostFinite) hbyRisk
  have hbyAllocation := wholeLots_values (Decimal.mul_isFinite hcapital hallocationRate) (Decimal.mul_isFinite hentry hlot)
    hbyAllocation
  rw [Decimal.mul_value hcapital hriskRate, Decimal.add_value hloss hcostFinite, Decimal.mul_value hdistance hlot,
    Decimal.sub_value hentry hstopFinite, Decimal.ofInt_value] at hbyRisk
  rw [Decimal.mul_value hcapital hallocationRate, Decimal.mul_value hentry hlot, Decimal.ofInt_value] at hbyAllocation
  refine SizeInputs.positionSize_eq_ok.mpr ⟨⟨hpositive, hrates, require_eq_ok.mp hrisk, require_eq_ok.mp hallocation,
    hstop, hcost⟩, ?_⟩
  cases h
  rw [PositionSizeResult.values]
  dsimp only
  rw [hbyRisk, hbyAllocation, Decimal.mul_value hcapital hriskRate, Decimal.add_value hloss hcostFinite,
    Decimal.mul_value hdistance hlot, Decimal.sub_value hentry hstopFinite, Decimal.mul_value hentry hlot,
    Decimal.ofInt_value]
  rfl

/-- **A position is the largest within both limits of the account**, it grows no smaller when the inputs ease, and
nothing that is accepted divides by zero. -/
theorem positionSize_maximal (inputs : SizeInputs) (config : StrategyConfig) :
    (∀ error, positionSize .exact inputs config = .error error → ∃ message, error = .value message) ∧
    ∀ size, positionSize .exact inputs config = .ok size →
      IsGreatest inputs.affordableLots size.maximumLots ∧
      size.quantity = size.maximumLots * inputs.lotSize ∧
      (size.affordable = true ↔ 1 ∈ inputs.affordableLots) ∧
      ∀ inputs' config' size', positionSize .exact inputs' config' = .ok size' → inputs.Eases inputs' →
        size.maximumLots ≤ size'.maximumLots := by
  refine ⟨fun error herror => ?_, fun size hsize => ?_⟩
  · by_cases haccepted : inputs.Accepted config
    · rw [SizeInputs.positionSize_of_accepted haccepted] at herror
      cases herror
    · obtain ⟨message, hrefused⟩ := SizeInputs.positionSize_of_not_accepted haccepted .exact
      rw [hrefused] at herror
      exact ⟨message, (Except.error.inj herror).symm⟩
  · obtain ⟨haccepted, rfl⟩ := SizeInputs.positionSize_eq_ok.mp hsize
    refine ⟨SizeInputs.sized_isGreatest haccepted, rfl, SizeInputs.affordable_iff haccepted, ?_⟩
    intro inputs' config' size' hsize' heases
    obtain ⟨haccepted', rfl⟩ := SizeInputs.positionSize_eq_ok.mp hsize'
    exact SizeInputs.sized_mono DecimalContext.exact_orderly haccepted haccepted' heases

/-- A hundred thousand of capital with half a percent at risk and a tenth for premiums. -/
def SizeInputs.sample : SizeInputs where
  accountCapital := 100000
  riskRate := 0.005
  maximumPremiumAllocation := 0.1
  entry := 100
  stop := 90
  lotSize := 15
  costPerLot := 50
  rates_float := by decide +kernel

example : (positionSize .exact .sample DEFAULT_STRATEGY_CONFIG).map (fun size => (size.maximumLots, size.quantity)) =
    .ok (2, 30) := by decide +kernel

/-- A position of the code is no smaller when the inputs ease, rounding included. -/
theorem calculatePositionSize_eases {capital entry stop cost capital' entry' stop' cost' : Decimal}
    {riskRate allocationRate riskRate' allocationRate' : Binary64} {lotSize lotSize' : Int}
    {config config' : StrategyConfig} {position position' : PositionSizeResult}
    (hfloat : riskRate.Representable ∧ allocationRate.Representable)
    (hfloat' : riskRate'.Representable ∧ allocationRate'.Representable)
    (h : calculatePositionSize capital riskRate allocationRate entry stop lotSize cost config = .ok position)
    (h' : calculatePositionSize capital' riskRate' allocationRate' entry' stop' lotSize' cost' config' = .ok position')
    (heases : SizeInputs.Eases
      ⟨capital.value, riskRate, allocationRate, entry.value, stop.value, lotSize, cost.value, hfloat⟩
      ⟨capital'.value, riskRate', allocationRate', entry'.value, stop'.value, lotSize', cost'.value, hfloat'⟩) :
    position.maximumLots ≤ position'.maximumLots := by
  obtain ⟨haccepted, hsized⟩ := SizeInputs.positionSize_eq_ok.mp (calculatePositionSize_values hfloat h)
  obtain ⟨haccepted', hsized'⟩ := SizeInputs.positionSize_eq_ok.mp (calculatePositionSize_values hfloat' h')
  have hlots : position.values.maximumLots ≤ position'.values.maximumLots := by
    rw [hsized, hsized']
    exact SizeInputs.sized_mono DecimalContext.default_orderly haccepted haccepted' heases
  exact hlots

/-- Twice the capital. -/
theorem calculatePositionSize_eases_capital : ∃ position position',
    calculatePositionSize 100000 0.005 0.1 100 90 15 50 DEFAULT_STRATEGY_CONFIG = .ok position ∧
      calculatePositionSize 200000 0.005 0.1 100 90 15 50 DEFAULT_STRATEGY_CONFIG = .ok position' ∧
      position.maximumLots ≤ position'.maximumLots := by
  have h : calculatePositionSize 100000 0.005 0.1 100 90 15 50 DEFAULT_STRATEGY_CONFIG =
      .ok ⟨.finite false 500000 (-3), 200, 1500, 2, 6, 2, 30, true⟩ := by decide +kernel
  have h' : calculatePositionSize 200000 0.005 0.1 100 90 15 50 DEFAULT_STRATEGY_CONFIG =
      .ok ⟨.finite false 1000000 (-3), 200, 1500, 5, 13, 5, 75, true⟩ := by decide +kernel
  have hcapital : (100000 : Decimal).value ≤ (200000 : Decimal).value := by decide +kernel
  have hrisk : (0.005 : Binary64) ≤ 0.005 := by decide +kernel
  have hallocation : (0.1 : Binary64) ≤ 0.1 := by decide +kernel
  have hrates := SizeInputs.sample.rates_float
  refine ⟨_, _, h, h', calculatePositionSize_eases hrates hrates h h' ?_⟩
  exact ⟨hcapital, hrisk, hallocation, le_refl _, rfl, le_refl _, le_refl _⟩

end TecoQuant.Strategy
