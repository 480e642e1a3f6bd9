import Mathlib.Algebra.Order.Floor.Ring
import TecoQuant.BaseBisection
import TecoQuant.FrontendGate

/-! The browser's position sizing, in exact arithmetic. A literal is the decimal that it writes. -/

namespace TecoQuant.Frontend

def maxRiskPercent : ℚ := 2

/-- `Number.EPSILON`. -/
def epsilon : ℚ := 1 / 2 ^ 52

/-- `Number.MAX_SAFE_INTEGER`. -/
def maxSafeInteger : Int := 2 ^ 53 - 1

/-- `Math.round`, which rounds a half up. -/
def mathRound (x : ℚ) : Int := ⌊x + 1 / 2⌋

def roundMoney (value : ℚ) : ℚ := mathRound ((value + epsilon) * 100) / 100

/-! ### Requests -/

def Number.isFinite : Number → Bool
  | .finite _ => true
  | _ => false

/-- The value of a number that was found finite. -/
def Number.value : Number → ℚ
  | .finite value => value
  | _ => 0

/-- `Number.isSafeInteger`. -/
def Number.isSafeInteger : Number → Bool
  | .finite value => value.den = 1 && value.num.natAbs ≤ maxSafeInteger.toNat
  | _ => false

structure Charges where
  fixedPerOrder : Number
  entryNotionalRate : Number
  exitNotionalRate : Number
  deriving DecidableEq

def defaultChargeSchedule : Charges := ⟨.finite 20, .finite (1 / 1000), .finite (1 / 1000)⟩

def mergedCharges (override : Option ChargeOverrides) : Charges where
  fixedPerOrder := (override.bind ChargeOverrides.fixedPerOrder).getD defaultChargeSchedule.fixedPerOrder
  entryNotionalRate := (override.bind ChargeOverrides.entryNotionalRate).getD defaultChargeSchedule.entryNotionalRate
  exitNotionalRate := (override.bind ChargeOverrides.exitNotionalRate).getD defaultChargeSchedule.exitNotionalRate

/-- `!Number.isFinite(value) || value <= 0`. -/
def notPositive (value : Number) : Bool := !value.isFinite || value.value ≤ 0

/-- A rate that is not finite, negative, or of the whole amount or more. -/
def badRate (value : Number) : Bool := !value.isFinite || value.value < 0 || 1 ≤ value.value

def validateRequest (request : PositionSizingRequest) (charges : Charges) : List String :=
  (if notPositive request.capital then ["Account capital must be a positive finite amount."] else []) ++
  (if notPositive request.riskPercent then ["Risk per trade must be greater than 0%."]
    else if maxRiskPercent < request.riskPercent.value then ["Risk per trade cannot exceed the 2.00% hard cap."]
    else []) ++
  (if notPositive request.allocationPercent || 100 < request.allocationPercent.value then
      ["Premium allocation must be greater than 0% and at most 100%."]
    else []) ++
  (if notPositive request.entryAsk then ["Ask entry must be a positive finite price."] else []) ++
  (if notPositive request.stop then ["Stop price must be a positive finite price."]
    else if request.entryAsk.isFinite && request.entryAsk.value ≤ request.stop.value then
      ["A long-option stop must be below the ask entry price."]
    else []) ++
  (if !request.lotSize.isSafeInteger || request.lotSize.value ≤ 0 then
      ["Verified lot size must be a positive integer."]
    else []) ++
  (if !charges.fixedPerOrder.isFinite || charges.fixedPerOrder.value < 0 || badRate charges.entryNotionalRate ||
      badRate charges.exitNotionalRate then
      ["Charge assumptions must be finite, non-negative, and below 100%."]
    else [])

/-- The numbers of a request that was found valid. -/
structure SizingRequest where
  capital : ℚ
  riskPercent : ℚ
  allocationPercent : ℚ
  entryAsk : ℚ
  stop : ℚ
  lotSize : ℚ
  deriving DecidableEq

def PositionSizingRequest.values (request : PositionSizingRequest) : SizingRequest where
  capital := request.capital.value
  riskPercent := request.riskPercent.value
  allocationPercent := request.allocationPercent.value
  entryAsk := request.entryAsk.value
  stop := request.stop.value
  lotSize := request.lotSize.value

structure ChargeSchedule where
  fixedPerOrder : ℚ
  entryNotionalRate : ℚ
  exitNotionalRate : ℚ
  deriving DecidableEq

def Charges.values (charges : Charges) : ChargeSchedule where
  fixedPerOrder := charges.fixedPerOrder.value
  entryNotionalRate := charges.entryNotionalRate.value
  exitNotionalRate := charges.exitNotionalRate.value

/-! ### Amounts -/

structure PositionAmounts where
  lots : Int
  quantity : ℚ
  entryPremium : ℚ
  entryCharges : ℚ
  estimatedExitCharges : ℚ
  estimatedCharges : ℚ
  capitalRequired : ℚ
  estimatedRisk : ℚ
  deriving DecidableEq

def amountsForLots (lots : Int) (request : SizingRequest) (charges : ChargeSchedule) : PositionAmounts :=
  if lots = 0 then ⟨0, 0, 0, 0, 0, 0, 0, 0⟩
  else
    let quantity := lots * request.lotSize
    let entryPremium := roundMoney (request.entryAsk * quantity)
    let estimatedExitNotional := roundMoney (request.stop * quantity)
    let entryCharges := roundMoney (charges.fixedPerOrder + entryPremium * charges.entryNotionalRate)
    let estimatedExitCharges := roundMoney (charges.fixedPerOrder + estimatedExitNotional * charges.exitNotionalRate)
    let estimatedCharges := roundMoney (entryCharges + estimatedExitCharges)
    { lots := lots
      quantity := quantity
      entryPremium := entryPremium
      entryCharges := entryCharges
      estimatedExitCharges := estimatedExitCharges
      estimatedCharges := estimatedCharges
      capitalRequired := roundMoney (entryPremium + estimatedCharges)
      estimatedRisk := roundMoney ((request.entryAsk - request.stop) * quantity + estimatedCharges) }

inductive BudgetField where
  | estimatedRisk | capitalRequired
  deriving DecidableEq, Repr

def PositionAmounts.get (amounts : PositionAmounts) : BudgetField → ℚ
  | .estimatedRisk => amounts.estimatedRisk
  | .capitalRequired => amounts.capitalRequired

/-- The loop of `maximumLotsFor` is a bisection from zero. -/
def maximumLotsFor (budget basePerLot : ℚ) (request : SizingRequest) (charges : ChargeSchedule) (field : BudgetField) :
    Int :=
  let safeQuantityLimit := ⌊(maxSafeInteger : ℚ) / request.lotSize⌋
  let upper := min (max 0 ⌊budget / basePerLot⌋) safeQuantityLimit
  Bisection.search (fun candidate => (amountsForLots candidate request charges).get field ≤ budget) 0 upper 0

/-! ### Sizes -/

/-- The digits of a number from the last one, in pairs. -/
def groupPairs : List Char → List Char
  | first :: second :: third :: rest => first :: second :: ',' :: groupPairs (third :: rest)
  | digits => digits

/-- The digits of a whole number in the grouping of `en-IN`: the last three, then pairs. -/
def groupIndian (digits : List Char) : List Char :=
  match digits.reverse with
  | first :: second :: third :: fourth :: rest =>
      (first :: second :: third :: ',' :: groupPairs (fourth :: rest)).reverse
  | _ => digits

/-- Two digits after the point, a half away from zero. -/
def formatRiskMoney (value : ℚ) : String :=
  let cents := ⌊|value| * 100 + 1 / 2⌋.toNat
  let whole := String.ofList (groupIndian (toString (cents / 100)).toList)
  let fraction := if cents % 100 < 10 then "0" ++ toString (cents % 100) else toString (cents % 100)
  "INR " ++ (if value < 0 then "-" else "") ++ whole ++ "." ++ fraction

structure ValidPositionSizing where
  request : SizingRequest
  charges : ChargeSchedule
  maximumRisk : ℚ
  maximumAllocation : ℚ
  oneLot : PositionAmounts
  lotsByRisk : Int
  lotsByAllocation : Int
  recommendedLots : Int
  recommended : PositionAmounts
  riskPerUnit : ℚ
  targets : List ℚ
  affordabilityMessage : Option String
  deriving DecidableEq

inductive PositionSizingResult where
  | invalid (errors : List String)
  | valid (sizing : ValidPositionSizing)
  deriving DecidableEq

/-- The size of a request that was found valid. -/
def sizeRequest (request : SizingRequest) (charges : ChargeSchedule) : ValidPositionSizing :=
  let maximumRisk := roundMoney (request.capital * (request.riskPercent / 100))
  let maximumAllocation := roundMoney (request.capital * (request.allocationPercent / 100))
  let oneLot := amountsForLots 1 request charges
  let priceRiskPerLot := (request.entryAsk - request.stop) * request.lotSize
  let entryPremiumPerLot := request.entryAsk * request.lotSize
  let lotsByRisk := maximumLotsFor maximumRisk priceRiskPerLot request charges .estimatedRisk
  let lotsByAllocation := maximumLotsFor maximumAllocation entryPremiumPerLot request charges .capitalRequired
  let recommendedLots := min lotsByRisk lotsByAllocation
  let riskPerUnit := roundMoney (request.entryAsk - request.stop)
  { request := request
    charges := charges
    maximumRisk := maximumRisk
    maximumAllocation := maximumAllocation
    oneLot := oneLot
    lotsByRisk := lotsByRisk
    lotsByAllocation := lotsByAllocation
    recommendedLots := recommendedLots
    recommended := amountsForLots recommendedLots request charges
    riskPerUnit := riskPerUnit
    targets := [1, 2, 3].map fun multiple => roundMoney (request.entryAsk + riskPerUnit * multiple)
    affordabilityMessage :=
      if recommendedLots = 0 then
        some (" ".intercalate
          ["0 lots: one lot requires " ++ formatRiskMoney oneLot.capitalRequired ++ " allocation",
            "and " ++ formatRiskMoney oneLot.estimatedRisk ++ " risk capacity;",
            "available " ++ formatRiskMoney maximumAllocation ++ " allocation",
            "and " ++ formatRiskMoney maximumRisk ++ " risk."])
      else none }

def calculatePositionSize (rawRequest : PositionSizingRequest) : PositionSizingResult :=
  let charges := mergedCharges rawRequest.charges
  let errors := validateRequest rawRequest charges
  if errors ≠ [] then .invalid errors else .valid (sizeRequest rawRequest.values charges.values)

/-! ### Monotonicity -/

section Monotone

variable {request : SizingRequest} {charges : ChargeSchedule} {few many : Int}

/-- What the checks promise of the numbers that the amounts are computed from. -/
structure SoundNumbers (request : SizingRequest) (charges : ChargeSchedule) : Prop where
  capital_pos : 0 < request.capital
  riskPercent_pos : 0 < request.riskPercent
  allocationPercent_pos : 0 < request.allocationPercent
  stop_pos : 0 < request.stop
  stop_lt : request.stop < request.entryAsk
  lotSize_pos : 0 < request.lotSize
  fixedPerOrder_nonneg : 0 ≤ charges.fixedPerOrder
  entryNotionalRate_nonneg : 0 ≤ charges.entryNotionalRate
  exitNotionalRate_nonneg : 0 ≤ charges.exitNotionalRate

theorem roundMoney_mono : Monotone roundMoney := by
  intro x y hle
  have hscaled : (x + epsilon) * 100 + 1 / 2 ≤ (y + epsilon) * 100 + 1 / 2 := by linarith
  have hrounded : ((mathRound ((x + epsilon) * 100) : Int) : ℚ) ≤ (mathRound ((y + epsilon) * 100) : Int) := by
    exact_mod_cast Int.floor_mono hscaled
  exact div_le_div_of_nonneg_right hrounded (by norm_num)

theorem roundMoney_nonneg {x : ℚ} (h : 0 ≤ x) : 0 ≤ roundMoney x := by
  have hepsilon : 0 ≤ epsilon := by norm_num [epsilon]
  have hfloor : 0 ≤ mathRound ((x + epsilon) * 100) := Int.floor_nonneg.mpr (by positivity)
  exact div_nonneg (by exact_mod_cast hfloor) (by norm_num)

/-- The charges of a number of lots. -/
def chargesFor (lots : Int) (request : SizingRequest) (charges : ChargeSchedule) : ℚ :=
  roundMoney (roundMoney (charges.fixedPerOrder +
      roundMoney (request.entryAsk * (lots * request.lotSize)) * charges.entryNotionalRate) +
    roundMoney (charges.fixedPerOrder +
      roundMoney (request.stop * (lots * request.lotSize)) * charges.exitNotionalRate))

theorem get_capitalRequired (h : many ≠ 0) :
    (amountsForLots many request charges).get .capitalRequired =
      roundMoney (roundMoney (request.entryAsk * (many * request.lotSize)) + chargesFor many request charges) := by
  rw [amountsForLots, if_neg h]
  rfl

theorem get_estimatedRisk (h : many ≠ 0) :
    (amountsForLots many request charges).get .estimatedRisk =
      roundMoney ((request.entryAsk - request.stop) * (many * request.lotSize) + chargesFor many request charges) := by
  rw [amountsForLots, if_neg h]
  rfl

theorem get_zero (field : BudgetField) : (amountsForLots 0 request charges).get field = 0 := by
  cases field <;> rfl

/-- A price times the quantity grows with the lots. -/
theorem scaled_mono {price : ℚ} (hsound : SoundNumbers request charges) (hprice : 0 ≤ price) (hle : few ≤ many) :
    price * (few * request.lotSize) ≤ price * (many * request.lotSize) := by
  have hcast : (few : ℚ) ≤ many := by exact_mod_cast hle
  exact mul_le_mul_of_nonneg_left (mul_le_mul_of_nonneg_right hcast hsound.lotSize_pos.le) hprice

theorem chargesFor_mono (hsound : SoundNumbers request charges) (hle : few ≤ many) :
    chargesFor few request charges ≤ chargesFor many request charges := by
  have hask : 0 ≤ request.entryAsk := (hsound.stop_pos.trans hsound.stop_lt).le
  have hentry := mul_le_mul_of_nonneg_right (roundMoney_mono (scaled_mono hsound hask hle))
    hsound.entryNotionalRate_nonneg
  have hexit := mul_le_mul_of_nonneg_right (roundMoney_mono (scaled_mono hsound hsound.stop_pos.le hle))
    hsound.exitNotionalRate_nonneg
  apply roundMoney_mono
  apply add_le_add
  · apply roundMoney_mono
    linarith
  · apply roundMoney_mono
    linarith

theorem chargesFor_nonneg (hsound : SoundNumbers request charges) (hmany : 0 ≤ many) :
    0 ≤ chargesFor many request charges := by
  have hcast : (0 : ℚ) ≤ many := by exact_mod_cast hmany
  have hquantity : 0 ≤ many * request.lotSize := mul_nonneg hcast hsound.lotSize_pos.le
  have hask : 0 ≤ request.entryAsk := (hsound.stop_pos.trans hsound.stop_lt).le
  have hentry := mul_nonneg (roundMoney_nonneg (mul_nonneg hask hquantity)) hsound.entryNotionalRate_nonneg
  have hexit := mul_nonneg (roundMoney_nonneg (mul_nonneg hsound.stop_pos.le hquantity)) hsound.exitNotionalRate_nonneg
  have hfixed := hsound.fixedPerOrder_nonneg
  exact roundMoney_nonneg (add_nonneg (roundMoney_nonneg (add_nonneg hfixed hentry))
    (roundMoney_nonneg (add_nonneg hfixed hexit)))

theorem get_nonneg (hsound : SoundNumbers request charges) (hmany : 0 ≤ many) (field : BudgetField) :
    0 ≤ (amountsForLots many request charges).get field := by
  by_cases hzero : many = 0
  · rw [hzero, get_zero]
  have hcast : (0 : ℚ) ≤ many := by exact_mod_cast hmany
  have hquantity : 0 ≤ many * request.lotSize := mul_nonneg hcast hsound.lotSize_pos.le
  have hcharges := chargesFor_nonneg hsound hmany
  cases field with
  | estimatedRisk =>
      rw [get_estimatedRisk hzero]
      exact roundMoney_nonneg (add_nonneg (mul_nonneg (sub_pos.mpr hsound.stop_lt).le hquantity) hcharges)
  | capitalRequired =>
      have hask : 0 ≤ request.entryAsk := (hsound.stop_pos.trans hsound.stop_lt).le
      rw [get_capitalRequired hzero]
      exact roundMoney_nonneg (add_nonneg (roundMoney_nonneg (mul_nonneg hask hquantity)) hcharges)

/-- The rounded amounts grow with the lots. -/
theorem get_mono (hsound : SoundNumbers request charges) (hfew : 0 ≤ few) (hle : few ≤ many) (field : BudgetField) :
    (amountsForLots few request charges).get field ≤ (amountsForLots many request charges).get field := by
  by_cases hzero : few = 0
  · rw [hzero, get_zero]
    exact get_nonneg hsound (hfew.trans hle) field
  have hmany : many ≠ 0 := by omega
  have hcharges := chargesFor_mono hsound hle
  cases field with
  | estimatedRisk =>
      rw [get_estimatedRisk hzero, get_estimatedRisk hmany]
      exact roundMoney_mono (add_le_add (scaled_mono hsound (sub_pos.mpr hsound.stop_lt).le hle) hcharges)
  | capitalRequired =>
      have hask : 0 ≤ request.entryAsk := (hsound.stop_pos.trans hsound.stop_lt).le
      rw [get_capitalRequired hzero, get_capitalRequired hmany]
      exact roundMoney_mono (add_le_add (roundMoney_mono (scaled_mono hsound hask hle)) hcharges)

end Monotone

/-! ### Budgets -/

section Budgets

variable {request : SizingRequest} {charges : ChargeSchedule} {budget basePerLot : ℚ}

/-- The most lots within a budget, among those whose price alone is within it. -/
structure MostLots (request : SizingRequest) (charges : ChargeSchedule) (budget basePerLot : ℚ) (field : BudgetField)
    (lots : Int) : Prop where
  nonneg : 0 ≤ lots
  fits : (amountsForLots lots request charges).get field ≤ budget
  most : ∀ m : Int, lots < m → m * basePerLot ≤ budget → m * request.lotSize ≤ maxSafeInteger →
    budget < (amountsForLots m request charges).get field

/-- The bisection finds the most lots. -/
theorem maximumLotsFor_most (hsound : SoundNumbers request charges) (hbudget : 0 ≤ budget) (hbase : 0 < basePerLot)
    (field : BudgetField) :
    MostLots request charges budget basePerLot field (maximumLotsFor budget basePerLot request charges field) := by
  have hclosed : ∀ i j : Int, 0 ≤ i → i ≤ j → (amountsForLots j request charges).get field ≤ budget →
      (amountsForLots i request charges).get field ≤ budget := by
    intro i j hi hle hj
    exact (get_mono hsound hi hle field).trans hj
  have hstart : Bisection.Bounds (fun candidate => (amountsForLots candidate request charges).get field ≤ budget)
      0 (min (max 0 ⌊budget / basePerLot⌋) ⌊(maxSafeInteger : ℚ) / request.lotSize⌋) 0
      (min (max 0 ⌊budget / basePerLot⌋) ⌊(maxSafeInteger : ℚ) / request.lotSize⌋) 0 :=
    ⟨le_refl 0, le_refl 0, by decide, by rw [get_zero]; exact hbudget, fun i hi htop => by omega⟩
  obtain ⟨hnonneg, haccept, hlast⟩ := Bisection.search_last hclosed hstart
  refine ⟨hnonneg, haccept, fun m hm hprice hsafe => ?_⟩
  apply not_le.mp
  apply hlast m hm
  have hprice' : m ≤ ⌊budget / basePerLot⌋ := Int.le_floor.mpr ((le_div_iff₀ hbase).mpr hprice)
  have hsafe' : m ≤ ⌊(maxSafeInteger : ℚ) / request.lotSize⌋ :=
    Int.le_floor.mpr ((le_div_iff₀ hsound.lotSize_pos).mpr hsafe)
  exact le_min (le_max_of_le_right hprice') hsafe'

end Budgets

/-! ### The recommendation -/

theorem notPositive_eq_false {value : Number} (h : notPositive value = false) :
    value.isFinite = true ∧ 0 < value.value := by
  simpa [notPositive] using h

theorem badRate_eq_false {value : Number} (h : badRate value = false) : 0 ≤ value.value := by
  simp only [badRate, Bool.or_eq_false_iff, decide_eq_false_iff_not, not_lt] at h
  exact h.1.2

theorem soundNumbers_of_valid {request : PositionSizingRequest} {charges : Charges}
    (h : validateRequest request charges = []) : SoundNumbers request.values charges.values := by
  simp only [validateRequest, List.append_eq_nil_iff, ite_eq_right_iff, reduceCtorEq, imp_false,
    Bool.not_eq_true, Bool.or_eq_false_iff, decide_eq_false_iff_not, not_le, not_lt] at h
  obtain ⟨⟨⟨⟨⟨⟨hcapital, hrisk⟩, hallocation⟩, hask⟩, hstop⟩, hlot⟩, hcharges⟩ := h
  have hrisk' : notPositive request.riskPercent = false := by
    by_contra hbad
    rw [if_pos (Bool.eq_true_of_not_eq_false hbad)] at hrisk
    cases hrisk
  have hstop' : notPositive request.stop = false := by
    by_contra hbad
    rw [if_pos (Bool.eq_true_of_not_eq_false hbad)] at hstop
    cases hstop
  have hbelow : request.stop.value < request.entryAsk.value := by
    by_contra hbad
    have hcheck : (request.entryAsk.isFinite && decide (request.entryAsk.value ≤ request.stop.value)) = true := by
      rw [(notPositive_eq_false hask).1, decide_eq_true (not_lt.mp hbad)]
      rfl
    rw [hstop', if_neg Bool.false_ne_true, if_pos hcheck] at hstop
    cases hstop
  exact {
    capital_pos := (notPositive_eq_false hcapital).2
    riskPercent_pos := (notPositive_eq_false hrisk').2
    allocationPercent_pos := (notPositive_eq_false hallocation.1).2
    stop_pos := (notPositive_eq_false hstop').2
    stop_lt := hbelow
    lotSize_pos := hlot.2
    fixedPerOrder_nonneg := hcharges.1.1.2
    entryNotionalRate_nonneg := badRate_eq_false hcharges.1.2
    exitNotionalRate_nonneg := badRate_eq_false hcharges.2 }

theorem calculatePositionSize_valid {request : PositionSizingRequest}
    (h : validateRequest request (mergedCharges request.charges) = []) :
    calculatePositionSize request = .valid (sizeRequest request.values (mergedCharges request.charges).values) := by
  rw [calculatePositionSize, h]
  rfl

/-- A number of lots within both limits. -/
structure WithinLimits (sizing : ValidPositionSizing) (amounts : PositionAmounts) : Prop where
  risk : amounts.estimatedRisk ≤ sizing.maximumRisk
  capital : amounts.capitalRequired ≤ sizing.maximumAllocation

/-- Both budgets are the request's shares of the capital, each with the most lots within it. The smaller count is
recommended: it and any fewer lots keep to both limits; more do not, as far as their price alone does. -/
theorem sizing_safe_and_maximal (request : PositionSizingRequest)
    (h : validateRequest request (mergedCharges request.charges) = []) :
    ∃ sizing, calculatePositionSize request = .valid sizing ∧
      sizing.request = request.values ∧ sizing.charges = (mergedCharges request.charges).values ∧
      sizing.maximumRisk = roundMoney (request.values.capital * (request.values.riskPercent / 100)) ∧
      sizing.maximumAllocation = roundMoney (request.values.capital * (request.values.allocationPercent / 100)) ∧
      MostLots sizing.request sizing.charges sizing.maximumRisk
        ((sizing.request.entryAsk - sizing.request.stop) * sizing.request.lotSize) .estimatedRisk sizing.lotsByRisk ∧
      MostLots sizing.request sizing.charges sizing.maximumAllocation
        (sizing.request.entryAsk * sizing.request.lotSize) .capitalRequired sizing.lotsByAllocation ∧
      sizing.recommendedLots = min sizing.lotsByRisk sizing.lotsByAllocation ∧
      sizing.recommended = amountsForLots sizing.recommendedLots sizing.request sizing.charges ∧
      0 ≤ sizing.recommendedLots ∧ WithinLimits sizing sizing.recommended ∧
      (∀ k : Int, 0 < k → k < sizing.recommendedLots →
        WithinLimits sizing (amountsForLots k sizing.request sizing.charges)) ∧
      ∀ m : Int, sizing.recommendedLots < m →
        m * (sizing.request.entryAsk - sizing.request.stop) * sizing.request.lotSize ≤ sizing.maximumRisk →
        m * sizing.request.entryAsk * sizing.request.lotSize ≤ sizing.maximumAllocation →
        m * sizing.request.lotSize ≤ maxSafeInteger →
        ¬WithinLimits sizing (amountsForLots m sizing.request sizing.charges) := by
  have hsound := soundNumbers_of_valid h
  have hask : 0 < request.values.entryAsk := hsound.stop_pos.trans hsound.stop_lt
  have hriskBudget : 0 ≤ roundMoney (request.values.capital * (request.values.riskPercent / 100)) := by
    have hcapital := hsound.capital_pos
    have hrisk := hsound.riskPercent_pos
    exact roundMoney_nonneg (by positivity)
  have hallocationBudget : 0 ≤ roundMoney (request.values.capital * (request.values.allocationPercent / 100)) := by
    have hcapital := hsound.capital_pos
    have hallocation := hsound.allocationPercent_pos
    exact roundMoney_nonneg (by positivity)
  have hrisk := maximumLotsFor_most hsound hriskBudget
    (mul_pos (sub_pos.mpr hsound.stop_lt) hsound.lotSize_pos) .estimatedRisk
  have hallocation := maximumLotsFor_most hsound hallocationBudget (mul_pos hask hsound.lotSize_pos) .capitalRequired
  refine ⟨_, calculatePositionSize_valid h, rfl, rfl, rfl, rfl, hrisk, hallocation, rfl, rfl, ?_⟩
  set numbers := request.values
  set charges := (mergedCharges request.charges).values
  set lotsByRisk := maximumLotsFor (roundMoney (numbers.capital * (numbers.riskPercent / 100)))
    ((numbers.entryAsk - numbers.stop) * numbers.lotSize) numbers charges .estimatedRisk
  set lotsByAllocation := maximumLotsFor (roundMoney (numbers.capital * (numbers.allocationPercent / 100)))
    (numbers.entryAsk * numbers.lotSize) numbers charges .capitalRequired
  have hfits : ∀ k : Int, 0 ≤ k → k ≤ min lotsByRisk lotsByAllocation →
      WithinLimits (sizeRequest numbers charges) (amountsForLots k numbers charges) := by
    intro k hk hle
    exact ⟨(get_mono hsound hk (hle.trans (min_le_left _ _)) .estimatedRisk).trans hrisk.fits,
      (get_mono hsound hk (hle.trans (min_le_right _ _)) .capitalRequired).trans hallocation.fits⟩
  have hlots : 0 ≤ min lotsByRisk lotsByAllocation := le_min hrisk.nonneg hallocation.nonneg
  refine ⟨hlots, hfits _ hlots (le_refl _), fun k hk hlt => hfits k hk.le hlt.le,
    fun m hm hprice hpremium hsafe hwithin => ?_⟩
  rcases min_lt_iff.mp hm with hover | hover
  · have hbroken := hrisk.most m hover (by rw [← mul_assoc]; exact hprice) hsafe
    exact absurd hwithin.risk (not_le.mpr hbroken)
  · have hbroken := hallocation.most m hover (by rw [← mul_assoc]; exact hpremium) hsafe
    exact absurd hwithin.capital (not_le.mpr hbroken)

/-- A lot of fifty at an ask of a hundred, from a capital of a hundred thousand. -/
def sampleRequest : PositionSizingRequest where
  capital := .finite 100000
  riskPercent := .finite 2
  allocationPercent := .finite 20
  entryAsk := .finite 100
  stop := .finite 80
  lotSize := .finite 50
  charges := none

theorem sizing_safe_and_maximal_sample :
    ∃ sizing, calculatePositionSize sampleRequest = .valid sizing ∧ sizing.maximumRisk = 2000 ∧
      sizing.maximumAllocation = 20000 ∧
      WithinLimits sizing (amountsForLots sizing.recommendedLots sizing.request sizing.charges) := by
  obtain ⟨sizing, hvalid, -, -, hrisk, hallocation, -, -, -, hamounts, -, hwithin, -⟩ :=
    sizing_safe_and_maximal sampleRequest (by decide +kernel)
  refine ⟨sizing, hvalid, hrisk.trans ?_, hallocation.trans ?_, hamounts ▸ hwithin⟩
  · decide +kernel
  · decide +kernel

end TecoQuant.Frontend
