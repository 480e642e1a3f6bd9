import TecoQuant.BaseDecimalNormalize
import TecoQuant.BaseDecimalQuantize
import TecoQuant.BaseDecimalQuotient
import TecoQuant.ExecutionGates
import TecoQuant.ExecutionPaper

/-! The prices and quantities of paper fills. The limit price moved by the slippage is rounded half-even to
ten-thousandths, in either direction, and the share of the quantity is taken of a rounded product. -/

namespace Decimal

theorem intCast_lt_add_half {r n : ℤ} : (r : ℚ) < n + 1 / 2 ↔ r ≤ n := by
  constructor
  · intro h
    have hlt : (r : ℚ) < ((n + 1 : ℤ) : ℚ) := by
      push_cast
      linarith
    exact Int.lt_add_one_iff.mp (Int.cast_lt.mp hlt)
  · intro h
    have hle : (r : ℚ) ≤ n := Int.cast_le.mpr h
    linarith

/-- Where whole numbers are the last digits, rounding keeps what lies below the midpoint to a number of 29 digits. -/
theorem roundDigits_lt_iff {x : ℚ} : roundDigits 28 x < 10 ^ 28 - 1 / 2 ↔ x < 10 ^ 28 - 1 / 2 := by
  have hmono {x y : ℚ} (h : x ≤ y) : roundDigits 28 x ≤ roundDigits 28 y := roundDigits_mono (by norm_num) h
  have hlow : roundDigits 28 (10 ^ 27) = 10 ^ 27 := roundDigits_of_representable ⟨1, 27, by norm_num, by norm_num⟩
  have hhigh : roundDigits 28 (10 ^ 28) = 10 ^ 28 := roundDigits_of_representable ⟨1, 28, by norm_num, by norm_num⟩
  rcases lt_or_ge x (10 ^ 27) with hbelow | hdecade
  · have hround := hmono hbelow.le
    rw [hlow] at hround
    exact iff_of_true (hround.trans_lt (by norm_num)) (hbelow.trans (by norm_num))
  rcases lt_or_ge x (10 ^ 28) with hnext | habove
  · have hplace : lastPlace 28 x = 1 := lastPlace_eq (n := 27) (by exact_mod_cast hdecade) (by exact_mod_cast hnext)
    have hbound : (10 : ℚ) ^ 28 - 1 / 2 = ((10 ^ 28 - 1 : ℤ) : ℚ) + 1 / 2 := by
      push_cast
      ring
    rw [roundDigits, hplace, div_one, mul_one, hbound, intCast_lt_add_half, roundHalfEven_le_iff]
    exact ⟨fun h => h.resolve_right fun htie => absurd htie.2 (by decide), .inl⟩
  · have hround := hmono habove
    rw [hhigh] at hround
    exact iff_of_false (not_lt.mpr (le_trans (by norm_num) hround)) (not_lt.mpr (le_trans (by norm_num) habove))

end Decimal

namespace TecoQuant.Execution

namespace PaperBrokerConfig

variable (config : PaperBrokerConfig)

/-- The limit price moved by the slippage, in ten-thousandths, before it is rounded to them. -/
def slipped (side : OrderSide) (limitPrice : Decimal) : ℚ :=
  (Decimal.mul .default limitPrice (config.multiplier side)).value * 10 ^ 4

theorem multiplier_isFinite (side : OrderSide) : (config.multiplier side).IsFinite := by
  have hbps := config.slippage_bounds.1
  unfold multiplier
  refine Decimal.add_isFinite trivial ?_
  cases side with
  | buy => exact Decimal.shiftDown_isFinite hbps 4
  | sell => exact Decimal.shiftDown_isFinite (Decimal.neg_isFinite hbps) 4

variable {config}

theorem product_isFinite {side : OrderSide} {limitPrice : Decimal} (h : limitPrice.IsFinite) :
    (Decimal.mul .default limitPrice (config.multiplier side)).IsFinite := by
  obtain ⟨_, _, _, hfix, -⟩ := Decimal.mul_eq_fix .default h (config.multiplier_isFinite side)
  rw [hfix]
  exact Decimal.fix_isFinite _ _ _

/-- The fill price has a value unless the slipped price is out of the context's reach. -/
theorem fillPrice_isSome_iff {side : OrderSide} {limitPrice : Decimal} (h : limitPrice.IsFinite) :
    (config.fillPrice side limitPrice).isSome ↔ |config.slipped side limitPrice| < 10 ^ 28 - 1 / 2 :=
  Decimal.quantize_isSome_iff (product_isFinite h) 4

theorem fillPrice_eq_some {side : OrderSide} {limitPrice price : Decimal}
    (h : config.fillPrice side limitPrice = some price) :
    price.IsFinite ∧ price.value = roundHalfEven (config.slipped side limitPrice) / 10 ^ 4 :=
  Decimal.quantize_eq_some h

/-- A fill price is positive when the slipped price is past half a ten-thousandth. -/
theorem fillPrice_pos_iff {side : OrderSide} {limitPrice price : Decimal}
    (h : config.fillPrice side limitPrice = some price) :
    0 < price ↔ 1 / 2 < config.slipped side limitPrice := by
  have hround := le_roundHalfEven_iff (n := 1) (x := config.slipped side limitPrice)
  rw [Decimal.lt_iff, Decimal.value_zero, (fillPrice_eq_some h).2, div_pos_iff_of_pos_right (by norm_num),
    Int.cast_pos, ← Int.add_one_le_iff, zero_add, hround]
  simp only [Int.not_even_one, and_false, or_false]
  norm_num

/-- The share of a quantity in exact arithmetic. -/
def exactShare (config : PaperBrokerConfig) (quantity : Int) : ℚ := quantity * config.partialFillRatio.value

theorem share_value (config : PaperBrokerConfig) (quantity : Int) :
    (Decimal.mul .default (.ofInt quantity) config.partialFillRatio).value =
      roundDigits 28 (config.exactShare quantity) := by
  rw [Decimal.mul_value (by exact trivial) config.ratio_bounds.1, Decimal.ofInt_value, exactShare]

theorem exactShare_nonneg (config : PaperBrokerConfig) {quantity : Int} (h : 0 < quantity) :
    0 ≤ config.exactShare quantity := by
  have hratio := config.ratio_bounds.2.1
  rw [Decimal.le_iff, Decimal.value_zero] at hratio
  exact mul_nonneg (by exact_mod_cast h.le) hratio

theorem roundDigits_nonneg {digits : ℕ} (hdigits : 0 < digits) {x : ℚ} (h : 0 ≤ x) : 0 ≤ roundDigits digits x := by
  rcases h.lt_or_eq with hpos | rfl
  · exact (roundDigits_pos hdigits hpos).le
  · exact (roundDigits_zero digits).ge

/-- The filled quantity: the whole part of the rounded share, at least one, at most the quantity. -/
theorem filledQuantity_eq (config : PaperBrokerConfig) {quantity : Int} (hquantity : 0 < quantity)
    (hratio : 0 < config.partialFillRatio) :
    config.filledQuantity quantity = min quantity (max 1 ⌊roundDigits 28 (config.exactShare quantity)⌋) := by
  have hnonneg := Int.floor_nonneg.mpr (roundDigits_nonneg (by norm_num : 0 < 28) (config.exactShare_nonneg hquantity))
  rw [filledQuantity, Decimal.floor, share_value]
  congr 1
  split
  · rename_i hzero
    rw [hzero.2]
    rfl
  · rename_i hnot
    have hne : ⌊roundDigits 28 (config.exactShare quantity)⌋ ≠ 0 := fun h => hnot ⟨hratio, h⟩
    omega

theorem filledQuantity_zero (config : PaperBrokerConfig) {quantity : Int} (hquantity : 0 < quantity)
    (hratio : ¬0 < config.partialFillRatio) : config.filledQuantity quantity = 0 := by
  have hzero : config.partialFillRatio.value = 0 := by
    refine le_antisymm ?_ (by simpa using Decimal.le_iff.mp config.ratio_bounds.2.1)
    simpa [Decimal.lt_iff] using hratio
  rw [filledQuantity, Decimal.floor, share_value, exactShare, hzero, mul_zero, roundDigits_zero, Int.floor_zero,
    if_neg fun h => hratio h.1]
  exact min_eq_right hquantity.le

theorem one_le_filledQuantity_iff (config : PaperBrokerConfig) {quantity : Int} (hquantity : 0 < quantity) :
    1 ≤ config.filledQuantity quantity ↔ 0 < config.partialFillRatio := by
  by_cases hratio : 0 < config.partialFillRatio
  · rw [config.filledQuantity_eq hquantity hratio]
    exact iff_of_true (le_min hquantity (le_max_left _ _)) hratio
  · rw [config.filledQuantity_zero hquantity hratio]
    exact iff_of_false (by decide) hratio

/-- A price in ten-thousandths. -/
def ticks (price : Decimal) : ℚ := price.value * 10 ^ 4

/-- A whole number of ten-thousandths. -/
def OnGrid (price : Decimal) : Prop := ∃ n : ℤ, ticks price = n

/-- The slippage as a share of the price. -/
def slippage (config : PaperBrokerConfig) : ℚ := roundDigits 28 (config.slippageBps.value / 10 ^ 4)

/-- One plus the slippage of a purchase, one minus the slippage of a sale. -/
def rate (config : PaperBrokerConfig) : OrderSide → ℚ
  | .buy => roundDigits 28 (1 + config.slippage)
  | .sell => roundDigits 28 (1 - config.slippage)

/-- The slippage carries a price at least half of the way to the next price of the grid on the adverse side; just
half is enough where that price is even. -/
def Carries (config : PaperBrokerConfig) (price : Decimal) : OrderSide → Prop
  | .buy => ⌈ticks price⌉ - 1 / 2 < roundDigits 28 (ticks price * config.rate .buy) ∨
      roundDigits 28 (ticks price * config.rate .buy) = ⌈ticks price⌉ - 1 / 2 ∧ Even ⌈ticks price⌉
  | .sell => roundDigits 28 (ticks price * config.rate .sell) < ⌊ticks price⌋ + 1 / 2 ∨
      roundDigits 28 (ticks price * config.rate .sell) = ⌊ticks price⌋ + 1 / 2 ∧ Even ⌊ticks price⌋

/-- The slipped price is not too large; and where anything is filled, the limit price is on the grid or carried to it,
a sale keeps more than half a ten-thousandth, and the ratio's share of the quantity is told from the whole numbers. -/
structure Admits (config : PaperBrokerConfig) (plan : TradePlan) : Prop where
  magnitude : ticks plan.limitPrice * config.rate plan.side < 10 ^ 28 - 1 / 2
  grid : 0 < config.partialFillRatio → OnGrid plan.limitPrice ∨ config.Carries plan.limitPrice plan.side
  remainder : 0 < config.partialFillRatio → plan.side = .sell →
    1 / 2 + 1 / (2 * 10 ^ 28) < ticks plan.limitPrice * config.rate .sell
  ratio : 0 < config.partialFillRatio → ∀ n : ℤ, 1 < n → n ≤ plan.quantity →
    (n ≤ plan.quantity * config.partialFillRatio.value ↔
      n ≤ roundDigits 28 (plan.quantity * config.partialFillRatio.value))

section Condition

variable {config : PaperBrokerConfig} {plan : TradePlan} {price : Decimal}

theorem roundDigits_one : roundDigits 28 1 = 1 := roundDigits_of_representable ⟨1, 0, by norm_num, by norm_num⟩

theorem slippage_range : 0 ≤ config.slippage ∧ config.slippage ≤ 1 := by
  obtain ⟨-, hnonneg, hless⟩ := config.slippage_bounds
  rw [Decimal.le_iff, Decimal.value_zero] at hnonneg
  rw [Decimal.lt_iff, show (10000 : Decimal).value = 10000 from (Decimal.ofInt_value 10000).trans (by norm_num)] at hless
  refine ⟨roundDigits_nonneg (by norm_num) (by positivity), ?_⟩
  have hround := roundDigits_mono (by norm_num : 0 < 28)
    (show config.slippageBps.value / 10 ^ 4 ≤ 1 by rw [div_le_one (by norm_num)]; linarith)
  rwa [roundDigits_one] at hround

theorem rate_nonneg (side : OrderSide) : 0 ≤ config.rate side := by
  obtain ⟨hlow, hhigh⟩ := @slippage_range config
  cases side with
  | buy => exact roundDigits_nonneg (by norm_num) (by linarith)
  | sell => exact roundDigits_nonneg (by norm_num) (by linarith)

theorem one_le_rate_buy : 1 ≤ config.rate .buy := by
  have hlow := (@slippage_range config).1
  exact le_roundDigits (by norm_num) ⟨1, 0, by norm_num, by norm_num⟩ (by linarith) (by linarith)

theorem rate_sell_le_one : config.rate .sell ≤ 1 := by
  have hlow := (@slippage_range config).1
  have hround := roundDigits_mono (by norm_num : 0 < 28) (show 1 - config.slippage ≤ 1 by linarith)
  rwa [roundDigits_one] at hround

theorem ticks_pos (h : 0 < price) : 0 < ticks price := by
  rw [Decimal.lt_iff, Decimal.value_zero] at h
  exact mul_pos h (by norm_num)

/-- A price on the grid is carried to itself. -/
theorem OnGrid.carries (h : OnGrid price) (hpos : 0 < price) {side : OrderSide}
    (hmagnitude : ticks price * config.rate side < 10 ^ 28 - 1 / 2) : config.Carries price side := by
  obtain ⟨n, hn⟩ := h
  have hticks := ticks_pos hpos
  rw [hn] at hticks hmagnitude
  have hrepresentable : n < 10 ^ 28 → Representable 28 (n : ℚ) := fun hsmall =>
    ⟨n, 0, by rwa [abs_of_pos (by exact_mod_cast hticks)], by simp⟩
  cases side with
  | buy =>
      left
      rw [hn, Int.ceil_intCast]
      have hmoved : (n : ℚ) ≤ n * config.rate .buy := le_mul_of_one_le_right hticks.le one_le_rate_buy
      have hsmall : (n : ℚ) < ((10 ^ 28 : ℤ) : ℚ) := by
        push_cast
        linarith
      have hround := le_roundDigits (by norm_num) (hrepresentable (Int.cast_lt.mp hsmall)) (hticks.trans_le hmoved) hmoved
      linarith
  | sell =>
      left
      rw [hn, Int.floor_intCast]
      have hmoved : (n : ℚ) * config.rate .sell ≤ n := mul_le_of_le_one_right hticks.le rate_sell_le_one
      rcases lt_or_ge n (10 ^ 28) with hsmall | hlarge
      · have hround := roundDigits_mono (by norm_num : 0 < 28) hmoved
        rw [roundDigits_of_representable (hrepresentable hsmall)] at hround
        linarith
      · have hround := Decimal.roundDigits_lt_iff.mpr hmagnitude
        have hcast : ((10 ^ 28 : ℤ) : ℚ) ≤ n := Int.cast_le.mpr hlarge
        push_cast at hcast
        linarith

end Condition

end PaperBrokerConfig

open PaperBrokerConfig

/-- A controller for the sample plans. -/
def sampleController (mode : ExecutionMode) : ExecutionController := .ofMode mode [("NIFTY", "101")] none

/-- The sample plan at a limit price of `0.00004`. -/
def finePlan : TradePlan := { TradePlan.sample "s1" "c1" "101" with limitPrice := .finite false 4 (-5) }

end TecoQuant.Execution
