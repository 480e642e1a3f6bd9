import Mathlib.Algebra.Order.Field.Power
import Mathlib.Tactic.Linarith
import Mathlib.Tactic.Positivity
import TecoQuant.BaseDecimal

/-! Rounding to a precision is monotone against the numbers that fit it. -/

namespace Decimal

theorem numDigits_le_iff {coefficient precision : Nat} (hprecision : 0 < precision) :
    numDigits coefficient ≤ precision ↔ coefficient < 10 ^ precision := by
  unfold numDigits
  rcases Nat.eq_zero_or_pos coefficient with rfl | hpos
  · simp; omega
  · rw [Nat.add_one_le_iff, Nat.log_lt_iff_lt_pow (by norm_num) (by omega)]

/-- Dropping digits rounds down, or up from a positive remainder. -/
theorem dropDigits_cases (coefficient count : Nat) :
    dropDigits coefficient count = coefficient / 10 ^ count ∨
      dropDigits coefficient count = coefficient / 10 ^ count + 1 ∧
        coefficient / 10 ^ count * 10 ^ count < coefficient := by
  have hdiv := Nat.div_add_mod' coefficient (10 ^ count)
  have hpos : 0 < 10 ^ count := by positivity
  simp only [dropDigits]
  split_ifs
  · exact .inl rfl
  · exact .inr ⟨rfl, by omega⟩
  · exact .inl rfl
  · exact .inr ⟨rfl, by omega⟩

end Decimal
