import Mathlib.Order.WithBot
import TecoQuant.BaseDecimalSignals

/-! The order of the decimals: comparisons that do not raise are those of the extended rationals. -/

namespace Decimal

/-- The place of a decimal among the rationals and the infinities; a NaN has none and is given `⊥`. -/
def extended : Decimal → WithBot (WithTop ℚ)
  | .finite negative coefficient exponent =>
      (((Decimal.finite negative coefficient exponent).value : WithTop ℚ) : WithBot (WithTop ℚ))
  | .infinity true => ⊥
  | .infinity false => ((⊤ : WithTop ℚ) : WithBot (WithTop ℚ))
  | .nan => ⊥

section Comparison

variable {left right : Decimal}

theorem extended_lt_of_finite (hleft : left.IsFinite) (hright : right.IsFinite) :
    left.extended < right.extended ↔ left.value < right.value := by
  cases left with
  | finite n c e =>
      cases right with
      | finite m d f => simp [extended]
      | _ => exact hright.elim
  | _ => exact hleft.elim

theorem below_iff (hleft : left ≠ .nan) (hright : right ≠ .nan) :
    Below left right ↔ left.extended < right.extended := by
  cases left with
  | finite n c e =>
      cases right with
      | finite m d f => exact (@extended_lt_of_finite (finite n c e) (finite m d f) trivial trivial).symm
      | infinity m =>
          cases m with
          | false => exact iff_of_true rfl (WithBot.coe_lt_coe.mpr (WithTop.coe_lt_top _))
          | true => exact iff_of_false nofun not_lt_bot
      | nan => exact absurd rfl hright
  | infinity n =>
      cases right with
      | finite m d f =>
          cases n with
          | false => exact iff_of_false nofun (WithBot.coe_lt_coe.not.mpr not_top_lt)
          | true => exact iff_of_true rfl (WithBot.bot_lt_coe _)
      | infinity m => cases n <;> cases m <;> simp [Below, extended]
      | nan => exact absurd rfl hright
  | nan => exact absurd rfl hleft

/-- A comparison with a NaN raises. -/
theorem less_ne_nan {b : Bool} (h : less left right = .ok b) : left ≠ .nan ∧ right ≠ .nan := by
  constructor
  · rintro rfl
    cases h
  · rintro rfl
    cases left <;> cases h

theorem less_eq_ok {b : Bool} (h : less left right = .ok b) : b = decide (left.extended < right.extended) := by
  obtain ⟨hleft, hright⟩ := less_ne_nan h
  have hbelow : less left right = .ok (decide (Below left right)) := by
    cases left <;> cases right <;> first | rfl | exact absurd rfl hleft | exact absurd rfl hright
  rw [hbelow] at h
  rw [← Except.ok.inj h]
  exact decide_eq_decide.mpr (below_iff hleft hright)

theorem equal_iff : Equal left right ↔ (left ≠ .nan ∧ right ≠ .nan) ∧ left.extended = right.extended := by
  by_cases hnan : left ≠ .nan ∧ right ≠ .nan
  · have hequal : Equal left right ↔ ¬Below left right ∧ ¬Below right left := by
      cases left <;> cases right <;>
        first | exact Iff.rfl | exact absurd rfl hnan.1 | exact absurd rfl hnan.2
    rw [hequal, below_iff hnan.1 hnan.2, below_iff hnan.2 hnan.1, not_lt, not_lt]
    exact ⟨fun h => ⟨hnan, le_antisymm h.2 h.1⟩, fun h => ⟨h.2.ge, h.2.le⟩⟩
  · refine iff_of_false ?_ fun h => hnan h.1
    rcases not_and_or.mp hnan with hleft | hright
    · obtain rfl := not_not.mp hleft
      exact id
    · obtain rfl := not_not.mp hright
      cases left <;> exact id

end Comparison

end Decimal
