import Mathlib.Tactic.Ring
import Mathlib.Tactic.FieldSimp
import TecoQuant.BaseDecimalRounding
import TecoQuant.BaseDecimalSignals

/-! The error of one operation in the default context: a result differs from the exact one by less than
one unit in its 27th place, relative to the exact result. -/

namespace Decimal

/-- `x` is `y` up to a relative error of `10 ^ (-27)`. -/
def Near (x y : ℚ) : Prop := |x - y| * 10 ^ 27 ≤ |y|

namespace Near

variable {x y : ℚ}

theorem refl (x : ℚ) : Near x x := by simp [Near]

theorem le (h : Near x y) (hy : 0 ≤ y) : x * 10 ^ 27 ≤ y * (10 ^ 27 + 1) := by
  have hdiff := le_abs_self (x - y)
  rw [Near, abs_of_nonneg hy] at h
  linarith

theorem ge (h : Near x y) (hy : 0 ≤ y) : y * (10 ^ 27 - 1) ≤ x * 10 ^ 27 := by
  have hdiff := neg_abs_le (x - y)
  rw [Near, abs_of_nonneg hy] at h
  linarith

theorem pos (h : Near x y) (hy : 0 < y) : 0 < x := by
  have hge := h.ge hy.le
  linarith

/-- A positive result stands for a positive number. -/
theorem exact_pos (h : Near x y) (hx : 0 < x) : 0 < y := by
  by_contra hy
  have hdiff := le_abs_self (x - y)
  rw [Near, abs_of_nonpos (not_lt.mp hy)] at h
  linarith

theorem neg (h : Near x y) (hy : y < 0) : x < 0 := by
  have hdiff := le_abs_self (x - y)
  rw [Near, abs_of_neg hy] at h
  linarith

end Near

/-! ### Rounding -/

theorem dropDigits_error (coefficient count : Nat) :
    2 * |(dropDigits coefficient count : ℚ) * 10 ^ count - coefficient| ≤ 10 ^ count := by
  have hdiv : ((coefficient / 10 ^ count : Nat) : ℚ) * 10 ^ count + (coefficient % 10 ^ count : Nat) = coefficient := by
    exact_mod_cast Nat.div_add_mod' coefficient (10 ^ count)
  have hnonneg : (0 : ℚ) ≤ (coefficient % 10 ^ count : Nat) := Nat.cast_nonneg _
  have hless : ((coefficient % 10 ^ count : Nat) : ℚ) < 10 ^ count := by
    exact_mod_cast Nat.mod_lt coefficient (by positivity)
  simp only [dropDigits]
  split_ifs with hlow hhigh heven
  · have hlow : 2 * ((coefficient % 10 ^ count : Nat) : ℚ) < 10 ^ count := by exact_mod_cast hlow
    rw [abs_of_nonpos (by linarith)]
    linarith
  · have hhigh : (10 : ℚ) ^ count < 2 * (coefficient % 10 ^ count : Nat) := by exact_mod_cast hhigh
    rw [abs_of_nonneg (by push_cast; linarith)]
    push_cast
    linarith
  · have hhalf : 2 * ((coefficient % 10 ^ count : Nat) : ℚ) = 10 ^ count := by
      exact_mod_cast le_antisymm (not_lt.mp hhigh) (not_lt.mp hlow)
    rw [abs_of_nonpos (by linarith)]
    linarith
  · have hhalf : 2 * ((coefficient % 10 ^ count : Nat) : ℚ) = 10 ^ count := by
      exact_mod_cast le_antisymm (not_lt.mp hhigh) (not_lt.mp hlow)
    rw [abs_of_nonneg (by push_cast; linarith)]
    push_cast
    linarith

/-- A coefficient of more than 28 digits, against the unit of the digits it drops. -/
theorem unit_le_coefficient {coefficient : Nat} (h : ¬numDigits coefficient ≤ 28) :
    (10 : ℚ) ^ (numDigits coefficient - 28) * 10 ^ 27 ≤ coefficient := by
  have hpow : 10 ^ (numDigits coefficient - 1) ≤ coefficient :=
    Nat.pow_log_le_self 10 (by rintro rfl; simp [numDigits] at h)
  have hsplit : numDigits coefficient - 28 + 27 = numDigits coefficient - 1 := by omega
  rw [← pow_add, hsplit]
  exact_mod_cast hpow

/-- A coefficient that rounds up to 29 digits is a power of ten. -/
theorem dropDigits_carry {coefficient : Nat}
    (hrounded : ¬numDigits (dropDigits coefficient (numDigits coefficient - 28)) ≤ 28)
    (hdigits : ¬numDigits coefficient ≤ 28) :
    dropDigits coefficient (numDigits coefficient - 28) / 10 * 10 =
      dropDigits coefficient (numDigits coefficient - 28) := by
  have hlog : coefficient < 10 ^ (28 + (numDigits coefficient - 28)) := by
    rw [Nat.add_sub_cancel' (not_le.mp hdigits).le]
    exact Nat.lt_pow_succ_log_self (by norm_num) _
  have hquotient : coefficient / 10 ^ (numDigits coefficient - 28) < 10 ^ 28 := by
    rwa [Nat.div_lt_iff_lt_mul (by positivity), ← pow_add]
  have hlarge : ¬dropDigits coefficient (numDigits coefficient - 28) < 10 ^ 28 := fun hlt =>
    hrounded ((numDigits_le_iff (by norm_num)).mpr hlt)
  rcases dropDigits_cases coefficient (numDigits coefficient - 28) with hdrop | ⟨hdrop, -⟩
  · exact absurd (hdrop ▸ hquotient) hlarge
  · have hpower : dropDigits coefficient (numDigits coefficient - 28) = 10 ^ 28 := by omega
    norm_num [hpower]

/-- Rounding keeps the sign and moves the magnitude by at most half a unit. -/
theorem fix_magnitude (negative : Bool) (coefficient : Nat) (exponent : ℤ) :
    ∃ c e, Context.default.fix negative coefficient exponent = .finite negative c e ∧
      2 * |(c : ℚ) * 10 ^ e - coefficient * 10 ^ exponent| * 10 ^ 27 ≤ coefficient * 10 ^ exponent := by
  by_cases hdigits : numDigits coefficient ≤ 28
  · refine ⟨coefficient, exponent, by simp [Context.fix, Context.default, hdigits], ?_⟩
    rw [sub_self, abs_zero, mul_zero, zero_mul]
    positivity
  set count := numDigits coefficient - 28 with hcount
  have hscale : (10 : ℚ) ^ (exponent + count) = 10 ^ count * 10 ^ exponent := by
    rw [zpow_add₀ (by norm_num), zpow_natCast, mul_comm]
  -- Both branches denote the rounded coefficient at the raised exponent.
  have herror : 2 * |(dropDigits coefficient count : ℚ) * 10 ^ (exponent + count) - coefficient * 10 ^ exponent| *
      10 ^ 27 ≤ coefficient * 10 ^ exponent := by
    have hexp : (0 : ℚ) < 10 ^ exponent := by positivity
    have hdrop := dropDigits_error coefficient count
    have hunit := unit_le_coefficient hdigits
    rw [hscale, ← mul_assoc, ← sub_mul, abs_mul, abs_of_pos hexp, ← mul_assoc, mul_right_comm]
    refine mul_le_mul_of_nonneg_right ?_ hexp.le
    calc 2 * |(dropDigits coefficient count : ℚ) * 10 ^ count - coefficient| * 10 ^ 27
        ≤ 10 ^ count * 10 ^ 27 := mul_le_mul_of_nonneg_right hdrop (by positivity)
      _ ≤ coefficient := hunit
  by_cases hrounded : numDigits (dropDigits coefficient count) ≤ 28
  · exact ⟨_, _, by simp [Context.fix, Context.default, hdigits, ← hcount, hrounded], herror⟩
  · refine ⟨dropDigits coefficient count / 10, exponent + count + 1,
      by simp [Context.fix, Context.default, hdigits, ← hcount, hrounded], ?_⟩
    have hcarry : ((dropDigits coefficient count / 10 : Nat) : ℚ) * 10 = dropDigits coefficient count := by
      exact_mod_cast dropDigits_carry hrounded hdigits
    rw [zpow_add_one₀ (by norm_num), mul_comm ((10 : ℚ) ^ (exponent + (count : ℤ))), ← mul_assoc, hcarry]
    exact herror

theorem value_eq (negative : Bool) (coefficient : Nat) (exponent : ℤ) :
    (finite negative coefficient exponent).value =
      if negative then -(coefficient * (10 : ℚ) ^ exponent) else coefficient * 10 ^ exponent := by
  cases negative <;> simp [value]

theorem abs_value (negative : Bool) (coefficient : Nat) (exponent : ℤ) :
    |(finite negative coefficient exponent).value| = coefficient * 10 ^ exponent := by
  have hnonneg : (0 : ℚ) ≤ coefficient * 10 ^ exponent := by positivity
  rw [value_eq]
  cases negative
  · rw [if_neg Bool.false_ne_true, abs_of_nonneg hnonneg]
  · rw [if_pos rfl, abs_neg, abs_of_nonneg hnonneg]

theorem fix_near (negative : Bool) (coefficient : Nat) (exponent : ℤ) :
    Near (Context.default.fix negative coefficient exponent).value
      (finite negative coefficient exponent).value := by
  obtain ⟨c, e, hfix, herror⟩ := fix_magnitude negative coefficient exponent
  have habs : |(finite negative c e).value - (finite negative coefficient exponent).value| =
      |(c : ℚ) * 10 ^ e - coefficient * 10 ^ exponent| := by
    rw [value_eq, value_eq]
    cases negative
    · rfl
    · rw [if_pos rfl, if_pos rfl, neg_sub_neg, abs_sub_comm]
  rw [hfix, Near, habs, abs_value]
  have := abs_nonneg ((c : ℚ) * 10 ^ e - coefficient * 10 ^ exponent)
  linarith

/-! ### Operations -/

section Operations

variable {left right : Decimal}

theorem fix_isFinite (negative : Bool) (coefficient : Nat) (exponent : ℤ) :
    (Context.default.fix negative coefficient exponent).IsFinite := by
  obtain ⟨c, e, hfix, -⟩ := fix_magnitude negative coefficient exponent
  rw [hfix]
  trivial

theorem mul_isFinite (hleft : left.IsFinite) (hright : right.IsFinite) : (mul .default left right).IsFinite := by
  cases left with
  | finite n₁ c₁ e₁ =>
      cases right with
      | finite n₂ c₂ e₂ => exact fix_isFinite _ _ _
      | _ => exact hright.elim
  | _ => exact hleft.elim

theorem mul_near (hleft : left.IsFinite) (hright : right.IsFinite) :
    Near (mul .default left right).value (left.value * right.value) := by
  cases left with
  | finite n₁ c₁ e₁ =>
      cases right with
      | finite n₂ c₂ e₂ =>
          have hexact : (finite (n₁ != n₂) (c₁ * c₂) (e₁ + e₂)).value =
              (finite n₁ c₁ e₁).value * (finite n₂ c₂ e₂).value := by
            rw [value_eq, value_eq, value_eq, zpow_add₀ (by norm_num)]
            cases n₁ <;> cases n₂ <;> push_cast <;> simp <;> ring
          rw [← hexact]
          exact fix_near _ _ _
      | _ => exact hright.elim
  | _ => exact hleft.elim

theorem signedAt_value (negative : Bool) (coefficient : Nat) {exponent lower : ℤ} (h : lower ≤ exponent) :
    (signedAt negative coefficient (exponent - lower).toNat : ℚ) * 10 ^ lower =
      (finite negative coefficient exponent).value := by
  have hpow : (10 : ℚ) ^ exponent = 10 ^ (exponent - lower).toNat * 10 ^ lower := by
    rw [← zpow_natCast, Int.toNat_of_nonneg (by omega), ← zpow_add₀ (by norm_num), Int.sub_add_cancel]
  rw [value_eq, hpow, signedAt]
  cases negative <;> push_cast <;> simp <;> ring

/-- The value of a signed coefficient; a zero may carry either sign. -/
theorem signed_value (total : ℤ) (zeroSign : Bool) (exponent : ℤ) :
    (finite (decide (total < 0) || (total == 0 && zeroSign)) total.natAbs exponent).value =
      total * (10 : ℚ) ^ exponent := by
  rcases lt_trichotomy total 0 with hneg | rfl | hpos
  · have habs : ((total.natAbs : Nat) : ℚ) = -total := by
      rw [Nat.cast_natAbs, abs_of_neg hneg]
      push_cast
      rfl
    simp [value_eq, hneg, habs]
  · simp [value_eq]
  · have habs : ((total.natAbs : Nat) : ℚ) = total := by rw [Nat.cast_natAbs, abs_of_pos hpos]
    have hzero : (total == 0) = false := by simpa using hpos.ne'
    simp [value_eq, hpos.le, hzero, habs]

theorem ofInt_value (n : ℤ) : (Decimal.ofInt n).value = n := by
  have h := signed_value n false 0
  rw [Bool.and_false, Bool.or_false, zpow_zero, mul_one] at h
  exact h

theorem add_near (hleft : left.IsFinite) (hright : right.IsFinite) :
    Near (add .default left right).value (left.value + right.value) := by
  cases left with
  | finite n₁ c₁ e₁ =>
      cases right with
      | finite n₂ c₂ e₂ =>
          have hexact := signed_value
            (signedAt n₁ c₁ (e₁ - min e₁ e₂).toNat + signedAt n₂ c₂ (e₂ - min e₁ e₂).toNat) (n₁ && n₂) (min e₁ e₂)
          rw [Int.cast_add, add_mul, signedAt_value n₁ c₁ (min_le_left _ _),
            signedAt_value n₂ c₂ (min_le_right _ _)] at hexact
          rw [← hexact]
          have hfix := fix_near (decide (signedAt n₁ c₁ (e₁ - min e₁ e₂).toNat +
            signedAt n₂ c₂ (e₂ - min e₁ e₂).toNat < 0) || (signedAt n₁ c₁ (e₁ - min e₁ e₂).toNat +
            signedAt n₂ c₂ (e₂ - min e₁ e₂).toNat == 0 && (n₁ && n₂)))
            (signedAt n₁ c₁ (e₁ - min e₁ e₂).toNat + signedAt n₂ c₂ (e₂ - min e₁ e₂).toNat).natAbs (min e₁ e₂)
          rw [← Bool.and_assoc] at hfix
          rw [← Bool.and_assoc]
          exact hfix
      | _ => exact hright.elim
  | _ => exact hleft.elim

theorem flip_value (d : Decimal) : d.flip.value = -d.value := by
  cases d with
  | finite negative coefficient exponent => cases negative <;> simp [flip, value]
  | infinity negative => simp [flip, value]
  | nan => simp [flip, value]

/-- The negation of a positive number is negative, however it is rounded. -/
theorem neg_value_neg (hfinite : left.IsFinite) (hpositive : 0 < left.value) :
    (Decimal.neg .default left).value < 0 := by
  cases left with
  | finite negative coefficient exponent =>
      have hscale : (0 : ℚ) < 10 ^ exponent := by positivity
      rw [value_eq] at hpositive
      cases negative with
      | true =>
          rw [if_pos rfl] at hpositive
          have hnonneg : (0 : ℚ) ≤ coefficient * 10 ^ exponent := by positivity
          linarith
      | false =>
          rw [if_neg Bool.false_ne_true] at hpositive
          have hcoefficient : coefficient ≠ 0 := by
            rintro rfl
            simp at hpositive
          have hsign : (!false && coefficient != 0) = true := by simp [hcoefficient]
          show (Context.default.fix (!false && coefficient != 0) coefficient exponent).value < 0
          rw [hsign]
          refine (fix_near true coefficient exponent).neg ?_
          rw [value_eq, if_pos rfl]
          exact neg_lt_zero.mpr hpositive
  | _ => exact hfinite.elim

theorem sub_near (hleft : left.IsFinite) (hright : right.IsFinite) :
    Near (sub .default left right).value (left.value - right.value) := by
  cases right with
  | finite n c e =>
      have hfinite : (finite n c e).flip.IsFinite := trivial
      have hadd := add_near hleft hfinite
      rw [flip_value, ← sub_eq_add_neg] at hadd
      exact hadd
  | _ => exact hright.elim

end Operations

/-! ### Division -/

/-- A trailing zero moves into the exponent. -/
theorem drop_zero {coefficient : Nat} (h : coefficient % 10 = 0) (exponent : ℤ) :
    ((coefficient / 10 : Nat) : ℚ) * 10 ^ (exponent + 1) = coefficient * 10 ^ exponent := by
  have hten : ((coefficient / 10 : Nat) : ℚ) * 10 = coefficient := by
    exact_mod_cast Nat.div_mul_cancel (Nat.dvd_of_mod_eq_zero h)
  rw [zpow_add_one₀ (by norm_num), mul_comm ((10 : ℚ) ^ exponent), ← mul_assoc, hten]

theorem towardsIdeal_value (ideal : ℤ) (fuel coefficient : Nat) (exponent : ℤ) :
    ((towardsIdeal ideal fuel coefficient exponent).1 : ℚ) * 10 ^ (towardsIdeal ideal fuel coefficient exponent).2 =
      coefficient * 10 ^ exponent := by
  induction fuel generalizing coefficient exponent with
  | zero => rfl
  | succ fuel ih =>
      rw [towardsIdeal]
      split
      · rename_i hzero
        rw [ih, drop_zero hzero.2]
      · rfl

theorem lt_pow_numDigits (coefficient : Nat) : (coefficient : ℚ) < 10 ^ numDigits coefficient := by
  exact_mod_cast Nat.lt_pow_succ_log_self (by norm_num) coefficient

theorem pow_numDigits_le {coefficient : Nat} (h : coefficient ≠ 0) :
    (10 : ℚ) ^ numDigits coefficient ≤ coefficient * 10 := by
  rw [numDigits, pow_succ]
  exact mul_le_mul_of_nonneg_right (by exact_mod_cast Nat.pow_log_le_self 10 h) (by norm_num)

/-- A ratio scaled by a shift of either sign. -/
theorem scaled_ratio (c₁ c₂ : Nat) (hc₂ : c₂ ≠ 0) (shift : ℤ) :
    ((c₁ * 10 ^ shift.toNat : Nat) : ℚ) / (c₂ * 10 ^ (-shift).toNat : Nat) = c₁ / c₂ * 10 ^ shift := by
  have hc : (c₂ : ℚ) ≠ 0 := by exact_mod_cast hc₂
  rcases le_total 0 shift with hpos | hneg
  · obtain ⟨n, rfl⟩ := Int.eq_ofNat_of_zero_le hpos
    have hzero : (-(n : ℤ)).toNat = 0 := by omega
    rw [hzero, Int.toNat_natCast, zpow_natCast]
    push_cast
    field_simp
  · obtain ⟨n, hn⟩ := Int.exists_eq_neg_ofNat hneg
    subst hn
    have hzero : (-(n : ℤ)).toNat = 0 := by omega
    rw [hzero, neg_neg, Int.toNat_natCast, zpow_neg, zpow_natCast]
    push_cast
    field_simp

/-- The shift of a quotient leaves more than 28 digits before the point. -/
theorem shifted_large {c₁ c₂ : Nat} (hc₁ : c₁ ≠ 0) (hc₂ : c₂ ≠ 0) :
    (10 : ℚ) ^ 28 < c₁ / c₂ * 10 ^ ((numDigits c₂ : ℤ) - numDigits c₁ + (28 : Nat) + 1) := by
  have hc : (0 : ℚ) < c₂ := by exact_mod_cast Nat.pos_of_ne_zero hc₂
  have hpow : (10 : ℚ) ^ ((numDigits c₂ : ℤ) - numDigits c₁ + (28 : Nat) + 1) =
      10 ^ numDigits c₂ / 10 ^ numDigits c₁ * 10 ^ 29 := by
    rw [show (numDigits c₂ : ℤ) - numDigits c₁ + (28 : Nat) + 1 = (numDigits c₂ : ℤ) - numDigits c₁ + (29 : Nat) by omega,
      zpow_add₀ (by norm_num), zpow_sub₀ (by norm_num), zpow_natCast, zpow_natCast, zpow_natCast]
  have hhigh := lt_pow_numDigits c₂
  have hlow := pow_numDigits_le hc₁
  have hdigits : (0 : ℚ) < 10 ^ numDigits c₁ := by positivity
  rw [hpow, div_mul_eq_mul_div, div_mul_eq_mul_div, mul_div_assoc', div_div, lt_div_iff₀ (by positivity)]
  calc (10 : ℚ) ^ 28 * (10 ^ numDigits c₁ * c₂)
      < (10 : ℚ) ^ 28 * (10 ^ numDigits c₁ * 10 ^ numDigits c₂) := by gcongr
    _ ≤ (10 : ℚ) ^ 28 * ((c₁ * 10) * 10 ^ numDigits c₂) := by gcongr
    _ = (c₁ : ℚ) * (10 ^ numDigits c₂ * 10 ^ 29) := by ring

/-- A result with a sign, from the error of its magnitude. -/
theorem near_of_magnitude (negative : Bool) {c : Nat} {e : ℤ} {exact : ℚ} (hexact : 0 ≤ exact)
    (h : |(c : ℚ) * 10 ^ e - exact| * 10 ^ 27 ≤ exact) :
    Near (finite negative c e).value (if negative then -exact else exact) := by
  rw [Near, value_eq]
  cases negative
  · rwa [if_neg Bool.false_ne_true, if_neg Bool.false_ne_true, abs_of_nonneg hexact]
  · rwa [if_pos rfl, if_pos rfl, neg_sub_neg, abs_sub_comm, abs_neg, abs_of_nonneg hexact]

/-- The rounded sticky coefficient: the digit it may change is beyond the rounded ones. -/
theorem sticky_near {c : Nat} {ratio scale rounded : ℚ} (hscale : 0 < scale) (hlarge : 10 ^ 28 < ratio)
    (hsticky : |(c : ℚ) - ratio| ≤ 1) (hfix : 2 * |rounded - c * scale| * 10 ^ 27 ≤ c * scale) :
    |rounded - ratio * scale| * 10 ^ 27 ≤ ratio * scale := by
  have htriangle : |rounded - ratio * scale| ≤ |rounded - c * scale| + scale := by
    calc |rounded - ratio * scale| = |(rounded - c * scale) + (c - ratio) * scale| := by congr 1; ring
      _ ≤ |rounded - c * scale| + |(c - ratio) * scale| := abs_add_le _ _
      _ = |rounded - c * scale| + |c - ratio| * scale := by rw [abs_mul, abs_of_pos hscale]
      _ ≤ |rounded - c * scale| + 1 * scale := by gcongr
      _ = |rounded - c * scale| + scale := by rw [one_mul]
  have hc : (c : ℚ) ≤ ratio + 1 := by linarith [(abs_le.mp hsticky).2]
  have hcscale : c * scale ≤ (ratio + 1) * scale := mul_le_mul_of_nonneg_right hc hscale.le
  have hratio : 10 ^ 28 * scale ≤ ratio * scale := mul_le_mul_of_nonneg_right hlarge.le hscale.le
  linarith

/-- A quotient carries enough digits for one rounding. -/
theorem quotient_magnitude (negative : Bool) {c₁ c₂ : Nat} (hc₁ : c₁ ≠ 0) (hc₂ : c₂ ≠ 0) (e₁ e₂ : ℤ) :
    ∃ c e, quotient .default 28 negative c₁ e₁ c₂ e₂ = .finite negative c e ∧
      |(c : ℚ) * 10 ^ e - c₁ * 10 ^ e₁ / (c₂ * 10 ^ e₂)| * 10 ^ 27 ≤ c₁ * 10 ^ e₁ / (c₂ * 10 ^ e₂) := by
  set shift : ℤ := (numDigits c₂ : ℤ) - numDigits c₁ + (28 : Nat) + 1 with hshift
  set dividend := c₁ * 10 ^ shift.toNat with hdividend
  set divisor := c₂ * 10 ^ (-shift).toNat with hdivisor
  set ratio : ℚ := c₁ / c₂ * 10 ^ shift with hratio
  set scale : ℚ := 10 ^ (e₁ - e₂ - shift) with hscale
  have hscalePos : 0 < scale := by positivity
  have hdivisorPos : 0 < divisor := by positivity
  have hexact : (c₁ : ℚ) * 10 ^ e₁ / (c₂ * 10 ^ e₂) = ratio * scale := by
    rw [hratio, hscale, zpow_sub₀ (by norm_num), zpow_sub₀ (by norm_num)]
    have hc : (c₂ : ℚ) ≠ 0 := by exact_mod_cast hc₂
    field_simp
  have hlarge : 10 ^ 28 < ratio := shifted_large hc₁ hc₂
  have hratioDiv : (dividend : ℚ) / divisor = ratio := scaled_ratio c₁ c₂ hc₂ shift
  have hfloor : ((dividend / divisor : Nat) : ℚ) ≤ ratio := by
    rw [← hratioDiv, le_div_iff₀ (by exact_mod_cast hdivisorPos)]
    exact_mod_cast Nat.div_mul_le_self dividend divisor
  have hceil : ratio < (dividend / divisor : Nat) + 1 := by
    rw [← hratioDiv, div_lt_iff₀ (by exact_mod_cast hdivisorPos)]
    exact_mod_cast (Nat.div_lt_iff_lt_mul hdivisorPos).mp (Nat.lt_succ_self (dividend / divisor))
  have hnonneg : 0 ≤ ratio * scale := by positivity
  rw [hexact, quotient]
  dsimp only
  rw [← hshift, ← hdividend, ← hdivisor]
  by_cases hremainder : dividend % divisor = 0
  · rw [if_neg (not_not.mpr hremainder)]
    have hwhole : ((dividend / divisor : Nat) : ℚ) = ratio := by
      rw [← hratioDiv, eq_div_iff (by exact_mod_cast hdivisorPos.ne')]
      exact_mod_cast Nat.div_mul_cancel (Nat.dvd_of_mod_eq_zero hremainder)
    have hreduced := towardsIdeal_value (e₁ - e₂) shift.toNat (dividend / divisor) (e₁ - e₂ - shift)
    obtain ⟨c, e, hfix, herror⟩ := fix_magnitude negative
      (towardsIdeal (e₁ - e₂) shift.toNat (dividend / divisor) (e₁ - e₂ - shift)).1
      (towardsIdeal (e₁ - e₂) shift.toNat (dividend / divisor) (e₁ - e₂ - shift)).2
    rw [hreduced, hwhole] at herror
    refine ⟨c, e, hfix, ?_⟩
    have := abs_nonneg ((c : ℚ) * 10 ^ e - ratio * scale)
    linarith
  · rw [if_pos hremainder]
    obtain ⟨c, e, hfix, herror⟩ := fix_magnitude negative
      (if dividend / divisor % 5 = 0 then dividend / divisor + 1 else dividend / divisor) (e₁ - e₂ - shift)
    refine ⟨c, e, hfix, sticky_near hscalePos hlarge ?_ herror⟩
    rw [abs_le]
    split
    · push_cast
      constructor <;> linarith
    · constructor <;> linarith

/-- The quotient of two finite numbers, unless the divisor is zero. -/
theorem divide_near {left right q : Decimal} (hleft : left.IsFinite) (hright : right.IsFinite)
    (h : divide left right = .ok q) : q.IsFinite ∧ Near q.value (left.value / right.value) := by
  cases left with
  | finite n₁ c₁ e₁ =>
      cases right with
      | finite n₂ c₂ e₂ =>
          rw [divide] at h
          split at h
          · cases h
          rename_i hc₂
          split at h
          · rename_i hc₁
            cases h
            refine ⟨trivial, ?_⟩
            rw [value_eq, value_eq, hc₁]
            simp [Near]
          · rename_i hc₁
            cases h
            obtain ⟨c, e, hquotient, herror⟩ := quotient_magnitude (n₁ != n₂) hc₁ hc₂ e₁ e₂
            have hsign : (finite n₁ c₁ e₁).value / (finite n₂ c₂ e₂).value =
                if (n₁ != n₂) = true then -((c₁ : ℚ) * 10 ^ e₁ / (c₂ * 10 ^ e₂)) else
                  (c₁ : ℚ) * 10 ^ e₁ / (c₂ * 10 ^ e₂) := by
              rw [value_eq, value_eq]
              cases n₁ <;> cases n₂ <;> simp [neg_div, div_neg]
            rw [hquotient, hsign]
            exact ⟨trivial, near_of_magnitude _ (by positivity) herror⟩
      | _ => exact hright.elim
  | _ => exact hleft.elim

/-! ### Integral values -/

/-- The value of an integral magnitude with a sign. -/
theorem integral_value {negative : Bool} {n : ℤ}
    (hsign : if negative then n ≤ 0 else 0 ≤ n) : (finite negative n.natAbs 0).value = n := by
  have habs : ((n.natAbs : Nat) : ℚ) = |(n : ℚ)| := by rw [Nat.cast_natAbs, Int.cast_abs]
  rw [value_eq, zpow_zero, mul_one, habs]
  cases negative
  · rw [if_neg Bool.false_ne_true, abs_of_nonneg (by exact_mod_cast hsign)]
  · rw [if_pos rfl, abs_of_nonpos (by exact_mod_cast hsign), neg_neg]

theorem value_sign (negative : Bool) (coefficient : Nat) (exponent : ℤ) :
    if negative then (finite negative coefficient exponent).value ≤ 0
    else 0 ≤ (finite negative coefficient exponent).value := by
  have hnonneg : (0 : ℚ) ≤ coefficient * 10 ^ exponent := by positivity
  rw [value_eq]
  cases negative
  · simpa using hnonneg
  · simpa using hnonneg

theorem le_ceilingValue {d : Decimal} (hd : d.IsFinite) :
    d.ceilingValue.IsFinite ∧ d.value ≤ d.ceilingValue.value := by
  cases d with
  | finite negative coefficient exponent =>
      simp only [ceilingValue]
      split
      · exact ⟨trivial, le_rfl⟩
      · refine ⟨trivial, ?_⟩
        have hsign := value_sign negative coefficient exponent
        rw [integral_value]
        · exact Int.le_ceil _
        · cases negative
          · exact Int.ceil_nonneg hsign
          · exact Int.ceil_nonpos.mpr hsign
  | _ => exact hd.elim

theorem toInt_floorValue {d : Decimal} (hd : d.IsFinite) : d.floorValue.toInt = .ok ⌊d.value⌋ := by
  cases d with
  | finite negative coefficient exponent =>
      simp only [floorValue]
      split
      · rfl
      · have hsign := value_sign negative coefficient exponent
        rw [toInt, integral_value, Int.floor_intCast]
        cases negative
        · exact Int.floor_nonneg.mpr hsign
        · exact Int.floor_nonpos hsign
  | _ => exact hd.elim

end Decimal
