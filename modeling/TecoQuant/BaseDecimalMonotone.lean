import TecoQuant.BaseDecimalValue

/-! Rounding to significant digits keeps the order of values. -/

theorem roundHalfEven_le_floor_add_one (x : ℚ) : roundHalfEven x ≤ ⌊x⌋ + 1 := by
  unfold roundHalfEven
  split_ifs <;> omega

theorem roundHalfEven_mono {x y : ℚ} (h : x ≤ y) : roundHalfEven x ≤ roundHalfEven y := by
  rcases (Int.floor_le_floor h).lt_or_eq with hlt | heq
  · calc roundHalfEven x ≤ ⌊x⌋ + 1 := roundHalfEven_le_floor_add_one x
      _ ≤ ⌊y⌋ := hlt
      _ ≤ roundHalfEven y := floor_le_roundHalfEven y
  · have hfract : x - ⌊x⌋ ≤ y - ⌊x⌋ := by linarith
    unfold roundHalfEven
    rw [← heq]
    split_ifs <;> first | omega | linarith

/-- A power of ten above the last place is a whole number of last places. -/
theorem zpow_eq_mul_lastPlace {digits : Nat} {x : ℚ} {n : ℤ} (h : Int.log 10 |x| + 1 - digits ≤ n) :
    (10 : ℚ) ^ n = ((10 ^ (n - (Int.log 10 |x| + 1 - digits)).toNat : ℤ) : ℚ) * lastPlace digits x := by
  rw [lastPlace]
  push_cast
  rw [← zpow_natCast, ← zpow_add₀ (by norm_num)]
  congr 1
  omega

theorem roundDigits_le_zpow {digits : Nat} {x : ℚ} {n : ℤ} (hplace : Int.log 10 |x| + 1 - digits ≤ n)
    (h : x ≤ 10 ^ n) : roundDigits digits x ≤ 10 ^ n := by
  have hunit := lastPlace_pos digits x
  rw [zpow_eq_mul_lastPlace hplace] at h ⊢
  refine mul_le_mul_of_nonneg_right (Int.cast_le.mpr ?_) hunit.le
  exact (roundHalfEven_mono ((div_le_iff₀ hunit).mpr h)).trans_eq (roundHalfEven_intCast _)

theorem zpow_le_roundDigits {digits : Nat} {x : ℚ} {n : ℤ} (hplace : Int.log 10 |x| + 1 - digits ≤ n)
    (h : 10 ^ n ≤ x) : 10 ^ n ≤ roundDigits digits x := by
  have hunit := lastPlace_pos digits x
  rw [zpow_eq_mul_lastPlace hplace] at h ⊢
  refine mul_le_mul_of_nonneg_right (Int.cast_le.mpr ?_) hunit.le
  exact (roundHalfEven_intCast _).symm.trans_le (roundHalfEven_mono ((le_div_iff₀ hunit).mpr h))

/-- Positive numbers of one magnitude share their last place; a power of ten separates the others. -/
theorem roundDigits_mono_of_pos {digits : Nat} (hdigits : 0 < digits) {x y : ℚ} (hx : 0 < x) (h : x ≤ y) :
    roundDigits digits x ≤ roundDigits digits y := by
  have hy := hx.trans_le h
  have hlog : Int.log 10 |x| ≤ Int.log 10 |y| := by
    rw [abs_of_pos hx, abs_of_pos hy]
    exact Int.log_mono_right hx h
  rcases hlog.eq_or_lt with heq | hlt
  · have hplace : lastPlace digits x = lastPlace digits y := by rw [lastPlace, lastPlace, heq]
    have hunit := lastPlace_pos digits y
    rw [roundDigits, roundDigits, hplace]
    refine mul_le_mul_of_nonneg_right (Int.cast_le.mpr (roundHalfEven_mono ?_)) hunit.le
    exact div_le_div_of_nonneg_right h hunit.le
  · have hbelow : x ≤ 10 ^ (Int.log 10 |y|) := by
      have hpow := Int.lt_zpow_succ_log_self (b := 10) (by norm_num) |x|
      rw [abs_of_pos hx] at hpow
      push_cast at hpow
      refine hpow.le.trans (zpow_le_zpow_right₀ (by norm_num) ?_)
      rw [abs_of_pos hx] at hlt
      omega
    have habove : 10 ^ (Int.log 10 |y|) ≤ y := by
      have hpow := Int.zpow_log_le_self (b := 10) (by norm_num) (abs_pos.mpr hy.ne')
      rw [abs_of_pos hy] at hpow ⊢
      exact_mod_cast hpow
    calc roundDigits digits x ≤ 10 ^ (Int.log 10 |y|) := roundDigits_le_zpow (by omega) hbelow
      _ ≤ roundDigits digits y := zpow_le_roundDigits (by omega) habove

theorem roundDigits_mono {digits : Nat} (hdigits : 0 < digits) : Monotone (roundDigits digits) := by
  have hnonneg : ∀ {z : ℚ}, 0 ≤ z → 0 ≤ roundDigits digits z := by
    intro z hz
    rcases hz.eq_or_lt with rfl | hz
    · rw [roundDigits_zero]
    · exact (roundDigits_pos hdigits hz).le
  intro x y h
  rcases lt_or_ge 0 x with hx | hx
  · exact roundDigits_mono_of_pos hdigits hx h
  rcases lt_or_ge y 0 with hy | hy
  · have hneg := roundDigits_mono_of_pos hdigits (neg_pos.mpr hy) (neg_le_neg h)
    rw [roundDigits_neg, roundDigits_neg] at hneg
    exact neg_le_neg_iff.mp hneg
  · have hneg := hnonneg (neg_nonneg.mpr hx)
    rw [roundDigits_neg] at hneg
    exact (neg_nonneg.mp hneg).trans (hnonneg hy)

namespace DecimalContext

/-- A rounding that keeps the order and zero. -/
structure Orderly (ctx : DecimalContext) : Prop where
  mono : Monotone ctx.round
  zero : ctx.round 0 = 0

theorem exact_orderly : exact.Orderly := ⟨monotone_id, rfl⟩

theorem default_orderly : default.Orderly := ⟨roundDigits_mono (by norm_num), roundDigits_zero 28⟩

end DecimalContext
