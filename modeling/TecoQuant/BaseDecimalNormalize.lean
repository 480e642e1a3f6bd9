import TecoQuant.BaseDecimalMonotone

/-! A number is its own rounding exactly when it has few enough significant digits, and normalizing a
decimal keeps its value exactly then. -/

/-- The coefficient of a rounded number, in units of its last place. -/
theorem abs_roundHalfEven_le (digits : ℕ) (x : ℚ) :
    |roundHalfEven (x / lastPlace digits x)| ≤ 10 ^ digits := by
  have hunit := lastPlace_pos digits x
  have hquotient : |x / lastPlace digits x| ≤ ((10 ^ digits : ℤ) : ℚ) := by
    have hmagnitude : |x| < (10 : ℚ) ^ (Int.log 10 |x| + 1) := by
      have hlog := Int.lt_zpow_succ_log_self (b := 10) (by norm_num) |x|
      exact_mod_cast hlog
    have hsplit : (10 : ℚ) ^ (Int.log 10 |x| + 1) = ((10 ^ digits : ℤ) : ℚ) * lastPlace digits x := by
      rw [lastPlace]
      push_cast
      rw [← zpow_natCast, ← zpow_add₀ (by norm_num)]
      congr 1
      omega
    rw [abs_div, abs_of_pos hunit, div_le_iff₀ hunit, ← hsplit]
    exact hmagnitude.le
  obtain ⟨hlow, hhigh⟩ := abs_le.mp hquotient
  rw [abs_le]
  constructor
  · have hround := roundHalfEven_mono hlow
    rwa [← Int.cast_neg, roundHalfEven_intCast] at hround
  · have hround := roundHalfEven_mono hhigh
    rwa [roundHalfEven_intCast] at hround

/-- A rounded number has few enough digits: one that is rounded up to the next power of ten has one. -/
theorem representable_roundDigits {digits : ℕ} (hdigits : 0 < digits) (x : ℚ) :
    Representable digits (roundDigits digits x) := by
  have hten : (1 : ℤ) < 10 ^ digits := one_lt_pow₀ (by norm_num) hdigits.ne'
  rcases (abs_roundHalfEven_le digits x).lt_or_eq with hlt | heq
  · exact ⟨_, _, hlt, rfl⟩
  set place := Int.log 10 |x| + 1 - digits with hplace
  have hpower : ((10 ^ digits : ℤ) : ℚ) * 10 ^ place = 10 ^ (digits + place) := by
    push_cast
    rw [zpow_add₀ (by norm_num), zpow_natCast]
  rcases eq_or_eq_neg_of_abs_eq heq with hpos | hneg
  · refine ⟨1, digits + place, by rw [abs_one]; exact hten, ?_⟩
    rw [roundDigits, hpos, lastPlace, hpower, Int.cast_one, one_mul]
  · refine ⟨-1, digits + place, by rw [abs_neg, abs_one]; exact hten, ?_⟩
    rw [roundDigits, hneg, lastPlace, Int.cast_neg, neg_mul, hpower, Int.cast_neg, Int.cast_one, neg_one_mul]

theorem roundDigits_eq_self_iff {digits : ℕ} (hdigits : 0 < digits) {x : ℚ} :
    roundDigits digits x = x ↔ Representable digits x := by
  constructor
  · intro h
    rw [← h]
    exact representable_roundDigits hdigits x
  · exact roundDigits_of_representable

/-- A number is a whole number of units exactly when rounding to units keeps it. -/
theorem roundHalfEven_mul_eq_self_iff {x unit : ℚ} (hunit : unit ≠ 0) :
    roundHalfEven (x / unit) * unit = x ↔ ∃ n : ℤ, x = n * unit := by
  constructor
  · intro h
    exact ⟨_, h.symm⟩
  · rintro ⟨n, rfl⟩
    rw [mul_div_cancel_right₀ _ hunit, roundHalfEven_intCast]

/-- A whole number of units is one of any unit that they are multiples of. -/
theorem multiple_of_le {x : ℚ} {a b : ℤ} (hle : a ≤ b) (h : ∃ n : ℤ, x = n * (10 : ℚ) ^ b) :
    ∃ n : ℤ, x = n * (10 : ℚ) ^ a := by
  obtain ⟨n, rfl⟩ := h
  refine ⟨n * 10 ^ (b - a).toNat, ?_⟩
  push_cast
  rw [mul_assoc, ← zpow_natCast, ← zpow_add₀ (by norm_num), Int.toNat_of_nonneg (by omega), Int.sub_add_cancel]

theorem multiple_max_iff {x : ℚ} {a b : ℤ} :
    (∃ n : ℤ, x = n * (10 : ℚ) ^ max a b) ↔ (∃ n : ℤ, x = n * (10 : ℚ) ^ a) ∧ ∃ n : ℤ, x = n * (10 : ℚ) ^ b := by
  constructor
  · intro h
    exact ⟨multiple_of_le (le_max_left a b) h, multiple_of_le (le_max_right a b) h⟩
  · rintro ⟨hleft, hright⟩
    rcases max_choice a b with h | h
    · rwa [h]
    · rwa [h]

namespace Decimal

/-- Trailing zeros move into the exponent. -/
theorem dropZeros_value (fuel coefficient : ℕ) (exponent : ℤ) :
    ((dropZeros fuel coefficient exponent).1 : ℚ) * 10 ^ (dropZeros fuel coefficient exponent).2 =
      coefficient * 10 ^ exponent := by
  induction fuel generalizing coefficient exponent with
  | zero => rfl
  | succ fuel ih =>
      unfold dropZeros
      split
      · rename_i hzero
        rw [ih, drop_zero hzero]
      · rfl

/-- The last place that `normalize` keeps. -/
def normalPlace (coefficient : ℕ) (exponent : ℤ) : ℤ := max (exponent + numDigits coefficient - 28) (-1000026)

/-- A coefficient whose places below another are dropped is rounded to that place. -/
theorem rounded_magnitude (coefficient : ℕ) (exponent place : ℤ) :
    let rounded := if exponent < place then (dropDigits coefficient (place - exponent).toNat, place)
      else (coefficient, exponent)
    (rounded.1 : ℚ) * 10 ^ rounded.2 = roundHalfEven ((coefficient : ℚ) * 10 ^ exponent / 10 ^ place) * 10 ^ place := by
  have hunit : (10 : ℚ) ^ place ≠ 0 := by positivity
  dsimp only
  split
  · rename_i hlt
    have hpow : (10 : ℚ) ^ place = 10 ^ (place - exponent).toNat * 10 ^ exponent := by
      rw [← zpow_natCast, ← zpow_add₀ (by norm_num), Int.toNat_of_nonneg (by omega), Int.sub_add_cancel]
    have hquotient : (coefficient : ℚ) * 10 ^ exponent / 10 ^ place = coefficient / 10 ^ (place - exponent).toNat := by
      rw [hpow]
      exact mul_div_mul_right _ _ (by positivity)
    rw [hquotient, roundHalfEven_quotient]
    push_cast
    rfl
  · rename_i hge
    exact ((roundHalfEven_mul_eq_self_iff hunit).mpr
      (multiple_of_le (not_lt.mp hge) ⟨coefficient, by push_cast; rfl⟩)).symm

/-- A result of `normalize` is the number rounded to its last place. -/
theorem normalize_finite {negative : Bool} {coefficient : ℕ} {exponent : ℤ} {d : Decimal}
    (h : normalize (finite negative coefficient exponent) = .ok d) : d.IsFinite ∧
      d.value = roundHalfEven ((finite negative coefficient exponent).value / 10 ^ normalPlace coefficient exponent) *
        (10 : ℚ) ^ normalPlace coefficient exponent := by
  have hrounded := rounded_magnitude coefficient exponent (normalPlace coefficient exponent)
  simp only [normalize] at h
  rw [← normalPlace] at h
  set rounded := if exponent < normalPlace coefficient exponent then
    (dropDigits coefficient (normalPlace coefficient exponent - exponent).toNat, normalPlace coefficient exponent)
    else (coefficient, exponent)
  have hdropped := dropZeros_value (numDigits rounded.1) rounded.1 rounded.2
  rw [hrounded] at hdropped
  -- Both signs round the same magnitude.
  have hsigned : (finite negative (dropZeros (numDigits rounded.1) rounded.1 rounded.2).1
      (dropZeros (numDigits rounded.1) rounded.1 rounded.2).2).value =
      roundHalfEven ((finite negative coefficient exponent).value / 10 ^ normalPlace coefficient exponent) *
        (10 : ℚ) ^ normalPlace coefficient exponent := by
    rw [value_eq, value_eq, hdropped]
    cases negative
    · rfl
    · rw [if_pos rfl, if_pos rfl, neg_div, roundHalfEven_neg]
      push_cast
      ring
  split at h
  · rename_i hzero
    cases h
    refine ⟨trivial, hsigned ▸ ?_⟩
    rw [hzero]
    simp [value_eq]
  · obtain ⟨-, h⟩ := Except.ite_error_eq_ok.mp h
    cases h
    exact ⟨trivial, hsigned⟩

/-- What `normalize` keeps: numbers of at most 28 digits that are no finer than the least subnormal number. -/
def Normal (x : ℚ) : Prop := Representable 28 x ∧ ∃ n : ℤ, x = n * (10 : ℚ) ^ (-1000026 : ℤ)

theorem multiple_lastPlace_iff (negative : Bool) {coefficient : ℕ} (hne : coefficient ≠ 0) (exponent : ℤ) :
    (∃ n : ℤ, (finite negative coefficient exponent).value = n * (10 : ℚ) ^ (exponent + numDigits coefficient - 28)) ↔
      Representable 28 (finite negative coefficient exponent).value := by
  have hplace : (10 : ℚ) ^ (exponent + numDigits coefficient - 28) =
      lastPlace 28 (finite negative coefficient exponent).value := by
    rw [lastPlace, abs_value, ← abs_of_nonneg (by positivity : (0 : ℚ) ≤ coefficient * 10 ^ exponent),
      log_abs_mul_zpow hne, numDigits]
    congr 1
    push_cast
    ring
  rw [hplace, ← roundDigits_eq_self_iff (by norm_num), roundDigits,
    roundHalfEven_mul_eq_self_iff (lastPlace_pos _ _).ne']

theorem normal_zero : Normal 0 := ⟨⟨0, 0, by norm_num, by norm_num⟩, 0, by norm_num⟩

/-- Normalizing keeps a number exactly when it is normal. -/
theorem normalize_kept_iff {d normal : Decimal} (hfinite : d.IsFinite) (h : d.normalize = .ok normal) :
    normal.IsFinite ∧ (normal.value = d.value ↔ Normal d.value) := by
  cases d with
  | infinity negative => exact hfinite.elim
  | nan => exact hfinite.elim
  | finite negative coefficient exponent =>
      obtain ⟨hnormal, hvalue⟩ := normalize_finite h
      refine ⟨hnormal, ?_⟩
      rw [hvalue, roundHalfEven_mul_eq_self_iff (by positivity), normalPlace, multiple_max_iff, Normal]
      by_cases hne : coefficient = 0
      · have hzero : (finite negative coefficient exponent).value = 0 := by simp [value_eq, hne]
        rw [hzero]
        exact ⟨fun _ => normal_zero, fun _ => ⟨⟨0, by norm_num⟩, normal_zero.2⟩⟩
      · rw [multiple_lastPlace_iff negative hne]

end Decimal
