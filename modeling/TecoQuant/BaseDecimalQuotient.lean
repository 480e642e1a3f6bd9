import TecoQuant.BaseDecimalMonotone

/-! The quotient of decimals is the exact quotient rounded once: the sticky digit never moves the rounding. -/

/-- Between two neighbouring halves the rounding is constant. -/
theorem roundHalfEven_of_between {x : ℚ} {m : ℤ} (hlow : (m : ℚ) < 2 * x) (hhigh : 2 * x < m + 1) :
    roundHalfEven x = (m + 1) / 2 := by
  rcases Int.even_or_odd' m with ⟨t, rfl | rfl⟩
  · push_cast at hlow hhigh
    have hfloor : ⌊x⌋ = t := by
      rw [Int.floor_eq_iff]
      constructor <;> linarith
    rw [roundHalfEven, hfloor, if_pos (by linarith)]
    omega
  · push_cast at hlow hhigh
    have hfloor : ⌊x⌋ = t := by
      rw [Int.floor_eq_iff]
      constructor <;> linarith
    rw [roundHalfEven, hfloor, if_neg (by linarith), if_pos (by linarith)]
    omega

namespace Decimal

/-- The coefficient with its last digit moved off a multiple of five. -/
def sticky (c : ℕ) : ℕ := if c % 5 = 0 then c + 1 else c

/-- The last digit tells on which side of any coarser half the exact value lies. -/
theorem sticky_between {c half : ℕ} {ratio : ℚ} (hlow : (c : ℚ) < ratio) (hhigh : ratio < c + 1) (hhalf : 5 ∣ half)
    (hpos : 0 < half) : ((c / half : ℕ) * half : ℚ) < ratio ∧ ratio < ((c / half : ℕ) + 1) * half ∧
      ((c / half : ℕ) * half : ℚ) < sticky c ∧ (sticky c : ℚ) < ((c / half : ℕ) + 1) * half := by
  have hbelow : c / half * half ≤ c := Nat.div_mul_le_self c half
  have habove : c < (c / half + 1) * half := Nat.lt_mul_of_div_lt (Nat.lt_succ_self _) hpos
  have hfive : 5 ∣ c / half * half := hhalf.mul_left _
  have hfive' : 5 ∣ (c / half + 1) * half := hhalf.mul_left _
  have hsticky : c / half * half < sticky c ∧ sticky c < (c / half + 1) * half := by
    unfold sticky
    split <;> omega
  have hbelowQ : (((c / half * half : ℕ) : ℕ) : ℚ) ≤ c := Nat.cast_le.mpr hbelow
  have haboveQ : ((c + 1 : ℕ) : ℚ) ≤ ((c / half + 1) * half : ℕ) := Nat.cast_le.mpr habove
  push_cast at hbelowQ haboveQ
  refine ⟨hbelowQ.trans_lt hlow, hhigh.trans_le haboveQ, ?_, ?_⟩
  · exact_mod_cast hsticky.1
  · exact_mod_cast hsticky.2

/-- Numbers of one decade share their last place. -/
theorem lastPlace_eq {digits : ℕ} {x : ℚ} {n : ℤ} (hlow : 10 ^ n ≤ x) (hhigh : x < 10 ^ (n + 1)) :
    lastPlace digits x = 10 ^ (n + 1 - digits) := by
  have hpos : 0 < x := (zpow_pos (by norm_num) n).trans_le hlow
  have hge : n ≤ Int.log 10 x := (Int.zpow_le_iff_le_log (by norm_num) hpos).mp (by exact_mod_cast hlow)
  have hlt : Int.log 10 x < n + 1 := (Int.lt_zpow_iff_log_lt (by norm_num) hpos).mp (by exact_mod_cast hhigh)
  rw [lastPlace, abs_of_pos hpos, show Int.log 10 x = n by omega]

theorem roundDigits_sticky {c : ℕ} {ratio : ℚ} (hlarge : 10 ^ 28 ≤ c) (hlow : (c : ℚ) < ratio) (hhigh : ratio < c + 1)
    (k : ℤ) : roundDigits 28 (sticky c * 10 ^ k) = roundDigits 28 (ratio * 10 ^ k) := by
  have hne : c ≠ 0 := by omega
  set n := Nat.log 10 c with hn
  have hdecade : 10 ^ n ≤ c := Nat.pow_log_le_self 10 hne
  have hnext : c < 10 ^ (n + 1) := Nat.lt_pow_succ_log_self (by norm_num) c
  have hplaces : 28 ≤ n := (Nat.le_log_iff_pow_le (by norm_num) hne).mpr hlarge
  have hfive : 5 ∣ 10 ^ (n + 1) := Dvd.dvd.pow (by norm_num) (Nat.succ_ne_zero n)
  have hsticky : c ≤ sticky c ∧ sticky c < 10 ^ (n + 1) := by
    unfold sticky
    split <;> omega
  have hscale : (0 : ℚ) < 10 ^ k := zpow_pos (by norm_num) _
  -- Both numbers lie in the decade of the coefficient.
  have hplace : ∀ y : ℚ, (c : ℚ) ≤ y → y < 10 ^ (n + 1) → lastPlace 28 (y * 10 ^ k) = 10 ^ (n - 27 : ℤ) * 10 ^ k := by
    intro y hge hlt
    have hstart : (10 : ℚ) ^ ((n : ℤ) + k) ≤ y * 10 ^ k := by
      rw [zpow_add₀ (by norm_num), zpow_natCast]
      refine mul_le_mul_of_nonneg_right (le_trans ?_ hge) hscale.le
      exact_mod_cast hdecade
    have hend : y * 10 ^ k < (10 : ℚ) ^ ((n : ℤ) + k + 1) := by
      rw [show (n : ℤ) + k + 1 = ((n + 1 : ℕ) : ℤ) + k by push_cast; ring, zpow_add₀ (by norm_num), zpow_natCast]
      exact mul_lt_mul_of_pos_right hlt hscale
    rw [lastPlace_eq hstart hend, ← zpow_add₀ (by norm_num)]
    congr 1
    push_cast
    ring
  have hratioHigh : ratio < 10 ^ (n + 1) := hhigh.trans_le (by exact_mod_cast hnext)
  have hstickyHigh : (sticky c : ℚ) < 10 ^ (n + 1) := by exact_mod_cast hsticky.2
  rw [roundDigits, roundDigits, hplace ratio hlow.le hratioHigh, hplace _ (by exact_mod_cast hsticky.1) hstickyHigh]
  congr 2
  rw [mul_div_mul_right _ _ hscale.ne', mul_div_mul_right _ _ hscale.ne']
  -- The places dropped are halves of a power of ten, a multiple of five.
  obtain ⟨j, hj⟩ : ∃ j : ℕ, n = 28 + j := ⟨n - 28, by omega⟩
  have hpower : (10 : ℚ) ^ (n - 27 : ℤ) = 2 * (5 * 10 ^ j : ℕ) := by
    rw [hj, show ((28 + j : ℕ) : ℤ) - 27 = ((j + 1 : ℕ) : ℤ) by push_cast; ring, zpow_natCast]
    push_cast
    ring
  obtain ⟨h₁, h₂, h₃, h₄⟩ := sticky_between hlow hhigh (Dvd.intro (10 ^ j) rfl) (by positivity : 0 < 5 * 10 ^ j)
  have hhalf : (0 : ℚ) < (5 * 10 ^ j : ℕ) := by exact_mod_cast (by positivity : 0 < 5 * 10 ^ j)
  have hround : ∀ y : ℚ, ((c / (5 * 10 ^ j) : ℕ) * (5 * 10 ^ j : ℕ) : ℚ) < y →
      y < ((c / (5 * 10 ^ j) : ℕ) + 1) * (5 * 10 ^ j : ℕ) →
      roundHalfEven (y / 10 ^ (n - 27 : ℤ)) = (((c / (5 * 10 ^ j) : ℕ) : ℤ) + 1) / 2 := by
    intro y hy hy'
    have hdouble : 2 * (y / 10 ^ (n - 27 : ℤ)) = y / (5 * 10 ^ j : ℕ) := by
      rw [hpower]
      field_simp
    refine roundHalfEven_of_between ?_ ?_
    · rw [hdouble, lt_div_iff₀ hhalf]
      exact_mod_cast hy
    · rw [hdouble, div_lt_iff₀ hhalf]
      exact_mod_cast hy'
  rw [hround _ h₃ h₄, hround _ h₁ h₂]

/-- The quotient of two magnitudes, signed and rounded once. -/
theorem quotient_value (negative : Bool) {c₁ c₂ : ℕ} (hc₁ : c₁ ≠ 0) (hc₂ : c₂ ≠ 0) (e₁ e₂ : ℤ) :
    (quotient .default 28 negative c₁ e₁ c₂ e₂).IsFinite ∧ (quotient .default 28 negative c₁ e₁ c₂ e₂).value =
      roundDigits 28 ((if negative then -1 else 1) * (c₁ * 10 ^ e₁ / (c₂ * 10 ^ e₂))) := by
  set shift : ℤ := (numDigits c₂ : ℤ) - numDigits c₁ + (28 : ℕ) + 1 with hshift
  set dividend := c₁ * 10 ^ shift.toNat with hdividend
  set divisor := c₂ * 10 ^ (-shift).toNat with hdivisor
  set ratio : ℚ := c₁ / c₂ * 10 ^ shift with hratio
  have hdivisorPos : 0 < divisor := by positivity
  have hexact : (c₁ : ℚ) * 10 ^ e₁ / (c₂ * 10 ^ e₂) = ratio * 10 ^ (e₁ - e₂ - shift) := by
    rw [hratio, zpow_sub₀ (by norm_num), zpow_sub₀ (by norm_num)]
    have hc : (c₂ : ℚ) ≠ 0 := by exact_mod_cast hc₂
    field_simp
  have hlarge : 10 ^ 28 < ratio := shifted_large hc₁ hc₂
  have hratioDiv : (dividend : ℚ) / divisor = ratio := scaled_ratio c₁ c₂ hc₂ shift
  have hsigned : ∀ (c : ℕ) (e : ℤ), (finite negative c e).value = (if negative then -1 else 1) * (c * (10 : ℚ) ^ e) := by
    intro c e
    rw [value_eq]
    cases negative <;> simp
  have hsign : ∀ x : ℚ, roundDigits 28 ((if negative then -1 else 1) * x) =
      (if negative then -1 else 1) * roundDigits 28 x := by
    intro x
    cases negative
    · simp
    · simp [roundDigits_neg]
  refine ⟨?_, ?_⟩
  · rw [quotient]
    dsimp only
    split <;> exact fix_isFinite _ _ _
  rw [hexact, quotient]
  dsimp only
  rw [← hshift, ← hdividend, ← hdivisor]
  by_cases hremainder : dividend % divisor = 0
  · rw [if_neg (not_not.mpr hremainder)]
    have hwhole : ((dividend / divisor : ℕ) : ℚ) = ratio := by
      rw [← hratioDiv, eq_div_iff (by exact_mod_cast hdivisorPos.ne')]
      exact_mod_cast Nat.div_mul_cancel (Nat.dvd_of_mod_eq_zero hremainder)
    have hreduced := towardsIdeal_value (e₁ - e₂) shift.toNat (dividend / divisor) (e₁ - e₂ - shift)
    rw [hwhole] at hreduced
    rw [fix_value, hsigned, hreduced]
  · rw [if_pos hremainder]
    have hfloor : ((dividend / divisor : ℕ) : ℚ) < ratio := by
      rw [← hratioDiv, lt_div_iff₀ (by exact_mod_cast hdivisorPos)]
      have hlt : dividend / divisor * divisor < dividend := by
        have hsplit := Nat.div_add_mod' dividend divisor
        omega
      exact_mod_cast hlt
    have hceil : ratio < (dividend / divisor : ℕ) + 1 := by
      rw [← hratioDiv, div_lt_iff₀ (by exact_mod_cast hdivisorPos)]
      exact_mod_cast (Nat.div_lt_iff_lt_mul hdivisorPos).mp (Nat.lt_succ_self (dividend / divisor))
    have hmany : 10 ^ 28 ≤ dividend / divisor := by
      have hlt : ((10 ^ 28 : ℕ) : ℚ) < ((dividend / divisor + 1 : ℕ) : ℚ) := by
        push_cast
        exact hlarge.trans hceil
      exact Nat.lt_succ_iff.mp (Nat.cast_lt.mp hlt)
    rw [fix_value, hsigned, hsign, hsign]
    exact congrArg _ (roundDigits_sticky hmany hfloor hceil (e₁ - e₂ - shift))

/-- Division rounds the exact quotient once. -/
theorem divide_value {left right q : Decimal} (hleft : left.IsFinite) (hright : right.IsFinite)
    (h : divide left right = .ok q) : q.IsFinite ∧ q.value = roundDigits 28 (left.value / right.value) := by
  cases left with
  | finite n₁ c₁ e₁ =>
      cases right with
      | finite n₂ c₂ e₂ =>
          rw [divide] at h
          split at h
          · cases h
          rename_i hc₂
          split at h
          · rename_i hc₁
            cases h
            refine ⟨trivial, ?_⟩
            rw [value_eq, value_eq, hc₁]
            simp [roundDigits_zero]
          · rename_i hc₁
            cases h
            obtain ⟨hfinite, hvalue⟩ := quotient_value (n₁ != n₂) hc₁ hc₂ e₁ e₂
            refine ⟨hfinite, hvalue.trans (congrArg _ ?_)⟩
            rw [value_eq, value_eq]
            cases n₁ <;> cases n₂ <;> simp [neg_div, div_neg]
      | _ => exact hright.elim
  | _ => exact hleft.elim

theorem minus_value {left right difference : Decimal} (hleft : left.IsFinite) (hright : right.IsFinite)
    (h : minus .default left right = .ok difference) :
    difference.IsFinite ∧ difference.value = roundDigits 28 (left.value - right.value) := by
  rw [minus, plus_of_finite hleft (flip_isFinite hright)] at h
  rw [← Except.ok.inj h]
  refine ⟨add_isFinite hleft (flip_isFinite hright), ?_⟩
  rw [add_value hleft (flip_isFinite hright), flip_value, ← sub_eq_add_neg]

/-! ### Integral values and extrema -/

/-- A decimal without decimals is a whole number. -/
theorem exists_int_value (negative : Bool) (coefficient : ℕ) {exponent : ℤ} (h : 0 ≤ exponent) :
    ∃ n : ℤ, (finite negative coefficient exponent).value = n := by
  obtain ⟨places, rfl⟩ := Int.eq_ofNat_of_zero_le h
  refine ⟨(if negative then -1 else 1) * (coefficient * 10 ^ places), ?_⟩
  rw [value_eq, zpow_natCast]
  cases negative <;> simp

theorem ceilingValue_value {d : Decimal} (hd : d.IsFinite) :
    d.ceilingValue.IsFinite ∧ d.ceilingValue.value = ⌈d.value⌉ := by
  cases d with
  | finite negative coefficient exponent =>
      simp only [ceilingValue]
      split
      · rename_i hwhole
        obtain ⟨n, hn⟩ := exists_int_value negative coefficient hwhole
        exact ⟨trivial, by rw [hn, Int.ceil_intCast]⟩
      · have hsign := value_sign negative coefficient exponent
        refine ⟨trivial, integral_value ?_⟩
        cases negative
        · exact Int.ceil_nonneg hsign
        · exact Int.ceil_nonpos.mpr hsign
  | _ => exact hd.elim

theorem floorValue_value {d : Decimal} (hd : d.IsFinite) : d.floorValue.IsFinite ∧ d.floorValue.value = ⌊d.value⌋ := by
  cases d with
  | finite negative coefficient exponent =>
      simp only [floorValue]
      split
      · rename_i hwhole
        obtain ⟨n, hn⟩ := exists_int_value negative coefficient hwhole
        exact ⟨trivial, by rw [hn, Int.floor_intCast]⟩
      · have hsign := value_sign negative coefficient exponent
        refine ⟨trivial, integral_value ?_⟩
        cases negative
        · exact Int.floor_nonneg.mpr hsign
        · exact Int.floor_nonpos hsign
  | _ => exact hd.elim

theorem minimum_value {left right least : Decimal} (hleft : left.IsFinite) (hright : right.IsFinite)
    (h : minimum left right = .ok least) : least.IsFinite ∧ least.value = min left.value right.value := by
  rw [minimum, less_of_finite hright hleft] at h
  by_cases hless : right < left
  · rw [decide_eq_true hless] at h
    obtain rfl : right = least := Except.ok.inj h
    exact ⟨hright, (min_eq_right (lt_iff.mp hless).le).symm⟩
  · rw [decide_eq_false hless] at h
    obtain rfl : left = least := Except.ok.inj h
    exact ⟨hleft, (min_eq_left (not_lt.mp hless)).symm⟩

theorem maximum_value {left right most : Decimal} (hleft : left.IsFinite) (hright : right.IsFinite)
    (h : maximum left right = .ok most) : most.IsFinite ∧ most.value = max left.value right.value := by
  rw [maximum, less_of_finite hleft hright] at h
  by_cases hless : left < right
  · rw [decide_eq_true hless] at h
    obtain rfl : right = most := Except.ok.inj h
    exact ⟨hright, (max_eq_right (lt_iff.mp hless).le).symm⟩
  · rw [decide_eq_false hless] at h
    obtain rfl : left = most := Except.ok.inj h
    exact ⟨hleft, (max_eq_left (not_lt.mp hless)).symm⟩

end Decimal
