import Mathlib.Data.Nat.Log
import TecoQuant.BaseBinary64Rounding
import TecoQuant.BaseDecimalError

/-! The shortest decimal of a number reads back as the number, so that reading numbers as decimals keeps their
order. -/

namespace Binary64

/-- A number of the format rounds to itself. -/
def Representable : Binary64 → Prop
  | .finite negative value => round negative value = .finite negative value
  | _ => True

instance representableDecidable : (x : Binary64) → Decidable x.Representable
  | .finite negative value => inferInstanceAs (Decidable (round negative value = .finite negative value))
  | .infinity _ | .nan => .isTrue trivial

/-! ### Decimal magnitudes -/

/-- A decade starts at most at the number. -/
theorem ten_zpow_ilog10_le {q : ℚ} (h : 0 < q) : (10 : ℚ) ^ ilog10 q ≤ q := by
  unfold ilog10
  dsimp only
  split
  · assumption
  · have hnum : 0 < q.num := Rat.num_pos.mpr h
    have hne : q.num.natAbs ≠ 0 := by omega
    have hnlow : ((10 ^ Nat.log 10 q.num.natAbs : ℕ) : ℚ) ≤ q.num.natAbs :=
      Nat.cast_le.mpr (Nat.pow_log_le_self 10 hne)
    have hdhigh : (q.den : ℚ) < ((10 ^ (Nat.log 10 q.den + 1) : ℕ) : ℚ) :=
      Nat.cast_lt.mpr (Nat.lt_pow_succ_log_self (by norm_num) _)
    have hq : q * q.den = q.num.natAbs := by
      rw [Nat.cast_natAbs, abs_of_pos hnum]
      exact Rat.mul_den_eq_num q
    push_cast at hnlow hdhigh
    generalize Nat.log 10 q.num.natAbs = a at hnlow ⊢
    generalize Nat.log 10 q.den = b at hdhigh ⊢
    have hpow : (10 : ℚ) ^ ((a : ℤ) - b - 1) = 10 ^ a / 10 ^ (b + 1) := by
      rw [show (a : ℤ) - b - 1 = (a : ℤ) - ((b + 1 : ℕ) : ℤ) by push_cast; ring, zpow_sub₀ (by norm_num),
        zpow_natCast, zpow_natCast]
    have hlarger : q * q.den ≤ q * 10 ^ (b + 1) := mul_le_mul_of_nonneg_left hdhigh.le h.le
    rw [hpow, div_le_iff₀ (by positivity)]
    linarith

/-! ### Numbers near a representable one -/

section

variable {v d : ℚ}

/-- A representable number is a whole number of its units. -/
theorem exists_units (h : magnitude v = v) : ∃ n : ℤ, v = n * unit v :=
  ⟨roundHalfEven (v / unit v), h.symm⟩

theorem unit_le (hv : 0 < v) {n : ℤ} (hn : v = n * unit v) : unit v ≤ v := by
  have hunit := unit_pos v
  have hpos : (0 : ℚ) < n := by
    rw [hn] at hv
    exact pos_of_mul_pos_left hv hunit.le
  have hone : (1 : ℚ) ≤ n := by exact_mod_cast Int.cast_pos.mp hpos
  calc unit v = 1 * unit v := (one_mul _).symm
    _ ≤ n * unit v := mul_le_mul_of_nonneg_right hone hunit.le
    _ = v := hn.symm

theorem place_le_ilog2 (hv : 0 < v) {n : ℤ} (hn : v = n * unit v) : place v ≤ ilog2 v := by
  have hlt := (unit_le hv hn).trans_lt (ilog2_spec hv).2
  rw [unit_eq, zpow_lt_zpow_iff_right₀ (by norm_num)] at hlt
  omega

/-- Two different whole numbers of units are a unit apart. -/
theorem add_unit_le {x y : ℚ} {m n : ℤ} {u : ℚ} (hu : 0 < u) (hx : x = m * u) (hy : y = n * u) (h : x < y) :
    x + u ≤ y := by
  rw [hx, hy] at h ⊢
  have hlt : m < n := Int.cast_lt.mp (lt_of_mul_lt_mul_right h hu.le)
  have hle : ((m + 1 : ℤ) : ℚ) ≤ n := Int.cast_le.mpr hlt
  push_cast at hle
  calc (m : ℚ) * u + u = (m + 1) * u := by ring
    _ ≤ n * u := mul_le_mul_of_nonneg_right hle hu.le

/-- What lies within half a unit of a whole number of units rounds to it. -/
theorem magnitude_eq_of_units {n : ℤ} (hunits : v = n * unit d) (hnear : |d - v| < unit d / 2) : magnitude d = v := by
  have hunit := unit_pos d
  have hratio : d / unit d - n = (d - v) / unit d := by
    rw [hunits]
    field_simp
  have hclose : |d / unit d - n| < 1 / 2 := by
    rw [hratio, abs_div, abs_of_pos hunit, div_lt_iff₀ hunit]
    linarith
  have herror := abs_roundHalfEven_sub_le (d / unit d)
  have hsame : roundHalfEven (d / unit d) = n := by
    rw [abs_lt] at hclose
    rw [abs_le] at herror
    have hlow : ((n - 1 : ℤ) : ℚ) < (roundHalfEven (d / unit d) : ℚ) := by
      push_cast
      linarith
    have hhigh : (roundHalfEven (d / unit d) : ℚ) < ((n + 1 : ℤ) : ℚ) := by
      push_cast
      linarith
    have hlow := Int.cast_lt.mp hlow
    have hhigh := Int.cast_lt.mp hhigh
    omega
  rw [magnitude, hsame, hunits]

/-- Seventeen digits determine a number: what is that near to a representable one rounds to it. -/
theorem magnitude_eq_of_near (hv : 0 < v) (h : magnitude v = v) (hnear : |d - v| ≤ v / (2 * 10 ^ 16)) :
    magnitude d = v := by
  obtain ⟨n, hn⟩ := exists_units h
  obtain ⟨hvlow, hvhigh⟩ := ilog2_spec hv
  have hclose := abs_le.mp hnear
  have hd : 0 < d := by
    have hhalf : v / (2 * 10 ^ 16) < v := div_lt_self hv (by norm_num)
    linarith
  obtain ⟨hdlow, hdhigh⟩ := ilog2_spec hd
  -- The distance is less than half a unit.
  have hhalf : v / (2 * 10 ^ 16) < unit v / 2 := by
    have hbinade : (2 : ℚ) ^ (ilog2 v + 1) = 2 ^ 53 * 2 ^ (ilog2 v - 52) := by
      rw [← zpow_natCast, ← zpow_add₀ (by norm_num)]
      congr 1
      push_cast
      ring
    have hunit : (2 : ℚ) ^ (ilog2 v - 52) ≤ unit v := zpow_le_zpow_right₀ (by norm_num) (le_max_left _ _)
    have hpos : (0 : ℚ) < 2 ^ (ilog2 v - 52) := zpow_pos (by norm_num) _
    rw [div_lt_iff₀ (by norm_num)]
    rw [hbinade] at hvhigh
    nlinarith
  have hunit := unit_pos v
  have hplace := place_le_ilog2 hv hn
  rcases lt_trichotomy (place d) (place v) with hless | hsame | hmore
  · -- A smaller unit: the number is the power of two where its binade starts.
    have hlog : ilog2 d < ilog2 v ∧ place v = ilog2 v - 52 ∧ -1074 < place v := by
      unfold place at hless ⊢
      omega
    obtain ⟨m, hm⟩ := two_zpow_multiple hplace
    have hbelow : d < 2 ^ ilog2 v := hdhigh.trans_le (zpow_le_zpow_right₀ (by norm_num) hlog.1)
    have hstart : v = 2 ^ ilog2 v := by
      by_contra hne
      have hapart := add_unit_le hunit hm hn (lt_of_le_of_ne hvlow (Ne.symm hne))
      linarith
    have hbinade : ilog2 v ≤ ilog2 d + 1 := by
      have hhalves : (2 : ℚ) ^ (ilog2 v - 1) < 2 ^ (ilog2 d + 1) := by
        rw [zpow_sub_one₀ (by norm_num), ← hstart]
        linarith
      rw [zpow_lt_zpow_iff_right₀ (by norm_num)] at hhalves
      omega
    have hplaced : place d = ilog2 v - 53 := by
      unfold place at hless hlog ⊢
      omega
    have hpower : v = 2 ^ 53 * unit d := by
      rw [unit_eq, hplaced, ← zpow_natCast, ← zpow_add₀ (by norm_num), hstart]
      congr 1
      push_cast
      rw [← hstart]
      ring
    refine magnitude_eq_of_units (n := 2 ^ 53) (by rw [hpower]; norm_num) (hnear.trans_lt ?_)
    have hunitd := unit_pos d
    rw [hpower, div_lt_iff₀ (by norm_num)]
    linarith
  · have hsameUnit : unit d = unit v := by rw [unit_eq, unit_eq, hsame]
    refine magnitude_eq_of_units (n := n) (by rw [hsameUnit]; exact hn) ?_
    rw [hsameUnit]
    exact hnear.trans_lt hhalf
  · -- A larger unit: the next binade starts a unit above the number.
    have hlog : ilog2 v + 1 ≤ ilog2 d := by
      unfold place at hmore
      omega
    obtain ⟨m, hm⟩ := two_zpow_multiple (hplace.trans (by omega : ilog2 v ≤ ilog2 v + 1))
    have hapart := add_unit_le hunit hn hm hvhigh
    have habove : (2 : ℚ) ^ (ilog2 v + 1) ≤ d := (zpow_le_zpow_right₀ (by norm_num) hlog).trans hdlow
    linarith

/-! ### Reading back -/

theorem digitsOf_reads {exponent : ℤ} {coefficient : ℕ} (h : digitsOf v exponent = some coefficient) :
    round false (coefficient * (10 : ℚ) ^ exponent) = .finite false v := by
  unfold digitsOf at h
  dsimp only at h
  split_ifs at h
  all_goals
    obtain rfl := Option.some.inj h
    assumption

/-- The shortest decimal of a representable number reads back as it. -/
theorem shortestFrom_reads (hv : 0 < v) (hround : round false v = .finite false v) (more : Nat) (exponent : ℤ)
    (hexponent : exponent - more = ilog10 v - 16) :
    let (coefficient, place) := shortestFrom v more exponent
    round false (coefficient * (10 : ℚ) ^ place) = .finite false v := by
  induction more generalizing exponent with
  | zero =>
      have hten : (0 : ℚ) < 10 ^ exponent := zpow_pos (by norm_num) _
      have hexponent : exponent = ilog10 v - 16 := by simpa using hexponent
      have hmagnitude : magnitude v = v := by
        rw [round_of_pos false hv] at hround
        split at hround
        · cases hround
        · exact (Binary64.finite.inj hround).2
      have hsmall : (10 : ℚ) ^ exponent ≤ v / 10 ^ 16 := by
        rw [hexponent, zpow_sub₀ (by norm_num)]
        exact div_le_div_of_nonneg_right (ten_zpow_ilog10_le hv) (by norm_num)
      have hnonneg : 0 ≤ roundHalfEven (v / 10 ^ exponent) := by
        have hmono := roundHalfEven_mono (div_nonneg hv.le hten.le)
        rwa [← Int.cast_zero, roundHalfEven_intCast] at hmono
      have hcast : (((roundHalfEven (v / 10 ^ exponent)).toNat : ℕ) : ℚ) = roundHalfEven (v / 10 ^ exponent) := by
        exact_mod_cast Int.toNat_of_nonneg hnonneg
      dsimp only [shortestFrom]
      rw [hcast]
      have hnear : |roundHalfEven (v / 10 ^ exponent) * (10 : ℚ) ^ exponent - v| ≤ v / (2 * 10 ^ 16) := by
        have herror := abs_roundHalfEven_sub_le (v / 10 ^ exponent)
        have hsplit : roundHalfEven (v / 10 ^ exponent) * (10 : ℚ) ^ exponent - v =
            (roundHalfEven (v / 10 ^ exponent) - v / 10 ^ exponent) * 10 ^ exponent := by
          field_simp
        rw [hsplit, abs_mul, abs_of_pos hten]
        calc |(roundHalfEven (v / 10 ^ exponent) : ℚ) - v / 10 ^ exponent| * 10 ^ exponent
            ≤ 1 / 2 * 10 ^ exponent := mul_le_mul_of_nonneg_right herror hten.le
          _ ≤ 1 / 2 * (v / 10 ^ 16) := mul_le_mul_of_nonneg_left hsmall (by norm_num)
          _ = v / (2 * 10 ^ 16) := by ring
      have hpos : 0 < roundHalfEven (v / 10 ^ exponent) * (10 : ℚ) ^ exponent := by
        have hclose := abs_le.mp hnear
        have hhalf : v / (2 * 10 ^ 16) < v := div_lt_self hv (by norm_num)
        linarith
      have hsame : round false (roundHalfEven (v / 10 ^ exponent) * (10 : ℚ) ^ exponent) = round false v := by
        rw [round_of_pos false hpos, round_of_pos false hv, magnitude_eq_of_near hv hmagnitude hnear, hmagnitude]
      exact hsame.trans hround
  | succ more ih =>
      rw [shortestFrom]
      cases hdigits : digitsOf v exponent with
      | none => exact ih (exponent - 1) (by push_cast at hexponent; omega)
      | some coefficient =>
          exact digitsOf_reads hdigits

theorem shortest_reads (hv : 0 < v) (hround : round false v = .finite false v) :
    round false ((shortest v).1 * (10 : ℚ) ^ (shortest v).2) = .finite false v :=
  shortestFrom_reads hv hround 16 (ilog10 v) (by norm_num)

end

/-! ### The order of decimals -/

/-- `Decimal(str(x))` is the shortest decimal of a positive number. -/
theorem toDecimal_value {v : ℚ} (hv : 0 < v) :
    (toDecimal (.finite false v)).value = (shortest v).1 * (10 : ℚ) ^ (shortest v).2 := by
  rw [toDecimal, if_neg hv.ne', abs_of_pos hv]
  dsimp only
  split
  · rename_i hwhole
    have hpow : (10 : ℚ) ^ ((shortest v).2 + 1).toNat * (10 : ℚ) ^ (-1 : ℤ) = 10 ^ (shortest v).2 := by
      rw [← zpow_natCast, ← zpow_add₀ (by norm_num), Int.toNat_of_nonneg (by omega), add_neg_cancel_right]
    rw [Decimal.value_eq, if_neg Bool.false_ne_true]
    push_cast
    rw [mul_assoc, hpow]
  · rw [Decimal.value_eq, if_neg Bool.false_ne_true]

theorem toDecimal_isFinite {x : Binary64} (h : x.IsFinite) : x.toDecimal.IsFinite := by
  cases x with
  | finite negative value =>
      dsimp only [toDecimal]
      split
      · trivial
      · split <;> trivial
  | _ => exact h.elim

/-- A positive number of the format has no sign. -/
theorem Representable.unsigned {negative : Bool} {v : ℚ} (h : (finite negative v).Representable) (hv : 0 < v) :
    negative = false := by
  have hround : round negative v = .finite negative v := h
  rw [round_of_pos negative hv] at hround
  split at hround
  · cases hround
  · exact (Binary64.finite.inj hround).1.symm

theorem Representable.reads {x : Binary64} (h : x.Representable) (hfinite : x.IsFinite) (hpos : 0 < x) :
    round false x.toDecimal.value = x := by
  cases x with
  | finite negative v =>
      obtain rfl := h.unsigned hpos
      rw [toDecimal_value hpos]
      exact shortest_reads hpos h
  | _ => exact hfinite.elim

/-- Reading positive numbers as decimals keeps their order. -/
theorem toDecimal_mono {x y : Binary64} (hx : x.Representable) (hy : y.Representable)
    (hfinite : x.IsFinite ∧ y.IsFinite)
    (hpos : 0 < x) (h : x ≤ y) : x.toDecimal.value ≤ y.toDecimal.value := by
  by_contra hless
  have hback := round_mono false (not_le.mp hless).le
  have hposy := lt_of_lt_of_le hpos h
  rw [hx.reads hfinite.1 hpos, hy.reads hfinite.2 hposy] at hback
  -- The decimal of the larger number cannot round below that of the smaller one.
  apply hless
  cases x with
  | finite n v =>
      cases y with
      | finite m w =>
          obtain rfl := hx.unsigned hpos
          obtain rfl := hy.unsigned hposy
          obtain rfl : v = w := le_antisymm h hback
          rfl
      | _ => exact hfinite.2.elim
  | _ => exact hfinite.1.elim

end Binary64
