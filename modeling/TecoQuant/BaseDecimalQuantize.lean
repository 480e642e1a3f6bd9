import TecoQuant.BaseDecimalValue

/-! Rounding half-even against integer bounds, and `quantize`: a fixed number of fraction digits, rounded
half-even, as long as the coefficient fits the precision. -/

/-- A rounded number is at least an integer when it is past the midpoint below it; the midpoint itself rounds
to the even neighbour. -/
theorem le_roundHalfEven_iff {n : ℤ} {x : ℚ} : n ≤ roundHalfEven x ↔ n - 1 / 2 < x ∨ x = n - 1 / 2 ∧ Even n := by
  have hle := Int.floor_le x
  have hlt := Int.lt_floor_add_one x
  have hcast : ∀ m : ℤ, n ≤ m ↔ (n : ℚ) ≤ m := fun m => Int.cast_le.symm
  unfold roundHalfEven
  rcases lt_trichotomy (x - ⌊x⌋) (1 / 2) with hbelow | hmid | habove
  · rw [if_pos hbelow]
    constructor
    · intro h
      have := (hcast _).mp h
      exact .inl (by linarith)
    · rintro (h | ⟨h, -⟩)
      all_goals
        by_contra hnot
        have : ((⌊x⌋ + 1 : ℤ) : ℚ) ≤ n := by exact_mod_cast not_le.mp hnot
        push_cast at this
        linarith
  · rw [if_neg hmid.not_lt, if_neg hmid.not_gt]
    have hx : x = ⌊x⌋ + 1 / 2 := by linarith
    have hstrict : (n : ℚ) - 1 / 2 < x ↔ n ≤ ⌊x⌋ := by
      constructor
      · intro h
        have : (n : ℚ) < ((⌊x⌋ + 1 : ℤ) : ℚ) := by push_cast; linarith
        have := Int.cast_lt.mp this
        omega
      · intro h
        have := (hcast _).mp h
        linarith
    have hsame : x = n - 1 / 2 ↔ n = ⌊x⌋ + 1 := by
      constructor
      · intro h
        have : (n : ℚ) = ((⌊x⌋ + 1 : ℤ) : ℚ) := by push_cast; linarith
        exact Int.cast_inj.mp this
      · intro h
        have : (n : ℚ) = ((⌊x⌋ + 1 : ℤ) : ℚ) := by exact_mod_cast h
        push_cast at this
        linarith
    rw [hstrict, hsame]
    split
    · rename_i heven
      constructor
      · exact .inl
      · rintro (h | ⟨rfl, hn⟩)
        · exact h
        · exact absurd hn (by rw [Int.even_iff]; omega)
    · rename_i hodd
      constructor
      · intro h
        by_cases hle : n ≤ ⌊x⌋
        · exact .inl hle
        · exact .inr ⟨by omega, by rw [Int.even_iff]; omega⟩
      · rintro (h | ⟨rfl, -⟩)
        · omega
        · exact le_rfl
  · rw [if_neg (by linarith), if_pos habove]
    constructor
    · intro h
      have : (n : ℚ) ≤ ((⌊x⌋ + 1 : ℤ) : ℚ) := (hcast _).mp h
      push_cast at this
      exact .inl (by linarith)
    · rintro (h | ⟨h, -⟩)
      all_goals
        have : (n : ℚ) < ((⌊x⌋ + 2 : ℤ) : ℚ) := by push_cast; linarith
        have := Int.cast_lt.mp this
        omega

/-- The same from above. -/
theorem roundHalfEven_le_iff {n : ℤ} {x : ℚ} : roundHalfEven x ≤ n ↔ x < n + 1 / 2 ∨ x = n + 1 / 2 ∧ Even n := by
  have h := le_roundHalfEven_iff (n := -n) (x := -x)
  rw [roundHalfEven_neg, neg_le_neg_iff, even_neg] at h
  rw [h]
  push_cast
  refine or_congr ⟨fun h => by linarith, fun h => by linarith⟩ (and_congr_left' ⟨fun h => by linarith, fun h => by linarith⟩)

namespace Decimal

/-- The coefficient `quantize` keeps. -/
def scaled (places : ℕ) (coefficient : ℕ) (exponent : ℤ) : ℕ :=
  if -(places : ℤ) ≤ exponent then coefficient * 10 ^ (exponent + places).toNat
  else dropDigits coefficient (-(places : ℤ) - exponent).toNat

theorem scaled_eq (places coefficient : ℕ) (exponent : ℤ) :
    (scaled places coefficient exponent : ℤ) = roundHalfEven (coefficient * 10 ^ exponent * 10 ^ places) := by
  unfold scaled
  split
  · rename_i hle
    have hexact : (coefficient : ℚ) * 10 ^ exponent * 10 ^ places =
        ((coefficient * 10 ^ (exponent + places).toNat : ℕ) : ℚ) := by
      push_cast
      rw [← zpow_natCast (10 : ℚ) (exponent + places).toNat, Int.toNat_of_nonneg (by omega),
        zpow_add₀ (by norm_num), zpow_natCast, mul_assoc]
    rw [hexact, roundHalfEven_natCast]
  · rename_i hlt
    have hquotient : (coefficient : ℚ) * 10 ^ exponent * 10 ^ places =
        coefficient / 10 ^ (-(places : ℤ) - exponent).toNat := by
      rw [div_eq_mul_inv, mul_assoc, ← zpow_natCast (10 : ℚ) places, ← zpow_add₀ (by norm_num),
        ← zpow_natCast (10 : ℚ) (-(places : ℤ) - exponent).toNat, Int.toNat_of_nonneg (by omega), ← zpow_neg]
      congr 2
      ring
    rw [hquotient, roundHalfEven_quotient]

/-- `quantize` returns when the rounded coefficient has at most 28 digits. -/
theorem quantize_isSome_iff {d : Decimal} (hd : d.IsFinite) (places : ℕ) :
    (quantize .default places d).isSome ↔ |d.value * 10 ^ places| < 10 ^ 28 - 1 / 2 := by
  cases d with
  | finite negative coefficient exponent =>
      have habs : |(finite negative coefficient exponent).value * 10 ^ places| =
          coefficient * 10 ^ exponent * 10 ^ places := by
        rw [abs_mul, abs_value, abs_of_pos (by positivity : (0 : ℚ) < 10 ^ places)]
      have hreturns : (quantize .default places (finite negative coefficient exponent)).isSome ↔
          scaled places coefficient exponent < 10 ^ 28 := by
        rw [← numDigits_le_iff (by norm_num)]
        by_cases hfits : numDigits (scaled places coefficient exponent) ≤ 28
        · exact iff_of_true (Option.isSome_iff_exists.mpr ⟨_, if_pos hfits⟩) hfits
        · refine iff_of_false (fun h => ?_) hfits
          obtain ⟨quantized, hquantized⟩ := Option.isSome_iff_exists.mp h
          cases (if_neg hfits).symm.trans hquantized
      have hbound := le_roundHalfEven_iff (n := 10 ^ 28) (x := (coefficient : ℚ) * 10 ^ exponent * 10 ^ places)
      rw [← scaled_eq] at hbound
      rw [hreturns, habs, ← not_iff_not, not_lt, not_lt]
      constructor
      · intro h
        rcases hbound.mp (by exact_mod_cast h) with hlt | ⟨heq, -⟩
        · exact (by exact_mod_cast hlt.le)
        · exact (by exact_mod_cast heq.ge)
      · intro h
        have : ((10 ^ 28 : ℤ) : ℤ) ≤ (scaled places coefficient exponent : ℤ) := by
          refine hbound.mpr ?_
          rcases h.lt_or_eq with hlt | heq
          · exact .inl (by exact_mod_cast hlt)
          · exact .inr ⟨by exact_mod_cast heq.symm, by decide⟩
        exact_mod_cast this
  | _ => exact hd.elim

/-- What `quantize` returns is the value rounded half-even to the fraction digits. -/
theorem quantize_eq_some {d quantized : Decimal} {places : ℕ} (h : quantize .default places d = some quantized) :
    quantized.IsFinite ∧ quantized.value = roundHalfEven (d.value * 10 ^ places) / 10 ^ places := by
  cases d with
  | finite negative coefficient exponent =>
      obtain rfl : finite negative (scaled places coefficient exponent) (-places) = quantized := by
        by_cases hfits : numDigits (scaled places coefficient exponent) ≤ 28
        · exact Option.some.inj ((if_pos hfits).symm.trans h)
        · cases (if_neg hfits).symm.trans h
      refine ⟨trivial, ?_⟩
      have hrounded : ((scaled places coefficient exponent : ℕ) : ℚ) =
          roundHalfEven (coefficient * 10 ^ exponent * 10 ^ places) := by
        exact_mod_cast scaled_eq places coefficient exponent
      rw [value_eq, value_eq, hrounded, zpow_neg, zpow_natCast, div_eq_mul_inv]
      cases negative with
      | true =>
          rw [if_pos rfl, if_pos rfl, neg_mul, roundHalfEven_neg]
          push_cast
          ring
      | false => rw [if_neg Bool.false_ne_true, if_neg Bool.false_ne_true]
  | _ => cases h

end Decimal
