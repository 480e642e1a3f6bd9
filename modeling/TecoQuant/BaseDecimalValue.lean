import TecoQuant.BaseDecimalContext
import TecoQuant.BaseDecimalError

/-! The value of a rounded decimal is the rounding of its exact value, so no operation on values depends on
trailing zeros. A number with few enough digits is not rounded, and no rounding passes it. -/

theorem roundHalfEven_intCast (n : ℤ) : roundHalfEven (n : ℚ) = n := by
  simp [roundHalfEven]

theorem roundHalfEven_natCast (n : ℕ) : roundHalfEven (n : ℚ) = n := by
  exact_mod_cast roundHalfEven_intCast n

/-- Half-even rounding does not prefer a direction. -/
theorem roundHalfEven_neg (x : ℚ) : roundHalfEven (-x) = -roundHalfEven x := by
  by_cases hint : (⌊x⌋ : ℚ) = x
  · rw [← hint, ← Int.cast_neg, roundHalfEven_intCast, roundHalfEven_intCast]
  have hfloor : ⌊x⌋ < x := lt_of_le_of_ne (Int.floor_le x) hint
  have hflip : ⌊-x⌋ = -⌊x⌋ - 1 := by
    rw [Int.floor_eq_iff]
    have := Int.lt_floor_add_one x
    push_cast
    constructor <;> linarith
  have hfraction : -x - ⌊-x⌋ = 1 - (x - ⌊x⌋) := by
    rw [hflip]
    push_cast
    ring
  unfold roundHalfEven
  rw [hfraction, hflip]
  generalize x - (⌊x⌋ : ℚ) = fraction
  generalize ⌊x⌋ = whole
  rcases lt_trichotomy fraction (1 / 2) with h | h | h
  · rw [if_neg (by linarith), if_pos (by linarith), if_pos h]
    ring
  · have hhalf : ¬1 - fraction < 1 / 2 ∧ ¬1 / 2 < 1 - fraction := by constructor <;> linarith
    rw [if_neg hhalf.1, if_neg hhalf.2, if_neg h.not_lt, if_neg h.not_gt]
    split <;> split <;> omega
  · rw [if_pos (by linarith), if_neg (by linarith), if_pos h]
    ring

/-- A number of at most `digits` significant digits. -/
def Representable (digits : ℕ) (x : ℚ) : Prop := ∃ coefficient exponent : ℤ,
  |coefficient| < 10 ^ digits ∧ x = coefficient * (10 : ℚ) ^ exponent

theorem lastPlace_neg (digits : ℕ) (x : ℚ) : lastPlace digits (-x) = lastPlace digits x := by
  rw [lastPlace, lastPlace, abs_neg]

theorem roundDigits_neg (digits : ℕ) (x : ℚ) : roundDigits digits (-x) = -roundDigits digits x := by
  rw [roundDigits, roundDigits, lastPlace_neg, neg_div, roundHalfEven_neg]
  push_cast
  ring

theorem roundDigits_zero (digits : ℕ) : roundDigits digits 0 = 0 := by
  simp [roundDigits, roundHalfEven]

/-- A number that is a whole number of units in its last place is not rounded. -/
theorem roundDigits_of_multiple {digits : ℕ} {x : ℚ} {n : ℤ} (h : x = n * lastPlace digits x) :
    roundDigits digits x = x := by
  have hquotient : x / lastPlace digits x = n := by
    rw [div_eq_iff (lastPlace_pos digits x).ne']
    exact h
  rw [roundDigits, hquotient, roundHalfEven_intCast]
  exact h.symm

/-- The unit of the last place is at most the unit of the coefficient. -/
theorem log_lt_of_representable {digits : ℕ} {coefficient exponent : ℤ} (hcoefficient : |coefficient| < 10 ^ digits)
    (hne : coefficient ≠ 0) :
    Int.log 10 |(coefficient : ℚ) * 10 ^ exponent| < digits + exponent := by
  have hpos : 0 < |(coefficient : ℚ) * 10 ^ exponent| :=
    abs_pos.mpr (mul_ne_zero (by exact_mod_cast hne) (by positivity))
  rw [← Int.lt_zpow_iff_log_lt (by norm_num) hpos, abs_mul, abs_of_pos (by positivity : (0 : ℚ) < 10 ^ exponent)]
  push_cast
  rw [zpow_add₀ (by norm_num), zpow_natCast]
  exact mul_lt_mul_of_pos_right (by exact_mod_cast hcoefficient) (by positivity)

theorem roundDigits_of_representable {digits : ℕ} {x : ℚ} (h : Representable digits x) : roundDigits digits x = x := by
  obtain ⟨coefficient, exponent, hcoefficient, rfl⟩ := h
  by_cases hne : coefficient = 0
  · rw [hne, Int.cast_zero, zero_mul, roundDigits_zero]
  have hlog : Int.log 10 |(coefficient : ℚ) * 10 ^ exponent| < digits + exponent :=
    log_lt_of_representable hcoefficient hne
  set place := Int.log 10 |(coefficient : ℚ) * 10 ^ exponent| + 1 - digits with hplace
  have hlast : lastPlace digits ((coefficient : ℚ) * 10 ^ exponent) = 10 ^ place := by rw [lastPlace]
  have hsplit : (10 : ℚ) ^ exponent = 10 ^ (exponent - place).toNat * 10 ^ place := by
    rw [← zpow_natCast, Int.toNat_of_nonneg (by omega), ← zpow_add₀ (by norm_num), Int.sub_add_cancel]
  refine roundDigits_of_multiple (n := coefficient * 10 ^ (exponent - place).toNat) ?_
  rw [hlast]
  push_cast
  rw [mul_assoc, ← hsplit]

/-- Rounding does not pass a number with few enough digits. -/
theorem le_roundDigits {digits : ℕ} (hdigits : 0 < digits) {bound x : ℚ} (hbound : Representable digits bound)
    (hx : 0 < x) (h : bound ≤ x) : bound ≤ roundDigits digits x := by
  have hunit := lastPlace_pos digits x
  -- A whole number of units below `x` is below its rounding.
  have hwhole : ∀ n : ℤ, n * lastPlace digits x ≤ x → n * lastPlace digits x ≤ roundDigits digits x := by
    intro n hn
    have hfloor : n ≤ ⌊x / lastPlace digits x⌋ := Int.le_floor.mpr ((le_div_iff₀ hunit).mpr hn)
    have hround := hfloor.trans (floor_le_roundHalfEven (x / lastPlace digits x))
    exact mul_le_mul_of_nonneg_right (by exact_mod_cast hround) hunit.le
  obtain ⟨coefficient, exponent, hcoefficient, rfl⟩ := hbound
  set place := Int.log 10 |x| + 1 - digits with hplace
  have hlast : lastPlace digits x = 10 ^ place := by rw [lastPlace]
  by_cases hle : place ≤ exponent
  · have hsplit : (coefficient : ℚ) * 10 ^ exponent =
        ((coefficient * 10 ^ (exponent - place).toNat : ℤ) : ℚ) * lastPlace digits x := by
      rw [hlast]
      push_cast
      rw [mul_assoc, ← zpow_natCast, Int.toNat_of_nonneg (by omega), ← zpow_add₀ (by norm_num), Int.sub_add_cancel]
    rw [hsplit] at h ⊢
    exact hwhole _ h
  · -- A finer number is below the power of ten that `x` starts with.
    have hpower : (10 : ℚ) ^ Int.log 10 |x| ≤ x := by
      have := Int.zpow_log_le_self (b := 10) (by norm_num) (abs_pos.mpr hx.ne')
      rwa [abs_of_pos hx] at this ⊢
    have hdigit : (10 : ℚ) ^ Int.log 10 |x| = ((10 ^ (digits - 1) : ℤ) : ℚ) * lastPlace digits x := by
      rw [hlast]
      push_cast
      rw [← zpow_natCast, ← zpow_add₀ (by norm_num)]
      congr 1
      omega
    have hfine : (coefficient : ℚ) * 10 ^ exponent ≤ 10 ^ Int.log 10 |x| := by
      calc (coefficient : ℚ) * 10 ^ exponent ≤ 10 ^ digits * 10 ^ exponent :=
            mul_le_mul_of_nonneg_right (by exact_mod_cast (le_abs_self coefficient).trans hcoefficient.le) (by positivity)
        _ = (10 : ℚ) ^ (digits + exponent) := by rw [zpow_add₀ (by norm_num), zpow_natCast]
        _ ≤ 10 ^ Int.log 10 |x| := zpow_le_zpow_right₀ (by norm_num) (by omega)
    rw [hdigit] at hpower hfine
    exact hfine.trans (hwhole _ hpower)

namespace Decimal

/-! ### Rounded results -/

/-- Dropping digits is rounding a quotient. -/
theorem roundHalfEven_quotient (coefficient count : ℕ) :
    roundHalfEven ((coefficient : ℚ) / 10 ^ count) = dropDigits coefficient count := by
  have hpow : (0 : ℚ) < ((10 ^ count : ℕ) : ℚ) := by positivity
  have hcast : ((10 : ℚ) ^ count) = ((10 ^ count : ℕ) : ℚ) := by push_cast; rfl
  unfold roundHalfEven dropDigits
  rw [hcast]
  generalize 10 ^ count = unit at hpow ⊢
  have hfloor : ⌊(coefficient : ℚ) / unit⌋ = (coefficient / unit : ℕ) := by
    exact_mod_cast Rat.floor_natCast_div_natCast coefficient unit
  have hsplit : (coefficient : ℚ) / unit - (coefficient / unit : ℕ) = ((coefficient % unit : ℕ) : ℚ) / unit := by
    rw [sub_eq_iff_eq_add, div_add' _ _ _ hpow.ne', div_left_inj' hpow.ne']
    exact_mod_cast (Nat.mod_add_div' coefficient unit).symm
  rw [hfloor, Int.cast_natCast, hsplit]
  have hbelow : ((coefficient % unit : ℕ) : ℚ) / unit < 1 / 2 ↔ 2 * (coefficient % unit) < unit := by
    rw [div_lt_div_iff₀ hpow two_pos, one_mul, mul_comm]
    exact_mod_cast Iff.rfl
  have habove : 1 / 2 < ((coefficient % unit : ℕ) : ℚ) / unit ↔ unit < 2 * (coefficient % unit) := by
    rw [div_lt_div_iff₀ two_pos hpow, one_mul, mul_comm]
    exact_mod_cast Iff.rfl
  simp only [hbelow, habove]
  split
  · rfl
  · split
    · push_cast
      rfl
    · split <;> split <;> first | rfl | omega

/-- The place of the leading digit. -/
theorem log_abs_mul_zpow {coefficient : ℕ} (hne : coefficient ≠ 0) (exponent : ℤ) :
    Int.log 10 |(coefficient : ℚ) * 10 ^ exponent| = Nat.log 10 coefficient + exponent := by
  have hpos : (0 : ℚ) < coefficient * 10 ^ exponent := by positivity
  rw [abs_of_pos hpos]
  apply le_antisymm
  · rw [← Int.lt_add_one_iff, ← Int.lt_zpow_iff_log_lt (by norm_num) hpos, Nat.cast_ofNat,
      add_right_comm, zpow_add₀ (by norm_num)]
    refine mul_lt_mul_of_pos_right ?_ (by positivity)
    exact_mod_cast Nat.lt_pow_succ_log_self (b := 10) (by norm_num) coefficient
  · rw [← Int.zpow_le_iff_le_log (by norm_num) hpos, Nat.cast_ofNat, zpow_add₀ (by norm_num)]
    refine mul_le_mul_of_nonneg_right ?_ (by positivity)
    exact_mod_cast Nat.pow_log_le_self 10 hne

/-- The magnitude of a rounded result. -/
theorem fix_magnitude_eq (negative : Bool) (coefficient : ℕ) (exponent : ℤ) :
    ∃ c e, Context.default.fix negative coefficient exponent = .finite negative c e ∧
      (c : ℚ) * 10 ^ e = roundDigits 28 (coefficient * 10 ^ exponent) := by
  by_cases hdigits : numDigits coefficient ≤ 28
  · refine ⟨coefficient, exponent, by simp [Context.fix, Context.default, hdigits], ?_⟩
    refine (roundDigits_of_representable ⟨coefficient, exponent, ?_, by push_cast; rfl⟩).symm
    rw [Nat.abs_cast]
    exact_mod_cast (numDigits_le_iff (by norm_num)).mp hdigits
  set count := numDigits coefficient - 28 with hcount
  have hne : coefficient ≠ 0 := by
    rintro rfl
    simp [numDigits] at hdigits
  have hlog := log_abs_mul_zpow hne exponent
  have hplace : lastPlace 28 ((coefficient : ℚ) * 10 ^ exponent) = 10 ^ (exponent + count) := by
    rw [lastPlace, hlog]
    congr 1
    rw [hcount, numDigits] at *
    omega
  -- Both branches denote the rounded coefficient at the raised exponent.
  have hrounded : (dropDigits coefficient count : ℚ) * 10 ^ (exponent + count) =
      roundDigits 28 (coefficient * 10 ^ exponent) := by
    have hquotient : (coefficient : ℚ) * 10 ^ exponent / 10 ^ (exponent + count) = coefficient / 10 ^ count := by
      rw [zpow_add₀ (by norm_num), zpow_natCast]
      field_simp
    rw [roundDigits, hplace, hquotient, roundHalfEven_quotient]
    push_cast
    rfl
  by_cases hfits : numDigits (dropDigits coefficient count) ≤ 28
  · exact ⟨_, _, by simp [Context.fix, Context.default, hdigits, ← hcount, hfits], hrounded⟩
  · refine ⟨dropDigits coefficient count / 10, exponent + count + 1,
      by simp [Context.fix, Context.default, hdigits, ← hcount, hfits], ?_⟩
    have hcarry : ((dropDigits coefficient count / 10 : ℕ) : ℚ) * 10 = dropDigits coefficient count := by
      exact_mod_cast dropDigits_carry hfits hdigits
    rw [zpow_add_one₀ (by norm_num), mul_comm ((10 : ℚ) ^ (exponent + (count : ℤ))), ← mul_assoc, hcarry]
    exact hrounded

/-- The value of a rounded result depends on the exact value only. -/
theorem fix_value (negative : Bool) (coefficient : ℕ) (exponent : ℤ) :
    (Context.default.fix negative coefficient exponent).value =
      roundDigits 28 (finite negative coefficient exponent).value := by
  obtain ⟨c, e, hfix, hvalue⟩ := fix_magnitude_eq negative coefficient exponent
  rw [hfix, value_eq, value_eq]
  cases negative
  · rw [if_neg Bool.false_ne_true, if_neg Bool.false_ne_true, hvalue]
  · rw [if_pos rfl, if_pos rfl, hvalue, roundDigits_neg]

section Operations

variable {left right : Decimal}

/-- Only a number has a value. -/
theorem isFinite_of_pos {d : Decimal} (h : 0 < d.value) : d.IsFinite := by
  cases d with
  | finite negative coefficient exponent => trivial
  | _ => exact absurd h (lt_irrefl _)

/-- A sum is one rounding of a number with the exact value. -/
theorem add_eq_fix (ctx : Context) (hleft : left.IsFinite) (hright : right.IsFinite) :
    ∃ negative coefficient exponent, add ctx left right = ctx.fix negative coefficient exponent ∧
      (finite negative coefficient exponent).value = left.value + right.value := by
  cases left with
  | finite n₁ c₁ e₁ =>
      cases right with
      | finite n₂ c₂ e₂ =>
          have hexact := signed_value
            (signedAt n₁ c₁ (e₁ - min e₁ e₂).toNat + signedAt n₂ c₂ (e₂ - min e₁ e₂).toNat) (n₁ && n₂) (min e₁ e₂)
          rw [Int.cast_add, add_mul, signedAt_value n₁ c₁ (min_le_left _ _),
            signedAt_value n₂ c₂ (min_le_right _ _), ← Bool.and_assoc] at hexact
          exact ⟨_, _, _, rfl, hexact⟩
      | _ => exact hright.elim
  | _ => exact hleft.elim

theorem flip_isFinite {d : Decimal} (h : d.IsFinite) : d.flip.IsFinite := by
  cases d <;> exact h

theorem sub_eq_add_flip (ctx : Context) (left : Decimal) (hright : right.IsFinite) :
    sub ctx left right = add ctx left right.flip := by
  cases right with
  | finite n₂ c₂ e₂ => rfl
  | _ => exact hright.elim

/-- A product is one rounding of a number with the exact value. -/
theorem mul_eq_fix (ctx : Context) (hleft : left.IsFinite) (hright : right.IsFinite) :
    ∃ negative coefficient exponent, mul ctx left right = ctx.fix negative coefficient exponent ∧
      (finite negative coefficient exponent).value = left.value * right.value := by
  cases left with
  | finite n₁ c₁ e₁ =>
      cases right with
      | finite n₂ c₂ e₂ =>
          refine ⟨_, _, _, rfl, ?_⟩
          rw [value_eq, value_eq, value_eq, zpow_add₀ (by norm_num)]
          cases n₁ <;> cases n₂ <;> push_cast <;> simp <;> ring
      | _ => exact hright.elim
  | _ => exact hleft.elim

theorem add_value (hleft : left.IsFinite) (hright : right.IsFinite) :
    (add .default left right).value = roundDigits 28 (left.value + right.value) := by
  obtain ⟨_, _, _, hfix, hvalue⟩ := add_eq_fix .default hleft hright
  rw [hfix, fix_value, hvalue]

theorem add_isFinite (hleft : left.IsFinite) (hright : right.IsFinite) : (add .default left right).IsFinite := by
  obtain ⟨_, _, _, hfix, -⟩ := add_eq_fix .default hleft hright
  rw [hfix]
  exact fix_isFinite _ _ _

theorem sub_value (hleft : left.IsFinite) (hright : right.IsFinite) :
    (sub .default left right).value = roundDigits 28 (left.value - right.value) := by
  rw [sub_eq_add_flip .default left hright, add_value hleft (flip_isFinite hright), flip_value, sub_eq_add_neg]

theorem sub_isFinite (hleft : left.IsFinite) (hright : right.IsFinite) : (sub .default left right).IsFinite := by
  rw [sub_eq_add_flip .default left hright]
  exact add_isFinite hleft (flip_isFinite hright)

theorem mul_value (hleft : left.IsFinite) (hright : right.IsFinite) :
    (mul .default left right).value = roundDigits 28 (left.value * right.value) := by
  obtain ⟨_, _, _, hfix, hvalue⟩ := mul_eq_fix .default hleft hright
  rw [hfix, fix_value, hvalue]

theorem neg_isFinite {d : Decimal} (h : d.IsFinite) : (neg .default d).IsFinite := by
  cases d with
  | finite negative coefficient exponent => exact fix_isFinite _ _ _
  | _ => exact h.elim

theorem neg_value {d : Decimal} (h : d.IsFinite) : (neg .default d).value = roundDigits 28 (-d.value) := by
  cases d with
  | finite negative coefficient exponent =>
      rw [neg, fix_value, value_eq, value_eq]
      rcases Nat.eq_zero_or_pos coefficient with rfl | hpos
      · simp
      · have hne : (coefficient != 0) = true := by simpa using hpos.ne'
        cases negative <;> simp [hne]
  | _ => exact h.elim

theorem shiftDown_isFinite {d : Decimal} (h : d.IsFinite) (places : ℕ) : (shiftDown .default places d).IsFinite := by
  cases d with
  | finite negative coefficient exponent => exact fix_isFinite _ _ _
  | _ => exact h.elim

theorem absolute_value {d : Decimal} (h : d.IsFinite) : (absolute .default d).value = roundDigits 28 |d.value| := by
  cases d with
  | finite negative coefficient exponent =>
      rw [absolute, fix_value, abs_value, value_eq]
      rfl
  | _ => exact h.elim

/-! In the exact context nothing is rounded. -/

theorem add_exact (hleft : left.IsFinite) (hright : right.IsFinite) :
    (add .exact left right).IsFinite ∧ (add .exact left right).value = left.value + right.value := by
  obtain ⟨_, _, _, hfix, hvalue⟩ := add_eq_fix .exact hleft hright
  rw [hfix]
  exact ⟨trivial, hvalue⟩

theorem sub_exact (hleft : left.IsFinite) (hright : right.IsFinite) :
    (sub .exact left right).IsFinite ∧ (sub .exact left right).value = left.value - right.value := by
  rw [sub_eq_add_flip .exact left hright, sub_eq_add_neg, ← flip_value]
  exact add_exact hleft (flip_isFinite hright)

theorem mul_exact (hleft : left.IsFinite) (hright : right.IsFinite) :
    (mul .exact left right).IsFinite ∧ (mul .exact left right).value = left.value * right.value := by
  obtain ⟨_, _, _, hfix, hvalue⟩ := mul_eq_fix .exact hleft hright
  rw [hfix]
  exact ⟨trivial, hvalue⟩

theorem sum_exact {terms : List Decimal} (h : ∀ d ∈ terms, d.IsFinite) :
    (sum .exact terms).value = (terms.map value).sum := by
  have hfold : ∀ (terms : List Decimal) (total : Decimal), total.IsFinite → (∀ d ∈ terms, d.IsFinite) →
      (terms.foldl (add .exact) total).value = total.value + (terms.map value).sum := by
    intro terms
    induction terms with
    | nil => simp
    | cons first rest ih =>
        intro total htotal hterms
        obtain ⟨hfinite, hvalue⟩ := add_exact htotal (hterms first List.mem_cons_self)
        rw [List.foldl_cons, ih _ hfinite fun d hd => hterms d (List.mem_cons_of_mem _ hd), hvalue,
          List.map_cons, List.sum_cons, add_assoc]
  rw [sum, hfold terms 0 trivial h, value_zero, zero_add]

/-- A number is divided by any that is not zero. -/
theorem divide_returns (hleft : left.IsFinite) (hright : right.IsFinite) (hne : right.value ≠ 0) :
    ∃ quotient, divide left right = .ok quotient := by
  cases left with
  | finite n₁ c₁ e₁ =>
      cases right with
      | finite n₂ c₂ e₂ =>
          have hc₂ : c₂ ≠ 0 := by
            rintro rfl
            exact hne (by simp [value_eq])
          rw [divide, if_neg hc₂]
          split
          · exact ⟨_, rfl⟩
          · exact ⟨_, rfl⟩
      | _ => exact hright.elim
  | _ => exact hleft.elim

end Operations
end Decimal
