import Mathlib.Algebra.Order.Floor.Ring
import Mathlib.Data.Rat.Cast.Order
import Mathlib.Tactic.FieldSimp
import Mathlib.Tactic.Linarith
import Mathlib.Tactic.NormNum
import Mathlib.Tactic.Positivity
import TecoQuant.BaseBinary64

/-! Rounding to binary64 is monotone, and within half a unit of the exact value. -/

namespace Binary64

/-! ### The nearest integer -/

theorem floor_le_roundHalfEven (q : ℚ) : ⌊q⌋ ≤ roundHalfEven q := by
  unfold roundHalfEven
  dsimp only
  split_ifs <;> omega

theorem roundHalfEven_le_floor_add_one (q : ℚ) : roundHalfEven q ≤ ⌊q⌋ + 1 := by
  unfold roundHalfEven
  dsimp only
  split_ifs <;> omega

theorem abs_roundHalfEven_sub_le (q : ℚ) : |(roundHalfEven q : ℚ) - q| ≤ 1 / 2 := by
  have hle := Int.floor_le q
  have hlt := Int.lt_floor_add_one q
  unfold roundHalfEven
  dsimp only
  split_ifs <;> rw [abs_le] <;> push_cast <;> constructor <;> linarith

theorem roundHalfEven_mono {x y : ℚ} (h : x ≤ y) : roundHalfEven x ≤ roundHalfEven y := by
  rcases (Int.floor_le_floor h).eq_or_lt with heq | hlt
  · have hx := Int.floor_le x
    unfold roundHalfEven
    rw [heq]
    dsimp only
    split_ifs <;> first | omega | (exfalso; linarith)
  · calc roundHalfEven x ≤ ⌊x⌋ + 1 := roundHalfEven_le_floor_add_one x
      _ ≤ ⌊y⌋ := hlt
      _ ≤ roundHalfEven y := floor_le_roundHalfEven y

theorem roundHalfEven_intCast (n : ℤ) : roundHalfEven (n : ℚ) = n := by
  unfold roundHalfEven
  simp

/-! ### Binades -/

theorem log2_le_div {q : ℚ} (h : 0 < q) :
    (2 : ℚ) ^ ((Nat.log2 q.num.natAbs : ℤ) - Nat.log2 q.den - 1) < q ∧
      q < 2 ^ ((Nat.log2 q.num.natAbs : ℤ) - Nat.log2 q.den + 1) := by
  have hnum : 0 < q.num := Rat.num_pos.mpr h
  have habs : (q.num.natAbs : ℚ) = q.num := by
    rw [Nat.cast_natAbs, abs_of_pos hnum]
  have hne : q.num.natAbs ≠ 0 := by omega
  have hnlow : ((2 ^ Nat.log2 q.num.natAbs : ℕ) : ℚ) ≤ q.num.natAbs := Nat.cast_le.mpr (Nat.log2_self_le hne)
  have hnhigh : (q.num.natAbs : ℚ) < ((2 ^ (Nat.log2 q.num.natAbs + 1) : ℕ) : ℚ) := Nat.cast_lt.mpr Nat.lt_log2_self
  have hdlow : ((2 ^ Nat.log2 q.den : ℕ) : ℚ) ≤ q.den := Nat.cast_le.mpr (Nat.log2_self_le q.den_nz)
  have hdhigh : (q.den : ℚ) < ((2 ^ (Nat.log2 q.den + 1) : ℕ) : ℚ) := Nat.cast_lt.mpr Nat.lt_log2_self
  have hden : (0 : ℚ) < q.den := Nat.cast_pos.mpr q.den_pos
  have hq : q * q.den = q.num.natAbs := by
    rw [habs]
    exact Rat.mul_den_eq_num q
  push_cast at hnlow hnhigh hdlow hdhigh
  generalize Nat.log2 q.num.natAbs = a at hnlow hnhigh ⊢
  generalize Nat.log2 q.den = b at hdlow hdhigh ⊢
  constructor
  · rw [sub_sub, zpow_sub₀ (by norm_num), div_lt_iff₀ (zpow_pos (by norm_num) _)]
    have : q * q.den < q * 2 ^ (b + 1) := (mul_lt_mul_iff_right₀ h).mpr hdhigh
    have hpow : (2 : ℚ) ^ ((b : ℤ) + 1) = 2 ^ (b + 1) := by norm_cast
    rw [hpow, zpow_natCast]
    linarith
  · have hpow : (2 : ℚ) ^ ((a : ℤ) - b + 1) = 2 ^ (a + 1) / 2 ^ b := by
      rw [show (a : ℤ) - b + 1 = ((a + 1 : ℕ) : ℤ) - (b : ℕ) by push_cast; ring, zpow_sub₀ (by norm_num),
        zpow_natCast, zpow_natCast]
    rw [hpow, lt_div_iff₀ (by positivity)]
    have : q * 2 ^ b ≤ q * q.den := (mul_le_mul_iff_right₀ h).mpr hdlow
    linarith

/-- The binade of a positive rational. -/
theorem ilog2_spec {q : ℚ} (h : 0 < q) : (2 : ℚ) ^ ilog2 q ≤ q ∧ q < 2 ^ (ilog2 q + 1) := by
  obtain ⟨hlow, hhigh⟩ := log2_le_div h
  unfold ilog2
  dsimp only
  split_ifs with hle
  · exact ⟨hle, hhigh⟩
  · exact ⟨hlow.le, by rw [sub_add_cancel]; exact not_le.mp hle⟩

theorem ilog2_mono {x y : ℚ} (hx : 0 < x) (h : x ≤ y) : ilog2 x ≤ ilog2 y := by
  have hlow := (ilog2_spec hx).1
  have hhigh := (ilog2_spec (hx.trans_le h)).2
  have : (2 : ℚ) ^ ilog2 x < 2 ^ (ilog2 y + 1) := (hlow.trans h).trans_lt hhigh
  have := (zpow_lt_zpow_iff_right₀ (by norm_num)).mp this
  omega

theorem unit_pos (q : ℚ) : 0 < unit q := zpow_pos (by norm_num) _

/-! ### Magnitudes -/

/-- A positive rational rounded to its unit. -/
def magnitude (q : ℚ) : ℚ := roundHalfEven (q / unit q) * unit q

theorem abs_magnitude_sub_le (q : ℚ) : |magnitude q - q| ≤ unit q / 2 := by
  have hunit := unit_pos q
  have herror := abs_roundHalfEven_sub_le (q / unit q)
  have hsplit : magnitude q - q = (roundHalfEven (q / unit q) - q / unit q) * unit q := by
    unfold magnitude
    field_simp
  rw [hsplit, abs_mul, abs_of_pos hunit]
  linarith [mul_le_mul_of_nonneg_right herror hunit.le]

/-- A multiple of a smaller power of two is kept. -/
theorem magnitude_le {q bound : ℚ} {n : ℤ} (h : q ≤ bound) (hmultiple : bound = n * unit q) : magnitude q ≤ bound := by
  have hunit := unit_pos q
  have hle : q / unit q ≤ (n : ℚ) := by
    rw [div_le_iff₀ hunit]
    exact h.trans hmultiple.le
  have hround := roundHalfEven_mono hle
  rw [roundHalfEven_intCast] at hround
  rw [magnitude, hmultiple]
  exact mul_le_mul_of_nonneg_right (Int.cast_le.mpr hround) hunit.le

theorem le_magnitude {q bound : ℚ} {n : ℤ} (h : bound ≤ q) (hmultiple : bound = n * unit q) : bound ≤ magnitude q := by
  have hunit := unit_pos q
  have hle : (n : ℚ) ≤ q / unit q := by
    rw [le_div_iff₀ hunit]
    exact hmultiple.ge.trans h
  have hround := roundHalfEven_mono hle
  rw [roundHalfEven_intCast] at hround
  rw [magnitude, hmultiple]
  exact mul_le_mul_of_nonneg_right (Int.cast_le.mpr hround) hunit.le

/-- The exponent of the unit. -/
def place (q : ℚ) : ℤ := Max.max (ilog2 q - 52) (-1074)

theorem unit_eq (q : ℚ) : unit q = 2 ^ place q := rfl

theorem two_zpow_multiple {a b : ℤ} (h : b ≤ a) : ∃ n : ℤ, (2 : ℚ) ^ a = n * 2 ^ b := by
  refine ⟨2 ^ (a - b).toNat, ?_⟩
  have hcast : (((2 : ℤ) ^ (a - b).toNat : ℤ) : ℚ) = (2 : ℚ) ^ (a - b) := by
    rw [Int.cast_pow, ← zpow_natCast, Int.toNat_of_nonneg (by omega)]
    norm_num
  rw [hcast, ← zpow_add₀ (by norm_num), sub_add_cancel]

theorem magnitude_mono {x y : ℚ} (hx : 0 < x) (h : x ≤ y) : magnitude x ≤ magnitude y := by
  have hlog := ilog2_mono hx h
  rcases (show place x ≤ place y by unfold place; omega).eq_or_lt with hsame | hless
  · -- One unit for both.
    have hunit : unit x = unit y := by rw [unit_eq, unit_eq, hsame]
    rw [magnitude, magnitude, ← hunit]
    have hdiv := div_le_div_of_nonneg_right h (unit_pos x).le
    exact mul_le_mul_of_nonneg_right (Int.cast_le.mpr (roundHalfEven_mono hdiv)) (unit_pos x).le
  · -- The power of two where the binade of `y` starts is between them, and kept by both.
    have hbinade : ilog2 x + 1 ≤ ilog2 y := by
      unfold place at hless
      omega
    have hplace : place y ≤ ilog2 y ∧ place x ≤ ilog2 y := by
      unfold place at hless ⊢
      omega
    obtain ⟨m, hm⟩ := two_zpow_multiple hplace.2
    obtain ⟨n, hn⟩ := two_zpow_multiple hplace.1
    have hbelow : x ≤ 2 ^ ilog2 y :=
      (ilog2_spec hx).2.le.trans (zpow_le_zpow_right₀ (by norm_num) hbinade)
    exact (magnitude_le hbelow hm).trans (le_magnitude (ilog2_spec (hx.trans_le h)).1 hn)

theorem magnitude_nonneg {q : ℚ} (h : 0 < q) : 0 ≤ magnitude q := by
  refine le_magnitude (n := 0) h.le ?_
  simp

/-- A number of the normal range loses at most one part in `2 ^ 53`. -/
theorem abs_magnitude_sub_le_of_normal {q : ℚ} (h : 2 ^ (-1022 : ℤ) ≤ q) : |magnitude q - q| ≤ q / 2 ^ 53 := by
  have hpos : 0 < q := lt_of_lt_of_le (zpow_pos (by norm_num) _) h
  have hlog : -1022 ≤ ilog2 q := by
    have := h.trans_lt (ilog2_spec hpos).2
    have := (zpow_lt_zpow_iff_right₀ (by norm_num)).mp this
    omega
  have hunit : unit q ≤ q / 2 ^ 52 := by
    rw [unit, max_eq_left (by omega), zpow_sub₀ (by norm_num)]
    exact div_le_div_of_nonneg_right (ilog2_spec hpos).1 (by norm_num)
  have herror := abs_magnitude_sub_le q
  have hhalf : q / 2 ^ 52 / 2 = q / 2 ^ 53 := by ring
  linarith

/-! ### Rounded numbers -/

@[simp] theorem toRat_zero : (0 : Binary64).toRat = 0 := Nat.cast_zero

theorem le_trans {x y z : Binary64} (hxy : x ≤ y) (hyz : y ≤ z) : x ≤ z := by
  change Le x y at hxy
  change Le y z at hyz
  change Le x z
  cases x <;> cases y <;> cases z <;> simp only [Le] at hxy hyz ⊢ <;> grind

theorem lt_of_lt_of_le {x y z : Binary64} (hxy : x < y) (hyz : y ≤ z) : x < z := by
  change Lt x y at hxy
  change Le y z at hyz
  change Lt x z
  cases x <;> cases y <;> cases z <;> simp only [Le, Lt] at hxy hyz ⊢ <;> grind

theorem lt_of_le_of_lt {x y z : Binary64} (hxy : x ≤ y) (hyz : y < z) : x < z := by
  change Le x y at hxy
  change Lt y z at hyz
  change Lt x z
  cases x <;> cases y <;> cases z <;> simp only [Le, Lt] at hxy hyz ⊢ <;> grind

theorem round_of_pos (zeroSign : Bool) {q : ℚ} (h : 0 < q) : round zeroSign q =
    if 2 ^ 1024 ≤ magnitude q then .infinity false else .finite false (magnitude q) := by
  unfold round
  rw [if_neg h.ne', abs_of_pos h, decide_eq_false h.not_gt]
  simp only [if_neg h.not_gt]
  rfl

theorem round_of_neg (zeroSign : Bool) {q : ℚ} (h : q < 0) : round zeroSign q =
    if 2 ^ 1024 ≤ magnitude (-q) then .infinity true else .finite true (-magnitude (-q)) := by
  unfold round
  rw [if_neg h.ne, abs_of_neg h, decide_eq_true h]
  simp only [if_pos h]
  rfl

theorem round_zero (zeroSign : Bool) : round zeroSign 0 = .finite zeroSign 0 := by simp [round]

theorem zero_le_round (zeroSign negative : Bool) {q : ℚ} (h : 0 ≤ q) : .finite negative 0 ≤ round zeroSign q := by
  rcases h.eq_or_lt with rfl | hpos
  · rw [round_zero]
    exact le_refl (0 : ℚ)
  · rw [round_of_pos zeroSign hpos]
    split
    · rfl
    · exact magnitude_nonneg hpos

theorem round_le_zero (zeroSign negative : Bool) {q : ℚ} (h : q ≤ 0) : round zeroSign q ≤ .finite negative 0 := by
  rcases h.eq_or_lt with rfl | hneg
  · rw [round_zero]
    exact le_refl (0 : ℚ)
  · rw [round_of_neg zeroSign hneg]
    split
    · rfl
    · exact neg_nonpos.mpr (magnitude_nonneg (neg_pos.mpr hneg))

theorem round_mono (zeroSign : Bool) {x y : ℚ} (h : x ≤ y) : round zeroSign x ≤ round zeroSign y := by
  rcases le_or_gt x 0 with hx | hx
  · rcases le_or_gt 0 y with hy | hy
    · exact le_trans (round_le_zero zeroSign false hx) (zero_le_round zeroSign false hy)
    · have hmono := magnitude_mono (neg_pos.mpr hy) (neg_le_neg h)
      rw [round_of_neg zeroSign hy, round_of_neg zeroSign (h.trans_lt hy)]
      split
      · split
        · exact .inl rfl
        · rfl
      · rename_i hsmall
        rw [if_neg fun hlarge => hsmall (hlarge.trans hmono)]
        exact neg_le_neg hmono
  · have hmono := magnitude_mono hx h
    rw [round_of_pos zeroSign hx, round_of_pos zeroSign (hx.trans_le h)]
    split
    · rename_i hlarge
      rw [if_pos (hlarge.trans hmono)]
      exact .inr rfl
    · split
      · rfl
      · exact hmono

/-- What rounds to at most a limit exceeds it by less than one part in `2 ^ 52`. -/
theorem le_of_round_le (zeroSign : Bool) {q : ℚ} {limit : Binary64} (hnormal : 2 ^ (-1022 : ℤ) ≤ q)
    (hlimit : limit.IsFinite) (h : round zeroSign q ≤ limit) : q ≤ limit.toRat * (1 + 1 / 2 ^ 52) := by
  have hpos : 0 < q := (zpow_pos (by norm_num) _).trans_le hnormal
  have herror := (abs_le.mp (abs_magnitude_sub_le_of_normal hnormal)).1
  rw [round_of_pos zeroSign hpos] at h
  cases limit with
  | finite negative bound =>
      split at h
      · cases h
      · have h : magnitude q ≤ bound := h
        simp only [toRat]
        linarith
  | _ => exact hlimit.elim

theorem le_of_neg_le_round (zeroSign : Bool) {q : ℚ} {limit : Binary64} (hnormal : q ≤ -2 ^ (-1022 : ℤ))
    (hlimit : limit.IsFinite) (h : -limit ≤ round zeroSign q) : -q ≤ limit.toRat * (1 + 1 / 2 ^ 52) := by
  have hnormal : 2 ^ (-1022 : ℤ) ≤ -q := le_neg_of_le_neg hnormal
  have hpos : 0 < -q := (zpow_pos (by norm_num) _).trans_le hnormal
  have herror := (abs_le.mp (abs_magnitude_sub_le_of_normal hnormal)).1
  rw [round_of_neg zeroSign (neg_pos.mp hpos)] at h
  cases limit with
  | finite negative bound =>
      split at h
      · cases h
      · have h : -bound ≤ -magnitude (-q) := h
        simp only [toRat]
        linarith
  | _ => exact hlimit.elim

/-! ### Bounds that rounding keeps -/

theorem magnitude_two_zpow {e : ℤ} (h : -1074 ≤ e) : magnitude (2 ^ e) = 2 ^ e := by
  have hlog : ilog2 (2 ^ e) ≤ e :=
    (zpow_le_zpow_iff_right₀ (by norm_num)).mp (ilog2_spec (zpow_pos (by norm_num) e)).1
  obtain ⟨n, hn⟩ := two_zpow_multiple (show place (2 ^ e) ≤ e by unfold place; omega)
  exact (magnitude_le le_rfl hn).antisymm (le_magnitude le_rfl hn)

/-- A number up to one that rounds to `bound` rounds to at most it. -/
theorem toRat_round_le {q bound limit : ℚ} (hmagnitude : magnitude limit = bound) (hbound : 0 ≤ bound) (hq : 0 ≤ q)
    (h : q ≤ limit) (zeroSign : Bool) : (round zeroSign q).toRat ≤ bound := by
  rcases hq.eq_or_lt with rfl | hpos
  · rwa [round_zero]
  · rw [round_of_pos zeroSign hpos]
    split
    · exact hbound
    · exact hmagnitude ▸ magnitude_mono hpos h

/-- A number from `2 ^ e` on rounds to no less. -/
theorem le_toRat_round {q : ℚ} {e : ℤ} (he : -1074 ≤ e) (h : 2 ^ e ≤ q) {zeroSign : Bool}
    (hfinite : (round zeroSign q).IsFinite) : 2 ^ e ≤ (round zeroSign q).toRat := by
  have hpos : (0 : ℚ) < 2 ^ e := zpow_pos (by norm_num) e
  rw [round_of_pos zeroSign (hpos.trans_le h)] at hfinite ⊢
  split_ifs with hover
  · rw [if_pos hover] at hfinite
    exact hfinite.elim
  · exact magnitude_two_zpow he ▸ magnitude_mono hpos h

/-! ### Values -/

/-- The nearest number when the exponents have no upper limit. -/
def nearest (q : ℚ) : ℚ := if q < 0 then -magnitude (-q) else magnitude q

/-- What a number stands for when the exponents have no upper limit: an infinity, for a value out of range. -/
def Stands : Binary64 → ℚ → Prop
  | .finite _ value, q => value = q
  | .infinity false, q => 2 ^ 1024 ≤ q
  | .infinity true, q => q ≤ -2 ^ 1024
  | .nan, _ => False

theorem nearest_of_nonneg {q : ℚ} (h : 0 ≤ q) : nearest q = magnitude q := if_neg h.not_gt

theorem nearest_nonneg {q : ℚ} (h : 0 ≤ q) : 0 ≤ nearest q := by
  rw [nearest_of_nonneg h]
  rcases h.eq_or_lt with rfl | hpos
  · simp [magnitude, roundHalfEven]
  · exact magnitude_nonneg hpos

theorem nearest_nonpos {q : ℚ} (h : q ≤ 0) : nearest q ≤ 0 := by
  rcases h.eq_or_lt with rfl | hneg
  · simp [nearest, magnitude, roundHalfEven]
  · rw [nearest, if_pos hneg]
    exact neg_nonpos.mpr (magnitude_nonneg (neg_pos.mpr hneg))

/-- A power of two is a bound that the nearest number keeps. -/
theorem nearest_le_two_zpow {q : ℚ} {e : ℤ} (he : -1074 ≤ e) (h : q ≤ 2 ^ e) : nearest q ≤ 2 ^ e := by
  rcases le_or_gt q 0 with hneg | hpos
  · exact (nearest_nonpos hneg).trans (zpow_pos (by norm_num) e).le
  · rw [nearest_of_nonneg hpos.le]
    exact (magnitude_mono hpos h).trans_eq (magnitude_two_zpow he)

theorem two_zpow_le_nearest {q : ℚ} {e : ℤ} (he : -1074 ≤ e) (h : 2 ^ e ≤ q) : 2 ^ e ≤ nearest q := by
  have hpos : (0 : ℚ) < 2 ^ e := zpow_pos (by norm_num) e
  rw [nearest_of_nonneg (hpos.trans_le h).le]
  exact (magnitude_two_zpow he).symm.trans_le (magnitude_mono hpos h)

theorem round_stands (zeroSign : Bool) (q : ℚ) : (round zeroSign q).Stands (nearest q) := by
  rcases lt_trichotomy q 0 with hneg | rfl | hpos
  · rw [round_of_neg zeroSign hneg, nearest, if_pos hneg]
    split
    · rename_i hover
      exact neg_le_neg hover
    · rfl
  · rw [round_zero]
    exact le_antisymm (nearest_nonneg le_rfl) (nearest_nonpos le_rfl)
  · rw [round_of_pos zeroSign hpos, nearest_of_nonneg hpos.le]
    split
    · assumption
    · rfl

section Stands

variable {x y z : Binary64} {q : ℚ}

theorem Stands.toRat_eq (h : x.Stands q) (hx : x.IsFinite) : x.toRat = q := by
  cases x with
  | finite negative value => exact h
  | _ => exact hx.elim

/-- Comparing with a number in range does not tell an infinity from the value it stands for. -/
theorem Stands.lt_iff (h : x.Stands q) (hy : y.IsFinite) (hrange : |y.toRat| < 2 ^ 1024) :
    (y < x ↔ y.toRat < q) ∧ (x < y ↔ q < y.toRat) := by
  obtain ⟨hlow, hhigh⟩ := abs_lt.mp hrange
  cases y with
  | finite negative bound =>
      cases x with
      | finite negative' value =>
          obtain rfl : value = q := h
          exact ⟨Iff.rfl, Iff.rfl⟩
      | infinity negative' =>
          cases negative' with
          | false => exact ⟨iff_of_true rfl (hhigh.trans_le h), iff_of_false Bool.false_ne_true (hhigh.trans_le h).not_gt⟩
          | true =>
              have h : q ≤ -2 ^ 1024 := h
              exact ⟨iff_of_false Bool.noConfusion (h.trans_lt hlow).not_gt, iff_of_true rfl (h.trans_lt hlow)⟩
      | nan => exact h.elim
  | _ => exact hy.elim

/-- A value of at most `2 ^ 1023` is in range. -/
theorem Stands.isFinite (h : x.Stands q) (hq : |q| ≤ 2 ^ 1023) : x.IsFinite := by
  have hlt : (2 : ℚ) ^ 1023 < 2 ^ 1024 := pow_lt_pow_right₀ (by norm_num) (by norm_num)
  obtain ⟨hlow, hhigh⟩ := abs_le.mp hq
  cases x with
  | finite negative value => trivial
  | infinity negative =>
      cases negative with
      | false => exact absurd (hhigh.trans_lt hlt) (not_lt.mpr h)
      | true => exact absurd (h.trans_lt (neg_lt_neg hlt)) (not_lt.mpr hlow)
  | nan => exact h.elim

/-- Dividing by a number of `(0, 1]`: an infinity stays one. -/
theorem Stands.div {divisor : ℚ} (h : x.Stands q) (hq : 0 ≤ q) (hpos : 0 < divisor) (hone : divisor ≤ 1)
    (hz : x.div (.finite false divisor) = .ok z) : z.Stands (nearest (q / divisor)) := by
  cases x with
  | finite negative value =>
      obtain rfl : value = q := h
      rw [Binary64.div, if_neg hpos.ne'] at hz
      cases hz
      exact round_stands _ _
  | infinity negative =>
      rw [Binary64.div, if_neg hpos.ne'] at hz
      cases hz
      cases negative with
      | false =>
          have hlarge : (2 : ℚ) ^ (1024 : ℤ) ≤ q / divisor := by
            rw [le_div_iff₀ hpos]
            exact (mul_le_of_le_one_right (zpow_nonneg (by norm_num) _) hone).trans h
          exact two_zpow_le_nearest (by norm_num) hlarge
      | true => exact absurd (hq.trans h) (not_le.mpr (neg_neg_of_pos (pow_pos (by norm_num) _)))
  | nan => exact h.elim

/-- A value of `[0, 2 ^ e]` rounds within its bounds. -/
theorem round_nearest (zeroSign : Bool) {e : ℤ} (he : -1074 ≤ e ∧ e ≤ 1023) (h : 0 ≤ q) (hle : q ≤ 2 ^ e) :
    (round zeroSign q).IsFinite ∧ (round zeroSign q).toRat = nearest q ∧ 0 ≤ nearest q ∧ nearest q ≤ 2 ^ e := by
  have hstands := round_stands zeroSign q
  have hlow := nearest_nonneg h
  have hhigh := nearest_le_two_zpow he.1 hle
  have hfinite : (round zeroSign q).IsFinite := by
    refine hstands.isFinite ?_
    rw [abs_of_nonneg hlow]
    exact hhigh.trans (zpow_le_zpow_right₀ (by norm_num) he.2)
  exact ⟨hfinite, hstands.toRat_eq hfinite, hlow, hhigh⟩

theorem mul_nearest {e : ℤ} (he : -1074 ≤ e ∧ e ≤ 1023) (hx : x.IsFinite) (hy : y.IsFinite) (h : 0 ≤ x.toRat * y.toRat)
    (hle : x.toRat * y.toRat ≤ 2 ^ e) : (x.mul y).IsFinite ∧ (x.mul y).toRat = nearest (x.toRat * y.toRat) ∧
      0 ≤ nearest (x.toRat * y.toRat) ∧ nearest (x.toRat * y.toRat) ≤ 2 ^ e := by
  cases x <;> cases y <;> first | exact hx.elim | exact hy.elim | exact round_nearest _ he h hle

theorem add_nearest {e : ℤ} (he : -1074 ≤ e ∧ e ≤ 1023) (hx : x.IsFinite) (hy : y.IsFinite) (h : 0 ≤ x.toRat + y.toRat)
    (hle : x.toRat + y.toRat ≤ 2 ^ e) : (x.add y).IsFinite ∧ (x.add y).toRat = nearest (x.toRat + y.toRat) ∧
      0 ≤ nearest (x.toRat + y.toRat) ∧ nearest (x.toRat + y.toRat) ≤ 2 ^ e := by
  cases x <;> cases y <;> first | exact hx.elim | exact hy.elim | exact round_nearest _ he h hle

/-- A quotient of two integers does not overflow when it is returned. -/
theorem ofQuotient_nearest {left right : ℤ} (hright : right ≠ 0) (h : ofQuotient left right = .ok x) :
    x.IsFinite ∧ x.toRat = nearest (left / right) := by
  have hstands := round_stands false ((left : ℚ) / right)
  rw [ofQuotient, if_neg hright] at h
  cases hround : round false ((left : ℚ) / right) with
  | finite negative value =>
      rw [hround] at h hstands
      cases h
      exact ⟨trivial, hstands⟩
  | infinity negative => rw [hround] at h; cases h
  | nan => exact absurd hround (round_ne_nan _ _)

theorem min_toRat (hx : x.IsFinite) (hy : y.IsFinite) :
    (Binary64.min x y).IsFinite ∧ (Binary64.min x y).toRat = Min.min x.toRat y.toRat := by
  unfold Binary64.min
  split
  · rename_i hlt
    exact ⟨hy, (min_eq_right ((lt_iff hy hx).mp hlt).le).symm⟩
  · rename_i hlt
    exact ⟨hx, (min_eq_left (not_lt.mp (mt (lt_iff hy hx).mpr hlt))).symm⟩

theorem max_toRat (hx : x.IsFinite) (hy : y.IsFinite) :
    (Binary64.max x y).IsFinite ∧ (Binary64.max x y).toRat = Max.max x.toRat y.toRat := by
  unfold Binary64.max
  split
  · rename_i hlt
    exact ⟨hy, (max_eq_right ((lt_iff hx hy).mp hlt).le).symm⟩
  · rename_i hlt
    exact ⟨hx, (max_eq_left (not_lt.mp (mt (lt_iff hx hy).mpr hlt))).symm⟩

end Stands

end Binary64
