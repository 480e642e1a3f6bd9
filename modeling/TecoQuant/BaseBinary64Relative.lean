import Mathlib.Data.Real.Basic
import TecoQuant.BaseBinary64Rounding

/-! The relative error of computations with non-negative binary64 numbers. In the normal range one rounding keeps a
number up to the factor `1 - 1 / 2 ^ 53`, and a computation of `k` roundings up to its power. -/

namespace Binary64

/-- What one rounding keeps of a number. -/
noncomputable def kept : ℝ := 1 - 1 / 2 ^ 53

theorem kept_pos : 0 < kept := by
  unfold kept
  norm_num

theorem kept_le_one : kept ≤ 1 := by
  unfold kept
  norm_num

theorem kept_pow_mono {k l : Nat} (h : k ≤ l) : kept ^ l ≤ kept ^ k := pow_le_pow_of_le_one kept_pos.le kept_le_one h

/-- Zero, or a number of the normal range well below the largest. -/
def Normal (q : ℚ) : Prop := q = 0 ∨ 2 ^ (-1022 : ℤ) ≤ q ∧ q ≤ 2 ^ 1023

/-- A float within `k` roundings of a real number, neither of them negative. -/
structure Near (k : Nat) (x : Binary64) (a : ℝ) : Prop where
  finite : x.IsFinite
  nonneg : 0 ≤ x.toRat
  lower : a * kept ^ k ≤ x.toRat
  upper : x.toRat * kept ^ k ≤ a

variable {k l m : Nat} {x y : Binary64} {a b : ℝ} {q : ℚ}

theorem Near.real_nonneg (h : Near k x a) : 0 ≤ a :=
  (mul_nonneg (by exact_mod_cast h.nonneg) (pow_nonneg kept_pos.le k)).trans h.upper

theorem Near.mono (h : Near k x a) (hle : k ≤ l) : Near l x a where
  finite := h.finite
  nonneg := h.nonneg
  lower := (mul_le_mul_of_nonneg_left (kept_pow_mono hle) h.real_nonneg).trans h.lower
  upper := (mul_le_mul_of_nonneg_left (kept_pow_mono hle) (by exact_mod_cast h.nonneg)).trans h.upper

theorem near_zero : Near k 0 0 where
  finite := trivial
  nonneg := by simp
  lower := by simp
  upper := by simp

/-- One more rounding. -/
theorem near_round (hnormal : Normal q) (hlower : a * kept ^ k ≤ q) (hupper : q * kept ^ k ≤ a) (zeroSign : Bool) :
    Near (k + 1) (round zeroSign q) a := by
  rcases hnormal with rfl | ⟨hsmall, hlarge⟩
  · rw [round_zero]
    rw [Rat.cast_zero] at hlower hupper
    refine ⟨trivial, le_rfl, ?_, ?_⟩
    · rw [pow_succ, ← mul_assoc, toRat, Rat.cast_zero]
      exact mul_nonpos_of_nonpos_of_nonneg hlower kept_pos.le
    · simpa [toRat] using hupper
  · have hpos : 0 < q := (zpow_pos (by norm_num) _).trans_le hsmall
    obtain ⟨hbelow, habove⟩ := abs_le.mp (abs_magnitude_sub_le_of_normal hsmall)
    have hrange : ¬2 ^ 1024 ≤ magnitude q := by
      intro hover
      have hstep : q / 2 ^ 53 < q := div_lt_self hpos (by norm_num)
      have hdouble : magnitude q < 2 * q := by linarith only [habove, hstep]
      rw [pow_succ'] at hover
      exact (hdouble.trans_le (mul_le_mul_of_nonneg_left hlarge (by norm_num))).not_ge hover
    have hreal : (0 : ℝ) < q := by exact_mod_cast hpos
    have hkeeps : (q : ℝ) * kept ≤ magnitude q := by
      have hcast : ((q - q / 2 ^ 53 : ℚ) : ℝ) ≤ (magnitude q : ℝ) := by
        rw [Rat.cast_le]
        linarith
      push_cast at hcast
      rw [kept]
      linarith
    have hkept : (magnitude q : ℝ) * kept ≤ q := by
      have hcast : (magnitude q : ℝ) ≤ ((q + q / 2 ^ 53 : ℚ) : ℝ) := by
        rw [Rat.cast_le]
        linarith
      push_cast at hcast
      have hmul := mul_le_mul_of_nonneg_right hcast kept_pos.le
      have hsquare : ((q : ℝ) + q / 2 ^ 53) * kept = q - q * (1 / 2 ^ 53) ^ 2 := by
        rw [kept]
        ring
      have hdrop : (0 : ℝ) ≤ q * (1 / 2 ^ 53) ^ 2 := mul_nonneg hreal.le (sq_nonneg _)
      linarith
    rw [round_of_pos zeroSign hpos, if_neg hrange]
    refine ⟨trivial, magnitude_nonneg hpos, ?_, ?_⟩
    · calc a * kept ^ (k + 1) = a * kept ^ k * kept := by ring
        _ ≤ q * kept := mul_le_mul_of_nonneg_right hlower kept_pos.le
        _ ≤ magnitude q := hkeeps
    · calc (magnitude q : ℝ) * kept ^ (k + 1) = magnitude q * kept * kept ^ k := by ring
        _ ≤ q * kept ^ k := mul_le_mul_of_nonneg_right hkept (pow_nonneg kept_pos.le k)
        _ ≤ a := hupper

theorem Near.add (hx : Near k x a) (hy : Near l y b) (hk : k ≤ m) (hl : l ≤ m)
    (hnormal : Normal (x.toRat + y.toRat)) : Near (m + 1) (x.add y) (a + b) := by
  obtain ⟨hfinite, -, hlower, hupper⟩ := hx.mono hk
  obtain ⟨hfinite', -, hlower', hupper'⟩ := hy.mono hl
  cases x with
  | finite n p =>
      cases y with
      | finite n' p' =>
          simp only [toRat] at hlower hupper hlower' hupper' hnormal
          refine near_round hnormal ?_ ?_ (n && n')
          · rw [Rat.cast_add, add_mul]
            exact add_le_add hlower hlower'
          · rw [Rat.cast_add, add_mul]
            exact add_le_add hupper hupper'
      | _ => exact hfinite'.elim
  | _ => exact hfinite.elim

theorem Near.eq_zero (h : Near k x a) (hle : x.toRat ≤ 0) : a = 0 := by
  refine le_antisymm ?_ h.real_nonneg
  have hlower := h.lower
  rw [le_antisymm hle h.nonneg, Rat.cast_zero] at hlower
  exact nonpos_of_mul_nonpos_left hlower (pow_pos kept_pos k)

theorem Near.div (hx : Near k x a) (hy : Near l y b) (hpos : 0 < y.toRat) (hnormal : Normal (x.toRat / y.toRat)) :
    ∃ z, x.div y = .ok z ∧ Near (k + l + 1) z (a / b) := by
  have ha : 0 ≤ a := hx.real_nonneg
  obtain ⟨hfinite, -, hlower, hupper⟩ := hx
  obtain ⟨hfinite', -, hlower', hupper'⟩ := hy
  have hreal : (0 : ℝ) < y.toRat := by exact_mod_cast hpos
  have hb : 0 < b := (mul_pos hreal (pow_pos kept_pos l)).trans_le hupper'
  cases x with
  | finite n p =>
      cases y with
      | finite n' p' =>
          simp only [toRat] at hlower hupper hlower' hupper' hnormal hpos hreal
          refine ⟨round (n != n') (p / p'), if_neg hpos.ne', near_round hnormal ?_ ?_ (n != n')⟩
          · have hinverse : kept ^ l / b ≤ 1 / p' := by
              rw [div_le_div_iff₀ hb hreal]
              linarith
            calc a / b * kept ^ (k + l) = a * kept ^ k * (kept ^ l / b) := by ring
              _ ≤ a * kept ^ k * (1 / p') := mul_le_mul_of_nonneg_left hinverse
                  (mul_nonneg ha (pow_nonneg kept_pos.le k))
              _ ≤ p * (1 / p') := mul_le_mul_of_nonneg_right hlower (by positivity)
              _ = ((p / p' : ℚ) : ℝ) := by
                  push_cast
                  ring
          · have hinverse : kept ^ l / p' ≤ 1 / b := by
              rw [div_le_div_iff₀ hreal hb]
              linarith
            calc ((p / p' : ℚ) : ℝ) * kept ^ (k + l) = p * kept ^ k * (kept ^ l / p') := by
                  push_cast
                  ring
              _ ≤ a * (kept ^ l / p') := mul_le_mul_of_nonneg_right hupper
                  (div_nonneg (pow_nonneg kept_pos.le l) hreal.le)
              _ ≤ a * (1 / b) := mul_le_mul_of_nonneg_left hinverse ha
              _ = a / b := by ring
      | _ => exact hfinite'.elim
  | _ => exact hfinite.elim

end Binary64
