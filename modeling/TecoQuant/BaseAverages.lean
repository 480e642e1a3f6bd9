import Mathlib.Algebra.Order.BigOperators.Group.List
import Mathlib.Algebra.Order.Field.Basic
import Mathlib.Data.List.MinMax
import Mathlib.Tactic.FieldSimp
import Mathlib.Tactic.Linarith
import Mathlib.Tactic.Ring

/-! Averages over an ordered field: weighted means, and the recursion that moves an average a part of the way to
each new value. Both stay between bounds of what they average. -/

namespace Average

variable {K : Type*} [Field K] [LinearOrder K] [IsStrictOrderedRing K]

/-! ### Weighted means -/

section Mean

variable {entries : List (K × K)} {values : List K} {low high : K}

/-- The sum of weights times values. -/
def weightedSum (entries : List (K × K)) : K := (entries.map fun entry => entry.1 * entry.2).sum

def totalWeight (entries : List (K × K)) : K := (entries.map Prod.fst).sum

theorem le_weightedSum (hweights : ∀ entry ∈ entries, 0 ≤ entry.1)
    (h : ∀ entry ∈ entries, 0 < entry.1 → low ≤ entry.2) :
    totalWeight entries * low ≤ weightedSum entries := by
  induction entries with
  | nil => simp [totalWeight, weightedSum]
  | cons entry entries ih =>
      have hrest := ih (fun other hother => hweights other (List.mem_cons_of_mem _ hother))
        fun other hother => h other (List.mem_cons_of_mem _ hother)
      have hterm : entry.1 * low ≤ entry.1 * entry.2 := by
        rcases (hweights entry List.mem_cons_self).eq_or_lt with hzero | hpos
        · rw [← hzero, zero_mul, zero_mul]
        · exact mul_le_mul_of_nonneg_left (h entry List.mem_cons_self hpos) hpos.le
      simp only [totalWeight, weightedSum, List.map_cons, List.sum_cons] at hrest ⊢
      linarith

theorem weightedSum_le (hweights : ∀ entry ∈ entries, 0 ≤ entry.1)
    (h : ∀ entry ∈ entries, 0 < entry.1 → entry.2 ≤ high) :
    weightedSum entries ≤ totalWeight entries * high := by
  induction entries with
  | nil => simp [totalWeight, weightedSum]
  | cons entry entries ih =>
      have hrest := ih (fun other hother => hweights other (List.mem_cons_of_mem _ hother))
        fun other hother => h other (List.mem_cons_of_mem _ hother)
      have hterm : entry.1 * entry.2 ≤ entry.1 * high := by
        rcases (hweights entry List.mem_cons_self).eq_or_lt with hzero | hpos
        · rw [← hzero, zero_mul, zero_mul]
        · exact mul_le_mul_of_nonneg_left (h entry List.mem_cons_self hpos) hpos.le
      simp only [totalWeight, weightedSum, List.map_cons, List.sum_cons] at hrest ⊢
      linarith

/-- A weighted mean lies between bounds of the values that have a weight. -/
theorem weightedMean_mem_Icc (hpos : 0 < totalWeight entries) (hweights : ∀ entry ∈ entries, 0 ≤ entry.1)
    (h : ∀ entry ∈ entries, 0 < entry.1 → entry.2 ∈ Set.Icc low high) :
    weightedSum entries / totalWeight entries ∈ Set.Icc low high := by
  constructor
  · rw [le_div_iff₀ hpos, mul_comm]
    exact le_weightedSum hweights fun entry hentry hweight => (h entry hentry hweight).1
  · rw [div_le_iff₀ hpos, mul_comm]
    exact weightedSum_le hweights fun entry hentry hweight => (h entry hentry hweight).2

/-- The mean of equal weights. -/
theorem mean_mem_Icc (hne : values ≠ []) (h : ∀ x ∈ values, x ∈ Set.Icc low high) :
    values.sum / values.length ∈ Set.Icc low high := by
  have hcount : (0 : K) < values.length := by exact_mod_cast List.length_pos_iff.mpr hne
  have hlow := List.card_nsmul_le_sum values low fun x hx => (h x hx).1
  have hhigh := List.sum_le_card_nsmul values high fun x hx => (h x hx).2
  rw [nsmul_eq_mul] at hlow hhigh
  constructor
  · rwa [le_div_iff₀ hcount, mul_comm]
  · rwa [div_le_iff₀ hcount, mul_comm]

end Mean

/-! ### Smoothing -/

section Smooth

variable {part current low high : K} {values : List K}

/-- Move a part of the way to each value in turn. -/
def smooth (part current : K) (values : List K) : K :=
  values.foldl (fun current value => value * part + current * (1 - part)) current

omit [LinearOrder K] [IsStrictOrderedRing K] in
theorem smooth_cons (value : K) :
    smooth part current (value :: values) = smooth part (value * part + current * (1 - part)) values := rfl

theorem smooth_mem_Icc (hpart : 0 ≤ part) (hpart' : part ≤ 1) (hcurrent : current ∈ Set.Icc low high)
    (h : ∀ x ∈ values, x ∈ Set.Icc low high) : smooth part current values ∈ Set.Icc low high := by
  induction values generalizing current with
  | nil => exact hcurrent
  | cons value values ih =>
      obtain ⟨hlow, hhigh⟩ := h value List.mem_cons_self
      obtain ⟨hlow', hhigh'⟩ := hcurrent
      rw [smooth_cons]
      refine ih ⟨?_, ?_⟩ fun x hx => h x (List.mem_cons_of_mem _ hx)
      · nlinarith [mul_le_mul_of_nonneg_right hlow hpart, mul_le_mul_of_nonneg_right hlow' (sub_nonneg.mpr hpart')]
      · nlinarith [mul_le_mul_of_nonneg_right hhigh hpart, mul_le_mul_of_nonneg_right hhigh' (sub_nonneg.mpr hpart')]

omit [LinearOrder K] [IsStrictOrderedRing K] in
/-- The whole way leads to the last value. -/
theorem smooth_one (hne : values ≠ []) : smooth 1 current values = values.getLast hne := by
  induction values generalizing current with
  | nil => exact absurd rfl hne
  | cons value values ih =>
      rw [smooth_cons]
      cases values with
      | nil => simp [smooth]
      | cons next values => rw [ih (List.cons_ne_nil _ _), List.getLast_cons (List.cons_ne_nil _ _)]

/-- A part of the way forgets nothing: it smooths to zero only what is zero throughout. -/
theorem smooth_eq_zero (hpart : 0 < part) (hpart' : part < 1) (hcurrent : 0 ≤ current) (h : ∀ x ∈ values, 0 ≤ x)
    (hzero : smooth part current values = 0) : current = 0 ∧ ∀ x ∈ values, x = 0 := by
  induction values generalizing current with
  | nil => exact ⟨hzero, fun _ h => (nomatch h)⟩
  | cons value values ih =>
      have hvalue := h value List.mem_cons_self
      have hnew := mul_nonneg hvalue hpart.le
      have hold := mul_nonneg hcurrent (sub_pos.mpr hpart').le
      rw [smooth_cons] at hzero
      obtain ⟨hnext, hrest⟩ := ih (add_nonneg hnew hold) (fun x hx => h x (List.mem_cons_of_mem _ hx)) hzero
      have hnewZero : value * part = 0 := by linarith
      have holdZero : current * (1 - part) = 0 := by linarith
      have hvalueZero := (mul_eq_zero.mp hnewZero).resolve_right hpart.ne'
      refine ⟨(mul_eq_zero.mp holdZero).resolve_right (sub_pos.mpr hpart').ne', fun x hx => ?_⟩
      rcases List.mem_cons.mp hx with rfl | hx
      · exact hvalueZero
      · exact hrest x hx

end Smooth

/-! ### Extremes -/

/-- A number between the least of some values and the greatest of others. -/
def Between (lows highs : List K) (x : K) : Prop :=
  ∃ low ∈ lows, ∃ high ∈ highs, (∀ y ∈ lows, low ≤ y) ∧ (∀ y ∈ highs, y ≤ high) ∧ x ∈ Set.Icc low high

omit [Field K] [IsStrictOrderedRing K] in
theorem between_of_bounds {lows highs : List K} {x : K} (hlows : lows ≠ []) (hhighs : highs ≠ [])
    (h : ∀ low high, (∀ y ∈ lows, low ≤ y) → (∀ y ∈ highs, y ≤ high) → x ∈ Set.Icc low high) : Between lows highs x := by
  have hleast := fun y hy => List.minimum_of_length_pos_le_of_mem (a := y) hy (List.length_pos_iff.mpr hlows)
  have hmost := fun y hy => List.le_maximum_of_length_pos_of_mem (a := y) hy (List.length_pos_iff.mpr hhighs)
  exact ⟨_, List.minimum_of_length_pos_mem _, _, List.maximum_of_length_pos_mem _, hleast, hmost, h _ _ hleast hmost⟩

end Average
