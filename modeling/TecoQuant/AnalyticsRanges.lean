import Mathlib.Data.Rat.Cast.Order
import TecoQuant.AnalyticsValues
import TecoQuant.BaseAverages

/-! The ranges of the indicators in exact arithmetic. Each is an average of prices or of movements, so it stays
between bounds of what it averages. -/

namespace TecoQuant.Analytics

/-! ### In exact arithmetic -/

section Exact

variable {values : List ℚ} {period : Nat} {low high : ℚ}

theorem divideIn_exact {x y : ℚ} (h : y ≠ 0) : divideIn .exact x y = .ok (x / y) := by
  rw [divideIn, DecimalContext.div, if_neg h]
  rfl

theorem smoothIn_exact (alpha current : ℚ) :
    smoothIn .exact alpha current values = Average.smooth alpha current values :=
  rfl

theorem wilderIn_exact (hperiod : 0 < period) (current : ℚ) :
    wilderIn .exact period current values = .ok (Average.smooth (1 / period) current values) := by
  have hne : (period : ℚ) ≠ 0 := by exact_mod_cast hperiod.ne'
  induction values generalizing current with
  | nil => rfl
  | cons value values ih =>
      have hstep : (current * ((period - 1 : Int) : ℚ) + value) / period =
          value * (1 / period) + current * (1 - 1 / period) := by
        push_cast
        field_simp
        ring
      rw [wilderIn, List.foldlM_cons, DecimalContext.exact_add, DecimalContext.exact_mul, divideIn_exact hne, ok_bind,
        hstep, Average.smooth_cons]
      exact ih _

theorem wilderAverageIn_exact (hperiod : 0 < period) :
    wilderAverageIn .exact period values =
      .ok (Average.smooth (1 / period) ((values.take period).sum / period) (values.drop period)) := by
  have hne : (period : ℚ) ≠ 0 := by exact_mod_cast hperiod.ne'
  rw [wilderAverageIn, DecimalContext.exact_sum, divideIn_exact hne, ok_bind, wilderIn_exact hperiod]

/-- The average of the first values lies between bounds of the values. -/
theorem seed_mem_Icc (hperiod : 0 < period) (hcount : period ≤ values.length) (h : ∀ x ∈ values, x ∈ Set.Icc low high) :
    (values.take period).sum / period ∈ Set.Icc low high := by
  have hlength : (values.take period).length = period := by rw [List.length_take, Nat.min_eq_left hcount]
  have hne : values.take period ≠ [] := by
    apply List.ne_nil_of_length_pos
    omega
  have hmean := Average.mean_mem_Icc hne fun x hx => h x (List.mem_of_mem_take hx)
  rwa [hlength] at hmean

theorem wilderAverageIn_mem_Icc {x : ℚ} (hperiod : 0 < period) (hcount : period ≤ values.length)
    (h : ∀ x ∈ values, x ∈ Set.Icc low high) (hx : wilderAverageIn .exact period values = .ok x) :
    x ∈ Set.Icc low high := by
  have hpart : (1 : ℚ) / period ≤ 1 := by
    rw [div_le_one (by exact_mod_cast hperiod)]
    exact_mod_cast hperiod
  rw [wilderAverageIn_exact hperiod] at hx
  rw [← Except.ok.inj hx]
  exact Average.smooth_mem_Icc (by positivity) hpart (seed_mem_Icc hperiod hcount h) fun x hx =>
    h x (List.mem_of_mem_drop hx)

theorem wilderAverageIn_nonneg {x : ℚ} (hperiod : 0 < period) (hcount : period ≤ values.length)
    (h : ∀ x ∈ values, 0 ≤ x) (hx : wilderAverageIn .exact period values = .ok x) : 0 ≤ x := by
  have hbounds : ∀ y ∈ values, y ∈ Set.Icc 0 values.sum := fun y hy => ⟨h y hy, List.single_le_sum h y hy⟩
  exact (wilderAverageIn_mem_Icc hperiod hcount hbounds hx).1

theorem wilderAverageIn_of_zero {x : ℚ} (hperiod : 0 < period) (hcount : period ≤ values.length)
    (h : ∀ x ∈ values, x = 0) (hx : wilderAverageIn .exact period values = .ok x) : x = 0 := by
  have hbounds : ∀ y ∈ values, y ∈ Set.Icc 0 (0 : ℚ) := fun y hy => ⟨(h y hy).ge, (h y hy).le⟩
  have hzero := wilderAverageIn_mem_Icc hperiod hcount hbounds hx
  exact le_antisymm hzero.2 hzero.1

/-- From a period of two on the average weighs every value. -/
theorem wilderAverageIn_eq_zero (hperiod : 2 ≤ period) (h : ∀ x ∈ values, 0 ≤ x)
    (hx : wilderAverageIn .exact period values = .ok 0) : ∀ x ∈ values, x = 0 := by
  have hpos : (0 : ℚ) < period := by exact_mod_cast (show 0 < period by omega)
  have hfirst : ∀ x ∈ values.take period, 0 ≤ x := fun x hx => h x (List.mem_of_mem_take hx)
  have hpart : (1 : ℚ) / period < 1 := by
    rw [div_lt_one hpos]
    exact_mod_cast hperiod
  rw [wilderAverageIn_exact (by omega)] at hx
  obtain ⟨hseed, hrest⟩ := Average.smooth_eq_zero (by positivity) hpart
    (div_nonneg (List.sum_nonneg hfirst) hpos.le) (fun x hx => h x (List.mem_of_mem_drop hx)) (Except.ok.inj hx)
  have hsum : (values.take period).sum = 0 := (div_eq_zero_iff.mp hseed).resolve_right hpos.ne'
  intro x hx
  rw [← List.take_append_drop period values, List.mem_append] at hx
  rcases hx with hx | hx
  · exact List.all_zero_of_le_zero_le_of_sum_eq_zero hfirst hsum hx
  · exact hrest x hx

/-- A period of one leaves the last value. -/
theorem wilderAverageIn_one {x : ℚ} (hne : values ≠ []) (hx : wilderAverageIn .exact 1 values = .ok x) :
    x = values.getLast hne := by
  rw [wilderAverageIn_exact one_pos] at hx
  rw [← Except.ok.inj hx]
  obtain ⟨first, rest, rfl⟩ := List.exists_cons_of_ne_nil hne
  cases rest with
  | nil =>
      show ([first].take 1).sum / ((1 : Nat) : ℚ) = first
      rw [List.take_one, List.head?_cons, Nat.cast_one, div_one]
      exact List.sum_singleton
  | cons next rest =>
      simp only [Nat.cast_one, div_one, List.drop_one, List.tail_cons]
      rw [Average.smooth_one (List.cons_ne_nil next rest), List.getLast_cons (List.cons_ne_nil next rest)]

end Exact

/-! ### Closes and ranges -/

section Prices

variable {selected : List Candle}

def closesOf (selected : List Candle) : List ℚ := selected.map fun candle => candle.closing.value

theorem changesIn_length (closes : List ℚ) : (changesIn .exact closes).length = closes.length - 1 := by
  induction closes with
  | nil => rfl
  | cons previous closes ih =>
      cases closes with
      | nil => rfl
      | cons current rest =>
          rw [changesIn, List.length_cons, ih]
          rfl

theorem changesIn_constant {closes : List ℚ} {close : ℚ} (h : ∀ x ∈ closes, x = close) :
    ∀ change ∈ changesIn .exact closes, change = 0 := by
  induction closes with
  | nil => exact fun _ h => nomatch h
  | cons previous closes ih =>
      cases closes with
      | nil => exact fun _ h => nomatch h
      | cons current rest =>
          intro change hchange
          rcases List.mem_cons.mp hchange with rfl | hchange
          · rw [h previous List.mem_cons_self, h current (List.mem_cons_of_mem _ List.mem_cons_self)]
            exact sub_self close
          · exact ih (fun x hx => h x (List.mem_cons_of_mem _ hx)) change hchange

theorem gainsIn_nonneg (closes : List ℚ) : ∀ x ∈ gainsIn .exact closes, 0 ≤ x := by
  intro x hx
  obtain ⟨change, -, rfl⟩ := List.mem_map.mp hx
  exact le_max_right change 0

theorem lossesIn_nonneg (closes : List ℚ) : ∀ x ∈ lossesIn .exact closes, 0 ≤ x := by
  intro x hx
  obtain ⟨change, -, rfl⟩ := List.mem_map.mp hx
  exact le_max_right (-change) 0

theorem gainsIn_length (closes : List ℚ) : (gainsIn .exact closes).length = closes.length - 1 := by
  rw [gainsIn, List.length_map, changesIn_length]

theorem lossesIn_length (closes : List ℚ) : (lossesIn .exact closes).length = closes.length - 1 := by
  rw [lossesIn, List.length_map, changesIn_length]

theorem trueRangeIn_nonneg (candle : Candle) (previousClose : Option ℚ) :
    0 ≤ trueRangeIn .exact candle previousClose := by
  have hheight : 0 ≤ candle.high.value - candle.low.value :=
    sub_nonneg.mpr (Decimal.le_iff.mp candle.valid.high_most.2.2)
  cases previousClose with
  | none => exact hheight
  | some close => exact le_max_of_le_left (le_max_of_le_left hheight)

theorem trueRangesIn_length (previousClose : Option ℚ) :
    (trueRangesIn .exact previousClose selected).length = selected.length := by
  induction selected generalizing previousClose with
  | nil => rfl
  | cons candle rest ih => rw [trueRangesIn, List.length_cons, List.length_cons, ih]

theorem trueRangesIn_nonneg (previousClose : Option ℚ) : ∀ x ∈ trueRangesIn .exact previousClose selected, 0 ≤ x := by
  induction selected generalizing previousClose with
  | nil => exact fun _ h => nomatch h
  | cons candle rest ih =>
      intro x hx
      rcases List.mem_cons.mp hx with rfl | hx
      · exact trueRangeIn_nonneg candle previousClose
      · exact ih _ x hx

end Prices

/-! ### The indicators -/

section Indicators

variable (candles : List Candle) (period : Int) (asOf : Option Datetime) {x : ℚ}

theorem emaIn_between (h : emaIn .exact candles period asOf = .ok (some x)) :
    ∃ selected, completed candles asOf = .ok selected ∧ Average.Between (closesOf selected) (closesOf selected) x := by
  unfold emaIn at h
  rcases hselected : completed candles asOf with fault | selected
  · rw [hselected] at h
    cases h
  rcases hperiod : checkPeriod period with fault | count
  · rw [hselected, hperiod] at h
    cases h
  have hpos := checkPeriod_pos hperiod
  have hcast : (0 : ℚ) < count := by exact_mod_cast hpos
  simp only [hselected, hperiod, ok_bind] at h
  split at h
  · cases h
  rename_i hcount
  rw [DecimalContext.exact_sum, divideIn_exact hcast.ne', ok_bind, divideIn_exact (by positivity), ok_bind,
    smoothIn_exact] at h
  obtain rfl := Option.some.inj (Except.ok.inj h)
  have hpart : (2 : ℚ) / (count + 1 : Nat) ≤ 1 := by
    rw [div_le_one (by positivity)]
    exact_mod_cast (show 2 ≤ count + 1 by omega)
  have hcloses : closesOf selected ≠ [] := by
    apply List.ne_nil_of_length_pos
    exact lt_of_lt_of_le hpos (not_lt.mp hcount)
  refine ⟨selected, rfl, Average.between_of_bounds hcloses hcloses fun low high hlow hhigh => ?_⟩
  have hbounds : ∀ y ∈ closesOf selected, y ∈ Set.Icc low high := fun y hy => ⟨hlow y hy, hhigh y hy⟩
  exact Average.smooth_mem_Icc (by positivity) hpart (seed_mem_Icc hpos (not_lt.mp hcount) hbounds) fun y hy =>
    hbounds y (List.mem_of_mem_drop hy)

/-- The candles that a weighted average of the period looks at. -/
def windowOf (selected : List Candle) (count : Nat) : List Candle := selected.drop (selected.length - count)

/-- The weights one, two, three and so on add up to the triangular number. -/
theorem weights_sum {α : Type} (window : List α) (first : Nat) :
    ((window.zipIdx first).map fun entry => ((entry.2 + 1 : Nat) : ℚ)).sum * 2 =
      window.length * (window.length + 1 + 2 * first) := by
  induction window generalizing first with
  | nil => simp
  | cons a window ih =>
      rw [List.zipIdx_cons, List.map_cons, List.sum_cons, add_mul, ih, List.length_cons]
      push_cast
      ring

theorem triangle_eq (count : Nat) : ((count * (count + 1) / 2 : Nat) : ℚ) * 2 = count * (count + 1) := by
  have heven := Nat.div_mul_cancel (Nat.even_mul_succ_self count).two_dvd
  exact_mod_cast heven

theorem wmaIn_between (h : wmaIn .exact candles period asOf = .ok (some x)) :
    ∃ selected, completed candles asOf = .ok selected ∧
      Average.Between (closesOf (windowOf selected period.toNat)) (closesOf (windowOf selected period.toNat)) x := by
  unfold wmaIn at h
  rcases hperiod : checkPeriod period with fault | count
  · rw [hperiod] at h
    cases h
  rcases hselected : completed candles asOf with fault | selected
  · rw [hselected, hperiod] at h
    cases h
  have hpos := checkPeriod_pos hperiod
  have hcount : period.toNat = count := checkPeriod_toNat hperiod
  simp only [hselected, hperiod, ok_bind] at h
  split at h
  · cases h
  rename_i henough
  set window := selected.drop (selected.length - count) with hwindow
  have hlength : window.length = count := by
    rw [hwindow, List.length_drop]
    omega
  set entries : List (ℚ × ℚ) :=
    window.zipIdx.map fun entry => (((entry.2 + 1 : Nat) : ℚ), entry.1.closing.value) with hentries
  have hweights : ∀ entry ∈ entries, (0 : ℚ) ≤ entry.1 := by
    intro entry hentry
    obtain ⟨position, -, rfl⟩ := List.mem_map.mp hentry
    exact Nat.cast_nonneg _
  have htriangle : Average.totalWeight entries = ((count * (count + 1) / 2 : Nat) : ℚ) := by
    have hsum := weights_sum window 0
    have htotal : Average.totalWeight entries = (window.zipIdx.map fun entry => ((entry.2 + 1 : Nat) : ℚ)).sum := by
      rw [Average.totalWeight, hentries, List.map_map]
      rfl
    rw [hlength, Nat.cast_zero, mul_zero, add_zero, ← triangle_eq] at hsum
    rw [htotal]
    exact mul_right_cancel₀ two_ne_zero hsum
  have hnumerator : (window.zipIdx.map fun entry => entry.1.closing.value * ((entry.2 + 1 : Nat) : ℚ)).sum =
      Average.weightedSum entries := by
    rw [Average.weightedSum, hentries, List.map_map]
    congr 2
    funext entry
    exact mul_comm _ _
  have hpositive : 0 < count * (count + 1) / 2 := by
    have htwo : 2 ≤ count * (count + 1) := by nlinarith
    exact Nat.div_pos htwo (by decide)
  have htotal : 0 < Average.totalWeight entries := by
    rw [htriangle]
    exact_mod_cast hpositive
  simp only [DecimalContext.exact_sum, DecimalContext.exact_mul] at h
  rw [hnumerator, ← htriangle, divideIn_exact htotal.ne', ok_bind] at h
  obtain rfl := Option.some.inj (Except.ok.inj h)
  have hcloses : closesOf window ≠ [] := by
    apply List.ne_nil_of_length_pos
    rw [closesOf, List.length_map, hlength]
    exact hpos
  refine ⟨selected, rfl, ?_⟩
  rw [hcount]
  refine Average.between_of_bounds hcloses hcloses fun low high hlow hhigh => ?_
  refine Average.weightedMean_mem_Icc htotal hweights fun entry hentry _ => ?_
  obtain ⟨position, hposition, rfl⟩ := List.mem_map.mp hentry
  have hclose : position.1.closing.value ∈ closesOf window :=
    List.mem_map_of_mem (List.fst_mem_of_mem_zipIdx hposition)
  exact ⟨hlow _ hclose, hhigh _ hclose⟩

/-- The candles with volume. -/
def traded (selected : List Candle) : List Candle := selected.filter (0 < ·.volume.value)

theorem vwapIn_between (h : vwapIn .exact candles asOf = .ok (some x)) :
    ∃ selected, completed candles asOf = .ok selected ∧
      Average.Between ((traded selected).map (·.low.value)) ((traded selected).map (·.high.value)) x := by
  unfold vwapIn at h
  rcases hselected : completed candles asOf with fault | selected
  · rw [hselected] at h
    cases h
  simp only [hselected, ok_bind] at h
  split at h
  · cases h
  rename_i hvolume
  set entries : List (ℚ × ℚ) := selected.map fun candle =>
    (candle.volume.value, (candle.high.value + candle.low.value + candle.closing.value) / 3) with hentries
  have hterms : (selected.mapM fun candle => do
      let typical ← divideIn .exact (DecimalContext.exact.add
        (DecimalContext.exact.add candle.high.value candle.low.value) candle.closing.value) 3
      return DecimalContext.exact.mul typical candle.volume.value) =
      .ok (selected.map fun candle =>
        candle.volume.value * ((candle.high.value + candle.low.value + candle.closing.value) / 3)) := by
    clear hselected hvolume h hentries entries
    induction selected with
    | nil => rfl
    | cons candle rest ih =>
        rw [List.mapM_cons, ih, divideIn_exact (by norm_num), DecimalContext.exact_add, DecimalContext.exact_add, ok_bind,
          List.map_cons, mul_comm]
        rfl
  have hweights : ∀ entry ∈ entries, (0 : ℚ) ≤ entry.1 := by
    intro entry hentry
    obtain ⟨candle, -, rfl⟩ := List.mem_map.mp hentry
    exact (Decimal.le_iff.mp candle.valid.volume_nonneg).trans_eq' Decimal.value_zero
  have hvolumes : (selected.map fun candle => candle.volume.value).sum = Average.totalWeight entries := by
    rw [Average.totalWeight, hentries, List.map_map]
    rfl
  have hsum : (selected.map fun candle =>
      candle.volume.value * ((candle.high.value + candle.low.value + candle.closing.value) / 3)).sum =
      Average.weightedSum entries := by
    rw [Average.weightedSum, hentries, List.map_map]
    rfl
  rw [DecimalContext.exact_sum, hvolumes] at hvolume h
  have hnonneg : 0 ≤ Average.totalWeight entries := by
    apply List.sum_nonneg
    intro weight hweight
    obtain ⟨entry, hentry, rfl⟩ := List.mem_map.mp hweight
    exact hweights entry hentry
  have htotal := lt_of_le_of_ne hnonneg (Ne.symm hvolume)
  rw [hterms, ok_bind, DecimalContext.exact_sum, hsum, divideIn_exact hvolume, ok_bind] at h
  obtain rfl := Option.some.inj (Except.ok.inj h)
  have htraded : traded selected ≠ [] := by
    intro hnone
    apply hvolume
    apply List.sum_eq_zero
    intro weight hweight
    obtain ⟨entry, hentry, rfl⟩ := List.mem_map.mp hweight
    obtain ⟨candle, hcandle, rfl⟩ := List.mem_map.mp hentry
    have hidle := List.filter_eq_nil_iff.mp hnone candle hcandle
    exact le_antisymm (not_lt.mp fun hlt => hidle (decide_eq_true hlt)) (hweights _ hentry)
  refine ⟨selected, rfl, Average.between_of_bounds (by simpa using htraded) (by simpa using htraded)
    fun low high hlow hhigh => ?_⟩
  refine Average.weightedMean_mem_Icc htotal hweights fun entry hentry hweight => ?_
  obtain ⟨candle, hcandle, rfl⟩ := List.mem_map.mp hentry
  have hmem : candle ∈ traded selected := List.mem_filter.mpr ⟨hcandle, decide_eq_true hweight⟩
  have hleast := hlow _ (List.mem_map_of_mem hmem)
  have hmost := hhigh _ (List.mem_map_of_mem hmem)
  have hclose := Decimal.le_iff.mp candle.valid.high_most.2.1
  have hclose' := Decimal.le_iff.mp candle.valid.low_least.2.1
  have hheight := Decimal.le_iff.mp candle.valid.high_most.2.2
  constructor
  · show low ≤ (candle.high.value + candle.low.value + candle.closing.value) / 3
    linarith
  · show (candle.high.value + candle.low.value + candle.closing.value) / 3 ≤ high
    linarith

/-- The index of a relative strength, below a hundred and above fifty when the gains outweigh the losses. -/
theorem strength_range {gain loss : ℚ} (hgain : 0 ≤ gain) (hloss : 0 < loss) :
    100 - 100 / (1 + gain / loss) ∈ Set.Icc (0 : ℚ) 100 ∧ (50 < 100 - 100 / (1 + gain / loss) ↔ loss < gain) := by
  have htotal : 0 < loss + gain := by linarith
  have hshare : 100 / (1 + gain / loss) = 100 * loss / (loss + gain) := by
    field_simp
  have hlow : 0 ≤ 100 * loss / (loss + gain) := by positivity
  have hhigh : 100 * loss / (loss + gain) ≤ 100 := by
    rw [div_le_iff₀ htotal]
    linarith
  rw [hshare]
  refine ⟨⟨by linarith, by linarith⟩, ?_⟩
  calc 50 < 100 - 100 * loss / (loss + gain) ↔ 100 * loss / (loss + gain) < 50 := by
        constructor <;> intro h <;> linarith
    _ ↔ 100 * loss < 50 * (loss + gain) := div_lt_iff₀ htotal
    _ ↔ loss < gain := by constructor <;> intro h <;> linarith

theorem wilderRsiIn_range (h : wilderRsiIn .exact candles period asOf = .ok (some x)) :
    ∃ selected gain loss, completed candles asOf = .ok selected ∧
      wilderAverageIn .exact period.toNat (gainsIn .exact (closesOf selected)) = .ok gain ∧
      wilderAverageIn .exact period.toNat (lossesIn .exact (closesOf selected)) = .ok loss ∧
      x ∈ Set.Icc 0 100 ∧ ((∀ y ∈ closesOf selected, ∀ z ∈ closesOf selected, y = z) → x = 50) ∧
      (50 < x ↔ loss < gain) := by
  unfold wilderRsiIn at h
  rcases hperiod : checkPeriod period with fault | count
  · rw [hperiod] at h
    cases h
  rcases hselected : completed candles asOf with fault | selected
  · rw [hselected, hperiod] at h
    cases h
  have hpos := checkPeriod_pos hperiod
  have hcount : period.toNat = count := checkPeriod_toNat hperiod
  simp only [hselected, hperiod, ok_bind] at h
  split at h
  · cases h
  rename_i henough
  have hlength : (closesOf selected).length = selected.length := List.length_map _
  have hgains : count ≤ (gainsIn .exact (closesOf selected)).length := by
    rw [gainsIn_length, hlength]
    omega
  have hlosses : count ≤ (lossesIn .exact (closesOf selected)).length := by
    rw [lossesIn_length, hlength]
    omega
  obtain ⟨gain, hgain⟩ : ∃ gain, wilderAverageIn .exact count (gainsIn .exact (closesOf selected)) = .ok gain :=
    ⟨_, wilderAverageIn_exact hpos⟩
  obtain ⟨loss, hloss⟩ : ∃ loss, wilderAverageIn .exact count (lossesIn .exact (closesOf selected)) = .ok loss :=
    ⟨_, wilderAverageIn_exact hpos⟩
  have hgainNonneg := wilderAverageIn_nonneg hpos hgains (gainsIn_nonneg _) hgain
  have hlossNonneg := wilderAverageIn_nonneg hpos hlosses (lossesIn_nonneg _) hloss
  have hconstant (hsame : ∀ y ∈ closesOf selected, ∀ z ∈ closesOf selected, y = z) : gain = 0 ∧ loss = 0 := by
    have hne : closesOf selected ≠ [] := by
      apply List.ne_nil_of_length_pos
      omega
    have hchanges := changesIn_constant fun y hy => hsame y hy _ (List.head_mem hne)
    constructor
    · refine wilderAverageIn_of_zero hpos hgains (fun y hy => ?_) hgain
      obtain ⟨change, hchange, rfl⟩ := List.mem_map.mp hy
      rw [hchanges change hchange, max_self]
    · refine wilderAverageIn_of_zero hpos hlosses (fun y hy => ?_) hloss
      obtain ⟨change, hchange, rfl⟩ := List.mem_map.mp hy
      rw [hchanges change hchange, neg_zero, DecimalContext.exact_round, max_self]
  refine ⟨selected, gain, loss, rfl, hcount ▸ hgain, hcount ▸ hloss, ?_⟩
  rw [← closesOf, hgain, ok_bind, hloss, ok_bind] at h
  by_cases hzero : loss = 0
  · rw [if_pos hzero] at h
    obtain rfl := Option.some.inj (Except.ok.inj h)
    rw [hzero]
    by_cases hidle : gain = 0
    · rw [if_pos hidle, hidle]
      exact ⟨⟨by norm_num, by norm_num⟩, fun _ => rfl, by simp⟩
    · rw [if_neg hidle]
      refine ⟨⟨by norm_num, by norm_num⟩, fun hsame => absurd (hconstant hsame).1 hidle, ?_⟩
      exact iff_of_true (by norm_num) (lt_of_le_of_ne hgainNonneg (Ne.symm hidle))
  · have hpositive := lt_of_le_of_ne hlossNonneg (Ne.symm hzero)
    have hdivisor : 1 + gain / loss ≠ 0 := by positivity
    rw [if_neg hzero, divideIn_exact hzero, ok_bind, DecimalContext.exact_add, divideIn_exact hdivisor, ok_bind,
      DecimalContext.exact_sub] at h
    obtain rfl := Option.some.inj (Except.ok.inj h)
    obtain ⟨hrange, habove⟩ := strength_range hgainNonneg hpositive
    exact ⟨hrange, fun hsame => absurd (hconstant hsame).2 hzero, habove⟩

theorem atrIn_range (h : atrIn .exact candles period asOf = .ok (some x)) :
    ∃ selected, completed candles asOf = .ok selected ∧
      Average.Between [0] (trueRangesIn .exact none selected) x ∧
      (2 ≤ period → x = 0 → ∀ range ∈ trueRangesIn .exact none selected, range = 0) ∧
      (period = 1 → (trueRangesIn .exact none selected).getLast? = some x) := by
  unfold atrIn at h
  rcases hperiod : checkPeriod period with fault | count
  · rw [hperiod] at h
    cases h
  rcases hselected : completed candles asOf with fault | selected
  · rw [hselected, hperiod] at h
    cases h
  have hpos := checkPeriod_pos hperiod
  have hcount : period.toNat = count := checkPeriod_toNat hperiod
  simp only [hselected, hperiod, ok_bind] at h
  split at h
  · cases h
  rename_i henough
  have hlength : (trueRangesIn .exact none selected).length = selected.length := trueRangesIn_length none
  have hranges : count ≤ (trueRangesIn .exact none selected).length := by omega
  have hnonneg : ∀ range ∈ trueRangesIn .exact none selected, 0 ≤ range := trueRangesIn_nonneg none
  have hne : trueRangesIn .exact none selected ≠ [] := by
    apply List.ne_nil_of_length_pos
    omega
  obtain ⟨average, haverage⟩ : ∃ average, wilderAverageIn .exact count (trueRangesIn .exact none selected) = .ok average :=
    ⟨_, wilderAverageIn_exact hpos⟩
  rw [haverage, ok_bind] at h
  obtain rfl := Option.some.inj (Except.ok.inj h)
  refine ⟨selected, rfl, ?_, fun htwo hzero => ?_, fun hone => ?_⟩
  · refine Average.between_of_bounds (List.cons_ne_nil 0 []) hne fun low high hlow hhigh => ?_
    have hbounds : ∀ y ∈ trueRangesIn .exact none selected, y ∈ Set.Icc low high := fun y hy =>
      ⟨(hlow 0 List.mem_cons_self).trans (hnonneg y hy), hhigh y hy⟩
    exact wilderAverageIn_mem_Icc hpos hranges hbounds haverage
  · rw [hzero] at haverage
    exact wilderAverageIn_eq_zero (by omega) hnonneg haverage
  · have hcountOne : count = 1 := by omega
    rw [hcountOne] at haverage
    rw [wilderAverageIn_one hne haverage, List.getLast?_eq_some_getLast hne]

/-- Every indicator that returns a number returns one in its range. -/
theorem indicator_ranges :
    (emaIn .exact candles period asOf = .ok (some x) → ∃ selected, completed candles asOf = .ok selected ∧
      Average.Between (closesOf selected) (closesOf selected) x) ∧
    (wmaIn .exact candles period asOf = .ok (some x) → ∃ selected, completed candles asOf = .ok selected ∧
      Average.Between (closesOf (windowOf selected period.toNat)) (closesOf (windowOf selected period.toNat)) x) ∧
    (vwapIn .exact candles asOf = .ok (some x) → ∃ selected, completed candles asOf = .ok selected ∧
      Average.Between ((traded selected).map (·.low.value)) ((traded selected).map (·.high.value)) x) ∧
    (wilderRsiIn .exact candles period asOf = .ok (some x) →
      ∃ selected gain loss, completed candles asOf = .ok selected ∧
        wilderAverageIn .exact period.toNat (gainsIn .exact (closesOf selected)) = .ok gain ∧
        wilderAverageIn .exact period.toNat (lossesIn .exact (closesOf selected)) = .ok loss ∧
        x ∈ Set.Icc 0 100 ∧ ((∀ y ∈ closesOf selected, ∀ z ∈ closesOf selected, y = z) → x = 50) ∧
        (50 < x ↔ loss < gain)) ∧
    (atrIn .exact candles period asOf = .ok (some x) → ∃ selected, completed candles asOf = .ok selected ∧
      Average.Between [0] (trueRangesIn .exact none selected) x ∧
      (2 ≤ period → x = 0 → ∀ range ∈ trueRangesIn .exact none selected, range = 0) ∧
      (period = 1 → (trueRangesIn .exact none selected).getLast? = some x)) :=
  ⟨emaIn_between candles period asOf, wmaIn_between candles period asOf, vwapIn_between candles asOf,
    wilderRsiIn_range candles period asOf, atrIn_range candles period asOf⟩

/-- Three candles of which the second rises and the third falls. -/
def moving : List Candle :=
  [{ start := .utc 0, ending := .utc 60000000, opening := 10, high := 11, low := 9, closing := 10, volume := 5,
      completed := true, valid := by decide +kernel },
    { start := .utc 60000000, ending := .utc 120000000, opening := 10, high := 14, low := 10, closing := 12,
      volume := 10, completed := true, valid := by decide +kernel },
    { start := .utc 120000000, ending := .utc 180000000, opening := 12, high := 12, low := 11, closing := 11,
      volume := 5, completed := true, valid := by decide +kernel }]

theorem indicator_ranges_moving :
    Average.Between (closesOf moving) (closesOf moving) 11 ∧
      Average.Between (closesOf (windowOf moving 2)) (closesOf (windowOf moving 2)) (34 / 3) ∧
      Average.Between ((traded moving).map (·.low.value)) ((traded moving).map (·.high.value)) (34 / 3) ∧
      (200 / 3 : ℚ) ∈ Set.Icc 0 100 ∧ Average.Between [0] (trueRangesIn .exact none moving) 2 := by
  have hselected : completed moving none = .ok moving := rfl
  obtain ⟨_, hema, hemaBetween⟩ := (indicator_ranges moving 2 none (x := 11)).1 (by decide +kernel)
  obtain ⟨_, hwma, hwmaBetween⟩ := (indicator_ranges moving 2 none (x := 34 / 3)).2.1 (by decide +kernel)
  obtain ⟨_, hvwap, hvwapBetween⟩ := (indicator_ranges moving 2 none (x := 34 / 3)).2.2.1 (by decide +kernel)
  obtain ⟨_, _, _, -, -, -, hrsiRange, -⟩ := (indicator_ranges moving 2 none (x := 200 / 3)).2.2.2.1 (by decide +kernel)
  obtain ⟨_, hatr, hatrBetween, -⟩ := (indicator_ranges moving 2 none (x := 2)).2.2.2.2 (by decide +kernel)
  cases hselected.symm.trans hema
  cases hselected.symm.trans hwma
  cases hselected.symm.trans hvwap
  cases hselected.symm.trans hatr
  exact ⟨hemaBetween, hwmaBetween, hvwapBetween, hrsiRange, hatrBetween⟩

/-- A candle that moves by one, and the next that stands still at its close. -/
def stalling : List Candle :=
  [{ start := .utc 0, ending := .utc 60000000, opening := 10, high := 11, low := 10, closing := 10, volume := 5,
      completed := true, valid := by decide +kernel },
    { start := .utc 60000000, ending := .utc 120000000, opening := 10, high := 10, low := 10, closing := 10,
      volume := 5, completed := true, valid := by decide +kernel }]

/-- Over a period of one the average is zero after the movement. -/
theorem atrIn_stalling :
    atrIn .exact stalling 1 none = .ok (some 0) ∧ completed stalling none = .ok stalling ∧
      ¬∀ range ∈ trueRangesIn .exact none stalling, range = 0 := by
  refine ⟨by decide +kernel, rfl, ?_⟩
  decide +kernel

end Indicators

end TecoQuant.Analytics
