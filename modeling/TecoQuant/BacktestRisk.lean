import Mathlib.MeasureTheory.Measure.Real
import TecoQuant.BacktestPnl
import TecoQuant.BacktestReplays
import TecoQuant.BaseBinary64Relative
import TecoQuant.BaseDecimalMonotone
import TecoQuant.BaseSweep

/-! The risk metrics. The one-pass drawdown is the largest drop of the equity path, and the exposure of a replay
is the measure of the union of its holding intervals, over the duration of the replay. -/

namespace TecoQuant.Backtest

open MeasureTheory

/-! ### Drawdown -/

/-- The equity from the initial capital on, in the order of exits. -/
def equityPath (ctx : DecimalContext) (initialCapital : ℚ) (trades : List Trade) : List ℚ :=
  ((trades.insertionSort ExitOrder).map (·.netPnl)).scanl ctx.add initialCapital

section

variable {ctx : DecimalContext}

theorem sub_monotone (hctx : ctx.Orderly) (y : ℚ) : Monotone (ctx.sub · y) :=
  fun _ _ h => hctx.mono (sub_le_sub_right h y)

/-- After each trade the state holds the equity, the peak of the path and its largest drop. -/
theorem foldl_drawdown (hctx : ctx.Orderly) (initialCapital : ℚ) (ordered : List Trade) :
    let path := (ordered.map (·.netPnl)).scanl ctx.add initialCapital
    let drawdown := ordered.foldl (Drawdown.step ctx) ⟨initialCapital, initialCapital, 0⟩
    drawdown.equity = (ordered.map (·.netPnl)).foldl ctx.add initialCapital ∧
      IsGreatest {a | a ∈ path} drawdown.peak ∧ IsGreatest (Sweep.drops ctx.sub path) drawdown.maximum := by
  induction ordered using List.reverseRecOn with
  | nil =>
      have hzero : ctx.sub initialCapital initialCapital = 0 := by
        rw [DecimalContext.sub, sub_self]
        exact hctx.zero
      refine ⟨rfl, ⟨List.mem_singleton_self _, fun a ha => (List.mem_singleton.mp ha).le⟩, ?_, ?_⟩
      · exact ⟨0, 0, initialCapital, initialCapital, le_rfl, rfl, rfl, hzero.symm⟩
      · rintro d ⟨i, j, a, b, -, ha, hb, rfl⟩
        rw [List.mem_singleton.mp (List.mem_of_getElem? ha), List.mem_singleton.mp (List.mem_of_getElem? hb)]
        exact hzero.le
  | append_singleton ordered trade ih =>
      obtain ⟨hequity, hpeak, hlargest⟩ := ih
      simp only [List.map_append, List.map_singleton, List.scanl_append, List.scanl_singleton, List.tail_cons,
        List.foldl_append, List.foldl_cons, List.foldl_nil, Drawdown.step, hequity]
      exact ⟨trivial, Sweep.isGreatest_concat hpeak, Sweep.isGreatest_drops_concat (sub_monotone hctx) hpeak hlargest⟩

theorem maximumDrawdown_isGreatest (hctx : ctx.Orderly) (initialCapital : ℚ) (trades : List Trade) :
    IsGreatest (Sweep.drops ctx.sub (equityPath ctx initialCapital trades))
      (maximumDrawdown ctx initialCapital trades) :=
  (foldl_drawdown hctx initialCapital (trades.insertionSort ExitOrder)).2.2

end

/-- No two trades have one exit time and one signal id. -/
def DistinctExits (trades : List Trade) : Prop :=
  (trades.map fun trade => (trade.exitTime.instant, trade.signalId)).Nodup

instance : Std.Total ExitOrder where
  total left right := by
    rcases lt_trichotomy left.exitTime.instant right.exitTime.instant with h | h | h
    · exact .inl (.inl h)
    · exact (String.le_total left.signalId right.signalId).imp (fun hle => .inr ⟨h, hle⟩) fun hle => .inr ⟨h.symm, hle⟩
    · exact .inr (.inl h)

instance : IsTrans Trade ExitOrder where
  trans a b c hab hbc := by
    rcases hab with hab | ⟨hab, hid⟩ <;> rcases hbc with hbc | ⟨hbc, hid'⟩
    · exact .inl (hab.trans hbc)
    · exact .inl (hbc ▸ hab)
    · exact .inl (hab ▸ hbc)
    · exact .inr ⟨hab.trans hbc, String.le_trans hid hid'⟩

/-- With distinct exits there is only one order of exit. -/
theorem insertionSort_eq_of_perm {trades trades' : List Trade} (hperm : trades.Perm trades')
    (hdistinct : DistinctExits trades) : trades'.insertionSort ExitOrder = trades.insertionSort ExitOrder := by
  have hsorted := (List.perm_insertionSort ExitOrder trades').trans
    (hperm.symm.trans (List.perm_insertionSort ExitOrder trades).symm)
  refine hsorted.eq_of_pairwise ?_ (List.pairwise_insertionSort _ _) (List.pairwise_insertionSort _ _)
  intro left right hleft hright hlr hrl
  have hleft := hperm.mem_iff.mpr ((List.mem_insertionSort _).mp hleft)
  have hright := (List.mem_insertionSort _).mp hright
  refine List.inj_on_of_nodup_map hdistinct hleft hright ?_
  rcases hlr with hlr | ⟨htime, hid⟩ <;> rcases hrl with hrl | ⟨htime', hid'⟩
  · exact absurd hlr hrl.not_gt
  · exact absurd hlr htime'.le.not_gt
  · exact absurd hrl htime.le.not_gt
  · exact Prod.ext htime (String.le_antisymm hid hid')

/-! ### Exposure -/

/-- A moment in seconds. -/
noncomputable def seconds (t : Datetime) : ℝ := t.instant / 1000000

/-- The moments at which some trade was held. -/
def heldMoments (trades : List Trade) : Set ℝ :=
  {x | ∃ trade ∈ trades, seconds trade.entryTime ≤ x ∧ x ≤ seconds trade.exitTime}

theorem seconds_le {left right : Datetime} : seconds left ≤ seconds right ↔ left.instant ≤ right.instant := by
  rw [seconds, seconds, div_le_div_iff_of_pos_right (by norm_num), Int.cast_le]

theorem seconds_lt {left right : Datetime} : seconds left < seconds right ↔ left.instant < right.instant := by
  rw [seconds, seconds, div_lt_div_iff_of_pos_right (by norm_num), Int.cast_lt]

theorem cast_secondsSince (left right : Datetime) :
    ((left.secondsSince right : ℚ) : ℝ) = seconds left - seconds right := by
  rw [Datetime.secondsSince, seconds, seconds]
  push_cast
  ring

/-- Seconds as a float: none, or about a microsecond at least, and at most `top`. -/
def Spans (top : ℚ) (x : Binary64) : Prop := (x.toRat = 0 ∨ 2 ^ (-20 : ℤ) ≤ x.toRat) ∧ x.toRat ≤ top

/-- More microseconds than the calendar has. -/
def calendarSpan : Int := 2 ^ 39 * 1000000

/-- The float of a timedelta is one rounding from its seconds. -/
theorem totalSeconds_near {left right : Datetime} (hle : right.instant ≤ left.instant)
    (hspan : left.instant - right.instant ≤ calendarSpan) :
    (totalSeconds left right).Near 1 (seconds left - seconds right) ∧ Spans (2 ^ 39) (totalSeconds left right) := by
  have hnonneg : 0 ≤ left.secondsSince right := by
    unfold Datetime.secondsSince
    exact div_nonneg (Int.cast_nonneg (sub_nonneg.mpr hle)) (by norm_num)
  have hlarge : left.secondsSince right ≤ 2 ^ 39 := by
    unfold Datetime.secondsSince
    rw [div_le_iff₀ (by norm_num)]
    exact_mod_cast hspan
  -- A timedelta that is not zero has a microsecond.
  have hsmall : left.secondsSince right = 0 ∨ 2 ^ (-20 : ℤ) ≤ left.secondsSince right := by
    rcases (sub_nonneg.mpr hle).eq_or_lt with hzero | hpos
    · exact .inl (by rw [Datetime.secondsSince, ← hzero, Int.cast_zero, zero_div])
    · refine .inr (?_ : (2 : ℚ) ^ (-20 : ℤ) ≤ (left.instant - right.instant : Int) / 1000000)
      rw [le_div_iff₀ (by norm_num)]
      calc (2 : ℚ) ^ (-20 : ℤ) * 1000000 ≤ 1 := by norm_num
        _ ≤ (left.instant - right.instant : Int) := by exact_mod_cast hpos
  have hnear : (totalSeconds left right).Near 1 (seconds left - seconds right) := by
    refine Binary64.near_round (hsmall.imp_right fun h => ⟨?_, ?_⟩) ?_ ?_ false
    · exact (zpow_le_zpow_right₀ (by norm_num) (by norm_num)).trans h
    · exact hlarge.trans (pow_le_pow_right₀ (by norm_num) (by norm_num))
    · rw [pow_zero, mul_one, cast_secondsSince]
    · rw [pow_zero, mul_one, cast_secondsSince]
  have hlimit : Binary64.magnitude (2 ^ 39) = 2 ^ 39 := Binary64.magnitude_two_zpow (e := 39) (by norm_num)
  refine ⟨hnear, ?_, Binary64.toRat_round_le hlimit (by norm_num) hnonneg hlarge false⟩
  rcases hsmall with hzero | hsmall
  · exact .inl (by rw [totalSeconds, hzero, Binary64.round_zero]; rfl)
  · exact .inr (Binary64.le_toRat_round (by norm_num) hsmall hnear.finite)

/-- Added seconds stop growing at `2 ^ 93`, where a calendar's worth of them is less than half a unit. -/
theorem add_near {x y : Binary64} {a b : ℝ} {k : Nat} (hx : x.Near k a) (hx' : Spans (2 ^ 93) x) (hy : y.Near 1 b)
    (hy' : Spans (2 ^ 39) y) (hk : 1 ≤ k) : (x.add y).Near (k + 1) (a + b) ∧ Spans (2 ^ 93) (x.add y) := by
  obtain ⟨hzero, hlarge⟩ := hx'
  obtain ⟨hzero', hlarge'⟩ := hy'
  have hsmall : x.toRat + y.toRat = 0 ∨ 2 ^ (-20 : ℤ) ≤ x.toRat + y.toRat := by
    rcases hzero with hzero | hzero
    · rwa [hzero, zero_add]
    · exact .inr (hzero.trans (le_add_of_nonneg_right hy.nonneg))
  have hsum : x.toRat + y.toRat ≤ 2 ^ 93 + 2 ^ 39 := add_le_add hlarge hlarge'
  have hnear : (x.add y).Near (k + 1) (a + b) := by
    refine hx.add hy le_rfl hk (hsmall.imp_right fun h => ⟨?_, hsum.trans ?_⟩)
    · exact (zpow_le_zpow_right₀ (by norm_num) (by norm_num)).trans h
    · calc (2 : ℚ) ^ 93 + 2 ^ 39 ≤ 2 ^ 94 := by norm_num
        _ ≤ 2 ^ 1023 := pow_le_pow_right₀ (by norm_num) (by norm_num)
  have hlimit : Binary64.magnitude (2 ^ 93 + 2 ^ 39) = 2 ^ 93 := by decide +kernel
  have hnonneg := add_nonneg hx.nonneg hy.nonneg
  refine ⟨hnear, ?_⟩
  obtain ⟨hfinite, -, -, -⟩ := hnear
  have hfinite' := hy.finite
  have hfinite'' := hx.finite
  cases x with
  | finite n p =>
      cases y with
      | finite n' p' =>
          refine ⟨?_, Binary64.toRat_round_le hlimit (by norm_num) hnonneg hsum (n && n')⟩
          rcases hsmall with hsmall | hsmall
          · have hsmall : p + p' = 0 := hsmall
            exact .inl (by rw [Binary64.add, hsmall, Binary64.round_zero]; rfl)
          · exact .inr (Binary64.le_toRat_round (by norm_num) hsmall hfinite)
      | _ => exact hfinite'.elim
  | _ => exact hfinite''.elim

/-- Covered seconds by the seconds of a replay: neither quotient nor rounding leaves the normal floats. -/
theorem div_near {x y : Binary64} {a b : ℝ} {k : Nat} (hx : x.Near k a) (hx' : Spans (2 ^ 93) x) (hy : y.Near 1 b)
    (hy' : Spans (2 ^ 39) y) (hpos : 0 < y.toRat) : ∃ z, x.div y = .ok z ∧ z.Near (k + 2) (a / b) := by
  have hmicrosecond := hy'.1.resolve_left hpos.ne'
  refine hx.div hy hpos ?_
  rcases hx'.1 with hzero | hcovered
  · exact .inl (by rw [hzero, zero_div])
  · refine .inr ⟨?_, ?_⟩
    · rw [le_div_iff₀ hpos]
      refine (mul_le_mul_of_nonneg_left hy'.2 (by positivity)).trans (le_trans ?_ hcovered)
      rw [← zpow_natCast, ← zpow_add₀ (by norm_num)]
      exact zpow_le_zpow_right₀ (by norm_num) (by norm_num)
    · rw [div_le_iff₀ hpos]
      refine (hx'.2.trans ?_).trans (mul_le_mul_of_nonneg_left hmicrosecond (by positivity))
      rw [← zpow_natCast, ← zpow_natCast, ← zpow_add₀ (by norm_num)]
      exact zpow_le_zpow_right₀ (by norm_num) (by norm_num)

/-- The ends of an interval in seconds. -/
noncomputable def spanOf (interval : Datetime × Datetime) : ℝ × ℝ := (seconds interval.1, seconds interval.2)

/-- The interval lies in a replay from one instant to another. -/
def Between (lo hi : Int) (interval : Datetime × Datetime) : Prop :=
  lo ≤ interval.1.instant ∧ interval.1.instant ≤ interval.2.instant ∧ interval.2.instant ≤ hi

/-- After some intervals the float is within as many roundings of the measure of what is covered. -/
def Tracks (seen : List (ℝ × ℝ)) (coverage : Coverage) : Prop :=
  Spans (2 ^ 93) coverage.covered ∧ ∃ covered, coverage.covered.Near seen.length covered ∧
    Sweep.Covers seen covered (seconds coverage.start) (seconds coverage.finish)

section

variable {lo hi : Int} {seen : List (ℝ × ℝ)} {coverage : Coverage} {interval : Datetime × Datetime}
  {intervals : List (Datetime × Datetime)}

/-- Closing the interval being extended takes two roundings, of which the sum counts one. -/
theorem Tracks.total (h : Tracks seen coverage) (hspan : hi - lo ≤ calendarSpan)
    (hbetween : Between lo hi (coverage.start, coverage.finish)) (hseen : 1 ≤ seen.length) :
    Spans (2 ^ 93) coverage.total ∧ ∃ total, coverage.total.Near (seen.length + 1) total ∧
      volume.real (Sweep.union seen) = total := by
  obtain ⟨hspans, covered, hnear, hcovers⟩ := h
  obtain ⟨hlo, hordered, hhi⟩ := hbetween
  have hlength : coverage.finish.instant - coverage.start.instant ≤ calendarSpan := by
    simp only at hlo hhi
    omega
  obtain ⟨hseconds, hsmall⟩ := totalSeconds_near hordered hlength
  obtain ⟨hnear, hspans⟩ := add_near hnear hspans hseconds hsmall hseen
  refine ⟨hspans, _, hnear, ?_⟩
  rw [measureReal_def, hcovers.volume_eq, ENNReal.toReal_ofReal hcovers.nonneg]

theorem Tracks.step (h : Tracks seen coverage) (hspan : hi - lo ≤ calendarSpan)
    (hbetween : Between lo hi (coverage.start, coverage.finish)) (hseen : 1 ≤ seen.length)
    (hinterval : Between lo hi interval) (hafter : coverage.start.instant ≤ interval.1.instant) :
    Tracks (seen ++ [spanOf interval]) (coverage.step interval) ∧
      Between lo hi ((coverage.step interval).start, (coverage.step interval).finish) ∧
      ((coverage.step interval).start = coverage.start ∨ (coverage.step interval).start = interval.1) := by
  obtain ⟨hstart, hordered, hend⟩ := hinterval
  rw [Tracks, List.length_append, List.length_singleton]
  by_cases hmeets : interval.1.instant ≤ coverage.finish.instant
  · obtain ⟨hspans, covered, hnear, hcovers⟩ := h
    have hextend := hcovers.extend (seconds_le.mpr hafter) (seconds_le.mpr hmeets) (seconds_le.mpr hordered)
    obtain ⟨hlo, hforward, hhi⟩ := hbetween
    simp only at hlo hforward hhi
    rw [Coverage.step, if_pos hmeets]
    refine ⟨⟨hspans, covered, hnear.mono (Nat.le_succ _), ?_⟩, ?_, .inl rfl⟩
    · dsimp only
      split_ifs with hlonger
      · rwa [max_eq_right (seconds_lt.mpr hlonger).le] at hextend
      · rwa [max_eq_left (seconds_le.mpr (not_lt.mp hlonger))] at hextend
    · dsimp only
      split_ifs with hlonger
      · exact ⟨hlo, hafter.trans hordered, hend⟩
      · exact ⟨hlo, hforward, hhi⟩
  · have hclosed := h.total hspan hbetween hseen
    obtain ⟨hspans, covered, hnear, hcovers⟩ := h
    obtain ⟨hlo, hforward, hhi⟩ := hbetween
    have hclose := hcovers.close (seconds_lt.mpr (not_le.mp hmeets)) (seconds_le.mpr hordered)
    obtain ⟨hspans, total, hnear, hvolume⟩ := hclosed
    rw [measureReal_def, hcovers.volume_eq, ENNReal.toReal_ofReal hcovers.nonneg] at hvolume
    rw [Coverage.step, if_neg hmeets]
    exact ⟨⟨hspans, total, hnear, hvolume ▸ hclose⟩, ⟨hstart, hordered, hend⟩, .inr rfl⟩

/-- The sweep over further intervals in order of their starts. -/
theorem foldl_tracks (hspan : hi - lo ≤ calendarSpan) (h : Tracks seen coverage)
    (hbetween : Between lo hi (coverage.start, coverage.finish)) (hseen : 1 ≤ seen.length)
    (hafter : ∀ interval ∈ intervals, coverage.start.instant ≤ interval.1.instant)
    (hsorted : intervals.Pairwise IntervalOrder) (hintervals : ∀ interval ∈ intervals, Between lo hi interval) :
    let last := intervals.foldl Coverage.step coverage
    Tracks (seen ++ intervals.map spanOf) last ∧ Between lo hi (last.start, last.finish) := by
  induction intervals generalizing seen coverage with
  | nil => simpa using ⟨h, hbetween⟩
  | cons interval intervals ih =>
      obtain ⟨hfirst, hsorted⟩ := List.pairwise_cons.mp hsorted
      obtain ⟨hstep, hbetween, hstart⟩ := h.step hspan hbetween hseen (hintervals interval List.mem_cons_self)
        (hafter interval List.mem_cons_self)
      rw [List.map_cons, List.append_cons, List.foldl_cons]
      refine ih hstep hbetween (by simp) (fun other hother => ?_) hsorted
        fun other hother => hintervals other (List.mem_cons_of_mem _ hother)
      rcases hstart with hstart | hstart
      · exact hstart ▸ hafter other (List.mem_cons_of_mem _ hother)
      · rcases hfirst other hother with hlt | hle
        · exact hstart ▸ hlt.le
        · exact hstart ▸ hle.1.le

/-- The whole sweep over intervals in order of their starts, the first of which it begins with. -/
theorem sweep_total {first : Datetime × Datetime} (hspan : hi - lo ≤ calendarSpan)
    (hsorted : (first :: intervals).Pairwise IntervalOrder)
    (hmem : ∀ interval ∈ first :: intervals, Between lo hi interval) :
    let last := intervals.foldl Coverage.step ⟨0, first.1, first.2⟩
    Spans (2 ^ 93) last.total ∧
      last.total.Near ((first :: intervals).length + 1) (volume.real (Sweep.union ((first :: intervals).map spanOf))) := by
  obtain ⟨hfirst, hsorted⟩ := List.pairwise_cons.mp hsorted
  have hbetween := hmem first List.mem_cons_self
  have hstart : Tracks [spanOf first] ⟨0, first.1, first.2⟩ :=
    ⟨⟨.inl Binary64.toRat_zero, by rw [Binary64.toRat_zero]; positivity⟩, 0, Binary64.near_zero,
      .singleton (seconds_le.mpr hbetween.2.1)⟩
  obtain ⟨htracks, hlast⟩ := foldl_tracks hspan hstart hbetween le_rfl
    (fun interval hinterval => (hfirst interval hinterval).elim le_of_lt fun h => h.1.le) hsorted
    fun interval hinterval => hmem interval (List.mem_cons_of_mem _ hinterval)
  obtain ⟨hspans, total, hnear, hvolume⟩ := htracks.total hspan hlast (by simp)
  rw [List.singleton_append, ← List.map_cons] at hnear hvolume
  rw [List.length_map] at hnear
  exact ⟨hspans, hvolume ▸ hnear⟩

end

instance : Std.Total IntervalOrder where
  total left right := by
    rcases lt_trichotomy left.1.instant right.1.instant with h | h | h
    · exact .inl (.inl h)
    · exact (le_total left.2.instant right.2.instant).imp (fun hle => .inr ⟨h, hle⟩) fun hle => .inr ⟨h.symm, hle⟩
    · exact .inr (.inl h)

instance : IsTrans (Datetime × Datetime) IntervalOrder where
  trans a b c hab hbc := by
    rcases hab with hab | ⟨hab, hend⟩ <;> rcases hbc with hbc | ⟨hbc, hend'⟩
    · exact .inl (hab.trans hbc)
    · exact .inl (hbc ▸ hab)
    · exact .inl (hab ▸ hbc)
    · exact .inr ⟨hab.trans hbc, hend.trans hend'⟩

theorem heldMoments_eq (trades : List Trade) :
    heldMoments trades = Sweep.union (((trades.map fun trade => (trade.entryTime, trade.exitTime)).insertionSort
      IntervalOrder).map spanOf) := by
  ext x
  simp [heldMoments, Sweep.union, spanOf]

/-- The share of the replay that was held. -/
noncomputable def heldShare (startedAt endedAt : Datetime) (trades : List Trade) : ℝ :=
  volume.real (heldMoments trades) / (seconds endedAt - seconds startedAt)

/-- The sweep measures the union of the holding intervals, with a rounding for each of them and three more. -/
theorem coveredShare_near {startedAt endedAt : Datetime} {trades : List Trade}
    (hspan : endedAt.instant - startedAt.instant ≤ calendarSpan) (hduration : startedAt.instant ≤ endedAt.instant)
    (hheld : ∀ trade ∈ trades, Between startedAt.instant endedAt.instant (trade.entryTime, trade.exitTime)) :
    ∃ share, coveredShare startedAt endedAt trades = .ok share ∧
      share.Near (trades.length + 3) (heldShare startedAt endedAt trades) := by
  have hsorted := List.pairwise_insertionSort IntervalOrder (trades.map fun trade => (trade.entryTime, trade.exitTime))
  have hlength := (List.perm_insertionSort IntervalOrder
    (trades.map fun trade => (trade.entryTime, trade.exitTime))).length_eq
  have hmem : ∀ interval ∈ (trades.map fun trade => (trade.entryTime, trade.exitTime)).insertionSort IntervalOrder,
      Between startedAt.instant endedAt.instant interval := by
    intro interval hinterval
    obtain ⟨trade, htrade, rfl⟩ := List.mem_map.mp ((List.mem_insertionSort _).mp hinterval)
    exact hheld trade htrade
  obtain ⟨hseconds, hduration'⟩ := totalSeconds_near hduration hspan
  rw [heldShare, heldMoments_eq, coveredShare]
  rw [List.length_map] at hlength
  rw [← hlength]
  cases hintervals : (trades.map fun trade => (trade.entryTime, trade.exitTime)).insertionSort IntervalOrder with
  | nil =>
      refine ⟨0, rfl, ?_⟩
      simpa [Sweep.union, measureReal_def] using Binary64.near_zero
  | cons first intervals =>
      rw [hintervals] at hsorted hmem
      obtain ⟨hspans, hnear⟩ := sweep_total hspan hsorted hmem
      have hfinite : (0 : Binary64).IsFinite := trivial
      dsimp only
      split_ifs with hnothing
      · -- A replay without a duration covers nothing.
        have hnone := (Binary64.le_iff hseconds.finite hfinite).mp hnothing
        refine ⟨0, rfl, ?_⟩
        rw [hseconds.eq_zero (hnone.trans_eq Binary64.toRat_zero), div_zero]
        exact Binary64.near_zero
      · have hpos : 0 < (totalSeconds endedAt startedAt).toRat := by
          refine hseconds.nonneg.lt_of_ne fun hnone => hnothing ((Binary64.le_iff hseconds.finite hfinite).mpr ?_)
          rw [← hnone, Binary64.toRat_zero]
        obtain ⟨share, hdiv, hshare⟩ := div_near hnear hspans hseconds hduration' hpos
        exact ⟨share, by rw [hdiv]; rfl, hshare⟩

/-- The clamp keeps a share up to one. -/
theorem exposureRatio_eq {startedAt endedAt : Datetime} {trades : List Trade} {share : Binary64} {k : Nat} {a : ℝ}
    (hshare : coveredShare startedAt endedAt trades = .ok share) (hnear : share.Near k a) :
    ∃ ratio, exposureRatio startedAt endedAt trades = .ok ratio ∧ ratio.IsFinite ∧ ratio.toRat = min 1 share.toRat := by
  refine ⟨_, by rw [exposureRatio, hshare]; rfl, ?_⟩
  have hzero : (0 : Binary64).IsFinite := trivial
  have hfinite : (1 : Binary64).IsFinite := trivial
  have hone : (1 : Binary64).toRat = 1 := Nat.cast_one
  -- The maximum with zero is the share, up to the sign of a zero.
  have hmax : (Binary64.max 0 share).IsFinite ∧ (Binary64.max 0 share).toRat = share.toRat := by
    unfold Binary64.max
    split_ifs with hpos
    · exact ⟨hnear.finite, rfl⟩
    · rw [Binary64.not_lt_iff hzero hnear.finite, Binary64.le_iff hnear.finite hzero, Binary64.toRat_zero] at hpos
      exact ⟨trivial, Binary64.toRat_zero.trans (hnear.nonneg.antisymm hpos)⟩
  unfold Binary64.min
  split_ifs with hless
  · have hless := (Binary64.lt_iff hmax.1 hfinite).mp hless
    rw [hmax.2, hone] at hless
    exact ⟨hmax.1, by rw [hmax.2, min_eq_right hless.le]⟩
  · have hmore := (Binary64.not_lt_iff hmax.1 hfinite).mp hless
    rw [Binary64.le_iff hfinite hmax.1, hmax.2, hone] at hmore
    exact ⟨trivial, by rw [hone, min_eq_left hmore]⟩

/-! ### The trades of a run -/

/-- A trade is held from one moment of the replay to another. -/
def Trade.HeldWithin (trade : Trade) (frames : List ReplayFrame) : Prop :=
  trade.entryTime.instant ≤ trade.exitTime.instant ∧ (∃ f ∈ frames, trade.entryTime.instant = f.timestamp.instant) ∧
    ∃ f ∈ frames, trade.exitTime.instant = f.timestamp.instant

section

variable {ctx : DecimalContext} {config : BacktestConfig} {frames : List ReplayFrame} {frame : ReplayFrame}
  {s s' : ReplayState} {position : OpenPosition} {pass : ExitPass} {trade : Trade}

theorem Trade.HeldWithin.mono (h : trade.HeldWithin frames) (others : List ReplayFrame) :
    trade.HeldWithin (frames ++ others) := by
  obtain ⟨hforward, ⟨f, hf, hentry⟩, g, hg, hexit⟩ := h
  exact ⟨hforward, ⟨f, List.mem_append_left _ hf, hentry⟩, g, List.mem_append_left _ hg, hexit⟩

/-- A trade closes at the bar of its exit. -/
theorem ExitStep.exitTime {bar : OptionBar} {reason : ExitReason}
    (hstep : ExitStep ctx config position bar reason pass) (htrade : trade ∈ pass.trades) :
    trade.entryTime = position.entryTime ∧ trade.exitTime = bar.timestamp := by
  cases hstep with
  | held => simp at htrade
  | reduced => simp at htrade
  | closed _ _ _ hclosed =>
      obtain rfl := List.mem_singleton.mp htrade
      obtain ⟨-, -, hentry, -, hexit⟩ := closeTrade_eq_ok hclosed
      exact ⟨hentry, hexit⟩

theorem NotBefore.heldWithin {bar? : String → Option OptionBar}
    {trigger : OpenPosition → OptionBar → Option ExitReason} (hnot : NotBefore ctx config position pass)
    (hattempt : AttemptStep ctx config bar? trigger position pass)
    (hentered : ∃ f ∈ frames, position.entryTime = f.timestamp)
    (hquoted : ∀ bar, bar? position.signal.instrumentId = some bar →
      ∃ f ∈ frames, bar.timestamp.instant = f.timestamp.instant)
    (htrade : trade ∈ pass.trades) : trade.HeldWithin frames := by
  obtain ⟨f, hf, htime⟩ := hentered
  cases hattempt with
  | kept => simp at htrade
  | exits hbar _ hstep =>
      obtain ⟨hentry, hexit⟩ := hstep.exitTime htrade
      obtain ⟨g, hg, hat⟩ := hquoted _ hbar
      refine ⟨?_, ⟨f, hf, by rw [hentry, htime]⟩, g, hg, by rw [hexit, hat]⟩
      rcases hnot with rfl | ⟨bar, reason, hle, hstep⟩
      · simp at htrade
      · obtain ⟨hentry, hexit⟩ := hstep.exitTime htrade
        rwa [hentry, hexit]

theorem replayLoop_heldWithin (hsorted : frames.Pairwise fun f g => f.timestamp.instant < g.timestamp.instant)
    (h : replayLoop ctx config frames = .ok s) : ∀ trade ∈ s.trades, trade.HeldWithin frames := by
  refine replayLoop_invariant (fun frames s =>
    (frames.Pairwise fun f g => f.timestamp.instant < g.timestamp.instant) →
      ∀ trade ∈ s.trades, trade.HeldWithin frames)
    (fun _ => by simp [ReplayState.initial]) (fun frames frame s s' hs hheld hframe hsorted => ?_) h hsorted
  obtain ⟨exits, entries, hexits, -, rfl⟩ := replayFrame_eq_ok.mp hframe
  obtain ⟨-, htrades, -⟩ := exitPass_mem hexits
  intro trade htrade
  rcases List.mem_append.mp htrade with htrade | htrade
  · exact (hheld (List.pairwise_append.mp hsorted).1 trade htrade).mono _
  · obtain ⟨p, hp, pass, hpass, htrade⟩ := htrades trade htrade
    have hbefore := (replayLoop_entered_before hsorted hs p hp frame (List.mem_singleton_self _)).le
    obtain ⟨f, hf, htime⟩ := (replayLoop_grounded hs).entered p hp
    refine (attemptExit_notBefore hbefore hpass).heldWithin (attemptExit_step hpass)
      ⟨f, List.mem_append_left _ hf, htime⟩ (fun bar hbar => ?_) htrade
    exact ⟨frame, by simp, frame.bars_at bar (ReplayFrame.bar_mem hbar).1⟩

theorem Ends.heldWithin {report : BacktestReport} {exits : ExitPass} (hvalid : ValidSequence frames)
    (hs : replayLoop ctx config frames = .ok s) (hends : Ends ctx config s report exits) :
    ∀ trade ∈ report.trades, trade.HeldWithin frames := by
  rw [hends.trades]
  intro trade htrade
  rcases List.mem_append.mp htrade with htrade | htrade
  · exact replayLoop_heldWithin hvalid.sorted hs trade htrade
  · obtain ⟨p, hp, pass, hpass, htrade⟩ := (exitPass_mem hends.liquidated).2.1 trade htrade
    refine (liquidate_notBefore hpass).heldWithin (liquidate_step hpass) ((replayLoop_grounded hs).entered p hp)
      (fun bar hbar => ?_) htrade
    obtain ⟨f, hf, hquote⟩ := replayLoop_quoted hs hbar
    exact ⟨f, hf, f.bars_at bar (ReplayFrame.bar_mem hquote).1⟩

/-- A run measures its trades from its first frame to its last. -/
theorem run_metrics {report : BacktestReport} (h : run ctx config frames = .ok report) :
    (∃ first last, frames.head? = some first ∧ frames.getLast? = some last ∧ report.startedAt = first.timestamp ∧
      report.endedAt = last.timestamp) ∧
    calculateMetrics ctx config.initialCapital report.startedAt report.endedAt report.trades = .ok report.metrics := by
  unfold run at h
  obtain ⟨_, _, h⟩ := Except.bind_eq_ok.mp h
  split at h
  · rename_i first last hfirst hlast
    obtain ⟨s, _, h⟩ := Except.bind_eq_ok.mp h
    unfold finish at h
    obtain ⟨exits, _, h⟩ := Except.bind_eq_ok.mp h
    obtain ⟨metrics, hmetrics, h⟩ := Except.bind_eq_ok.mp h
    obtain ⟨breakdowns, _, h⟩ := Except.bind_eq_ok.mp h
    cases h
    exact ⟨⟨first, last, hfirst, hlast, rfl, rfl⟩, hmetrics⟩
  · cases h

/-- Every frame of a sorted replay lies between its first and its last. -/
theorem between_ends (hsorted : frames.Pairwise fun f g => f.timestamp.instant < g.timestamp.instant)
    {first last f : ReplayFrame} (hfirst : frames.head? = some first) (hlast : frames.getLast? = some last)
    (hf : f ∈ frames) : first.timestamp.instant ≤ f.timestamp.instant ∧ f.timestamp.instant ≤ last.timestamp.instant := by
  constructor
  · obtain ⟨rest, rfl⟩ := List.head?_eq_some_iff.mp hfirst
    rcases List.mem_cons.mp hf with rfl | hf
    · exact le_rfl
    · exact ((List.pairwise_cons.mp hsorted).1 f hf).le
  · obtain ⟨before, rfl⟩ := List.getLast?_eq_some_iff.mp hlast
    rcases List.mem_append.mp hf with hf | hf
    · exact ((List.pairwise_append.mp hsorted).2.2 f hf last (List.mem_singleton_self _)).le
    · rw [List.mem_singleton.mp hf]

/-- The trades of a run have distinct signal ids. -/
theorem Ends.distinctExits {report : BacktestReport} {exits : ExitPass} (hvalid : ValidSequence frames)
    (hs : replayLoop ctx config frames = .ok s) (hends : Ends ctx config s report exits) :
    DistinctExits report.trades := by
  have honly := fun trade (htrade : trade ∈ report.trades) => ((hends.conservation hvalid hs).only htrade).1
  have hids : (report.trades.map (·.signalId)).Nodup := by
    refine List.nodup_iff_count_le_one.mpr fun signalId => ?_
    rw [List.count_eq_countP, List.countP_map]
    by_cases hknown : ∃ trade ∈ report.trades, trade.signalId = signalId
    · obtain ⟨trade, htrade, rfl⟩ := hknown
      have hlength := congrArg List.length (honly trade htrade)
      rw [← List.countP_eq_length_filter] at hlength
      refine (le_of_eq ?_).trans hlength.le
      exact List.countP_congr fun other _ => by simp
    · push Not at hknown
      refine (List.countP_eq_zero.mpr fun trade htrade => ?_).le.trans (Nat.zero_le 1)
      simpa using hknown trade htrade
  refine List.Nodup.of_map Prod.snd ?_
  rwa [List.map_map]

end

/-- What the risk metrics of a report are. -/
structure RiskMetrics (ctx : DecimalContext) (config : BacktestConfig) (report : BacktestReport) : Prop where
  drawdown : IsGreatest (Sweep.drops ctx.sub (equityPath ctx config.initialCapital report.trades))
    report.metrics.maxDrawdown
  distinct : DistinctExits report.trades
  exposure : ∃ share, coveredShare report.startedAt report.endedAt report.trades = .ok share ∧
    share.Near (report.trades.length + 3) (heldShare report.startedAt report.endedAt report.trades) ∧
    report.metrics.exposureRatio.IsFinite ∧ report.metrics.exposureRatio.toRat = min 1 share.toRat
  share_range : 0 ≤ heldShare report.startedAt report.endedAt report.trades ∧
    heldShare report.startedAt report.endedAt report.trades ≤ 1

/-- Intervals within the replay are held for no more than its duration. -/
theorem heldShare_range {trades : List Trade} {startedAt endedAt : Datetime}
    (hduration : startedAt.instant ≤ endedAt.instant)
    (hheld : ∀ trade ∈ trades, Between startedAt.instant endedAt.instant (trade.entryTime, trade.exitTime)) :
    0 ≤ heldShare startedAt endedAt trades ∧ heldShare startedAt endedAt trades ≤ 1 := by
  have hnonneg : 0 ≤ seconds endedAt - seconds startedAt := sub_nonneg.mpr (seconds_le.mpr hduration)
  have hsubset : heldMoments trades ⊆ Set.Icc (seconds startedAt) (seconds endedAt) := by
    rintro x ⟨trade, htrade, hentry, hexit⟩
    obtain ⟨hlo, -, hhi⟩ := hheld trade htrade
    exact ⟨(seconds_le.mpr hlo).trans hentry, hexit.trans (seconds_le.mpr hhi)⟩
  have hle : volume.real _ ≤ volume.real _ := measureReal_mono hsubset (by simp)
  rw [Real.volume_real_Icc_of_le (seconds_le.mpr hduration)] at hle
  exact ⟨div_nonneg measureReal_nonneg hnonneg, div_le_one_of_le₀ hle hnonneg⟩

theorem run_riskMetrics {ctx : DecimalContext} (hctx : ctx.Orderly) {config : BacktestConfig}
    {frames : List ReplayFrame} {report : BacktestReport} (h : Calendar.run ctx config frames = .ok report) :
    RiskMetrics ctx config report := by
  obtain ⟨_, hcalendar, -⟩ := Except.bind_eq_ok.mp h
  obtain ⟨hframes, hvalid⟩ := Calendar.validateSequence_eq_ok.mp hcalendar
  obtain ⟨-, s, exits, -, hs, hends⟩ := Calendar.run_ends h
  obtain ⟨⟨first, last, hfirst, hlast, hstarted, hended⟩, hmetrics⟩ := run_metrics ((Calendar.run_eq_ok hcalendar).mp h).2.2
  have hbetween : ∀ trade ∈ report.trades,
      Between report.startedAt.instant report.endedAt.instant (trade.entryTime, trade.exitTime) := by
    intro trade htrade
    obtain ⟨hforward, ⟨f, hf, hentry⟩, g, hg, hexit⟩ := hends.heldWithin hvalid hs trade htrade
    rw [hstarted, hended]
    exact ⟨hentry ▸ (between_ends hvalid.sorted hfirst hlast hf).1, hforward,
      hexit ▸ (between_ends hvalid.sorted hfirst hlast hg).2⟩
  have hduration : report.startedAt.instant ≤ report.endedAt.instant := by
    rw [hstarted, hended]
    exact (between_ends hvalid.sorted hfirst hlast (List.mem_of_mem_head? hfirst)).2
  have hspan : report.endedAt.instant - report.startedAt.instant ≤ calendarSpan := by
    have hlow : -62135596800000000 ≤ first.timestamp.instant := (hframes first (List.mem_of_mem_head? hfirst)).1
    have hhigh : last.timestamp.instant ≤ 253402300799999999 := (hframes last (List.mem_of_mem_getLast? hlast)).2
    rw [hstarted, hended, calendarSpan]
    omega
  obtain ⟨share, hshare, hnear⟩ := coveredShare_near hspan hduration hbetween
  obtain ⟨ratio, hratio, hfinite, hclamped⟩ := exposureRatio_eq hshare hnear
  obtain ⟨_, _, _, _, other, hother, -, -, hall⟩ := calculateMetrics_eq_ok hmetrics
  obtain rfl := Except.ok.inj (hratio.symm.trans hother)
  refine ⟨?_, hends.distinctExits hvalid hs, ⟨share, hshare, hnear, ?_, ?_⟩, heldShare_range hduration hbetween⟩
  · rw [hall]
    exact maximumDrawdown_isGreatest hctx _ _
  · rw [hall]
    exact hfinite
  · rw [hall]
    exact hclamped

/-- **The risk metrics equal their definitions**: the drawdown of any trades, in one order of exits when these
are distinct, and for every run the exposure, up to the roundings of its floats and the clamp these may need. -/
theorem riskMetrics_correct {ctx : DecimalContext} (hctx : ctx = .exact ∨ ctx = .default) :
    (∀ initialCapital trades, IsGreatest (Sweep.drops ctx.sub (equityPath ctx initialCapital trades))
      (maximumDrawdown ctx initialCapital trades)) ∧
    (∀ initialCapital trades trades', List.Perm trades trades' → DistinctExits trades →
      maximumDrawdown ctx initialCapital trades' = maximumDrawdown ctx initialCapital trades) ∧
    ∀ config frames report, Calendar.run ctx config frames = .ok report → RiskMetrics ctx config report := by
  have horderly : ctx.Orderly := by
    rcases hctx with rfl | rfl
    · exact DecimalContext.exact_orderly
    · exact DecimalContext.default_orderly
  refine ⟨maximumDrawdown_isGreatest horderly, fun initialCapital trades trades' hperm hdistinct => ?_,
    fun _ _ _ h => run_riskMetrics horderly h⟩
  rw [maximumDrawdown, maximumDrawdown, insertionSort_eq_of_perm hperm hdistinct]

/-- A trade that exits at a second of the epoch. -/
def Trade.sample (signalId : String) (exitSecond : Int) (netPnl : ℚ) : Trade where
  signalId := signalId
  instrumentId := "60001"
  optionSide := "CALL"
  entryTime := .utc 0
  exitTime := .utc (exitSecond * 1000000)
  entryPrice := 100
  exitPrice := 100
  quantity := 1
  lots := 1
  stopPrice := 90
  targetPrice := 120
  exitReason := .time
  entryCosts := .zero
  exitCosts := .zero
  grossPnl := netPnl
  netPnl := netPnl
  initialRisk := 10
  rMultiple := netPnl / 10
  slippageCost := 0
  holdingSeconds := exitSecond
  score := 80
  scoreBand := "80-89"
  market := "NIFTY"
  expiryBucket := "0-1d"
  moneyness := "ATM"
  timeBucket := "open"
  volatilityBucket := "low"
  regime := "trend"

theorem riskMetrics_correct_sample :
    IsGreatest (Sweep.drops DecimalContext.default.sub (equityPath .default 100 [.sample "a" 1 (-5)]))
        (maximumDrawdown .default 100 [.sample "a" 1 (-5)]) ∧
      ∃ report, Calendar.run .default sampleConfig sampleFrames = .ok report ∧
        RiskMetrics .default sampleConfig report := by
  obtain ⟨hdrawdown, -, hmetrics⟩ := riskMetrics_correct (.inr (Eq.refl DecimalContext.default))
  obtain ⟨report, hreport⟩ := Calendar.sample_returns
  exact ⟨hdrawdown 100 [.sample "a" 1 (-5)], report, hreport, hmetrics _ _ _ hreport⟩

/-- Trades with one exit time and signal id are taken in the order of the list, and the floats of two positions can
add up to more than the float of the replay, which holds both and a microsecond before each. -/
theorem riskMetrics_deviate :
    (¬∀ initialCapital trades trades', List.Perm trades trades' →
      maximumDrawdown .exact initialCapital trades' = maximumDrawdown .exact initialCapital trades) ∧
    ∃ report share, Calendar.run .exact Calendar.heldConfig longFrames = .ok report ∧
      coveredShare report.startedAt report.endedAt report.trades = .ok share ∧ 1 < share.toRat ∧
      report.metrics.exposureRatio.toRat = 1 := by
  constructor
  · intro h
    have hperm : List.Perm [Trade.sample "a" 1 (-5), .sample "b" 2 10, .sample "b" 2 (-5)]
        [.sample "a" 1 (-5), .sample "b" 2 (-5), .sample "b" 2 10] := (List.Perm.swap _ _ _).cons _
    exact absurd (h 100 _ _ hperm) (by decide +kernel)
  · have hok : (Calendar.run .exact Calendar.heldConfig longFrames).toOption.bind (fun report =>
        (coveredShare report.startedAt report.endedAt report.trades).toOption.map fun share =>
          (share.toRat, report.metrics.exposureRatio.toRat)) = some (1 + 1 / 2 ^ 52, 1) := by decide +kernel
    obtain ⟨report, hreport, hshare⟩ := Option.bind_eq_some_iff.mp hok
    obtain ⟨share, hshare, hvalues⟩ := Option.map_eq_some_iff.mp hshare
    obtain ⟨hvalue, hclamped⟩ := Prod.mk.inj hvalues
    refine ⟨report, share, Except.toOption_eq_some.mp hreport, Except.toOption_eq_some.mp hshare, ?_, hclamped⟩
    rw [hvalue]
    norm_num

end TecoQuant.Backtest
