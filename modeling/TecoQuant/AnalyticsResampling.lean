import TecoQuant.AnalyticsCausality
import TecoQuant.AnalyticsValues
import TecoQuant.BaseDecimalMonotone
import TecoQuant.BaseGrouping
import TecoQuant.BaseTiling

/-! What resampling returns: a candle for each bucket that its candles cover. A bucket is a window of the completed
candles, and covering it is tiling it. -/

namespace TecoQuant.Analytics

open Except

/-! ### Buckets -/

section Buckets

variable {anchor interval : Int} {selected candles : List Candle} {candle : Candle}

def startOf (candle : Candle) : Int := candle.start.instant

def endOf (candle : Candle) : Int := candle.ending.instant

/-- The point where a bucket starts. -/
def gridPoint (anchor interval index : Int) : Int := anchor + index * interval

/-- The index of the bucket in which a candle starts. -/
def bucketIndex (anchor interval : Int) (candle : Candle) : Int := (startOf candle - anchor) / interval

/-- The candles of a bucket. -/
def bucketOf (anchor interval : Int) (selected : List Candle) (index : Int) : List Candle :=
  Tiling.window startOf (gridPoint anchor interval index) (gridPoint anchor interval (index + 1)) selected

/-- The candles of a bucket tile it. -/
def Covers (anchor interval : Int) (selected : List Candle) (index : Int) : Prop :=
  Tiling.Covered startOf endOf selected (gridPoint anchor interval index) (gridPoint anchor interval (index + 1))

theorem gridPoint_succ (index : Int) :
    gridPoint anchor interval (index + 1) = gridPoint anchor interval index + interval := by
  unfold gridPoint
  ring

theorem gridPoint_mono (hinterval : 0 < interval) {i j : Int} (h : i ≤ j) :
    gridPoint anchor interval i ≤ gridPoint anchor interval j := by
  have hscaled := mul_le_mul_of_nonneg_right h hinterval.le
  unfold gridPoint
  omega

theorem bucketIndex_eq_iff (hinterval : 0 < interval) {index : Int} :
    bucketIndex anchor interval candle = index ↔
      gridPoint anchor interval index ≤ startOf candle ∧ startOf candle < gridPoint anchor interval (index + 1) := by
  have hlow : index ≤ bucketIndex anchor interval candle ↔ gridPoint anchor interval index ≤ startOf candle := by
    unfold bucketIndex gridPoint
    rw [Int.le_ediv_iff_mul_le hinterval]
    omega
  have hhigh : bucketIndex anchor interval candle < index + 1 ↔ startOf candle < gridPoint anchor interval (index + 1) := by
    unfold bucketIndex gridPoint
    rw [Int.ediv_lt_iff_lt_mul hinterval]
    omega
  rw [← hlow, ← hhigh]
  omega

theorem bucketOf_eq_filter (hinterval : 0 < interval) (index : Int) :
    bucketOf anchor interval selected index = selected.filter (bucketIndex anchor interval · = index) := by
  refine List.filter_congr fun candle _ => ?_
  exact decide_eq_decide.mpr (bucketIndex_eq_iff hinterval).symm

/-- What the loop over the candles checks of each. -/
structure Fits (anchor interval : Int) (candle : Candle) : Prop where
  start_calendar : candle.start.toUtc.InCalendar
  ending_calendar : candle.ending.toUtc.InCalendar
  ends : endOf candle ≤ gridPoint anchor interval (bucketIndex anchor interval candle + 1)

theorem assign_eq_add (index : Int) (candle : Candle) (buckets : List (Int × List Candle)) :
    Dict.assign index ((buckets.lookup index).getD [] ++ [candle]) buckets = Grouping.add index candle buckets := by
  induction buckets with
  | nil => rfl
  | cons bucket buckets ih =>
      obtain ⟨known, members⟩ := bucket
      rw [Dict.assign, Grouping.add]
      by_cases h : known = index
      · rw [if_pos h, if_pos h, h, List.lookup_cons_self]
        rfl
      · have hlookup : List.lookup index ((known, members) :: buckets) = buckets.lookup index := by
          rw [List.lookup_cons, beq_false_of_ne (Ne.symm h)]
        rw [if_neg h, if_neg h, hlookup, ih]

theorem utcMicroseconds_eq_ok {t : Datetime} {count : Int} :
    utcMicroseconds t = .ok count ↔ t.toUtc.InCalendar ∧ count = t.instant := by
  rw [utcMicroseconds, show (Datetime.instant <$> t.astimezone Fault.overflow) =
      (t.astimezone Fault.overflow).map Datetime.instant from rfl,
    Except.map_eq_ok]
  simp only [Datetime.astimezone_eq_ok]
  constructor
  · rintro ⟨_, ⟨hcalendar, rfl⟩, rfl⟩
    exact ⟨hcalendar, Datetime.instant_toUtc t⟩
  · rintro ⟨hcalendar, rfl⟩
    exact ⟨_, ⟨hcalendar, rfl⟩, Datetime.instant_toUtc t⟩

/-- The loop groups the candles by their buckets, when each fits into its own. -/
theorem bucketed_eq_ok {buckets groups : List (Int × List Candle)} :
    bucketed anchor interval candles buckets = .ok groups ↔
      (∀ candle ∈ candles, Fits anchor interval candle) ∧
        groups = candles.foldl (fun groups candle => Grouping.add (bucketIndex anchor interval candle) candle groups)
          buckets := by
  induction candles generalizing buckets with
  | nil =>
      rw [bucketed, List.foldl_nil, Except.ok.injEq, eq_comm]
      simp
  | cons candle rest ih =>
      have hstep : bucketed anchor interval (candle :: rest) buckets = .ok groups ↔
          Fits anchor interval candle ∧ bucketed anchor interval rest
            (Grouping.add (bucketIndex anchor interval candle) candle buckets) = .ok groups := by
        rw [bucketed]
        constructor
        · intro h
          obtain ⟨start, hstart, h⟩ := bind_eq_ok.mp h
          obtain ⟨ending, hending, h⟩ := bind_eq_ok.mp h
          obtain ⟨hcalendar, rfl⟩ := utcMicroseconds_eq_ok.mp hstart
          obtain ⟨hcalendar', rfl⟩ := utcMicroseconds_eq_ok.mp hending
          obtain ⟨hends, h⟩ := ite_error_eq_ok.mp h
          rw [assign_eq_add] at h
          exact ⟨⟨hcalendar, hcalendar', not_lt.mp hends⟩, h⟩
        · rintro ⟨hfits, h⟩
          refine bind_eq_ok.mpr ⟨_, utcMicroseconds_eq_ok.mpr ⟨hfits.start_calendar, rfl⟩, ?_⟩
          refine bind_eq_ok.mpr ⟨_, utcMicroseconds_eq_ok.mpr ⟨hfits.ending_calendar, rfl⟩, ?_⟩
          refine ite_error_eq_ok.mpr ⟨not_lt.mpr hfits.ends, ?_⟩
          rw [assign_eq_add]
          exact h
      rw [hstep, ih, List.forall_mem_cons, List.foldl_cons, and_assoc]

end Buckets

/-! ### Extremes -/

section Extremes

variable {first : Decimal} {rest : List Decimal}

theorem maximum_eq {left right : Decimal} (hleft : left.IsFinite) (hright : right.IsFinite) :
    arith (Decimal.maximum left right) = .ok (if left < right then right else left) := by
  rw [Decimal.maximum, Decimal.less_of_finite hleft hright]
  by_cases h : left < right
  · rw [if_pos h, decide_eq_true h]
    rfl
  · rw [if_neg h, decide_eq_false h]
    rfl

theorem minimum_eq {left right : Decimal} (hleft : left.IsFinite) (hright : right.IsFinite) :
    arith (Decimal.minimum left right) = .ok (if right < left then right else left) := by
  rw [Decimal.minimum, Decimal.less_of_finite hright hleft]
  by_cases h : right < left
  · rw [if_pos h, decide_eq_true h]
    rfl
  · rw [if_neg h, decide_eq_false h]
    rfl

theorem greatest_eq_ok (hfirst : first.IsFinite) (hrest : ∀ d ∈ rest, d.IsFinite) :
    ∃ top, greatest first rest = .ok top ∧ top ∈ first :: rest ∧ ∀ d ∈ first :: rest, d ≤ top := by
  induction rest generalizing first with
  | nil => exact ⟨first, rfl, List.mem_cons_self, fun d hd => by rw [List.mem_singleton.mp hd]; exact le_refl first.value⟩
  | cons next rest ih =>
      have hnext := hrest next List.mem_cons_self
      have hlater : ∀ d ∈ rest, d.IsFinite := fun d hd => hrest d (List.mem_cons_of_mem _ hd)
      have hstep : greatest first (next :: rest) = greatest (if first < next then next else first) rest := by
        rw [greatest, List.foldlM_cons, maximum_eq hfirst hnext]
        rfl
      rw [hstep]
      by_cases h : first < next
      · rw [if_pos h]
        obtain ⟨top, htop, hmem, hmost⟩ := ih hnext hlater
        refine ⟨top, htop, List.mem_cons_of_mem _ hmem, fun d hd => ?_⟩
        rcases List.mem_cons.mp hd with rfl | hd
        · exact (Decimal.lt_iff.mp h).le.trans (hmost next List.mem_cons_self)
        · exact hmost d hd
      · rw [if_neg h]
        obtain ⟨top, htop, hmem, hmost⟩ := ih hfirst hlater
        refine ⟨top, htop, ?_, fun d hd => ?_⟩
        · rcases List.mem_cons.mp hmem with rfl | hmem
          · exact List.mem_cons_self
          · exact List.mem_cons_of_mem _ (List.mem_cons_of_mem _ hmem)
        · rcases List.mem_cons.mp hd with rfl | hd
          · exact hmost _ List.mem_cons_self
          · rcases List.mem_cons.mp hd with rfl | hd
            · exact (not_lt.mp h : d.value ≤ first.value).trans (hmost first List.mem_cons_self)
            · exact hmost d (List.mem_cons_of_mem _ hd)

theorem least_eq_ok (hfirst : first.IsFinite) (hrest : ∀ d ∈ rest, d.IsFinite) :
    ∃ bottom, least first rest = .ok bottom ∧ bottom ∈ first :: rest ∧ ∀ d ∈ first :: rest, bottom ≤ d := by
  induction rest generalizing first with
  | nil => exact ⟨first, rfl, List.mem_cons_self, fun d hd => by rw [List.mem_singleton.mp hd]; exact le_refl first.value⟩
  | cons next rest ih =>
      have hnext := hrest next List.mem_cons_self
      have hlater : ∀ d ∈ rest, d.IsFinite := fun d hd => hrest d (List.mem_cons_of_mem _ hd)
      have hstep : least first (next :: rest) = least (if next < first then next else first) rest := by
        rw [least, List.foldlM_cons, minimum_eq hfirst hnext]
        rfl
      rw [hstep]
      by_cases h : next < first
      · rw [if_pos h]
        obtain ⟨bottom, hbottom, hmem, hleast⟩ := ih hnext hlater
        refine ⟨bottom, hbottom, List.mem_cons_of_mem _ hmem, fun d hd => ?_⟩
        rcases List.mem_cons.mp hd with rfl | hd
        · exact (hleast next List.mem_cons_self : bottom.value ≤ next.value).trans (Decimal.lt_iff.mp h).le
        · exact hleast d hd
      · rw [if_neg h]
        obtain ⟨bottom, hbottom, hmem, hleast⟩ := ih hfirst hlater
        refine ⟨bottom, hbottom, ?_, fun d hd => ?_⟩
        · rcases List.mem_cons.mp hmem with rfl | hmem
          · exact List.mem_cons_self
          · exact List.mem_cons_of_mem _ (List.mem_cons_of_mem _ hmem)
        · rcases List.mem_cons.mp hd with rfl | hd
          · exact hleast _ List.mem_cons_self
          · rcases List.mem_cons.mp hd with rfl | hd
            · have hfirst : bottom.value ≤ first.value := hleast first List.mem_cons_self
              exact hfirst.trans (not_lt.mp h)
            · exact hleast d (List.mem_cons_of_mem _ hd)

end Extremes

/-! ### Candles of buckets -/

section BucketCandles

variable {anchor : Datetime} {interval index : Int} {group : List Candle}

/-- The candle that sums a group up, over the bucket of an index. -/
structure SumsUp (anchor : Datetime) (interval index : Int) (group : List Candle) (candle : Candle) : Prop where
  start_eq : candle.start = anchor.plus (index * interval)
  ending_eq : candle.ending = (anchor.plus (index * interval)).plus interval
  opening : group.head?.map Candle.opening = some candle.opening
  closing : group.getLast?.map Candle.closing = some candle.closing
  high : ∃ source ∈ group, source.high = candle.high
  high_most : ∀ source ∈ group, source.high ≤ candle.high
  low : ∃ source ∈ group, source.low = candle.low
  low_least : ∀ source ∈ group, candle.low ≤ source.low
  volume : candle.volume = total (group.map Candle.volume)
  completed : candle.completed = true

/-- The bucket of an index lies in the calendar. -/
structure InRange (anchor : Datetime) (interval index : Int) : Prop where
  start : (anchor.plus (index * interval)).InCalendar
  ending : ((anchor.plus (index * interval)).plus interval).InCalendar

theorem instant_plus (t : Datetime) (count : Int) : (t.plus count).instant = t.instant + count := by
  unfold Datetime.plus Datetime.instant
  ring

theorem instant_bucket : (anchor.plus (index * interval)).instant = gridPoint anchor.instant interval index :=
  instant_plus anchor _

theorem shift_eq_ok {t result : Datetime} {count : Int} :
    shift t count = .ok result ↔ (t.plus count).InCalendar ∧ t.plus count = result := by
  rw [shift, ite_ok_eq_ok]

theorem bucketCandle_inRange {result : Option Candle} (h : bucketCandle anchor interval (index, group) = .ok result) :
    InRange anchor interval index := by
  obtain ⟨start, hstart, h⟩ := bind_eq_ok.mp h
  obtain ⟨ending, hending, h⟩ := bind_eq_ok.mp h
  obtain ⟨hcalendar, rfl⟩ := shift_eq_ok.mp hstart
  obtain ⟨hcalendar', rfl⟩ := shift_eq_ok.mp hending
  exact ⟨hcalendar, hcalendar'⟩

theorem total_nonneg (h : ∀ candle ∈ group, 0 ≤ candle.volume.value) :
    0 ≤ (total (group.map Candle.volume)).value := by
  have hfinite : ∀ d ∈ group.map Candle.volume, d.IsFinite := by
    intro d hd
    obtain ⟨candle, -, rfl⟩ := List.mem_map.mp hd
    exact candle.valid.finite.2.2.2.2
  have hfold : ∀ (values : List ℚ) (start : ℚ), 0 ≤ start → (∀ x ∈ values, 0 ≤ x) →
      0 ≤ values.foldl DecimalContext.default.add start := by
    intro values
    induction values with
    | nil => exact fun start hstart _ => hstart
    | cons x values ih =>
        intro start hstart hvalues
        have hsum : 0 ≤ start + x := add_nonneg hstart (hvalues x List.mem_cons_self)
        refine ih _ ?_ fun y hy => hvalues y (List.mem_cons_of_mem _ hy)
        have hrounded : roundDigits 28 0 ≤ roundDigits 28 (start + x) := roundDigits_mono (by norm_num) hsum
        rwa [roundDigits_zero] at hrounded
  rw [(total_value hfinite).2]
  refine hfold _ 0 (le_refl 0) fun x hx => ?_
  obtain ⟨d, hd, rfl⟩ := List.mem_map.mp hx
  obtain ⟨candle, hcandle, rfl⟩ := List.mem_map.mp hd
  exact h candle hcandle

theorem getLastD_mem (first : Candle) (rest : List Candle) : rest.getLastD first ∈ first :: rest := by
  rw [List.getLastD_eq_getLast?]
  cases hrest : rest.getLast? with
  | none => exact List.mem_cons_self
  | some last => exact List.mem_cons_of_mem _ (List.mem_of_getLast? hrest)

theorem closing_eq (first : Candle) (rest : List Candle) :
    (first :: rest).getLast?.map Candle.closing = some (rest.getLastD first).closing := by
  rw [List.getLast?_cons, Option.map_some, List.getLastD_eq_getLast?]

/-- What is summed up from candles is a candle. -/
theorem valid_of_group {first : Candle} {rest : List Candle} {start ending : Datetime} {high low : Decimal}
    (hstart : start.Aware) (hending : ending.Aware) (hlasts : start.instant < ending.instant)
    (hhigh : ∃ source ∈ first :: rest, source.high = high) (hhighMost : ∀ source ∈ first :: rest, source.high ≤ high)
    (hlow : ∃ source ∈ first :: rest, source.low = low) (hlowLeast : ∀ source ∈ first :: rest, low ≤ source.low) :
    ValidCandle start ending first.opening high low (rest.getLastD first).closing
      (total ((first :: rest).map Candle.volume)) := by
  have hlast := getLastD_mem first rest
  obtain ⟨top, htop, rfl⟩ := hhigh
  obtain ⟨bottom, hbottom, rfl⟩ := hlow
  have hvolumes : ∀ d ∈ (first :: rest).map Candle.volume, d.IsFinite := by
    intro d hd
    obtain ⟨candle, -, rfl⟩ := List.mem_map.mp hd
    exact candle.valid.finite.2.2.2.2
  have hfirstHigh : first.high.value ≤ top.high.value := hhighMost first List.mem_cons_self
  have hlastHigh : (rest.getLastD first).high.value ≤ top.high.value := hhighMost _ hlast
  have hfirstLow : bottom.low.value ≤ first.low.value := hlowLeast first List.mem_cons_self
  have hlastLow : bottom.low.value ≤ (rest.getLastD first).low.value := hlowLeast _ hlast
  have hheight : first.low.value ≤ first.high.value := first.valid.high_most.2.2
  refine ⟨⟨?_, ?_, ?_, ?_, ?_⟩, hstart, hending, hlasts⟩
  · exact ⟨first.valid.finite.1, top.valid.finite.2.1, bottom.valid.finite.2.2.1,
      (rest.getLastD first).valid.finite.2.2.2.1, (total_value hvolumes).1⟩
  · exact ⟨first.valid.positive.1, top.valid.positive.2.1, bottom.valid.positive.2.2.1,
      (rest.getLastD first).valid.positive.2.2.2⟩
  · rw [Decimal.le_iff, Decimal.value_zero]
    refine total_nonneg fun candle _ => ?_
    have hnonneg := Decimal.le_iff.mp candle.valid.volume_nonneg
    rwa [Decimal.value_zero] at hnonneg
  · exact ⟨(first.valid.high_most.1 : first.opening.value ≤ first.high.value).trans hfirstHigh,
      ((rest.getLastD first).valid.high_most.2.1 : (rest.getLastD first).closing.value ≤ _).trans hlastHigh,
      (hfirstLow.trans hheight).trans hfirstHigh⟩
  · exact ⟨hfirstLow.trans (first.valid.low_least.1 : first.low.value ≤ first.opening.value),
      hlastLow.trans ((rest.getLastD first).valid.low_least.2.1 : _ ≤ (rest.getLastD first).closing.value),
      (hfirstLow.trans hheight).trans hfirstHigh⟩

/-- A bucket's high is one of its candles' highs. -/
theorem exists_high (first : Candle) (rest : List Candle) : ∃ high, greatest first.high (rest.map Candle.high) = .ok high ∧
    (∃ source ∈ first :: rest, source.high = high) ∧ ∀ source ∈ first :: rest, source.high ≤ high := by
  have hfinite : ∀ d ∈ rest.map Candle.high, d.IsFinite := by
    intro d hd
    obtain ⟨candle, -, rfl⟩ := List.mem_map.mp hd
    exact candle.valid.finite.2.1
  obtain ⟨high, hhigh, hmem, hmost⟩ := greatest_eq_ok first.valid.finite.2.1 hfinite
  rw [← List.map_cons] at hmem hmost
  exact ⟨high, hhigh, List.mem_map.mp hmem, fun source hsource => hmost _ (List.mem_map_of_mem hsource)⟩

theorem exists_low (first : Candle) (rest : List Candle) : ∃ low, least first.low (rest.map Candle.low) = .ok low ∧
    (∃ source ∈ first :: rest, source.low = low) ∧ ∀ source ∈ first :: rest, low ≤ source.low := by
  have hfinite : ∀ d ∈ rest.map Candle.low, d.IsFinite := by
    intro d hd
    obtain ⟨candle, -, rfl⟩ := List.mem_map.mp hd
    exact candle.valid.finite.2.2.1
  obtain ⟨low, hlow, hmem, hleast⟩ := least_eq_ok first.valid.finite.2.2.1 hfinite
  rw [← List.map_cons] at hmem hleast
  exact ⟨low, hlow, List.mem_map.mp hmem, fun source hsource => hleast _ (List.mem_map_of_mem hsource)⟩

/-- A group gives a candle when it tiles its bucket, and else nothing. -/
theorem bucketCandle_returns (haware : anchor.Aware) (hinterval : 0 < interval)
    (hrange : InRange anchor interval index) :
    (¬Tiling.Tiles startOf endOf (gridPoint anchor.instant interval index) (gridPoint anchor.instant interval (index + 1))
        group ∧ bucketCandle anchor interval (index, group) = .ok none) ∨
      (Tiling.Tiles startOf endOf (gridPoint anchor.instant interval index) (gridPoint anchor.instant interval (index + 1))
        group ∧ ∃ candle, bucketCandle anchor interval (index, group) = .ok (some candle) ∧
          SumsUp anchor interval index group candle) := by
  have hstart : shift anchor (index * interval) = .ok (anchor.plus (index * interval)) :=
    shift_eq_ok.mpr ⟨hrange.start, rfl⟩
  have hending : shift (anchor.plus (index * interval)) interval = .ok ((anchor.plus (index * interval)).plus interval) :=
    shift_eq_ok.mpr ⟨hrange.ending, rfl⟩
  have hbucket : (anchor.plus (index * interval)).instant = gridPoint anchor.instant interval index := instant_bucket
  have hbucketEnd : ((anchor.plus (index * interval)).plus interval).instant =
      gridPoint anchor.instant interval (index + 1) := by
    rw [instant_plus, hbucket, gridPoint_succ]
  have hlasts : gridPoint anchor.instant interval index < gridPoint anchor.instant interval (index + 1) := by
    rw [gridPoint_succ]
    omega
  unfold bucketCandle
  simp only [hstart, hending, ok_bind]
  cases group with
  | nil => exact .inl ⟨fun h => absurd h hlasts.ne, rfl⟩
  | cons first rest =>
      rw [Tiling.tiles_cons_iff]
      by_cases hedges : first.start.instant ≠ (anchor.plus (index * interval)).instant ∨
          (rest.getLastD first).ending.instant ≠ ((anchor.plus (index * interval)).plus interval).instant
      · refine .inl ⟨fun htiles => ?_, ?_⟩
        · rw [hbucket, hbucketEnd] at hedges
          exact hedges.elim (absurd htiles.1) (absurd htiles.2.1)
        · simp only [if_pos hedges]
          rfl
      simp only [if_neg hedges]
      by_cases hgap : ¬Contiguous (first :: rest)
      · refine .inl ⟨fun htiles => hgap htiles.2.2, ?_⟩
        rw [if_pos hgap]
        rfl
      rw [if_neg hgap]
      rw [hbucket, hbucketEnd, not_or, not_not, not_not] at hedges
      refine .inr ⟨⟨hedges.1, hedges.2, not_not.mp hgap⟩, ?_⟩
      obtain ⟨high, hhigh, hhighMem, hhighMost⟩ := exists_high first rest
      obtain ⟨low, hlow, hlowMem, hlowLeast⟩ := exists_low first rest
      have hvalid : ValidCandle (anchor.plus (index * interval)) ((anchor.plus (index * interval)).plus interval)
          first.opening high low (rest.getLastD first).closing (total ((first :: rest).map Candle.volume)) := by
        refine valid_of_group haware haware ?_ hhighMem hhighMost hlowMem hlowLeast
        rw [instant_plus _ interval]
        omega
      rw [hhigh, ok_bind, hlow, ok_bind, Candle.new, dif_pos hvalid]
      refine ⟨_, rfl, {
        start_eq := rfl
        ending_eq := rfl
        opening := rfl
        closing := ?_
        high := hhighMem
        high_most := hhighMost
        low := hlowMem
        low_least := hlowLeast
        volume := rfl
        completed := rfl }⟩
      exact closing_eq first rest

end BucketCandles

/-! ### Runs of the loop -/

section Runs

variable {anchor : Datetime} {interval : Int} {selected candles result : List Candle} {asOf : Datetime}

/-- What a call that returns has found of its candles. -/
structure Runs (anchor : Datetime) (interval : Int) (selected : List Candle) : Prop where
  anchor_aware : anchor.Aware
  anchor_calendar : anchor.toUtc.InCalendar
  fits : ∀ candle ∈ selected, Fits anchor.instant interval candle
  inRange : ∀ candle ∈ selected, InRange anchor interval (bucketIndex anchor.instant interval candle)

/-- The result has a candle for each covered bucket, in order. -/
def Resampled (anchor : Datetime) (interval : Int) (selected result : List Candle) : Prop :=
  ∃ indices : List Int, indices.Pairwise (· < ·) ∧
    (∀ index, index ∈ indices ↔ Covers anchor.instant interval selected index) ∧
    List.Forall₂ (fun index candle =>
      SumsUp anchor interval index (bucketOf anchor.instant interval selected index) candle) indices result

/-- The buckets, in order. -/
def orderedBuckets (anchor interval : Int) (selected : List Candle) : List (Int × List Candle) :=
  (Grouping.group (bucketIndex anchor interval) selected).insertionSort fun left right => left.1 ≤ right.1

theorem orderedBuckets_mem (hinterval : 0 < interval) {anchor : Int} {bucket : Int × List Candle}
    (h : bucket ∈ orderedBuckets anchor interval selected) :
    bucket.2 = bucketOf anchor interval selected bucket.1 ∧
      ∃ candle ∈ selected, bucketIndex anchor interval candle = bucket.1 := by
  have hmem := (List.perm_insertionSort _ _).mem_iff.mp h
  rw [bucketOf_eq_filter hinterval]
  exact ⟨Grouping.eq_filter_of_mem hmem, List.mem_map.mp (Grouping.mem_labels.mp (List.mem_map_of_mem hmem))⟩

theorem orderedBuckets_sorted (anchor interval : Int) :
    ((orderedBuckets anchor interval selected).map Prod.fst).Pairwise (· < ·) := by
  have : Std.Total (α := Int × List Candle) fun left right => left.1 ≤ right.1 := ⟨fun a b => le_total a.1 b.1⟩
  have : IsTrans (Int × List Candle) fun left right => left.1 ≤ right.1 := ⟨fun _ _ _ => le_trans⟩
  have hordered := List.pairwise_insertionSort (fun left right : Int × List Candle => left.1 ≤ right.1)
    (Grouping.group (bucketIndex anchor interval) selected)
  have hdistinct : ((orderedBuckets anchor interval selected).map Prod.fst).Nodup :=
    ((List.perm_insertionSort _ _).map Prod.fst).nodup_iff.mpr (Grouping.labels_nodup _ _)
  rw [List.pairwise_map]
  exact hordered.imp₂ (fun _ _ hle hne => lt_of_le_of_ne hle hne) (List.pairwise_map.mp hdistinct)

/-- A bucket that is covered holds a candle. -/
theorem orderedBuckets_label (hinterval : 0 < interval) {anchor index : Int}
    (h : Covers anchor interval selected index) :
    index ∈ (orderedBuckets anchor interval selected).map Prod.fst := by
  have hlabels : index ∈ (Grouping.group (bucketIndex anchor interval) selected).map Prod.fst := by
    rw [Grouping.mem_labels]
    cases hbucket : bucketOf anchor interval selected index with
    | nil =>
        have hsame : gridPoint anchor interval index = gridPoint anchor interval (index + 1) := by
          unfold Covers Tiling.Covered at h
          rw [show Tiling.window startOf (gridPoint anchor interval index) (gridPoint anchor interval (index + 1))
            selected = [] from hbucket] at h
          exact h
        rw [gridPoint_succ] at hsame
        omega
    | cons first rest =>
        have hfirst : first ∈ bucketOf anchor interval selected index := by
          rw [hbucket]
          exact List.mem_cons_self
        rw [bucketOf_eq_filter hinterval, List.mem_filter, decide_eq_true_eq] at hfirst
        exact List.mem_map.mpr ⟨first, hfirst.1, hfirst.2⟩
  exact ((List.perm_insertionSort _ _).map Prod.fst).mem_iff.mpr hlabels

/-- The loop over buckets in order gives the candles of those that are covered. -/
theorem mapM_bucketCandle (haware : anchor.Aware) (hinterval : 0 < interval) {buckets : List (Int × List Candle)}
    (hbuckets : ∀ bucket ∈ buckets, bucket.2 = bucketOf anchor.instant interval selected bucket.1 ∧
      InRange anchor interval bucket.1) :
    ∃ emitted indices, buckets.mapM (bucketCandle anchor interval) = .ok emitted ∧
      indices.Sublist (buckets.map Prod.fst) ∧
      (∀ index ∈ buckets.map Prod.fst, Covers anchor.instant interval selected index → index ∈ indices) ∧
      (∀ index ∈ indices, Covers anchor.instant interval selected index) ∧
      List.Forall₂ (fun index candle =>
        SumsUp anchor interval index (bucketOf anchor.instant interval selected index) candle) indices
        (emitted.filterMap id) := by
  induction buckets with
  | nil => exact ⟨[], [], rfl, List.Sublist.refl _, fun _ h => (nomatch h), fun _ h => (nomatch h), .nil⟩
  | cons bucket buckets ih =>
      obtain ⟨index, group⟩ := bucket
      obtain ⟨emitted, indices, hemitted, hsublist, hall, hcovered, hcandles⟩ :=
        ih fun other hother => hbuckets other (List.mem_cons_of_mem _ hother)
      obtain ⟨hgroup, hrange⟩ := hbuckets (index, group) List.mem_cons_self
      obtain rfl : group = bucketOf anchor.instant interval selected index := hgroup
      rcases bucketCandle_returns haware hinterval hrange with ⟨hopen, hnone⟩ | ⟨htiles, candle, hcandle, hsums⟩
      · refine ⟨none :: emitted, indices, ?_, hsublist.cons _, fun other hother hcovers => ?_, hcovered, hcandles⟩
        · rw [List.mapM_cons, hnone, ok_bind, hemitted]
          rfl
        · rcases List.mem_cons.mp hother with rfl | hother
          · exact absurd hcovers hopen
          · exact hall other hother hcovers
      · refine ⟨some candle :: emitted, index :: indices, ?_, hsublist.cons_cons _, fun other hother hcovers => ?_,
          fun other hother => ?_, ?_⟩
        · rw [List.mapM_cons, hcandle, ok_bind, hemitted]
          rfl
        · rcases List.mem_cons.mp hother with rfl | hother
          · exact List.mem_cons_self
          · exact List.mem_cons_of_mem _ (hall other hother hcovers)
        · rcases List.mem_cons.mp hother with rfl | hother
          · exact htiles
          · exact hcovered other hother
        · rw [List.filterMap_cons_some (f := id) rfl]
          exact .cons hsums hcandles

/-- The loop that ran has a candle for each covered bucket. -/
theorem resampled_of_runs (hinterval : 0 < interval) (hruns : Runs anchor interval selected) :
    ∃ emitted, (orderedBuckets anchor.instant interval selected).mapM (bucketCandle anchor interval) = .ok emitted ∧
      Resampled anchor interval selected (emitted.filterMap id) := by
  have hbuckets : ∀ bucket ∈ orderedBuckets anchor.instant interval selected,
      bucket.2 = bucketOf anchor.instant interval selected bucket.1 ∧ InRange anchor interval bucket.1 := by
    intro bucket hbucket
    obtain ⟨hgroup, candle, hmem, hindex⟩ := orderedBuckets_mem hinterval hbucket
    exact ⟨hgroup, hindex ▸ hruns.inRange candle hmem⟩
  obtain ⟨emitted, indices, hemitted, hsublist, hall, hcovered, hcandles⟩ :=
    mapM_bucketCandle hruns.anchor_aware hinterval hbuckets
  refine ⟨emitted, hemitted, indices, (orderedBuckets_sorted _ _).sublist hsublist, fun index => ?_, hcandles⟩
  exact ⟨hcovered index, fun hcovers => hall index (orderedBuckets_label hinterval hcovers) hcovers⟩

end Runs

/-! ### Calls -/

section Calls

variable {candles selected result : List Candle} {interval : Int} {asOf : Datetime} {anchor : Option Datetime}

theorem aware_eq_ok {t : Datetime} {name : String} : aware t name = .ok () ↔ t.Aware := by
  rw [aware, ite_ok_eq_ok, and_iff_left rfl]

/-- A candle in each bucket of the loop lies in the calendar. -/
theorem runs_inRange {anchor : Datetime} {emitted : List (Option Candle)}
    (h : (orderedBuckets anchor.instant interval selected).mapM (bucketCandle anchor interval) = .ok emitted) :
    ∀ candle ∈ selected, InRange anchor interval (bucketIndex anchor.instant interval candle) := by
  intro candle hcandle
  have hlabel : bucketIndex anchor.instant interval candle ∈
      (orderedBuckets anchor.instant interval selected).map Prod.fst := by
    refine ((List.perm_insertionSort _ _).map Prod.fst).mem_iff.mpr ?_
    exact Grouping.mem_labels.mpr (List.mem_map_of_mem hcandle)
  obtain ⟨⟨index, group⟩, hbucket, hindex⟩ := List.mem_map.mp hlabel
  obtain ⟨out, -, hout⟩ := mapM_all h hbucket
  rw [← hindex]
  exact bucketCandle_inRange hout

/-- The anchor of a call: the given one, or the midnight before the first candle. -/
def anchorOf (anchor : Option Datetime) (first : Candle) : Datetime := anchor.getD (midnight first.start)

/-- A call that returns has a candle for each bucket that its completed candles cover. -/
theorem resample_eq_ok (h : resampleCompletedCandles candles interval asOf anchor = .ok result) :
    asOf.Aware ∧ 0 < interval ∧ ∃ selected, completed candles (some asOf) = .ok selected ∧
      ((selected = [] ∧ result = []) ∨ ∃ first rest, selected = first :: rest ∧
        Runs (anchorOf anchor first) interval selected ∧ Resampled (anchorOf anchor first) interval selected result) := by
  obtain ⟨_, haware, h⟩ := bind_eq_ok.mp h
  obtain ⟨hinterval, h⟩ := ite_error_eq_ok.mp h
  obtain ⟨selected, hselected, h⟩ := bind_eq_ok.mp h
  refine ⟨aware_eq_ok.mp haware, not_le.mp hinterval, selected, hselected, ?_⟩
  cases selected with
  | nil => exact .inl ⟨rfl, (Except.ok.inj h).symm⟩
  | cons first rest =>
      obtain ⟨_, hanchor, h⟩ := bind_eq_ok.mp h
      obtain ⟨microseconds, hmicroseconds, h⟩ := bind_eq_ok.mp h
      obtain ⟨buckets, hbuckets, h⟩ := bind_eq_ok.mp h
      obtain ⟨emitted, hemitted, h⟩ := bind_eq_ok.mp h
      obtain ⟨hcalendar, rfl⟩ := utcMicroseconds_eq_ok.mp hmicroseconds
      obtain ⟨hfits, rfl⟩ := bucketed_eq_ok.mp hbuckets
      have hruns : Runs (anchorOf anchor first) interval (first :: rest) :=
        ⟨aware_eq_ok.mp hanchor, hcalendar, hfits, runs_inRange hemitted⟩
      obtain ⟨emitted', hemitted', hresampled⟩ := resampled_of_runs (not_le.mp hinterval) hruns
      obtain rfl : emitted' = emitted := Except.ok.inj (hemitted'.symm.trans hemitted)
      obtain rfl := Except.ok.inj h
      exact .inr ⟨first, rest, rfl, hruns, hresampled⟩

/-- A call returns when its loop has run. -/
theorem resample_returns (haware : asOf.Aware) (hinterval : 0 < interval) {first : Candle} {rest : List Candle}
    (hselected : completed candles (some asOf) = .ok (first :: rest))
    (hruns : Runs (anchorOf anchor first) interval (first :: rest)) :
    ∃ result, resampleCompletedCandles candles interval asOf anchor = .ok result ∧
      Resampled (anchorOf anchor first) interval (first :: rest) result := by
  obtain ⟨emitted, hemitted, hresampled⟩ := resampled_of_runs hinterval hruns
  refine ⟨_, ?_, hresampled⟩
  refine bind_eq_ok.mpr ⟨(), aware_eq_ok.mpr haware, ite_error_eq_ok.mpr ⟨not_le.mpr hinterval, ?_⟩⟩
  refine bind_eq_ok.mpr ⟨_, hselected, bind_eq_ok.mpr ⟨(), aware_eq_ok.mpr hruns.anchor_aware, ?_⟩⟩
  refine bind_eq_ok.mpr ⟨_, utcMicroseconds_eq_ok.mpr ⟨hruns.anchor_calendar, rfl⟩, ?_⟩
  refine bind_eq_ok.mpr ⟨_, bucketed_eq_ok.mpr ⟨hruns.fits, rfl⟩, bind_eq_ok.mpr ⟨emitted, hemitted, rfl⟩⟩

theorem resample_nil (haware : asOf.Aware) (hinterval : 0 < interval)
    (hselected : completed candles (some asOf) = .ok []) :
    resampleCompletedCandles candles interval asOf anchor = .ok [] := by
  refine bind_eq_ok.mpr ⟨(), aware_eq_ok.mpr haware, ite_error_eq_ok.mpr ⟨not_le.mpr hinterval, ?_⟩⟩
  exact bind_eq_ok.mpr ⟨_, hselected, rfl⟩

/-- A call returns exactly when its time is aware, its interval is positive, its candles do not overlap, and its anchor
and candles lie in the calendar and on the grid. It then returns a candle for each bucket that they cover, in order. -/
theorem resample_correct :
    ((∃ result, resampleCompletedCandles candles interval asOf anchor = .ok result) ↔
      asOf.Aware ∧ 0 < interval ∧ ∃ selected, completed candles (some asOf) = .ok selected ∧
        ∀ first ∈ selected.head?, Runs (anchorOf anchor first) interval selected) ∧
    ∀ result, resampleCompletedCandles candles interval asOf anchor = .ok result →
      ∃ selected, completed candles (some asOf) = .ok selected ∧ (selected = [] → result = []) ∧
        ∀ first ∈ selected.head?, Resampled (anchorOf anchor first) interval selected result := by
  refine ⟨⟨?_, ?_⟩, fun result h => ?_⟩
  · rintro ⟨result, h⟩
    obtain ⟨haware, hinterval, selected, hselected, ⟨rfl, -⟩ | ⟨first, rest, rfl, hruns, -⟩⟩ := resample_eq_ok h
    · exact ⟨haware, hinterval, [], hselected, fun _ => nofun⟩
    · refine ⟨haware, hinterval, first :: rest, hselected, fun head hhead => ?_⟩
      obtain rfl : first = head := Option.some.inj hhead
      exact hruns
  · rintro ⟨haware, hinterval, selected, hselected, hruns⟩
    cases selected with
    | nil => exact ⟨[], resample_nil haware hinterval hselected⟩
    | cons first rest =>
        obtain ⟨result, hcall, -⟩ := resample_returns haware hinterval hselected (hruns first rfl)
        exact ⟨result, hcall⟩
  · obtain ⟨-, -, selected, hselected, ⟨rfl, rfl⟩ | ⟨first, rest, rfl, -, hresampled⟩⟩ := resample_eq_ok h
    · exact ⟨[], hselected, fun _ => rfl, fun _ => nofun⟩
    · refine ⟨first :: rest, hselected, nofun, fun head hhead => ?_⟩
      obtain rfl : first = head := Option.some.inj hhead
      exact hresampled

end Calls

end TecoQuant.Analytics
