import TecoQuant.AnalyticsOverlap
import TecoQuant.AnalyticsResampling
import TecoQuant.BaseStableOrder

/-! Resampling in stages. A bucket of a grid is the buckets of a finer grid, one after the other, and it is covered when
they are; so the candles that sum those up sum up to the candle of the whole. -/

namespace TecoQuant.Analytics

open Except

/-! ### Whole numbers -/

section Summing

/-- Whole numbers with a sum of at most 28 digits are added without rounding. -/
theorem sum_whole {values : List ℚ} (hwhole : ∀ x ∈ values, ∃ n : ℕ, x = n) (hsum : values.sum < 10 ^ 28) :
    DecimalContext.default.sum values = values.sum := by
  have hfold : ∀ (values : List ℚ) (start : ℕ), (∀ x ∈ values, ∃ n : ℕ, x = n) → start + values.sum < 10 ^ 28 →
      values.foldl DecimalContext.default.add start = start + values.sum := by
    intro values
    induction values with
    | nil => exact fun start _ _ => (add_zero _).symm
    | cons first values ih =>
        intro start hwhole hsum
        obtain ⟨n, rfl⟩ := hwhole first List.mem_cons_self
        have hrest : ∀ x ∈ values, ∃ n : ℕ, x = n := fun x hx => hwhole x (List.mem_cons_of_mem _ hx)
        have hnonneg : 0 ≤ values.sum := by
          refine List.sum_nonneg fun x hx => ?_
          obtain ⟨m, rfl⟩ := hrest x hx
          exact Nat.cast_nonneg m
        rw [List.sum_cons, ← add_assoc, ← Nat.cast_add] at hsum
        have hsmall : ((start + n : ℕ) : ℚ) < 10 ^ 28 := (le_add_of_nonneg_right hnonneg).trans_lt hsum
        have hrepresentable : Representable 28 ((start + n : ℕ) : ℚ) := by
          refine ⟨(start + n : ℕ), 0, ?_, by simp⟩
          have hnat : start + n < 10 ^ 28 := by exact_mod_cast hsmall
          rw [abs_of_nonneg (Int.natCast_nonneg _)]
          exact_mod_cast hnat
        have hadd : DecimalContext.default.add start n = ((start + n : ℕ) : ℚ) := by
          rw [Nat.cast_add] at hrepresentable ⊢
          exact roundDigits_of_representable hrepresentable
        rw [List.foldl_cons, hadd, ih _ hrest hsum, List.sum_cons, Nat.cast_add, add_assoc]
  have h := hfold values 0 hwhole (by rwa [Nat.cast_zero, zero_add])
  rwa [Nat.cast_zero, zero_add] at h

end Summing

/-! ### Candles as tiles -/

section Parts

variable {anchor : Datetime} {interval : Int} {asOf : Datetime} {selected fine : List Candle}

theorem ordered_of_precedes (h : selected.Pairwise Precedes) : Tiling.Ordered startOf endOf selected :=
  ⟨fun candle _ => candle.valid.lasts, h⟩

theorem lt_of_gridPoint_lt (hinterval : 0 < interval) {anchor i j : Int}
    (h : gridPoint anchor interval i < gridPoint anchor interval j) : i < j := by
  by_contra hafter
  exact absurd h (not_lt.mpr (gridPoint_mono hinterval (not_lt.mp hafter)))

/-- A candle that fits into its bucket crosses no point of the grid. -/
theorem uncrossed_of_fits (hinterval : 0 < interval) {anchor : Int}
    (hfits : ∀ candle ∈ selected, Fits anchor interval candle) (index : Int) :
    Tiling.Uncrossed startOf endOf selected (gridPoint anchor interval index) := by
  intro candle hcandle hstart
  have hindex := (bucketIndex_eq_iff hinterval).mp (rfl : bucketIndex anchor interval candle = _)
  have hbefore : bucketIndex anchor interval candle < index :=
    lt_of_gridPoint_lt hinterval (hindex.1.trans_lt hstart)
  exact (hfits candle hcandle).ends.trans (gridPoint_mono hinterval hbefore)

/-- The first and the last candle of a covered bucket lie on its ends. -/
theorem exists_ends {anchor index : Int} (hinterval : 0 < interval) (h : Covers anchor interval selected index) :
    (∃ first ∈ bucketOf anchor interval selected index, startOf first = gridPoint anchor interval index) ∧
      ∃ last ∈ bucketOf anchor interval selected index, endOf last = gridPoint anchor interval (index + 1) := by
  have htiles : Tiling.Tiles startOf endOf (gridPoint anchor interval index) (gridPoint anchor interval (index + 1))
    (bucketOf anchor interval selected index) := h
  cases hbucket : bucketOf anchor interval selected index with
  | nil =>
      rw [hbucket] at htiles
      have hsame : gridPoint anchor interval index = gridPoint anchor interval (index + 1) := htiles
      rw [gridPoint_succ] at hsame
      omega
  | cons first rest =>
      rw [hbucket, Tiling.tiles_cons_iff] at htiles
      exact ⟨⟨first, List.mem_cons_self, htiles.1⟩, ⟨rest.getLastD first, getLastD_mem first rest, htiles.2.1⟩⟩

theorem SumsUp.startOf_eq {group : List Candle} {candle : Candle} {index : Int}
    (h : SumsUp anchor interval index group candle) :
    startOf candle = gridPoint anchor.instant interval index := by
  rw [startOf, h.start_eq, instant_bucket]

theorem SumsUp.endOf_eq {group : List Candle} {candle : Candle} {index : Int}
    (h : SumsUp anchor interval index group candle) :
    endOf candle = gridPoint anchor.instant interval (index + 1) := by
  rw [endOf, h.ending_eq, instant_plus, instant_bucket, gridPoint_succ]

theorem SumsUp.bucketIndex_eq (hinterval : 0 < interval) {group : List Candle} {candle : Candle} {index : Int}
    (h : SumsUp anchor interval index group candle) : bucketIndex anchor.instant interval candle = index := by
  rw [bucketIndex_eq_iff hinterval, h.startOf_eq, gridPoint_succ]
  omega

/-- The buckets of a result hold its candles one by one. -/
theorem bucketOf_result (hinterval : 0 < interval) {groups : Int → List Candle} {indices : List Int}
    (hsorted : indices.Pairwise (· < ·))
    (h : List.Forall₂ (fun index candle => SumsUp anchor interval index (groups index) candle) indices fine) (index : Int) :
    (index ∈ indices → ∃ candle, bucketOf anchor.instant interval fine index = [candle] ∧
        SumsUp anchor interval index (groups index) candle) ∧
      (index ∉ indices → bucketOf anchor.instant interval fine index = []) := by
  rw [bucketOf_eq_filter hinterval]
  induction h with
  | nil => exact ⟨fun hmem => absurd hmem List.not_mem_nil, fun _ => rfl⟩
  | @cons first candle indices fine hfirst hrest ih =>
      obtain ⟨hbefore, hsorted⟩ := List.pairwise_cons.mp hsorted
      have ih := ih hsorted
      have hindex := hfirst.bucketIndex_eq hinterval
      by_cases hsame : index = first
      · subst hsame
        have hnone : index ∉ indices := fun hmem => absurd (hbefore index hmem) (lt_irrefl index)
        refine ⟨fun _ => ⟨candle, ?_, hfirst⟩, fun hnot => absurd List.mem_cons_self hnot⟩
        rw [List.filter_cons_of_pos (by simp [hindex]), ih.2 hnone]
      · rw [List.filter_cons_of_neg (by simpa [hindex] using Ne.symm hsame)]
        refine ⟨fun hmem => ih.1 ?_, fun hnot => ih.2 fun hmem => hnot (List.mem_cons_of_mem _ hmem)⟩
        exact (List.mem_cons.mp hmem).resolve_left hsame

end Parts

/-! ### Coarser grids -/

section Coarse

variable {anchor interval index : Int} {selected : List Candle} {count : ℕ}

/-- The points of a coarser grid are points of the finer one. -/
theorem gridPoint_coarse : gridPoint anchor (count * interval) index = gridPoint anchor interval (count * index) := by
  unfold gridPoint
  ring

/-- The points of the finer grid in a bucket of the coarser one. -/
def innerPoint (anchor interval : Int) (count : ℕ) (index : Int) (n : ℕ) : Int :=
  gridPoint anchor interval (count * index + n)

theorem innerPoint_zero : innerPoint anchor interval count index 0 = gridPoint anchor (count * interval) index := by
  rw [innerPoint, gridPoint_coarse, Nat.cast_zero, add_zero]

theorem innerPoint_count :
    innerPoint anchor interval count index count = gridPoint anchor (count * interval) (index + 1) := by
  rw [innerPoint, gridPoint_coarse, mul_add, mul_one]

theorem innerPoint_succ (n : ℕ) : innerPoint anchor interval count index (n + 1) =
    gridPoint anchor interval (count * index + n + 1) := by
  rw [innerPoint, Nat.cast_succ, add_assoc]

theorem innerPoint_mono (hinterval : 0 < interval) {m n : ℕ} (h : m ≤ n) :
    innerPoint anchor interval count index m ≤ innerPoint anchor interval count index n :=
  gridPoint_mono hinterval (by omega)

/-- A coarse bucket is its fine buckets, one after the other. -/
theorem bucketOf_coarse (hinterval : 0 < interval) (hordered : Tiling.Ordered startOf endOf selected) (index : Int) :
    bucketOf anchor (count * interval) selected index =
      (List.range count).flatMap fun n : ℕ => bucketOf anchor interval selected (count * index + n) := by
  have hmono : Monotone (innerPoint anchor interval count index) := fun _ _ h => innerPoint_mono hinterval h
  have hgrid := Tiling.window_grid hordered hmono count
  rw [innerPoint_zero, innerPoint_count] at hgrid
  refine hgrid.trans (congrArg (List.range count).flatMap (funext fun n => ?_))
  rw [innerPoint_succ]
  rfl

/-- A coarse bucket is covered when its fine buckets are. -/
theorem covers_coarse (hinterval : 0 < interval) (hordered : Tiling.Ordered startOf endOf selected)
    (huncrossed : ∀ i, Tiling.Uncrossed startOf endOf selected (gridPoint anchor interval i)) (index : Int) :
    Covers anchor (count * interval) selected index ↔ ∀ n < count, Covers anchor interval selected (count * index + n) := by
  have hmono : Monotone (innerPoint anchor interval count index) := fun _ _ h => innerPoint_mono hinterval h
  have hgrid := Tiling.covered_grid hordered hmono (fun n => huncrossed _) count
  rw [innerPoint_zero, innerPoint_count] at hgrid
  refine hgrid.trans (forall₂_congr fun n _ => ?_)
  rw [innerPoint_succ]
  rfl

end Coarse

/-! ### Candles that agree -/

section Agreement

variable {anchor : Datetime} {interval fineInterval index : Int} {count : ℕ} {indices : ℕ → Int}
  {parts : ℕ → List Candle} {candles : ℕ → Candle} {twice once : Candle}

/-- Two candles with the same span, prices of the same value, and the same opening and closing. -/
structure SameCandle (left right : Candle) : Prop where
  start_eq : left.start = right.start
  ending_eq : left.ending = right.ending
  opening_eq : left.opening = right.opening
  closing_eq : left.closing = right.closing
  high_value : left.high.value = right.high.value
  low_value : left.low.value = right.low.value
  completed_eq : left.completed = right.completed

theorem head?_flatMap (hparts : ∀ n < count, ∃ first, (parts n).head? = some first) (hcount : 0 < count) :
    ((List.range count).flatMap parts).head? = (parts 0).head? := by
  obtain ⟨m, rfl⟩ := Nat.exists_eq_succ_of_ne_zero hcount.ne'
  obtain ⟨first, hfirst⟩ := hparts 0 hcount
  rw [List.range_succ_eq_map, List.flatMap_cons, List.head?_append, hfirst, Option.some_or]

theorem getLast?_flatMap {m : ℕ} {last : Candle} (hlast : (parts m).getLast? = some last) :
    ((List.range (m + 1)).flatMap parts).getLast? = some last := by
  rw [List.range_succ, List.flatMap_append, List.flatMap_singleton, List.getLast?_append, hlast, Option.some_or]

/-- Summing up sums agrees with summing up once. -/
theorem sameCandle_of_parts (hcount : 0 < count)
    (hparts : ∀ n < count, SumsUp anchor fineInterval (indices n) (parts n) (candles n))
    (htwice : SumsUp anchor interval index ((List.range count).map candles) twice)
    (honce : SumsUp anchor interval index ((List.range count).flatMap parts) once) : SameCandle twice once := by
  have hmem {n : ℕ} (hn : n < count) : candles n ∈ (List.range count).map candles :=
    List.mem_map_of_mem (List.mem_range.mpr hn)
  have hsource {n : ℕ} (hn : n < count) {source : Candle} (h : source ∈ parts n) :
      source ∈ (List.range count).flatMap parts :=
    List.mem_flatMap.mpr ⟨n, List.mem_range.mpr hn, h⟩
  refine ⟨htwice.start_eq.trans honce.start_eq.symm, htwice.ending_eq.trans honce.ending_eq.symm, ?_, ?_, ?_, ?_,
    htwice.completed.trans honce.completed.symm⟩
  · have hheads : ∀ n < count, ∃ first, (parts n).head? = some first := by
      intro n hn
      obtain ⟨first, hfirst, -⟩ := Option.map_eq_some_iff.mp (hparts n hn).opening
      exact ⟨first, hfirst⟩
    have hfirst := (hparts 0 hcount).opening
    rw [← head?_flatMap hheads hcount, honce.opening] at hfirst
    obtain ⟨m, rfl⟩ := Nat.exists_eq_succ_of_ne_zero hcount.ne'
    have hsecond := htwice.opening
    rw [List.range_succ_eq_map, List.map_cons] at hsecond
    exact (Option.some.inj hsecond).symm.trans (Option.some.inj hfirst).symm
  · obtain ⟨m, rfl⟩ := Nat.exists_eq_succ_of_ne_zero hcount.ne'
    obtain ⟨last, hlast, hclosing⟩ := Option.map_eq_some_iff.mp (hparts m (Nat.lt_succ_self m)).closing
    have hfirst := honce.closing
    rw [getLast?_flatMap hlast, Option.map_some, hclosing] at hfirst
    have hsecond := htwice.closing
    rw [List.range_succ, List.map_append, List.map_singleton, List.getLast?_concat] at hsecond
    exact (Option.some.inj hsecond).symm.trans (Option.some.inj hfirst)
  · apply le_antisymm
    · obtain ⟨candle, hcandle, hhigh⟩ := htwice.high
      obtain ⟨n, hn, rfl⟩ := List.mem_map.mp hcandle
      obtain ⟨source, hin, hsame⟩ := (hparts n (List.mem_range.mp hn)).high
      rw [← hhigh, ← hsame]
      exact honce.high_most source (hsource (List.mem_range.mp hn) hin)
    · obtain ⟨source, hin, hhigh⟩ := honce.high
      obtain ⟨n, hn, hin⟩ := List.mem_flatMap.mp hin
      rw [← hhigh]
      exact ((hparts n (List.mem_range.mp hn)).high_most source hin : source.high.value ≤ _).trans
        (htwice.high_most _ (hmem (List.mem_range.mp hn)))
  · apply le_antisymm
    · obtain ⟨source, hin, hlow⟩ := honce.low
      obtain ⟨n, hn, hin⟩ := List.mem_flatMap.mp hin
      rw [← hlow]
      exact (htwice.low_least _ (hmem (List.mem_range.mp hn)) : twice.low.value ≤ _).trans
        ((hparts n (List.mem_range.mp hn)).low_least source hin)
    · obtain ⟨candle, hcandle, hlow⟩ := htwice.low
      obtain ⟨n, hn, rfl⟩ := List.mem_map.mp hcandle
      obtain ⟨source, hin, hsame⟩ := (hparts n (List.mem_range.mp hn)).low
      rw [← hlow, ← hsame]
      exact honce.low_least source (hsource (List.mem_range.mp hn) hin)

end Agreement

/-! ### Volumes -/

section Volumes

variable {candles : List Candle}

/-- Volumes are whole, and their sum has at most 28 digits. -/
structure WholeVolumes (candles : List Candle) : Prop where
  whole : ∀ candle ∈ candles, ∃ n : ℕ, candle.volume.value = n
  sum_lt : (candles.map fun candle => candle.volume.value).sum < 10 ^ 28

theorem WholeVolumes.nonneg (h : WholeVolumes candles) :
    ∀ x ∈ candles.map fun candle => candle.volume.value, 0 ≤ x := by
  intro x hx
  obtain ⟨candle, hcandle, rfl⟩ := List.mem_map.mp hx
  obtain ⟨n, hn⟩ := h.whole candle hcandle
  rw [hn]
  exact Nat.cast_nonneg n

theorem WholeVolumes.sublist (h : WholeVolumes candles) {part : List Candle} (hpart : part.Sublist candles) :
    WholeVolumes part := by
  refine ⟨fun candle hcandle => h.whole candle (hpart.subset hcandle), ?_⟩
  exact ((hpart.map _).sum_le_sum h.nonneg).trans_lt h.sum_lt

theorem WholeVolumes.perm (h : WholeVolumes candles) {other : List Candle} (hperm : candles.Perm other) :
    WholeVolumes other := by
  refine ⟨fun candle hcandle => h.whole candle (hperm.mem_iff.mpr hcandle), ?_⟩
  rw [← (hperm.map _).sum_eq]
  exact h.sum_lt

theorem WholeVolumes.total_eq (h : WholeVolumes candles) :
    (total (candles.map Candle.volume)).value = (candles.map fun candle => candle.volume.value).sum := by
  have hfinite : ∀ d ∈ candles.map Candle.volume, d.IsFinite := by
    intro d hd
    obtain ⟨candle, -, rfl⟩ := List.mem_map.mp hd
    exact candle.valid.finite.2.2.2.2
  have hvalues : (candles.map Candle.volume).map Decimal.value = candles.map fun candle => candle.volume.value := by
    rw [List.map_map]
    rfl
  rw [(total_value hfinite).2, hvalues]
  refine sum_whole (fun x hx => ?_) h.sum_lt
  obtain ⟨candle, hcandle, rfl⟩ := List.mem_map.mp hx
  exact h.whole candle hcandle

theorem sum_whole_nat {values : List ℚ} (h : ∀ x ∈ values, ∃ n : ℕ, x = n) : ∃ n : ℕ, values.sum = n := by
  induction values with
  | nil => exact ⟨0, by simp⟩
  | cons first values ih =>
      obtain ⟨n, hn⟩ := h first List.mem_cons_self
      obtain ⟨m, hm⟩ := ih fun x hx => h x (List.mem_cons_of_mem _ hx)
      exact ⟨n + m, by rw [List.sum_cons, hn, hm, Nat.cast_add]⟩

variable {anchor : Datetime} {interval fineInterval index : Int} {count : ℕ} {indices : ℕ → Int}
  {parts : ℕ → List Candle} {sums : ℕ → Candle} {twice once : Candle}

/-- Whole volumes add up to the same in one stage and in two. -/
theorem volume_of_parts (hwhole : WholeVolumes ((List.range count).flatMap parts))
    (hparts : ∀ n < count, SumsUp anchor fineInterval (indices n) (parts n) (sums n))
    (htwice : SumsUp anchor interval index ((List.range count).map sums) twice)
    (honce : SumsUp anchor interval index ((List.range count).flatMap parts) once) :
    twice.volume.value = once.volume.value := by
  have hpart : ∀ n < count, (sums n).volume.value = ((parts n).map fun candle => candle.volume.value).sum ∧
      ∃ m : ℕ, (sums n).volume.value = m := by
    intro n hn
    have hsublist : (parts n).Sublist ((List.range count).flatMap parts) :=
      List.sublist_flatten_of_mem (List.mem_map_of_mem (List.mem_range.mpr hn))
    have hpartWhole := hwhole.sublist hsublist
    have hvalue : (sums n).volume.value = ((parts n).map fun candle => candle.volume.value).sum := by
      rw [(hparts n hn).volume, hpartWhole.total_eq]
    refine ⟨hvalue, ?_⟩
    rw [hvalue]
    refine sum_whole_nat fun x hx => ?_
    obtain ⟨candle, hcandle, rfl⟩ := List.mem_map.mp hx
    exact hpartWhole.whole candle hcandle
  have hsum : (((List.range count).map sums).map fun candle => candle.volume.value).sum =
      (((List.range count).flatMap parts).map fun candle => candle.volume.value).sum := by
    rw [List.map_map, List.map_flatMap, List.flatMap, List.sum_flatten, List.map_map]
    refine congrArg List.sum (List.map_congr_left fun n hn => ?_)
    exact (hpart n (List.mem_range.mp hn)).1
  have hsums : WholeVolumes ((List.range count).map sums) := by
    refine ⟨fun candle hcandle => ?_, ?_⟩
    · obtain ⟨n, hn, rfl⟩ := List.mem_map.mp hcandle
      exact (hpart n (List.mem_range.mp hn)).2
    · rw [hsum]
      exact hwhole.sum_lt
  rw [htwice.volume, honce.volume, hsums.total_eq, hwhole.total_eq, hsum]

end Volumes

/-! ### Resampling twice -/

section Twice

variable {anchor : Datetime} {interval index : Int} {asOf : Datetime} {selected fine once twice candles : List Candle}
  {candle : Candle} {count : ℕ}

/-- Two lists that go with the same keys go with one another. -/
theorem forall₂_of_keys {α β γ : Type} {P : α → β → Prop} {Q : α → γ → Prop} {R : β → γ → Prop} {keys : List α}
    {left : List β} {right : List γ} (hleft : List.Forall₂ P keys left) (hright : List.Forall₂ Q keys right)
    (h : ∀ key ∈ keys, ∀ b c, P key b → Q key c → R b c) : List.Forall₂ R left right := by
  induction hleft generalizing right with
  | nil =>
      cases hright
      exact .nil
  | cons hb _ ih =>
      cases hright with
      | cons hc hright =>
          exact .cons (h _ List.mem_cons_self _ _ hb hc) (ih hright fun key hkey => h key (List.mem_cons_of_mem _ hkey))

/-- Each candle of a result sums up a bucket that is covered. -/
theorem Resampled.exists_bucket (h : Resampled anchor interval selected fine) (hmem : candle ∈ fine) :
    ∃ index, Covers anchor.instant interval selected index ∧
      SumsUp anchor interval index (bucketOf anchor.instant interval selected index) candle := by
  obtain ⟨indices, -, hcovers, hsums⟩ := h
  obtain ⟨index, hindex, hsum⟩ := StableOrder.exists_of_forall₂ (List.Forall₂.flip hsums) hmem
  exact ⟨index, (hcovers index).mp hindex, hsum⟩

theorem mem_of_bucketOf {anchor : Int} (h : candle ∈ bucketOf anchor interval selected index) : candle ∈ selected :=
  (Tiling.mem_window.mp h).1

theorem Resampled.fits (hinterval : 0 < interval) (hruns : Runs anchor interval selected)
    (h : Resampled anchor interval selected fine) : ∀ candle ∈ fine, Fits anchor.instant interval candle := by
  intro candle hmem
  obtain ⟨index, hcovers, hsum⟩ := h.exists_bucket hmem
  obtain ⟨⟨first, hfirst, hstart⟩, last, hlast, hend⟩ := exists_ends hinterval hcovers
  have hstarts : candle.start.toUtc = first.start.toUtc := congrArg Datetime.utc (hsum.startOf_eq.trans hstart.symm)
  have hends : candle.ending.toUtc = last.ending.toUtc := congrArg Datetime.utc (hsum.endOf_eq.trans hend.symm)
  refine ⟨?_, ?_, ?_⟩
  · rw [hstarts]
    exact (hruns.fits first (mem_of_bucketOf hfirst)).start_calendar
  · rw [hends]
    exact (hruns.fits last (mem_of_bucketOf hlast)).ending_calendar
  · rw [hsum.bucketIndex_eq hinterval, hsum.endOf_eq]

/-- What fits into a bucket of the finer grid fits into one of the coarser. -/
theorem Fits.coarse {anchor : Int} (hinterval : 0 < interval) (hcount : 0 < count) (h : Fits anchor interval candle) :
    Fits anchor (count * interval) candle := by
  refine ⟨h.start_calendar, h.ending_calendar, h.ends.trans ?_⟩
  have hcoarse : 0 < count * interval := mul_pos (Int.natCast_pos.mpr hcount) hinterval
  have hindex := ((bucketIndex_eq_iff hinterval).mp (rfl : bucketIndex anchor interval candle = _)).1
  have hwithin := ((bucketIndex_eq_iff hcoarse).mp (rfl : bucketIndex anchor (count * interval) candle = _)).2
  rw [gridPoint_coarse] at hwithin ⊢
  have hbefore := lt_of_gridPoint_lt hinterval (hindex.trans_lt hwithin)
  exact gridPoint_mono hinterval hbefore

/-- The candles of a result follow one another. -/
theorem Resampled.pairwise (hinterval : 0 < interval) (h : Resampled anchor interval selected fine) :
    fine.Pairwise Precedes := by
  obtain ⟨indices, hsorted, -, hsums⟩ := h
  induction hsums with
  | nil => exact .nil
  | @cons index candle indices fine hfirst hrest ih =>
      obtain ⟨hbefore, hsorted⟩ := List.pairwise_cons.mp hsorted
      refine .cons (fun later hlater => ?_) (ih hsorted)
      obtain ⟨index', hindex', hsum⟩ := StableOrder.exists_of_forall₂ (List.Forall₂.flip hrest) hlater
      show endOf candle ≤ startOf later
      rw [hfirst.endOf_eq, SumsUp.startOf_eq hsum]
      exact gridPoint_mono hinterval (hbefore index' hindex')

/-- The candles of a result count wherever its sources did. -/
theorem Resampled.eligible (hinterval : 0 < interval) (h : Resampled anchor interval selected fine)
    (hselected : ∀ source ∈ selected, endOf source ≤ asOf.instant) : ∀ candle ∈ fine, Eligible (some asOf) candle := by
  intro candle hmem
  obtain ⟨index, hcovers, hsum⟩ := h.exists_bucket hmem
  obtain ⟨-, last, hlast, hend⟩ := exists_ends hinterval hcovers
  refine ⟨hsum.completed, fun t ht => ?_⟩
  obtain rfl := Option.some.inj ht
  show endOf candle ≤ asOf.instant
  rw [hsum.endOf_eq, ← hend]
  exact hselected last (mem_of_bucketOf hlast)

/-- A result covers what its sources covered. -/
theorem covers_result (hinterval : 0 < interval) (h : Resampled anchor interval selected fine) (index : Int) :
    Covers anchor.instant interval fine index ↔ Covers anchor.instant interval selected index := by
  obtain ⟨indices, hsorted, hcovers, hsums⟩ := h
  obtain ⟨hone, hnone⟩ := bucketOf_result hinterval hsorted hsums index
  rw [← hcovers]
  constructor
  · intro hfine
    by_contra hnot
    obtain ⟨⟨first, hfirst, -⟩, -⟩ := exists_ends hinterval hfine
    rw [hnone hnot] at hfirst
    exact List.not_mem_nil hfirst
  · intro hmem
    obtain ⟨candle, hbucket, hsum⟩ := hone hmem
    show Tiling.Tiles startOf endOf _ _ (bucketOf anchor.instant interval fine index)
    rw [hbucket]
    exact ⟨hsum.startOf_eq, hsum.endOf_eq⟩

/-- A run over the coarser grid goes over the result of the finer one too. -/
theorem Runs.coarse (hinterval : 0 < interval) (hcount : 0 < count) (hruns : Runs anchor interval selected)
    (hcoarse : Runs anchor (count * interval) selected) (h : Resampled anchor interval selected fine) :
    Runs anchor (count * interval) fine where
  anchor_aware := hruns.anchor_aware
  anchor_calendar := hruns.anchor_calendar
  fits candle hmem := (h.fits hinterval hruns candle hmem).coarse hinterval hcount
  inRange candle hmem := by
    obtain ⟨index, hcovers, hsum⟩ := h.exists_bucket hmem
    obtain ⟨⟨first, hfirst, hstart⟩, -⟩ := exists_ends hinterval hcovers
    have hindex : bucketIndex anchor.instant (count * interval) candle =
        bucketIndex anchor.instant (count * interval) first := by
      unfold bucketIndex
      rw [hsum.startOf_eq, hstart]
    rw [hindex]
    exact hcoarse.inRange first (mem_of_bucketOf hfirst)

/-- The results of one stage and of two agree. -/
theorem resampled_twice (hinterval : 0 < interval) (hcount : 0 < count) (hselected : selected.Pairwise Precedes)
    (hruns : Runs anchor interval selected) (hfine : Resampled anchor interval selected fine)
    (honce : Resampled anchor (count * interval) selected once) (htwice : Resampled anchor (count * interval) fine twice) :
    List.Forall₂ SameCandle twice once ∧
      (WholeVolumes selected → List.Forall₂ (fun left right => left.volume.value = right.volume.value) twice once) := by
  have hordered := ordered_of_precedes hselected
  have hfineOrdered := ordered_of_precedes (hfine.pairwise hinterval)
  have huncrossed := uncrossed_of_fits hinterval hruns.fits
  have hfineUncrossed := uncrossed_of_fits hinterval (hfine.fits hinterval hruns)
  have hcovers : ∀ index, Covers anchor.instant (count * interval) fine index ↔
      Covers anchor.instant (count * interval) selected index := by
    intro index
    rw [covers_coarse hinterval hfineOrdered hfineUncrossed, covers_coarse hinterval hordered huncrossed]
    exact forall₂_congr fun n _ => covers_result hinterval hfine _
  obtain ⟨fineIndices, hfineSorted, hfineCovers, hfineSums⟩ := hfine
  obtain ⟨indices, hsorted, honceCovers, honceSums⟩ := honce
  obtain ⟨indices', hsorted', htwiceCovers, htwiceSums⟩ := htwice
  obtain rfl : indices' = indices := hsorted'.eq_of_mem_iff hsorted fun index => by
    rw [htwiceCovers, hcovers, honceCovers]
  have hparts : ∀ index ∈ indices', ∃ sums : ℕ → Candle,
      (∀ n < count, SumsUp anchor interval (count * index + n)
        (bucketOf anchor.instant interval selected (count * index + n)) (sums n)) ∧
      bucketOf anchor.instant (count * interval) fine index = (List.range count).map sums := by
    intro index hindex
    have hall := (covers_coarse hinterval hordered huncrossed index).mp ((honceCovers index).mp hindex)
    have hbucket : ∀ n < count, ∃ candle, bucketOf anchor.instant interval fine (count * index + n) = [candle] ∧
        SumsUp anchor interval (count * index + n)
          (bucketOf anchor.instant interval selected (count * index + n)) candle :=
      fun n hn => (bucketOf_result hinterval hfineSorted hfineSums _).1 ((hfineCovers _).mpr (hall n hn))
    obtain ⟨candle, -⟩ := hbucket 0 hcount
    have : Nonempty Candle := ⟨candle⟩
    choose! sums hsums using hbucket
    refine ⟨sums, fun n hn => (hsums n hn).2, ?_⟩
    rw [bucketOf_coarse hinterval hfineOrdered, List.map_eq_flatMap]
    exact List.flatMap_congr fun n hn => (hsums n (List.mem_range.mp hn)).1
  constructor
  · refine forall₂_of_keys htwiceSums honceSums fun index hindex left right hleft hright => ?_
    obtain ⟨sums, hsums, hbucket⟩ := hparts index hindex
    rw [hbucket] at hleft
    rw [bucketOf_coarse hinterval hordered] at hright
    exact sameCandle_of_parts hcount hsums hleft hright
  · refine fun hwhole => forall₂_of_keys htwiceSums honceSums fun index hindex left right hleft hright => ?_
    obtain ⟨sums, hsums, hbucket⟩ := hparts index hindex
    have hbucketWhole : WholeVolumes (bucketOf anchor.instant (count * interval) selected index) :=
      hwhole.sublist List.filter_sublist
    rw [hbucket] at hleft
    rw [bucketOf_coarse hinterval hordered] at hright hbucketWhole
    exact volume_of_parts hbucketWhole hsums hleft hright

/-- Candles in order that all count are resampled as they are. -/
theorem resample_again (hinterval : 0 < interval) (haware : asOf.Aware) (hfine : fine.Pairwise Precedes)
    (heligible : ∀ candle ∈ fine, Eligible (some asOf) candle) (hruns : Runs anchor interval fine) :
    ∃ twice, resampleCompletedCandles fine interval asOf (some anchor) = .ok twice ∧
      Resampled anchor interval fine twice := by
  have hcompleted := completed_of_pairwise haware hfine
  rw [List.filter_eq_self.mpr fun candle hmem => decide_eq_true (heligible candle hmem)] at hcompleted
  cases fine with
  | nil =>
      refine ⟨[], resample_nil haware hinterval hcompleted, [], .nil, fun index => ?_, .nil⟩
      refine ⟨fun hmem => absurd hmem List.not_mem_nil, fun hcovers => ?_⟩
      obtain ⟨⟨first, hfirst, -⟩, -⟩ := exists_ends hinterval hcovers
      exact absurd (mem_of_bucketOf hfirst) List.not_mem_nil
  | cons first rest => exact resample_returns haware hinterval hcompleted hruns

/-- Resampling in two stages gives the candles of one stage, and their volumes too where those are whole. -/
theorem resample_composes (hcount : 0 < count)
    (hfine : resampleCompletedCandles candles interval asOf (some anchor) = .ok fine)
    (honce : resampleCompletedCandles candles (count * interval) asOf (some anchor) = .ok once) :
    ∃ twice, resampleCompletedCandles fine (count * interval) asOf (some anchor) = .ok twice ∧
      List.Forall₂ SameCandle twice once ∧
      (WholeVolumes candles →
        List.Forall₂ (fun left right => left.volume.value = right.volume.value) twice once) := by
  obtain ⟨haware, hinterval, selected, hselected, hfine⟩ := resample_eq_ok hfine
  obtain ⟨-, hcoarse, selected', hselected', honce⟩ := resample_eq_ok honce
  obtain rfl : selected = selected' := Except.ok.inj (hselected.symm.trans hselected')
  obtain ⟨hchain, hperm⟩ := completed_eq_ok candles (some asOf) hselected
  have hpairwise : selected.Pairwise Precedes := List.isChain_iff_pairwise.mp hchain
  rcases hfine with ⟨rfl, rfl⟩ | ⟨first, rest, rfl, hruns, hfine⟩
  · obtain ⟨-, rfl⟩ | ⟨first, rest, hcons, -⟩ := honce
    · exact ⟨[], resample_nil haware hcoarse (completed_of_pairwise haware .nil), .nil, fun _ => .nil⟩
    · cases hcons
  · obtain ⟨hnil, -⟩ | ⟨first', rest', hcons, hruns', honce⟩ := honce
    · cases hnil
    · obtain ⟨rfl, rfl⟩ := List.cons.inj hcons
      have hends : ∀ source ∈ first :: rest, endOf source ≤ asOf.instant := by
        intro source hsource
        have heligible := of_decide_eq_true (List.mem_filter.mp (hperm.mem_iff.mp hsource)).2
        exact heligible.2 asOf rfl
      obtain ⟨twice, hcall, htwice⟩ := resample_again hcoarse haware (hfine.pairwise hinterval)
        (hfine.eligible hinterval hends) (hruns.coarse hinterval hcount hruns' hfine)
      obtain ⟨hsame, hvolumes⟩ := resampled_twice hinterval hcount hpairwise hruns hfine honce htwice
      refine ⟨twice, hcall, hsame, fun hwhole => hvolumes ?_⟩
      exact (hwhole.sublist List.filter_sublist).perm hperm.symm

/-- Four minutes. -/
def fourMinutes : List Candle := [minuteCandle 1 true, minuteCandle 2 true, minuteCandle 3 true, minuteCandle 4 true]

theorem exists_of_isOk {ε α : Type} {result : Except ε α} (h : result.isOk = true) : ∃ value, result = .ok value := by
  cases result with
  | error e => cases h
  | ok value => exact ⟨value, rfl⟩

theorem resample_composes_fourMinutes : ∃ fine once twice,
    resampleCompletedCandles fourMinutes 120000000 (.utc 240000000) (some (.utc 0)) = .ok fine ∧
      resampleCompletedCandles fourMinutes 240000000 (.utc 240000000) (some (.utc 0)) = .ok once ∧
      resampleCompletedCandles fine 240000000 (.utc 240000000) (some (.utc 0)) = .ok twice ∧
      List.Forall₂ SameCandle twice once := by
  have hisOk : (resampleCompletedCandles fourMinutes 120000000 (.utc 240000000) (some (.utc 0))).isOk = true ∧
      (resampleCompletedCandles fourMinutes 240000000 (.utc 240000000) (some (.utc 0))).isOk = true := by
    decide +kernel
  obtain ⟨fine, hfine⟩ := exists_of_isOk hisOk.1
  obtain ⟨once, honce⟩ := exists_of_isOk hisOk.2
  obtain ⟨twice, htwice, hsame, -⟩ := resample_composes (by decide : 0 < 2) hfine honce
  exact ⟨fine, once, twice, hfine, honce, htwice, hsame⟩

end Twice

end TecoQuant.Analytics
