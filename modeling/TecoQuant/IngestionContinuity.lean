import Mathlib.Data.List.Chain
import TecoQuant.AnalyticsOverlap
import TecoQuant.BaseExcept
import TecoQuant.IngestionIntraday

/-! When an accepted series is usable. Within a day of the exchange each candle starts where the one before it ends;
across midnight only the order of the starts is checked, so the last candle of a day may reach into the next. -/

namespace TecoQuant.Ingestion

open Analytics Except

/-! ### What a series consists of -/

section Series

variable {duration : Int} {asOf : Datetime} {previousStart : Option Datetime} {index : Nat} {row : IntradayRow}
  {rows : List IntradayRow} {candle : Candle} {candles : List Candle}

/-- The day of the exchange at an instant. -/
def istDay (instant : Int) : Int := (instant + istOffset) / 86400000000

/-- The start of a candle after that of another, on the same day a duration later. -/
def Follows (duration left right : Int) : Prop := left < right ∧ (istDay right = istDay left → right - left = duration)

theorem istDate_eq_ok {t : Datetime} {day : Int} (h : istDate t = .ok day) : day = istDay t.instant := by
  unfold istDate at h
  split at h
  · exact (Except.ok.inj h).symm
  · cases h

theorem checkContinuity_eq_ok {previous start : Datetime} {u : Unit}
    (h : checkContinuity duration (some previous) start = .ok u) : Follows duration previous.instant start.instant := by
  obtain ⟨hlater, h⟩ := ite_error_eq_ok.mp h
  obtain ⟨day, hday, h⟩ := bind_eq_ok.mp h
  obtain ⟨previousDay, hpreviousDay, h⟩ := bind_eq_ok.mp h
  obtain ⟨hcontinuous, -⟩ := ite_error_eq_ok.mp h
  refine ⟨not_le.mp hlater, fun hsame => ?_⟩
  rw [istDate_eq_ok hday, istDate_eq_ok hpreviousDay] at hcontinuous
  by_contra hgap
  exact hcontinuous ⟨hsame, hgap⟩

theorem new_eq_ok {start ending : Datetime} {opening high low closing volume : Decimal} {completed : Bool}
    (h : Candle.new start ending opening high low closing volume completed = .ok candle) :
    candle.start = start ∧ candle.ending = ending ∧ candle.completed = completed := by
  unfold Candle.new at h
  split at h
  · obtain rfl := Except.ok.inj h
    exact ⟨rfl, rfl, rfl⟩
  · cases h

theorem integerValue_eq_ok {value : Json} {field : String} {n : Int} (h : integerValue value field = .ok n) :
    readInteger value = some n := by
  obtain ⟨u, -, h⟩ := bind_eq_ok.mp h
  cases hread : readInteger value with
  | none =>
      rw [hread] at h
      cases h
  | some m =>
      rw [hread] at h
      exact congrArg some (Except.ok.inj h)

/-- A candle that a row gives: its start, its length and whether it is completed. -/
structure FromRow (duration : Int) (asOf : Datetime) (row : IntradayRow) (candle : Candle) : Prop where
  read : ∃ epoch, readInteger row.timestamp = some epoch ∧ candle.start.instant = epoch * 1000000
  ends : candle.ending.instant = candle.start.instant + duration
  completed : candle.completed = decide (candle.ending.instant ≤ asOf.instant)

theorem rowCandle_eq_ok (h : rowCandle duration asOf previousStart index row = .ok candle) :
    FromRow duration asOf row candle ∧
      ∀ previous ∈ previousStart, Follows duration previous.instant candle.start.instant := by
  obtain ⟨epoch, hepoch, h⟩ := bind_eq_ok.mp h
  obtain ⟨-, h⟩ := ite_error_eq_ok.mp h
  obtain ⟨-, h⟩ := ite_error_eq_ok.mp h
  obtain ⟨u, hcontinuity, h⟩ := bind_eq_ok.mp h
  obtain ⟨-, h⟩ := ite_error_eq_ok.mp h
  obtain ⟨opening, -, h⟩ := bind_eq_ok.mp h
  obtain ⟨high, -, h⟩ := bind_eq_ok.mp h
  obtain ⟨low, -, h⟩ := bind_eq_ok.mp h
  obtain ⟨closing, -, h⟩ := bind_eq_ok.mp h
  obtain ⟨volume, -, h⟩ := bind_eq_ok.mp h
  obtain ⟨hstart, hending, hcompleted⟩ : candle.start = .utc (epoch * 1000000) ∧
      candle.ending = (Datetime.utc (epoch * 1000000)).plus duration ∧
      candle.completed = decide (((Datetime.utc (epoch * 1000000)).plus duration).instant ≤ asOf.instant) :=
    new_eq_ok (mapError_eq_ok.mp h)
  have hinstant : candle.start.instant = epoch * 1000000 := by rw [hstart, Datetime.instant_utc]
  refine ⟨⟨⟨epoch, integerValue_eq_ok hepoch, hinstant⟩, ?_, by rw [hcompleted, hending]⟩, ?_⟩
  · rw [hending, hstart]
    simp only [Datetime.plus, Datetime.utc, Datetime.instant]
    omega
  · intro previous hprevious
    obtain rfl := Option.mem_def.mp hprevious
    rw [hstart]
    exact checkContinuity_eq_ok hcontinuity

theorem rowCandles_eq_ok (h : rowCandles duration asOf previousStart index rows = .ok candles) :
    List.Forall₂ (FromRow duration asOf) rows candles ∧
      (previousStart.toList.map Datetime.instant ++ candles.map (·.start.instant)).IsChain (Follows duration) := by
  induction rows generalizing previousStart index candles with
  | nil =>
      obtain rfl := Except.ok.inj h
      cases previousStart <;> exact ⟨.nil, by simp⟩
  | cons row rows ih =>
      obtain ⟨candle, hcandle, h⟩ := bind_eq_ok.mp h
      obtain ⟨rest, hrest, h⟩ := bind_eq_ok.mp h
      obtain rfl := Except.ok.inj h
      obtain ⟨hrow, hfollows⟩ := rowCandle_eq_ok hcandle
      obtain ⟨hrows, hchain⟩ := ih hrest
      refine ⟨.cons hrow hrows, ?_⟩
      cases previousStart with
      | none => exact hchain
      | some previous => exact List.isChain_cons_cons.mpr ⟨hfollows previous rfl, hchain⟩

end Series

/-! ### The timestamps of a payload -/

section Timestamps

variable {payload : List (String × Json)} {rows : List IntradayRow} {candles : List Candle} {duration : Int}
  {asOf : Datetime}

/-- The epochs that the array of timestamps shows. -/
def payloadEpochs (payload : List (String × Json)) : List Int :=
  match payloadData payload with
  | .object data =>
      match data.lookup "timestamp" with
      | some (.array items) => items.filterMap readInteger
      | _ => []
  | _ => []

theorem arrayOf_eq_ok {data : List (String × Json)} {name : String} {items : List Json}
    (h : arrayOf data name = .ok items) : data.lookup name = some (.array items) := by
  unfold arrayOf at h
  split at h
  · rename_i found hfound
    rw [hfound, Except.ok.inj h]
  · cases h

theorem zipRows_timestamps {openings highs lows closings volumes timestamps : List Json}
    (h : ∀ array ∈ [openings, highs, lows, closings, volumes], array.length = timestamps.length) :
    (zipRows openings highs lows closings volumes timestamps).map IntradayRow.timestamp = timestamps := by
  induction timestamps generalizing openings highs lows closings volumes with
  | nil =>
      have hopenings : openings = [] := List.length_eq_zero_iff.mp (h openings (by simp))
      rw [hopenings]
      rfl
  | cons timestamp timestamps ih =>
      simp only [List.forall_mem_cons] at h
      obtain ⟨hopenings, hhighs, hlows, hclosings, hvolumes, -⟩ := h
      obtain ⟨opening, openings, rfl⟩ := List.exists_cons_of_length_eq_add_one hopenings
      obtain ⟨high, highs, rfl⟩ := List.exists_cons_of_length_eq_add_one hhighs
      obtain ⟨low, lows, rfl⟩ := List.exists_cons_of_length_eq_add_one hlows
      obtain ⟨closing, closings, rfl⟩ := List.exists_cons_of_length_eq_add_one hclosings
      obtain ⟨volume, volumes, rfl⟩ := List.exists_cons_of_length_eq_add_one hvolumes
      rw [zipRows, List.map_cons, ih]
      simp only [List.length_cons, Nat.add_right_cancel_iff] at hopenings hhighs hlows hclosings hvolumes
      simp [hopenings, hhighs, hlows, hclosings, hvolumes]

theorem intradayRows_epochs (h : intradayRows payload = .ok rows) :
    rows.filterMap (fun row => readInteger row.timestamp) = payloadEpochs payload := by
  unfold intradayRows at h
  unfold payloadEpochs
  cases hdata : payloadData payload with
  | object data =>
      rw [hdata] at h
      obtain ⟨openings, -, h⟩ := bind_eq_ok.mp h
      obtain ⟨highs, -, h⟩ := bind_eq_ok.mp h
      obtain ⟨lows, -, h⟩ := bind_eq_ok.mp h
      obtain ⟨closings, -, h⟩ := bind_eq_ok.mp h
      obtain ⟨volumes, -, h⟩ := bind_eq_ok.mp h
      obtain ⟨timestamps, htimestamps, h⟩ := bind_eq_ok.mp h
      obtain ⟨hlengths, h⟩ := ite_error_eq_ok.mp h
      obtain ⟨-, h⟩ := ite_error_eq_ok.mp h
      obtain rfl := Except.ok.inj h
      have hsame : ∀ array ∈ [openings, highs, lows, closings, volumes], array.length = timestamps.length := by
        intro array harray
        by_contra hne
        exact hlengths ⟨array, harray, hne⟩
      simp only [arrayOf_eq_ok htimestamps]
      have hmapped := congrArg (List.filterMap readInteger) (zipRows_timestamps hsame)
      rwa [List.filterMap_map] at hmapped
  | _ =>
      rw [hdata] at h
      cases h

theorem starts_eq (h : List.Forall₂ (FromRow duration asOf) rows candles) :
    candles.map (·.start.instant) = (rows.filterMap fun row => readInteger row.timestamp).map (· * 1000000) := by
  induction h with
  | nil => rfl
  | cons hrow hrows ih =>
      obtain ⟨epoch, hread, hstart⟩ := hrow.read
      rw [List.map_cons, List.filterMap_cons_some (f := fun row : IntradayRow => readInteger row.timestamp) hread,
        List.map_cons, ih, hstart]

theorem exists_row (h : List.Forall₂ (FromRow duration asOf) rows candles) {candle : Candle} (hmem : candle ∈ candles) :
    ∃ row ∈ rows, FromRow duration asOf row candle := by
  induction h with
  | nil => cases hmem
  | cons hrow hrows ih =>
      rcases List.mem_cons.mp hmem with rfl | hmem
      · exact ⟨_, List.mem_cons_self, hrow⟩
      · obtain ⟨row, hmem', hrow'⟩ := ih hmem
        exact ⟨row, List.mem_cons_of_mem _ hmem', hrow'⟩

end Timestamps

/-! ### Usable series -/

section Usable

variable {payload : List (String × Json)} {series : DhanIntradaySeries} {asOf : Datetime} {candles : List Candle}

/-- What the indicators need of a series. -/
structure Usable (series : DhanIntradaySeries) (asOf : Datetime) : Prop where
  disjoint : series.candles.Pairwise fun left right => Precedes left right ∨ Precedes right left
  starts : series.candles.Pairwise fun left right => left.start.instant < right.start.instant
  ends : series.candles.Pairwise fun left right => left.ending.instant < right.ending.instant
  completed_prefix : series.completed <+: series.candles
  technicals : series.intervalMinutes = 15 → 45 ≤ series.completed.length →
    ∀ statistics observedAt annualPeriods, asOf.instant ≤ observedAt.instant →
      completedTechnicalState statistics series observedAt annualPeriods ≠ .error (.analytics overlapping)

/-- Across midnight too, a candle starts when the one before it has ended. -/
def SpacedAcrossDays (intervalMinutes : Int) (epochs : List Int) : Prop :=
  epochs.IsChain fun left right => istDay (left * 1000000) ≠ istDay (right * 1000000) →
    left + intervalMinutes * 60 ≤ right

instance spacedAcrossDaysDecidable (intervalMinutes : Int) (epochs : List Int) :
    Decidable (SpacedAcrossDays intervalMinutes epochs) :=
  inferInstanceAs (Decidable (List.IsChain _ _))

theorem filter_prefix {p : Candle → Bool} (h : candles.Pairwise fun left right => p right = true → p left = true) :
    candles.filter p <+: candles := by
  induction candles with
  | nil => exact List.prefix_refl _
  | cons candle candles ih =>
      obtain ⟨hfirst, hrest⟩ := List.pairwise_cons.mp h
      by_cases hp : p candle = true
      · rw [List.filter_cons_of_pos hp]
        exact (List.prefix_cons_inj candle).mpr (ih hrest)
      · have hnone : (candle :: candles).filter p = [] := by
          rw [List.filter_eq_nil_iff]
          intro other hother
          rcases List.mem_cons.mp hother with rfl | hother
          · exact hp
          · exact fun hpother => hp (hfirst other hother hpother)
        rw [hnone]
        exact List.nil_prefix

theorem dated_fst {dates : List (Candle × Int)}
    (h : (candles.mapM fun candle => return (candle, ← istDate candle.ending)) = .ok dates) :
    dates.map Prod.fst = candles := by
  induction candles generalizing dates with
  | nil =>
      obtain rfl := Except.ok.inj h
      rfl
  | cons candle candles ih =>
      rw [List.mapM_cons] at h
      obtain ⟨first, hfirst, h⟩ := bind_eq_ok.mp h
      obtain ⟨rest, hrest, h⟩ := bind_eq_ok.mp h
      obtain ⟨date, -, hfirst⟩ := bind_eq_ok.mp hfirst
      obtain rfl := Except.ok.inj h
      rw [← Except.ok.inj hfirst, List.map_cons, ih hrest]

theorem sessionOf_sublist {latest : Candle} {session : List Candle} (h : sessionOf latest candles = .ok session) :
    session.Sublist candles := by
  obtain ⟨day, -, h⟩ := bind_eq_ok.mp h
  obtain ⟨dates, hdates, h⟩ := bind_eq_ok.mp h
  obtain rfl := Except.ok.inj h
  have hfiltered := (List.filter_sublist (p := fun entry : Candle × Int => decide (entry.2 = day)) (l := dates)).map
    Prod.fst
  rwa [dated_fst hdates] at hfiltered

theorem sessionOf_raises (latest : Candle) : RaisesOnly (· ≠ .analytics overlapping) (sessionOf latest candles) := by
  have hdate : ∀ t, RaisesOnly (· ≠ IntradayFault.analytics overlapping) (istDate t) := fun t =>
    raisesOnly_ite (raisesOnly_ok _) (raisesOnly_error.mpr nofun)
  refine (hdate _).bind fun day _ => RaisesOnly.bind (raisesOnly_mapM fun candle _ => ?_) fun dates _ => raisesOnly_ok _
  exact (hdate _).bind fun date _ => raisesOnly_ok _

theorem awareAs_raises (t : Datetime) (name : String) : RaisesOnly (· ≠ .analytics overlapping) (awareAs t name) :=
  raisesOnly_ite (raisesOnly_ok ()) (raisesOnly_error.mpr nofun)

theorem indicator_raises {α : Type} {result : Except Analytics.Fault α} (h : RaisesOnly (· ≠ overlapping) result) :
    RaisesOnly (· ≠ .analytics overlapping) (indicator result) := by
  cases result with
  | error fault =>
      refine raisesOnly_error.mpr fun hsame => h fault rfl ?_
      exact IntradayFault.analytics.inj hsame
  | ok value => exact raisesOnly_ok value

/-- Candles that follow one another never make the technical state fail on an overlap. -/
theorem completedTechnicalState_raises (hdisjoint : series.candles.Pairwise Precedes) (statistics : Statistics)
    (observedAt : Datetime) (annualPeriods : Int) :
    RaisesOnly (· ≠ .analytics overlapping) (completedTechnicalState statistics series observedAt annualPeriods) := by
  have hnormalization (message : String) :
      IntradayFault.normalization message ≠ .analytics overlapping := nofun
  have hcompleted : (series.completedBy observedAt).Pairwise Precedes := hdisjoint.filter _
  refine (awareAs_raises observedAt _).bind fun _ haware => ?_
  have haware : observedAt.Aware := by
    by_contra hnaive
    rw [awareAs, if_neg hnaive] at haware
    cases haware
  have hselected : ∀ candles : List Candle, candles.Pairwise Precedes →
      RaisesOnly (· ≠ overlapping) (Analytics.completed candles (some observedAt)) := by
    intro candles hcandles
    rw [completed_of_pairwise haware hcandles]
    exact raisesOnly_ok _
  have hall := hselected _ hcompleted
  have hearlier := hselected _ (hcompleted.sublist (List.dropLast_sublist _))
  refine raisesOnly_ite (raisesOnly_error.mpr (hnormalization _)) ?_
  refine raisesOnly_ite (raisesOnly_error.mpr (hnormalization _)) ?_
  cases hlast : (series.completedBy observedAt).getLast? with
  | none =>
      simp only [hlast]
      exact raisesOnly_error.mpr (hnormalization _)
  | some latest =>
      simp only [hlast]
      refine raisesOnly_ite (raisesOnly_error.mpr (hnormalization _)) ?_
      refine (indicator_raises (ema_raises hall 9)).bind fun ema9 _ => ?_
      refine (indicator_raises (ema_raises hall 21)).bind fun ema21 _ => ?_
      refine (indicator_raises (wma_raises hall 44)).bind fun wma44 _ => ?_
      refine (indicator_raises (wma_raises hearlier 44)).bind fun previousWma44 _ => ?_
      refine (indicator_raises (wilderRsi_raises hall 14)).bind fun rsi14 _ => ?_
      refine (indicator_raises (atr_raises hall 14)).bind fun atr14 _ => ?_
      refine raisesOnly_ite (raisesOnly_error.mpr (hnormalization _)) ?_
      refine (sessionOf_raises latest).bind fun session hsession => ?_
      have htoday := hselected _ (hcompleted.sublist (sessionOf_sublist hsession))
      refine (indicator_raises (vwap_raises htoday)).bind fun mean _ => ?_
      cases mean with
      | none => exact raisesOnly_error.mpr (hnormalization _)
      | some sessionVwap =>
          refine raisesOnly_ite (raisesOnly_error.mpr (hnormalization _)) ?_
          refine (raisesOnly_mapError _ fun _ => nofun).bind fun volatility _ => ?_
          cases volatility with
          | none => exact raisesOnly_error.mpr (hnormalization _)
          | some referenceVolatility => exact raisesOnly_ok _

/-- What is known of an accepted series. -/
structure Accepted (payload : List (String × Json)) (asOf : Datetime) (series : DhanIntradaySeries) : Prop where
  interval : 0 < series.intervalMinutes
  epochs : series.candles.map (·.start.instant) = (payloadEpochs payload).map (· * 1000000)
  ends : ∀ candle ∈ series.candles, candle.ending.instant = candle.start.instant + series.intervalMinutes * 60000000
  completed : ∀ candle ∈ series.candles, candle.completed = decide (candle.ending.instant ≤ asOf.instant)
  follows : series.candles.IsChain fun left right =>
    Follows (series.intervalMinutes * 60000000) left.start.instant right.start.instant

theorem accepted_of_ok {intervalMinutes : Int} (h : normalizeDhanIntraday payload intervalMinutes asOf = .ok series) :
    series.intervalMinutes = intervalMinutes ∧ Accepted payload asOf series := by
  obtain ⟨hsupported, h⟩ := ite_error_eq_ok.mp h
  obtain ⟨u, -, h⟩ := bind_eq_ok.mp h
  obtain ⟨rows, hrows, h⟩ := bind_eq_ok.mp h
  obtain ⟨candles, hcandles, h⟩ := bind_eq_ok.mp h
  have hseries : series.intervalMinutes = intervalMinutes ∧ series.candles = candles := by
    cases candles with
    | nil => cases h
    | cons first rest =>
        obtain rfl := Except.ok.inj h
        exact ⟨rfl, rfl⟩
  obtain ⟨rfl, rfl⟩ := hseries
  obtain ⟨hfrom, hchain⟩ := rowCandles_eq_ok hcandles
  refine ⟨rfl, ?_, ?_, fun candle hcandle => ?_, fun candle hcandle => ?_, ?_⟩
  · have hall : ∀ minutes ∈ supportedIntervals, 0 < minutes := by decide
    exact hall series.intervalMinutes (not_not.mp hsupported)
  · rw [starts_eq hfrom, intradayRows_epochs hrows]
  · obtain ⟨row, -, hrow⟩ := exists_row hfrom hcandle
    exact hrow.ends
  · obtain ⟨row, -, hrow⟩ := exists_row hfrom hcandle
    exact hrow.completed
  · have hmapped : (series.candles.map (·.start.instant)).IsChain (Follows (series.intervalMinutes * 60000000)) := hchain
    rwa [List.isChain_map] at hmapped

theorem Accepted.starts (h : Accepted payload asOf series) :
    series.candles.Pairwise fun left right => left.start.instant < right.start.instant := by
  have : IsTrans Candle fun left right => left.start.instant < right.start.instant := ⟨fun _ _ _ => lt_trans⟩
  exact List.isChain_iff_pairwise.mp (h.follows.imp fun _ _ hfollow => hfollow.1)

theorem Accepted.endings (h : Accepted payload asOf series) :
    series.candles.Pairwise fun left right => left.ending.instant < right.ending.instant := by
  refine h.starts.imp_of_mem fun hleft hright hlt => ?_
  rw [h.ends _ hleft, h.ends _ hright]
  omega

/-- The distance across midnight, in the microseconds of the candles. -/
theorem Accepted.spaced_iff (h : Accepted payload asOf series) :
    SpacedAcrossDays series.intervalMinutes (payloadEpochs payload) ↔ series.candles.IsChain fun left right =>
      istDay left.start.instant ≠ istDay right.start.instant →
        left.start.instant + series.intervalMinutes * 60000000 ≤ right.start.instant := by
  have hmapped : SpacedAcrossDays series.intervalMinutes (payloadEpochs payload) ↔
      ((payloadEpochs payload).map (· * 1000000)).IsChain fun left right =>
        istDay left ≠ istDay right → left + series.intervalMinutes * 60000000 ≤ right := by
    rw [List.isChain_map]
    refine List.IsChain.iff fun left right => ?_
    have hscale : left + series.intervalMinutes * 60 ≤ right ↔
        left * 1000000 + series.intervalMinutes * 60000000 ≤ right * 1000000 := by omega
    rw [hscale]
  rw [hmapped, ← h.epochs, List.isChain_map]

/-- Neighbours that do not overlap keep their distance, as the later one starts later. -/
theorem Accepted.spaced_of_disjoint (h : Accepted payload asOf series)
    (hdisjoint : series.candles.Pairwise fun left right => Precedes left right ∨ Precedes right left) :
    SpacedAcrossDays series.intervalMinutes (payloadEpochs payload) := by
  rw [h.spaced_iff, List.isChain_iff_forall_rel_of_append_cons_cons]
  intro left right before after hsplit _
  have hordered := h.starts
  have hleft := h.ends left (by rw [hsplit]; simp)
  have hright := h.ends right (by rw [hsplit]; simp)
  have hinterval := h.interval
  rw [hsplit] at hdisjoint hordered
  have happart := (List.pairwise_cons.mp (List.pairwise_append.mp hdisjoint).2.1).1 right List.mem_cons_self
  have hlt := (List.pairwise_cons.mp (List.pairwise_append.mp hordered).2.1).1 right List.mem_cons_self
  unfold Precedes at happart
  omega

/-- Candles that keep their distance across midnight follow one another: within a day each starts where the one
before it ends. -/
theorem Accepted.precedes_of_spaced (h : Accepted payload asOf series)
    (hspaced : SpacedAcrossDays series.intervalMinutes (payloadEpochs payload)) : series.candles.Pairwise Precedes := by
  apply List.isChain_iff_pairwise.mp
  rw [List.isChain_iff_forall_rel_of_append_cons_cons]
  intro left right before after hsplit
  have hfollow := List.isChain_iff_forall_rel_of_append_cons_cons.mp h.follows hsplit
  have hspace := List.isChain_iff_forall_rel_of_append_cons_cons.mp (h.spaced_iff.mp hspaced) hsplit
  show left.ending.instant ≤ right.start.instant
  rw [h.ends left (by rw [hsplit]; simp)]
  by_cases hday : istDay left.start.instant = istDay right.start.instant
  · have hgap := hfollow.2 hday.symm
    omega
  · exact hspace hday

theorem Accepted.completed_prefix (h : Accepted payload asOf series) : series.completed <+: series.candles := by
  refine filter_prefix (h.endings.imp_of_mem fun hleft hright hlt hdone => ?_)
  rw [h.completed _ hright, decide_eq_true_eq] at hdone
  rw [h.completed _ hleft, decide_eq_true_eq]
  omega

/-- An accepted series is usable exactly when its candles keep their distance across midnight. -/
theorem normalizeDhanIntraday_usable_iff (payload : List (String × Json)) (intervalMinutes : Int) (asOf : Datetime)
    (series : DhanIntradaySeries) (h : normalizeDhanIntraday payload intervalMinutes asOf = .ok series) :
    Usable series asOf ↔ SpacedAcrossDays intervalMinutes (payloadEpochs payload) := by
  obtain ⟨rfl, haccepted⟩ := accepted_of_ok h
  constructor
  · intro husable
    exact haccepted.spaced_of_disjoint husable.disjoint
  · intro hspaced
    have hprecedes := haccepted.precedes_of_spaced hspaced
    exact {
      disjoint := hprecedes.imp .inl
      starts := haccepted.starts
      ends := haccepted.endings
      completed_prefix := haccepted.completed_prefix
      technicals := fun _ _ statistics observedAt annualPeriods _ hoverlap =>
        completedTechnicalState_raises hprecedes statistics observedAt annualPeriods _ hoverlap rfl }

/-- A payload of candles at a price of a hundred, with the given timestamps. -/
def flatPayload (epochs : List Int) : List (String × Json) :=
  [("open", .array (epochs.map fun _ => .int 100)), ("high", .array (epochs.map fun _ => .int 101)),
    ("low", .array (epochs.map fun _ => .int 99)), ("close", .array (epochs.map fun _ => .int 100)),
    ("volume", .array (epochs.map fun _ => .int 10)), ("timestamp", .array (epochs.map .int))]

/-- The last two candles of a day and the first two of the next. -/
theorem normalizeDhanIntraday_usable_overnight :
    ∃ series, normalizeDhanIntraday (flatPayload [1787680800, 1787681700, 1787682600, 1787683500]) 15
        (.utc 1787700000000000) = .ok series ∧ Usable series (.utc 1787700000000000) := by
  have hreturns : ∃ starts, (normalizeDhanIntraday (flatPayload [1787680800, 1787681700, 1787682600, 1787683500]) 15
      (.utc 1787700000000000)).map (fun series => series.candles.map (·.start.instant)) = .ok starts :=
    ⟨[1787680800000000, 1787681700000000, 1787682600000000, 1787683500000000], by decide +kernel⟩
  obtain ⟨starts, hreturns⟩ := hreturns
  obtain ⟨series, hseries, -⟩ := map_eq_ok.mp hreturns
  exact ⟨series, hseries, (normalizeDhanIntraday_usable_iff _ _ _ series hseries).mpr (by decide +kernel)⟩

/-- The candle from ten to midnight and the one from midnight on, both of a quarter of an hour. -/
theorem normalizeDhanIntraday_midnight :
    ∃ series, normalizeDhanIntraday (flatPayload [1787682000, 1787682600]) 15 (.utc 1787700000000000) = .ok series ∧
      ¬Usable series (.utc 1787700000000000) := by
  have hreturns : (normalizeDhanIntraday (flatPayload [1787682000, 1787682600]) 15 (.utc 1787700000000000)).map
      (fun series => series.candles.map fun candle => (candle.start.instant, candle.ending.instant)) =
      .ok [(1787682000000000, 1787682900000000), (1787682600000000, 1787683500000000)] := by decide +kernel
  obtain ⟨series, hseries, hspans⟩ := map_eq_ok.mp hreturns
  refine ⟨series, hseries, fun husable => ?_⟩
  have hdisjoint : (series.candles.map fun candle => (candle.start.instant, candle.ending.instant)).Pairwise
      fun left right => left.2 ≤ right.1 ∨ right.2 ≤ left.1 := List.pairwise_map.mpr husable.disjoint
  rw [hspans] at hdisjoint
  revert hdisjoint
  decide

end Usable

end TecoQuant.Ingestion
