import Mathlib.Data.List.Chain
import TecoQuant.AnalyticsCausality

/-! Candles timed by clocks that are set forward and back. Two readings of one clock compare by what they show, all
others as moments; over fixed offsets that is one order. Where a clock is set back it is none, and what is selected
depends on the order of the input. -/

namespace TecoQuant.Analytics.Zones

/-- The offset of a reading in microseconds, by zone, wall clock and `fold`. -/
abbrev Offsets (Zone : Type) := Zone → Int → Bool → Int

/-- An aware datetime by its `tzinfo`, its wall clock in microseconds and its `fold`. -/
structure Reading (Zone : Type) where
  zone : Zone
  wall : Int
  fold : Bool
  deriving DecidableEq, Repr

section Selection

variable {Zone : Type} [DecidableEq Zone] (offsets : Offsets Zone)

/-- The reading at the offset of its zone. -/
def Reading.datetime (t : Reading Zone) : Datetime := ⟨t.wall, some (offsets t.zone t.wall t.fold)⟩

/-- The offset depends on `fold`. -/
def Reading.Folds (t : Reading Zone) : Prop := offsets t.zone t.wall t.fold ≠ offsets t.zone t.wall !t.fold

/-- `left < right`. -/
def Reading.Before (left right : Reading Zone) : Prop :=
  if left.zone = right.zone then left.wall < right.wall
  else (left.datetime offsets).instant < (right.datetime offsets).instant

/-- `left == right`: across zones a reading whose offset depends on `fold` equals none. -/
def Reading.Same (left right : Reading Zone) : Prop :=
  if left.zone = right.zone then left.wall = right.wall
  else ¬left.Folds offsets ∧ ¬right.Folds offsets ∧
    (left.datetime offsets).instant = (right.datetime offsets).instant

instance (t : Reading Zone) : Decidable (t.Folds offsets) := inferInstanceAs (Decidable (_ ≠ _))

instance (left right : Reading Zone) : Decidable (left.Before offsets right) :=
  inferInstanceAs (Decidable (if left.zone = right.zone then left.wall < right.wall
    else (left.datetime offsets).instant < (right.datetime offsets).instant))

instance (left right : Reading Zone) : Decidable (left.Same offsets right) :=
  inferInstanceAs (Decidable (if left.zone = right.zone then left.wall = right.wall
    else ¬left.Folds offsets ∧ ¬right.Folds offsets ∧
      (left.datetime offsets).instant = (right.datetime offsets).instant))

structure Candle where
  start : Reading Zone
  ending : Reading Zone
  opening : Decimal
  high : Decimal
  low : Decimal
  closing : Decimal
  volume : Decimal
  completed : Bool
  lasts : start.Before offsets ending
  valid : ValidPrices opening high low closing volume

variable {offsets}

/-- A completed candle that ends by the evaluation time. -/
def Eligible (asOf : Option (Reading Zone)) (candle : Candle offsets) : Prop :=
  candle.completed = true ∧ ∀ t ∈ asOf, ¬t.Before offsets candle.ending

instance (asOf : Option (Reading Zone)) (candle : Candle offsets) : Decidable (Eligible asOf candle) :=
  inferInstanceAs (Decidable (_ ∧ ∀ t ∈ asOf, _))

/-- The key `(candle.end, candle.start)` is less: the first entries that are not equal decide. -/
def KeyBefore (left right : Candle offsets) : Prop :=
  if left.ending.Same offsets right.ending then
    ¬left.start.Same offsets right.start ∧ left.start.Before offsets right.start
  else left.ending.Before offsets right.ending

instance (left right : Candle offsets) : Decidable (KeyBefore left right) :=
  inferInstanceAs (Decidable (if left.ending.Same offsets right.ending then
      ¬left.start.Same offsets right.start ∧ left.start.Before offsets right.start
    else left.ending.Before offsets right.ending))

/-- `_completed`. Neighbours that are in order stay, also where the order has cycles. -/
def completed (candles : List (Candle offsets)) (asOf : Option (Reading Zone)) :
    Except Fault (List (Candle offsets)) :=
  let selected := (candles.filter (Eligible asOf ·)).insertionSort fun left right => ¬KeyBefore right left
  if selected.IsChain fun previous candle => ¬candle.start.Before offsets previous.ending then .ok selected
  else .error (.analyticsInput "completed candles overlap")

def ema (candles : List (Candle offsets)) (period : Int) (asOf : Option (Reading Zone)) :
    Except Fault (Option Decimal) := do
  let selected ← completed candles asOf
  emaValues (selected.map Candle.closing) period

end Selection

/-! ### Fixed offsets -/

/-- Every offset is a zone of its own. -/
def fixedOffsets : Offsets Int := fun offset _ _ => offset

def ofDatetime (t : Datetime) : Reading Int := ⟨t.utcoffset.getD 0, t.wall, false⟩

theorem instant_ofDatetime (t : Datetime) : ((ofDatetime t).datetime fixedOffsets).instant = t.instant := rfl

/-- Readings at fixed offsets compare as moments. -/
theorem before_ofDatetime {left right : Datetime} :
    (ofDatetime left).Before fixedOffsets (ofDatetime right) ↔ left.instant < right.instant := by
  unfold Reading.Before
  split
  · rename_i hzone
    have hoffset : left.utcoffset.getD 0 = right.utcoffset.getD 0 := hzone
    show left.wall < right.wall ↔ _
    unfold Datetime.instant
    omega
  · rw [instant_ofDatetime, instant_ofDatetime]

theorem same_ofDatetime {left right : Datetime} :
    (ofDatetime left).Same fixedOffsets (ofDatetime right) ↔ left.instant = right.instant := by
  have hfolds (t : Datetime) : ¬(ofDatetime t).Folds fixedOffsets := fun h => h rfl
  unfold Reading.Same
  split
  · rename_i hzone
    have hoffset : left.utcoffset.getD 0 = right.utcoffset.getD 0 := hzone
    show left.wall = right.wall ↔ _
    unfold Datetime.instant
    omega
  · rw [instant_ofDatetime, instant_ofDatetime]
    exact ⟨fun h => h.2.2, fun h => ⟨hfolds left, hfolds right, h⟩⟩

def ofCandle (candle : Analytics.Candle) : Candle fixedOffsets where
  start := ofDatetime candle.start
  ending := ofDatetime candle.ending
  opening := candle.opening
  high := candle.high
  low := candle.low
  closing := candle.closing
  volume := candle.volume
  completed := candle.completed
  lasts := before_ofDatetime.mpr candle.valid.lasts
  valid := candle.valid.toValidPrices

theorem eligible_ofCandle {asOf : Option Datetime} {candle : Analytics.Candle} :
    Eligible (asOf.map ofDatetime) (ofCandle candle) ↔ Analytics.Eligible asOf candle := by
  cases asOf with
  | none => simp [Eligible, Analytics.Eligible, ofCandle]
  | some t => simp [Eligible, Analytics.Eligible, ofCandle, before_ofDatetime]

theorem keyBefore_ofCandle {left right : Analytics.Candle} :
    ¬KeyBefore (ofCandle right) (ofCandle left) ↔ KeyLe left right := by
  have hends : (ofCandle right).ending.Same fixedOffsets (ofCandle left).ending ↔
      right.ending.instant = left.ending.instant := same_ofDatetime
  have hendsBefore : (ofCandle right).ending.Before fixedOffsets (ofCandle left).ending ↔
      right.ending.instant < left.ending.instant := before_ofDatetime
  have hstarts : (ofCandle right).start.Same fixedOffsets (ofCandle left).start ↔
      right.start.instant = left.start.instant := same_ofDatetime
  have hstartsBefore : (ofCandle right).start.Before fixedOffsets (ofCandle left).start ↔
      right.start.instant < left.start.instant := before_ofDatetime
  unfold KeyBefore KeyLe
  split
  · rename_i hsame
    rw [hends] at hsame
    rw [hstarts, hstartsBefore]
    omega
  · rename_i hdifferent
    rw [hends] at hdifferent
    rw [hendsBefore]
    omega

/-- Over fixed offsets the selection is the one by moments. -/
theorem completed_ofCandle (candles : List Analytics.Candle) (asOf : Option Datetime) (haware : ∀ t ∈ asOf, t.Aware) :
    completed (candles.map ofCandle) (asOf.map ofDatetime) =
      (Analytics.completed candles asOf).map (List.map ofCandle) := by
  have hfilter : (candles.map ofCandle).filter (Eligible (asOf.map ofDatetime) ·) =
      (candles.filter (Analytics.Eligible asOf ·)).map ofCandle := by
    rw [List.filter_map]
    congr 1
    exact List.filter_congr fun candle _ => decide_eq_decide.mpr eligible_ofCandle
  have hsort : ((candles.filter (Analytics.Eligible asOf ·)).map ofCandle).insertionSort
        (fun left right => ¬KeyBefore right left) =
      ((candles.filter (Analytics.Eligible asOf ·)).insertionSort KeyLe).map ofCandle :=
    (List.map_insertionSort _ _ _ _ fun left _ right _ => keyBefore_ofCandle.symm).symm
  have hchain : ∀ selected : List Analytics.Candle, (selected.map ofCandle).IsChain
      (fun previous candle => ¬candle.start.Before fixedOffsets previous.ending) ↔ selected.IsChain Precedes := by
    intro selected
    rw [List.isChain_map]
    exact List.IsChain.iff fun previous candle => (not_congr before_ofDatetime).trans not_lt
  have hselected : Analytics.completed candles asOf =
      if ((candles.filter (Analytics.Eligible asOf ·)).insertionSort KeyLe).IsChain Precedes then
        .ok ((candles.filter (Analytics.Eligible asOf ·)).insertionSort KeyLe)
      else .error (.analyticsInput "completed candles overlap") := by
    cases asOf with
    | none => rfl
    | some t =>
        show (aware t "indicator evaluation time" >>= _) = _
        rw [aware, if_pos (haware t rfl)]
        rfl
  unfold completed
  simp only [hfilter, hsort, hchain, hselected]
  split <;> rfl

theorem ema_ofCandle (candles : List Analytics.Candle) (period : Int) (asOf : Option Datetime)
    (haware : ∀ t ∈ asOf, t.Aware) :
    ema (candles.map ofCandle) period (asOf.map ofDatetime) = Analytics.ema candles period asOf := by
  rw [ema, completed_ofCandle candles asOf haware, Analytics.ema]
  rcases Analytics.completed candles asOf with fault | selected
  · rfl
  · show emaValues ((selected.map ofCandle).map Candle.closing) period = emaValues _ period
    rw [List.map_map]
    rfl

/-! ### A clock that is set back -/

/-- New York in the autumn of 2024, set back from two o'clock to one on 3 November. -/
def newYork : Offsets String := fun zone wall fold =>
  if zone = "UTC" then 0
  else if wall < 1730595600000000 ∨ wall < 1730599200000000 ∧ fold = false then -14400000000
  else -18000000000

/-- A quarter of an hour at one price. -/
def quarter (zone : String) (start : Int) (fold : Bool) (price : Decimal)
    (hprice : ValidPrices price price price price 1) :
    Candle newYork where
  start := ⟨zone, start, fold⟩
  ending := ⟨zone, start + 900000000, fold⟩
  opening := price
  high := price
  low := price
  closing := price
  volume := 1
  completed := true
  lasts := by
    unfold Reading.Before
    rw [if_pos rfl]
    show start < start + 900000000
    omega
  valid := hprice

/-- 01:30 EDT, 05:45 UTC and 01:00 EST: three quarters of an hour in a row. -/
def beforeBack : Candle newYork := quarter "America/New_York" 1730597400000000 false 100 (by decide +kernel)

def atBack : Candle newYork := quarter "UTC" 1730612700000000 false 200 (by decide +kernel)

def afterBack : Candle newYork := quarter "America/New_York" 1730595600000000 true 300 (by decide +kernel)

/-- The average over one candle is the last close, and which candle is last depends on the order of the input. -/
theorem ema_reordered :
    [beforeBack, atBack, afterBack].Perm [afterBack, beforeBack, atBack] ∧
      ema [beforeBack, atBack, afterBack] 1 (some ⟨"UTC", 1730617200000000, false⟩) = .ok (some 300) ∧
      ema [afterBack, beforeBack, atBack] 1 (some ⟨"UTC", 1730617200000000, false⟩) = .ok (some 200) := by
  refine ⟨?_, by decide +kernel, by decide +kernel⟩
  exact (List.perm_append_comm : ([beforeBack, atBack] ++ [afterBack]).Perm ([afterBack] ++ [beforeBack, atBack]))

end TecoQuant.Analytics.Zones
