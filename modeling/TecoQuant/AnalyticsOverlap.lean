import TecoQuant.AnalyticsCausality
import TecoQuant.BaseExcept
import TecoQuant.BaseRaises

/-! Candles that follow one another are never reported as overlapping. -/

namespace TecoQuant.Analytics

open Except

/-- What `_completed` raises on candles that overlap. -/
def overlapping : Fault := .analyticsInput "completed candles overlap"

section Selection

variable {candles : List Candle} {t : Datetime}

theorem keyLe_of_precedes {left right : Candle} (h : Precedes left right) : KeyLe left right := by
  have hright := right.valid.lasts
  exact .inl (lt_of_le_of_lt h hright)

/-- The selection of candles that follow one another. -/
theorem completed_of_pairwise (haware : t.Aware) (hdisjoint : candles.Pairwise Precedes) :
    completed candles (some t) = .ok (candles.filter (Eligible (some t) ·)) := by
  have hfiltered : (candles.filter (Eligible (some t) ·)).Pairwise Precedes := hdisjoint.filter _
  have hsorted : (candles.filter (Eligible (some t) ·)).insertionSort KeyLe = candles.filter (Eligible (some t) ·) :=
    (hfiltered.imp keyLe_of_precedes).insertionSort_eq
  have hchain : (candles.filter (Eligible (some t) ·)).IsChain Precedes := List.isChain_iff_pairwise.mpr hfiltered
  unfold completed
  simp only [aware, if_pos haware, hsorted]
  show (if (candles.filter (Eligible (some t) ·)).IsChain Precedes then _ else _) = _
  rw [if_pos hchain]
  rfl

end Selection

/-! ### Indicators -/

section Indicators

variable {candles : List Candle} {t : Datetime}

theorem arith_raises {α : Type} (result : Except ArithmeticError α) : RaisesOnly (· ≠ overlapping) (arith result) :=
  raisesOnly_mapError Fault.arithmetic fun _ => nofun

theorem checkPeriod_raises (value : Int) : RaisesOnly (· ≠ overlapping) (checkPeriod value) :=
  raisesOnly_ite (raisesOnly_error.mpr (by decide)) (raisesOnly_ok _)

theorem greatest_raises (first : Decimal) (rest : List Decimal) : RaisesOnly (· ≠ overlapping) (greatest first rest) :=
  raisesOnly_foldlM (fun _ _ _ => arith_raises _) first

theorem emaValues_raises (values : List Decimal) (period : Int) :
    RaisesOnly (· ≠ overlapping) (emaValues values period) := by
  refine (checkPeriod_raises period).bind fun count _ => ?_
  refine raisesOnly_ite (raisesOnly_ok none) ?_
  exact (arith_raises _).bind fun seed _ => (arith_raises _).bind fun alpha _ => raisesOnly_ok _

theorem ema_raises (hselected : RaisesOnly (· ≠ overlapping) (completed candles (some t))) (period : Int) :
    RaisesOnly (· ≠ overlapping) (ema candles period (some t)) :=
  hselected.bind fun _ _ => emaValues_raises _ period

theorem wma_raises (hselected : RaisesOnly (· ≠ overlapping) (completed candles (some t))) (period : Int) :
    RaisesOnly (· ≠ overlapping) (wma candles period (some t)) := by
  refine (checkPeriod_raises period).bind fun count _ => hselected.bind fun selected _ => ?_
  refine raisesOnly_ite (raisesOnly_ok none) ?_
  exact (arith_raises _).bind fun mean _ => raisesOnly_ok _

theorem vwap_raises (hselected : RaisesOnly (· ≠ overlapping) (completed candles (some t))) :
    RaisesOnly (· ≠ overlapping) (vwap candles (some t)) := by
  refine hselected.bind fun selected _ => raisesOnly_ite (raisesOnly_ok none) ?_
  refine RaisesOnly.bind (raisesOnly_mapM fun candle _ => ?_) fun terms _ =>
    (arith_raises _).bind fun mean _ => raisesOnly_ok _
  exact (arith_raises _).bind fun typical _ => raisesOnly_ok _

theorem wilderAverage_raises (period : Nat) (values : List Decimal) :
    RaisesOnly (· ≠ overlapping) (wilderAverage period values) :=
  (arith_raises _).bind fun seed _ => raisesOnly_foldlM (fun _ _ _ => arith_raises _) seed

theorem wilderRsi_raises (hselected : RaisesOnly (· ≠ overlapping) (completed candles (some t))) (period : Int) :
    RaisesOnly (· ≠ overlapping) (wilderRsi candles period (some t)) := by
  refine (checkPeriod_raises period).bind fun count _ => hselected.bind fun selected _ => ?_
  refine raisesOnly_ite (raisesOnly_ok none) ?_
  refine (arith_raises _).bind fun gains _ => (arith_raises _).bind fun losses _ => ?_
  refine (wilderAverage_raises count gains).bind fun gain _ => (wilderAverage_raises count losses).bind fun loss _ => ?_
  refine raisesOnly_ite (raisesOnly_ok _) ?_
  exact (arith_raises _).bind fun strength _ => (arith_raises _).bind fun share _ => raisesOnly_ok _

theorem trueRange_raises (candle : Candle) (previousClose : Option Decimal) :
    RaisesOnly (· ≠ overlapping) (trueRange candle previousClose) := by
  refine raisesOnly_ite (raisesOnly_error.mpr (by decide)) ?_
  cases previousClose with
  | none => exact raisesOnly_ok _
  | some close =>
      refine raisesOnly_ite (raisesOnly_error.mpr (by decide)) ?_
      exact raisesOnly_ite (raisesOnly_error.mpr (by decide)) (greatest_raises _ _)

theorem trueRanges_raises (previousClose : Option Decimal) (selected : List Candle) :
    RaisesOnly (· ≠ overlapping) (trueRanges previousClose selected) := by
  induction selected generalizing previousClose with
  | nil => exact raisesOnly_ok []
  | cons candle rest ih =>
      exact (trueRange_raises candle previousClose).bind fun range _ => (ih _).bind fun ranges _ => raisesOnly_ok _

theorem atr_raises (hselected : RaisesOnly (· ≠ overlapping) (completed candles (some t))) (period : Int) :
    RaisesOnly (· ≠ overlapping) (atr candles period (some t)) := by
  refine (checkPeriod_raises period).bind fun count _ => hselected.bind fun selected _ => ?_
  refine raisesOnly_ite (raisesOnly_ok none) ?_
  exact (trueRanges_raises none selected).bind fun ranges _ => (wilderAverage_raises count ranges).bind fun _ _ =>
    raisesOnly_ok _

end Indicators

end TecoQuant.Analytics
