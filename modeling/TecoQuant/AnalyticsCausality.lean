import Mathlib.Data.List.Pairwise
import TecoQuant.AnalyticsIndicators

/-! No indicator looks ahead: each depends on the completed candles that end by the evaluation time, in no
order, and on nothing else. -/

namespace TecoQuant.Analytics

variable {asOf : Option Datetime} {candles left right : List Candle}

/-! ### The selection is canonical -/

instance : IsTrans Candle Precedes where
  trans _ b _ hab hbc := hab.trans (b.valid.lasts.le.trans hbc)

instance : IsTrans Candle KeyLe where
  trans a b c hab hbc := by
    unfold KeyLe at *
    omega

instance : Std.Total (α := Candle) KeyLe where
  total a b := by
    unfold KeyLe
    omega

/-- Candles that do not overlap have distinct keys. -/
theorem eq_of_keyLe (hdisjoint : candles.Pairwise Precedes) {a b : Candle} (ha : a ∈ candles) (hb : b ∈ candles)
    (hab : KeyLe a b) (hba : KeyLe b a) : a = b := by
  by_contra hne
  have hlasts := a.valid.lasts
  have hlasts' := b.valid.lasts
  have hapart : Precedes a b ∨ Precedes b a := by
    have : Std.Symm fun a b => Precedes a b ∨ Precedes b a := ⟨fun _ _ => Or.symm⟩
    exact (hdisjoint.imp (S := fun a b => Precedes a b ∨ Precedes b a) .inl).forall ha hb hne
  unfold Precedes at hapart
  unfold KeyLe at hab hba
  omega

/-- Selections of the same candles are the same, in the same order, when one of them has no overlap. -/
theorem insertionSort_eq (hperm : left.Perm right) (hdisjoint : (left.insertionSort KeyLe).IsChain Precedes) :
    left.insertionSort KeyLe = right.insertionSort KeyLe := by
  have hpairwise : (left.insertionSort KeyLe).Pairwise Precedes := List.isChain_iff_pairwise.mp hdisjoint
  have hsame : (left.insertionSort KeyLe).Perm (right.insertionSort KeyLe) :=
    (List.perm_insertionSort _ _).trans (hperm.trans (List.perm_insertionSort _ _).symm)
  refine List.Perm.eq_of_pairwise (fun a b ha hb => ?_) (List.pairwise_insertionSort _ _)
    (List.pairwise_insertionSort _ _) hsame
  exact eq_of_keyLe hpairwise ha (hsame.mem_iff.mpr hb)

/-- The selection depends on the eligible candles alone. -/
theorem completed_congr (hperm : (left.filter (Eligible asOf ·)).Perm (right.filter (Eligible asOf ·))) :
    completed left asOf = completed right asOf := by
  have hselected : (if ((left.filter (Eligible asOf ·)).insertionSort KeyLe).IsChain Precedes then
        Except.ok ((left.filter (Eligible asOf ·)).insertionSort KeyLe)
      else Except.error (Fault.analyticsInput "completed candles overlap")) =
      if ((right.filter (Eligible asOf ·)).insertionSort KeyLe).IsChain Precedes then
        Except.ok ((right.filter (Eligible asOf ·)).insertionSort KeyLe)
      else Except.error (Fault.analyticsInput "completed candles overlap") := by
    by_cases hleft : ((left.filter (Eligible asOf ·)).insertionSort KeyLe).IsChain Precedes
    · rw [← insertionSort_eq hperm hleft]
    · by_cases hright : ((right.filter (Eligible asOf ·)).insertionSort KeyLe).IsChain Precedes
      · rw [insertionSort_eq hperm.symm hright]
      · rw [if_neg hleft, if_neg hright]
  unfold completed
  cases asOf with
  | none => exact hselected
  | some t => exact congrArg (aware t "indicator evaluation time" >>= fun _ => ·) hselected

/-! ### The indicators -/

/-- Two collections with the same eligible candles, whatever their order and whatever else they hold, give
every indicator the same outcome. -/
theorem indicators_causal (asOf : Option Datetime) (left right : List Candle)
    (hperm : (left.filter (Eligible asOf ·)).Perm (right.filter (Eligible asOf ·))) :
    vwap left asOf = vwap right asOf ∧
    (∀ period, ema left period asOf = ema right period asOf) ∧
    (∀ period, wma left period asOf = wma right period asOf) ∧
    (∀ period, wilderRsi left period asOf = wilderRsi right period asOf) ∧
    (∀ period, atr left period asOf = atr right period asOf) ∧
    ∀ t, asOf = some t →
      (∀ interval anchor, resampleCompletedCandles left interval t anchor =
        resampleCompletedCandles right interval t anchor) ∧
      ∀ fastPeriod slowPeriod anchor, hourlyConfirmation left t fastPeriod slowPeriod anchor =
        hourlyConfirmation right t fastPeriod slowPeriod anchor := by
  have hcompleted := completed_congr hperm
  refine ⟨?_, fun period => ?_, fun period => ?_, fun period => ?_, fun period => ?_, ?_⟩
  · rw [vwap, vwap, hcompleted]
  · rw [ema, ema, hcompleted]
  · rw [wma, wma, hcompleted]
  · rw [wilderRsi, wilderRsi, hcompleted]
  · rw [atr, atr, hcompleted]
  · rintro t rfl
    have hresample (interval : Int) (anchor : Option Datetime) :
        resampleCompletedCandles left interval t anchor = resampleCompletedCandles right interval t anchor := by
      rw [resampleCompletedCandles, resampleCompletedCandles, hcompleted]
    refine ⟨hresample, fun fastPeriod slowPeriod anchor => ?_⟩
    rw [hourlyConfirmation, hourlyConfirmation, hresample]

/-- A candle of a minute, the last of the given minutes. -/
def minuteCandle (minute : Int) (completed : Bool) : Candle where
  start := .utc ((minute - 1) * 60000000)
  ending := .utc (minute * 60000000)
  opening := 100
  high := 102
  low := 99
  closing := 101
  volume := 10
  completed := completed
  valid := {
    start_aware := rfl
    ending_aware := rfl
    lasts := by
      show (minute - 1) * 60000000 - 0 < minute * 60000000 - 0
      omega
    finite := by decide
    positive := by decide +kernel
    volume_nonneg := by decide +kernel
    high_most := by decide +kernel
    low_least := by decide +kernel }

/-- Reordered, and with a running and a future candle added. -/
theorem indicators_causal_reordered :
    vwap [minuteCandle 1 true, minuteCandle 2 true] (some (.utc 120000000)) =
      vwap [minuteCandle 3 true, minuteCandle 2 true, minuteCandle 2 false, minuteCandle 1 true]
        (some (.utc 120000000)) :=
  (indicators_causal _ _ _ (by
    rw [show [minuteCandle 1 true, minuteCandle 2 true].filter (Eligible (some (.utc 120000000)) ·) =
        [minuteCandle 1 true, minuteCandle 2 true] by simp [Eligible, minuteCandle, Datetime.utc, Datetime.instant],
      show [minuteCandle 3 true, minuteCandle 2 true, minuteCandle 2 false, minuteCandle 1 true].filter
          (Eligible (some (.utc 120000000)) ·) = [minuteCandle 2 true, minuteCandle 1 true] by
        simp [Eligible, minuteCandle, Datetime.utc, Datetime.instant]]
    exact List.Perm.swap _ _ _)).1

end TecoQuant.Analytics
