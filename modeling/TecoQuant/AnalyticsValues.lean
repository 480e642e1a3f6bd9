import TecoQuant.AnalyticsIndicators
import TecoQuant.BaseDecimalError
import TecoQuant.BaseDecimalQuotient
import TecoQuant.BaseExcept

/-! The indicators on the values of the candles, in a context that rounds the result of every operation. In the
default context they are the values of what the indicators return. -/

namespace TecoQuant.Analytics

/-! ### In a context -/

section Context

variable (ctx : DecimalContext)

def divideIn (x y : ℚ) : Except Fault ℚ :=
  match ctx.div x y with
  | some quotient => .ok quotient
  | none => .error (.arithmetic .divisionByZero)

def vwapIn (candles : List Candle) (asOf : Option Datetime) : Except Fault (Option ℚ) := do
  let selected ← completed candles asOf
  let totalVolume := ctx.sum (selected.map fun candle => candle.volume.value)
  if totalVolume = 0 then return none
  else
    let terms ← selected.mapM fun candle => do
      let typical ← divideIn ctx
        (ctx.add (ctx.add candle.high.value candle.low.value) candle.closing.value) 3
      return ctx.mul typical candle.volume.value
    return some (← divideIn ctx (ctx.sum terms) totalVolume)

def smoothIn (alpha current : ℚ) (values : List ℚ) : ℚ :=
  values.foldl (fun current value => ctx.add (ctx.mul value alpha) (ctx.mul current (ctx.sub 1 alpha))) current

def emaIn (candles : List Candle) (period : Int) (asOf : Option Datetime) : Except Fault (Option ℚ) := do
  let selected ← completed candles asOf
  let values := selected.map fun candle => candle.closing.value
  let selectedPeriod ← checkPeriod period
  if values.length < selectedPeriod then return none
  else
    let seed ← divideIn ctx (ctx.sum (values.take selectedPeriod)) selectedPeriod
    let alpha ← divideIn ctx 2 (selectedPeriod + 1 : Nat)
    return some (smoothIn ctx alpha seed (values.drop selectedPeriod))

def wmaIn (candles : List Candle) (period : Int) (asOf : Option Datetime) : Except Fault (Option ℚ) := do
  let selectedPeriod ← checkPeriod period
  let selected ← completed candles asOf
  if selected.length < selectedPeriod then return none
  else
    let window := selected.drop (selected.length - selectedPeriod)
    let numerator := ctx.sum (window.zipIdx.map fun (candle, index) => ctx.mul candle.closing.value (index + 1 : Nat))
    return some (← divideIn ctx numerator (selectedPeriod * (selectedPeriod + 1) / 2 : Nat))

def wilderIn (period : Nat) (current : ℚ) (values : List ℚ) : Except Fault ℚ :=
  values.foldlM (fun current value => divideIn ctx (ctx.add (ctx.mul current ((period - 1 : Int) : ℚ)) value) period)
    current

def wilderAverageIn (period : Nat) (values : List ℚ) : Except Fault ℚ := do
  let seed ← divideIn ctx (ctx.sum (values.take period)) period
  wilderIn ctx period seed (values.drop period)

def changesIn : List ℚ → List ℚ
  | previous :: current :: rest => ctx.sub current previous :: changesIn (current :: rest)
  | _ => []

/-- The gains and the losses of the closes. -/
def gainsIn (closes : List ℚ) : List ℚ := (changesIn ctx closes).map (max · 0)

def lossesIn (closes : List ℚ) : List ℚ := (changesIn ctx closes).map fun change => max (ctx.round (-change)) 0

def wilderRsiIn (candles : List Candle) (period : Int) (asOf : Option Datetime) : Except Fault (Option ℚ) := do
  let selectedPeriod ← checkPeriod period
  let selected ← completed candles asOf
  if selected.length < selectedPeriod + 1 then return none
  else
    let closes := selected.map fun candle => candle.closing.value
    let averageGain ← wilderAverageIn ctx selectedPeriod (gainsIn ctx closes)
    let averageLoss ← wilderAverageIn ctx selectedPeriod (lossesIn ctx closes)
    if averageLoss = 0 then return some (if averageGain = 0 then 50 else 100)
    else
      let relativeStrength ← divideIn ctx averageGain averageLoss
      let share ← divideIn ctx 100 (ctx.add 1 relativeStrength)
      return some (ctx.sub 100 share)

/-- The true range of a candle against the close before it. -/
def trueRangeIn (candle : Candle) (previousClose : Option ℚ) : ℚ :=
  let height := ctx.sub candle.high.value candle.low.value
  match previousClose with
  | none => height
  | some close =>
      max (max height (ctx.round |ctx.sub candle.high.value close|)) (ctx.round |ctx.sub candle.low.value close|)

def trueRangesIn (previousClose : Option ℚ) : List Candle → List ℚ
  | [] => []
  | candle :: rest => trueRangeIn ctx candle previousClose :: trueRangesIn (some candle.closing.value) rest

def atrIn (candles : List Candle) (period : Int) (asOf : Option Datetime) : Except Fault (Option ℚ) := do
  let selectedPeriod ← checkPeriod period
  let selected ← completed candles asOf
  if selected.length < selectedPeriod then return none
  else return some (← wilderAverageIn ctx selectedPeriod (trueRangesIn ctx none selected))

end Context

/-! ### In the default context -/

section Default

variable {left right : Decimal} {values : List Decimal} {period : Nat}

theorem ok_bind {α β : Type} (a : α) (f : α → Except Fault β) : (Except.ok a >>= f) = f a := rfl

theorem arith_eq_ok {α : Type} {result : Except ArithmeticError α} {value : α} :
    arith result = .ok value ↔ result = .ok value := by
  cases result <;> simp [arith, Except.mapError]

/-- A computation on decimals and one on values that return the same number. -/
def Means (result : Except Fault Decimal) (value : Except Fault ℚ) : Prop :=
  ∃ d, result = .ok d ∧ d.IsFinite ∧ value = .ok d.value

theorem total_value (h : ∀ d ∈ values, d.IsFinite) :
    (total values).IsFinite ∧ (total values).value = DecimalContext.default.sum (values.map Decimal.value) := by
  have hfold : ∀ (values : List Decimal) (start : Decimal), start.IsFinite → (∀ d ∈ values, d.IsFinite) →
      (values.foldl (Decimal.add .default) start).IsFinite ∧
        (values.foldl (Decimal.add .default) start).value =
          (values.map Decimal.value).foldl DecimalContext.default.add start.value := by
    intro values
    induction values with
    | nil => exact fun start hstart _ => ⟨hstart, rfl⟩
    | cons first values ih =>
        intro start hstart h
        have hfirst := h first List.mem_cons_self
        obtain ⟨hfinite, hvalue⟩ := ih _ (Decimal.add_isFinite hstart hfirst) fun d hd => h d (List.mem_cons_of_mem _ hd)
        refine ⟨hfinite, hvalue.trans ?_⟩
        rw [Decimal.add_value hstart hfirst]
        rfl
  have hsum := hfold values 0 trivial h
  rw [Decimal.value_zero] at hsum
  exact hsum

/-- A sum of terms, each with a value. -/
theorem total_map {α : Type} {f : α → Decimal} {g : α → ℚ} {l : List α}
    (h : ∀ a ∈ l, (f a).IsFinite ∧ (f a).value = g a) :
    (total (l.map f)).IsFinite ∧ (total (l.map f)).value = DecimalContext.default.sum (l.map g) := by
  have hfinite : ∀ d ∈ l.map f, d.IsFinite := by
    intro d hd
    obtain ⟨a, ha, rfl⟩ := List.mem_map.mp hd
    exact (h a ha).1
  have hvalues : (l.map f).map Decimal.value = l.map g := by
    rw [List.map_map]
    exact List.map_congr_left fun a ha => (h a ha).2
  rw [← hvalues]
  exact total_value hfinite

theorem Means.bind {result : Except Fault Decimal} {value : Except Fault ℚ} {f : Decimal → Except Fault Decimal}
    {g : ℚ → Except Fault ℚ} (h : Means result value) (hnext : ∀ d, d.IsFinite → Means (f d) (g d.value)) :
    Means (result >>= f) (value >>= g) := by
  obtain ⟨d, rfl, hfinite, rfl⟩ := h
  exact hnext d hfinite

/-- The end of a computation that may return nothing. -/
theorem Means.bind_map {result : Except Fault Decimal} {value : Except Fault ℚ}
    {f : Decimal → Except Fault (Option Decimal)} {g : ℚ → Except Fault (Option ℚ)} (h : Means result value)
    (hnext : ∀ d, d.IsFinite → (f d).map (Option.map Decimal.value) = g d.value) :
    (result >>= f).map (Option.map Decimal.value) = value >>= g := by
  obtain ⟨d, rfl, hfinite, rfl⟩ := h
  exact hnext d hfinite

theorem divide_means {x y : ℚ} (hleft : left.IsFinite) (hright : right.IsFinite) (hx : left.value = x)
    (hy : right.value = y) (hne : y ≠ 0) : Means (arith (Decimal.divide left right)) (divideIn .default x y) := by
  subst hx hy
  obtain ⟨quotient, hquotient⟩ := Decimal.divide_returns hleft hright hne
  obtain ⟨hfinite, hvalue⟩ := Decimal.divide_value hleft hright hquotient
  refine ⟨quotient, by rw [hquotient]; rfl, hfinite, ?_⟩
  rw [divideIn, DecimalContext.div, if_neg hne, hvalue]
  rfl

/-- A hundred divided by zero. -/
theorem divide_zero (hright : right.IsFinite) (hzero : right.value = 0) :
    arith (Decimal.divide 100 right) = .error (.arithmetic .divisionByZero) := by
  cases right with
  | finite negative coefficient exponent =>
      have hcoefficient : coefficient = 0 := by
        rw [Decimal.value_eq] at hzero
        have hpower : (10 : ℚ) ^ exponent ≠ 0 := by positivity
        cases negative <;> simpa [hpower] using hzero
      subst hcoefficient
      rfl
  | _ => exact hright.elim

theorem ofInt_isFinite (n : Int) : (Decimal.ofInt n).IsFinite := trivial

theorem ofInt_natCast_value (count : Nat) : (Decimal.ofInt count).value = count := by
  rw [Decimal.ofInt_value, Int.cast_natCast]

theorem checkPeriod_pos {value : Int} (h : checkPeriod value = .ok period) : 0 < period := by
  unfold checkPeriod at h
  split at h
  · cases h
  · obtain rfl := Except.ok.inj h
    omega

theorem checkPeriod_toNat {value : Int} (h : checkPeriod value = .ok period) : value.toNat = period := by
  unfold checkPeriod at h
  split at h
  · cases h
  · exact Except.ok.inj h

/-- A literal is finite, and its value is the number. -/
theorem literal_isFinite (n : Nat) : (OfNat.ofNat n : Decimal).IsFinite := trivial

theorem literal_value (n : Nat) : (OfNat.ofNat n : Decimal).value = n := ofInt_natCast_value n

theorem smooth_value {alpha current : Decimal} (halpha : alpha.IsFinite) (hcurrent : current.IsFinite)
    (h : ∀ d ∈ values, d.IsFinite) :
    (smooth alpha current values).IsFinite ∧
      (smooth alpha current values).value = smoothIn .default alpha.value current.value (values.map Decimal.value) := by
  induction values generalizing current with
  | nil => exact ⟨hcurrent, rfl⟩
  | cons first values ih =>
      have hfirst := h first List.mem_cons_self
      have hone := literal_isFinite 1
      have hrest := Decimal.sub_isFinite hone halpha
      have hnew := Decimal.mul_isFinite hfirst halpha
      have hold := Decimal.mul_isFinite hcurrent hrest
      obtain ⟨hfinite, hvalue⟩ := ih (Decimal.add_isFinite hnew hold) fun d hd => h d (List.mem_cons_of_mem _ hd)
      refine ⟨hfinite, hvalue.trans ?_⟩
      rw [Decimal.add_value hnew hold, Decimal.mul_value hfirst halpha, Decimal.mul_value hcurrent hrest,
        Decimal.sub_value hone halpha, literal_value 1, Nat.cast_one]
      rfl

theorem wilder_means {current : Decimal} (hperiod : 0 < period) (hcurrent : current.IsFinite)
    (h : ∀ d ∈ values, d.IsFinite) :
    Means (wilder period current values) (wilderIn .default period current.value (values.map Decimal.value)) := by
  induction values generalizing current with
  | nil => exact ⟨current, rfl, hcurrent, rfl⟩
  | cons first values ih =>
      have hfirst := h first List.mem_cons_self
      have hcount : (Decimal.ofInt (period - 1)).IsFinite := trivial
      have hscaled := Decimal.mul_isFinite hcurrent hcount
      have hsum : (Decimal.add .default (Decimal.mul .default current (.ofInt (period - 1))) first).value =
          DecimalContext.default.add (DecimalContext.default.mul current.value ((period - 1 : Int) : ℚ)) first.value := by
        rw [Decimal.add_value hscaled hfirst, Decimal.mul_value hcurrent hcount, Decimal.ofInt_value]
        rfl
      rw [wilder, wilderIn, List.map_cons, List.foldlM_cons, List.foldlM_cons]
      refine (divide_means (Decimal.add_isFinite hscaled hfirst) (ofInt_isFinite _) hsum (ofInt_natCast_value period)
        (by exact_mod_cast hperiod.ne')).bind fun next hnext => ?_
      exact ih hnext fun d hd => h d (List.mem_cons_of_mem _ hd)

theorem average_means (hperiod : 0 < period) (h : ∀ d ∈ values, d.IsFinite) :
    Means (arith (Decimal.divide (total (values.take period)) (.ofInt period)))
      (divideIn .default (DecimalContext.default.sum ((values.map Decimal.value).take period)) period) := by
  have hfirst : ∀ d ∈ values.take period, d.IsFinite := fun d hd => h d (List.mem_of_mem_take hd)
  obtain ⟨hfinite, hvalue⟩ := total_value hfirst
  rw [List.map_take] at hvalue
  exact divide_means hfinite (ofInt_isFinite _) hvalue (ofInt_natCast_value period) (by exact_mod_cast hperiod.ne')

theorem wilderAverage_means (hperiod : 0 < period) (h : ∀ d ∈ values, d.IsFinite) :
    Means (wilderAverage period values) (wilderAverageIn .default period (values.map Decimal.value)) := by
  have hlater : ∀ d ∈ values.drop period, d.IsFinite := fun d hd => h d (List.mem_of_mem_drop hd)
  rw [wilderAverage, wilderAverageIn, ← List.map_drop]
  exact (average_means hperiod h).bind fun seed hseed => wilder_means hperiod hseed hlater

theorem changes_value (h : ∀ d ∈ values, d.IsFinite) :
    (∀ d ∈ changes values, d.IsFinite) ∧
      (changes values).map Decimal.value = changesIn .default (values.map Decimal.value) := by
  induction values with
  | nil => exact ⟨fun _ h => (nomatch h), rfl⟩
  | cons previous values ih =>
      cases values with
      | nil => exact ⟨fun _ h => (nomatch h), rfl⟩
      | cons current rest =>
          have hprevious := h previous List.mem_cons_self
          have hcurrent := h current (List.mem_cons_of_mem _ List.mem_cons_self)
          obtain ⟨hfinite, hvalue⟩ := ih fun d hd => h d (List.mem_cons_of_mem _ hd)
          refine ⟨fun d hd => ?_, ?_⟩
          · rcases List.mem_cons.mp hd with rfl | hd
            · exact Decimal.sub_isFinite hcurrent hprevious
            · exact hfinite d hd
          · rw [changes, List.map_cons, hvalue, Decimal.sub_value hcurrent hprevious]
            rfl

/-- A list of computations, each with a value. -/
theorem mapM_means {α : Type} {f : α → Except Fault Decimal} {g : α → Except Fault ℚ} {l : List α}
    (h : ∀ a ∈ l, Means (f a) (g a)) :
    ∃ ds, l.mapM f = .ok ds ∧ (∀ d ∈ ds, d.IsFinite) ∧ l.mapM g = .ok (ds.map Decimal.value) := by
  induction l with
  | nil => exact ⟨[], rfl, fun _ h => (nomatch h), rfl⟩
  | cons a l ih =>
      obtain ⟨d, hd, hfinite, hvalue⟩ := h a List.mem_cons_self
      obtain ⟨ds, hds, hfinites, hvalues⟩ := ih fun a ha => h a (List.mem_cons_of_mem _ ha)
      refine ⟨d :: ds, by rw [List.mapM_cons, hd, hds]; rfl, fun e he => ?_, by rw [List.mapM_cons, hvalue, hvalues]; rfl⟩
      rcases List.mem_cons.mp he with rfl | he
      · exact hfinite
      · exact hfinites e he

theorem maximum_means (hleft : left.IsFinite) (hright : right.IsFinite) :
    Means (arith (Decimal.maximum left right)) (.ok (max left.value right.value)) := by
  have hmost : ∃ most, Decimal.maximum left right = .ok most := by
    rw [Decimal.maximum, Decimal.less_of_finite hleft hright]
    by_cases hless : left < right
    · exact ⟨right, by rw [decide_eq_true hless]; rfl⟩
    · exact ⟨left, by rw [decide_eq_false hless]; rfl⟩
  obtain ⟨most, hmost⟩ := hmost
  obtain ⟨hfinite, hvalue⟩ := Decimal.maximum_value hleft hright hmost
  exact ⟨most, by rw [hmost]; rfl, hfinite, by rw [hvalue]⟩

/-- The larger of each element and zero. -/
theorem positives_value {f : Decimal → Decimal} {g : ℚ → ℚ}
    (h : ∀ d ∈ values, (f d).IsFinite ∧ (f d).value = g d.value) :
    ∃ ds, arith (values.mapM fun d => Decimal.maximum (f d) 0) = .ok ds ∧ (∀ d ∈ ds, d.IsFinite) ∧
      ds.map Decimal.value = (values.map Decimal.value).map fun x => max (g x) 0 := by
  induction values with
  | nil => exact ⟨[], rfl, fun _ h => (nomatch h), rfl⟩
  | cons first values ih =>
      obtain ⟨hfirst, hvalue⟩ := h first List.mem_cons_self
      obtain ⟨most, hmost, hfinite, hmostValue⟩ := maximum_means hfirst (literal_isFinite 0)
      obtain ⟨ds, hds, hfinites, hvalues⟩ := ih fun d hd => h d (List.mem_cons_of_mem _ hd)
      have hmost : Decimal.maximum (f first) 0 = .ok most := arith_eq_ok.mp hmost
      have hds : (values.mapM fun d => Decimal.maximum (f d) 0) = .ok ds := arith_eq_ok.mp hds
      refine ⟨most :: ds, by rw [List.mapM_cons, hmost, hds]; rfl, fun d hd => ?_, ?_⟩
      · rcases List.mem_cons.mp hd with rfl | hd
        · exact hfinite
        · exact hfinites d hd
      · rw [List.map_cons, hvalues, ← Except.ok.inj hmostValue, hvalue, Decimal.value_zero]
        rfl

theorem absolute_isFinite {d : Decimal} (h : d.IsFinite) : (Decimal.absolute .default d).IsFinite := by
  cases d with
  | finite negative coefficient exponent => exact Decimal.fix_isFinite _ _ _
  | _ => exact h.elim

theorem trueRange_means {candle : Candle} {previousClose : Option Decimal} (hcompleted : candle.completed = true)
    (hprevious : ∀ close ∈ previousClose, close.IsFinite ∧ 0 < close) :
    Means (trueRange candle previousClose) (.ok (trueRangeIn .default candle (previousClose.map Decimal.value))) := by
  obtain ⟨-, hhigh, hlow, -, -⟩ := candle.valid.finite
  have hheight := Decimal.sub_isFinite hhigh hlow
  have hincomplete : ¬candle.completed = false := by simp [hcompleted]
  cases previousClose with
  | none =>
      refine ⟨_, by rw [trueRange, if_neg hincomplete], hheight, ?_⟩
      rw [Decimal.sub_value hhigh hlow]
      rfl
  | some close =>
      obtain ⟨hclose, hpositive⟩ := hprevious close rfl
      have hnotPositive : ¬close ≤ 0 := fun hle => absurd (Decimal.lt_iff.mp hpositive) (not_lt.mpr (Decimal.le_iff.mp hle))
      have habs : ∀ side : Decimal, side.IsFinite →
          (Decimal.absolute .default (Decimal.sub .default side close)).IsFinite ∧
            (Decimal.absolute .default (Decimal.sub .default side close)).value =
              DecimalContext.default.round |DecimalContext.default.sub side.value close.value| := by
        intro side hside
        have hsub := Decimal.sub_isFinite hside hclose
        refine ⟨absolute_isFinite hsub, ?_⟩
        rw [Decimal.absolute_value hsub, Decimal.sub_value hside hclose]
        rfl
      obtain ⟨hup, hupValue⟩ := habs candle.high hhigh
      obtain ⟨hdown, hdownValue⟩ := habs candle.low hlow
      obtain ⟨first, hfirst, hfirstFinite, hfirstValue⟩ := maximum_means hheight hup
      obtain ⟨second, hsecond, hsecondFinite, hsecondValue⟩ := maximum_means hfirstFinite hdown
      refine ⟨second, ?_, hsecondFinite, ?_⟩
      · rw [trueRange, if_neg hincomplete]
        show (if ¬close.IsFinite then _ else _) = _
        rw [if_neg (not_not.mpr hclose), if_neg hnotPositive, greatest, List.foldlM_cons, hfirst,
          ok_bind, List.foldlM_cons, hsecond]
        rfl
      · rw [← hsecondValue, ← Except.ok.inj hfirstValue, hupValue, hdownValue, Decimal.sub_value hhigh hlow]
        rfl

theorem trueRanges_value {selected : List Candle} {previousClose : Option Decimal}
    (hcompleted : ∀ candle ∈ selected, candle.completed = true)
    (hprevious : ∀ close ∈ previousClose, close.IsFinite ∧ 0 < close) :
    ∃ ranges, trueRanges previousClose selected = .ok ranges ∧ (∀ d ∈ ranges, d.IsFinite) ∧
      ranges.map Decimal.value = trueRangesIn .default (previousClose.map Decimal.value) selected := by
  induction selected generalizing previousClose with
  | nil => exact ⟨[], rfl, fun _ h => (nomatch h), rfl⟩
  | cons candle rest ih =>
      obtain ⟨range, hrange, hfinite, hvalue⟩ := trueRange_means (hcompleted candle List.mem_cons_self) hprevious
      have hclose : ∀ close ∈ some candle.closing, close.IsFinite ∧ 0 < close := by
        rintro _ ⟨⟩
        exact ⟨candle.valid.finite.2.2.2.1, candle.valid.positive.2.2.2⟩
      obtain ⟨ranges, hranges, hfinites, hvalues⟩ :=
        ih (fun other hother => hcompleted other (List.mem_cons_of_mem _ hother)) hclose
      refine ⟨range :: ranges, by rw [trueRanges, hrange, ok_bind, hranges]; rfl, fun d hd => ?_, ?_⟩
      · rcases List.mem_cons.mp hd with rfl | hd
        · exact hfinite
        · exact hfinites d hd
      · rw [List.map_cons, hvalues, ← Except.ok.inj hvalue]
        rfl

end Default

/-! ### The indicators -/

section Indicators

variable (candles : List Candle) (period : Int) (asOf : Option Datetime)

theorem closing_isFinite (selected : List Candle) : ∀ d ∈ selected.map Candle.closing, d.IsFinite := by
  intro d hd
  obtain ⟨candle, -, rfl⟩ := List.mem_map.mp hd
  exact candle.valid.finite.2.2.2.1

theorem ema_value : (ema candles period asOf).map (Option.map Decimal.value) = emaIn .default candles period asOf := by
  unfold ema emaIn emaValues
  rcases completed candles asOf with fault | selected
  · rfl
  rcases hperiod : checkPeriod period with fault | selectedPeriod
  · rfl
  have hpos := checkPeriod_pos hperiod
  have hfinite := closing_isFinite selected
  have hvalues : (selected.map Candle.closing).map Decimal.value = selected.map fun candle => candle.closing.value :=
    List.map_map
  have hlater : ∀ d ∈ (selected.map Candle.closing).drop selectedPeriod, d.IsFinite :=
    fun d hd => hfinite d (List.mem_of_mem_drop hd)
  simp only [ok_bind, List.length_map]
  split
  · rfl
  rw [← hvalues, ← List.map_drop (f := Decimal.value)]
  refine (average_means hpos hfinite).bind_map fun seed hseed => ?_
  have htwo : (2 : Decimal).value = 2 := literal_value 2
  have hnext : (Decimal.ofInt ((selectedPeriod : Int) + 1)).value = (selectedPeriod + 1 : Nat) := by
    exact_mod_cast ofInt_natCast_value (selectedPeriod + 1)
  refine (divide_means (literal_isFinite 2) (ofInt_isFinite _) htwo hnext (by positivity)).bind_map fun alpha halpha => ?_
  show Except.ok (some _) = _
  rw [(smooth_value halpha hseed hlater).2]
  rfl

theorem wma_value : (wma candles period asOf).map (Option.map Decimal.value) = wmaIn .default candles period asOf := by
  unfold wma wmaIn
  rcases hperiod : checkPeriod period with fault | selectedPeriod
  · rfl
  rcases completed candles asOf with fault | selected
  · rfl
  have hpos := checkPeriod_pos hperiod
  simp only [ok_bind]
  split
  · rfl
  obtain ⟨hsum, hsumValue⟩ := total_map (f := fun entry : Candle × Nat =>
      Decimal.mul .default entry.1.closing (.ofInt (entry.2 + 1)))
    (g := fun entry => DecimalContext.default.mul entry.1.closing.value (entry.2 + 1 : Nat))
    (l := (selected.drop (selected.length - selectedPeriod)).zipIdx) fun entry _ => by
      have hclosing := entry.1.valid.finite.2.2.2.1
      have hindex : (Decimal.ofInt ((entry.2 : Int) + 1)).value = (entry.2 + 1 : Nat) := by
        exact_mod_cast ofInt_natCast_value (entry.2 + 1)
      refine ⟨Decimal.mul_isFinite hclosing (ofInt_isFinite _), ?_⟩
      rw [Decimal.mul_value hclosing (ofInt_isFinite _), hindex]
      rfl
  have hweights : ((selectedPeriod * (selectedPeriod + 1) / 2 : Nat) : ℚ) ≠ 0 := by
    have htwo : 2 ≤ selectedPeriod * (selectedPeriod + 1) := by nlinarith
    exact_mod_cast (Nat.div_pos htwo (by decide)).ne'
  exact (divide_means hsum (ofInt_isFinite _) hsumValue (ofInt_natCast_value _) hweights).bind_map fun d _ => rfl

theorem completed_eq_ok {selected : List Candle} (h : completed candles asOf = .ok selected) :
    selected.IsChain Precedes ∧ selected.Perm (candles.filter (Eligible asOf ·)) := by
  unfold completed at h
  have hselected : (if ((candles.filter (Eligible asOf ·)).insertionSort KeyLe).IsChain Precedes then
      Except.ok ((candles.filter (Eligible asOf ·)).insertionSort KeyLe)
      else Except.error (Fault.analyticsInput "completed candles overlap")) = Except.ok selected := by
    cases asOf with
    | none => exact h
    | some t =>
        rcases haware : aware t "indicator evaluation time" with fault | _
        · simp only [haware] at h
          cases h
        · simp only [haware] at h
          exact h
  obtain ⟨hchain, rfl⟩ := Except.ite_ok_eq_ok.mp hselected
  exact ⟨hchain, List.perm_insertionSort _ _⟩

theorem completed_of_mem {selected : List Candle} (h : completed candles asOf = .ok selected) {candle : Candle}
    (hmem : candle ∈ selected) : candle.completed = true := by
  have hfiltered := (completed_eq_ok candles asOf h).2.mem_iff.mp hmem
  exact (of_decide_eq_true (List.mem_filter.mp hfiltered).2).1

theorem vwap_value : (vwap candles asOf).map (Option.map Decimal.value) = vwapIn .default candles asOf := by
  unfold vwap vwapIn
  rcases completed candles asOf with fault | selected
  · rfl
  obtain ⟨hvolume, hvolumeValue⟩ := total_map (f := Candle.volume) (g := fun candle => candle.volume.value) (l := selected)
    fun candle _ => ⟨candle.valid.finite.2.2.2.2, rfl⟩
  have hzero : Decimal.Equal (total (selected.map Candle.volume)) 0 ↔
      DecimalContext.default.sum (selected.map fun candle => candle.volume.value) = 0 := by
    rw [Decimal.equal_of_finite hvolume (literal_isFinite 0), hvolumeValue, Decimal.value_zero]
  simp only [ok_bind, hzero]
  split
  · rfl
  rename_i hne
  have hthree : (3 : Decimal).value = 3 := literal_value 3
  obtain ⟨terms, hterms, hfinite, hvalues⟩ := mapM_means (l := selected)
    (f := fun candle => do
      let prices := Decimal.add .default (Decimal.add .default candle.high candle.low) candle.closing
      let typical ← arith (Decimal.divide prices 3)
      return Decimal.mul .default typical candle.volume)
    (g := fun candle => do
      let typical ← divideIn .default (DecimalContext.default.add
        (DecimalContext.default.add candle.high.value candle.low.value) candle.closing.value) 3
      return DecimalContext.default.mul typical candle.volume.value) fun candle _ => by
        obtain ⟨-, hhigh, hlow, hclosing, hcount⟩ := candle.valid.finite
        have hpair := Decimal.add_isFinite hhigh hlow
        have hprices : (Decimal.add .default (Decimal.add .default candle.high candle.low) candle.closing).value =
            DecimalContext.default.add (DecimalContext.default.add candle.high.value candle.low.value)
              candle.closing.value := by
          rw [Decimal.add_value hpair hclosing, Decimal.add_value hhigh hlow]
          rfl
        refine (divide_means (Decimal.add_isFinite hpair hclosing) (literal_isFinite 3) hprices hthree
          (by norm_num)).bind fun typical htypical => ⟨_, rfl, Decimal.mul_isFinite htypical hcount, ?_⟩
        rw [Decimal.mul_value htypical hcount]
        rfl
  obtain ⟨hsum, hsumValue⟩ := total_value hfinite
  simp only [hterms, hvalues, ok_bind]
  exact (divide_means hsum hvolume hsumValue hvolumeValue hne).bind_map fun d _ => rfl

theorem atr_value : (atr candles period asOf).map (Option.map Decimal.value) = atrIn .default candles period asOf := by
  unfold atr atrIn
  rcases hperiod : checkPeriod period with fault | selectedPeriod
  · rfl
  rcases hselected : completed candles asOf with fault | selected
  · rfl
  simp only [ok_bind]
  split
  · rfl
  have hnone : ∀ close ∈ (none : Option Decimal), close.IsFinite ∧ 0 < close := fun _ h => nomatch h
  obtain ⟨ranges, hranges, hfinite, hvalues⟩ :=
    trueRanges_value (fun candle hmem => completed_of_mem candles asOf hselected hmem) hnone
  rw [hranges, ok_bind]
  have hmeans := wilderAverage_means (checkPeriod_pos hperiod) hfinite
  rw [hvalues] at hmeans
  exact hmeans.bind_map fun d _ => rfl

/-- The float that the relative strength index returns is that of a decimal with the computed value. -/
theorem wilderRsi_value :
    ∃ result : Except Fault (Option Decimal),
      wilderRsi candles period asOf = result.map (Option.map Binary64.ofDecimal) ∧
        result.map (Option.map Decimal.value) = wilderRsiIn .default candles period asOf := by
  unfold wilderRsi wilderRsiIn
  rcases hperiod : checkPeriod period with fault | selectedPeriod
  · exact ⟨.error fault, rfl, rfl⟩
  rcases completed candles asOf with fault | selected
  · exact ⟨.error fault, rfl, rfl⟩
  simp only [ok_bind]
  split
  · exact ⟨.ok none, rfl, rfl⟩
  have hpos := checkPeriod_pos hperiod
  obtain ⟨hmoves, hmovesValue⟩ := changes_value (closing_isFinite selected)
  have hvalues : (selected.map Candle.closing).map Decimal.value = selected.map fun candle => candle.closing.value :=
    List.map_map
  rw [hvalues] at hmovesValue
  obtain ⟨gains, hgains, hgainsFinite, hgainsValue⟩ := positives_value (f := id) (g := id)
    fun d hd => ⟨hmoves d hd, rfl⟩
  obtain ⟨losses, hlosses, hlossesFinite, hlossesValue⟩ := positives_value (f := Decimal.neg .default)
    (g := fun x => DecimalContext.default.round (-x)) fun d hd =>
      ⟨Decimal.neg_isFinite (hmoves d hd), Decimal.neg_value (hmoves d hd)⟩
  rw [hmovesValue] at hgainsValue hlossesValue
  obtain ⟨gain, hgain, hgainFinite, hgainValue⟩ := wilderAverage_means hpos hgainsFinite
  obtain ⟨loss, hloss, hlossFinite, hlossValue⟩ := wilderAverage_means hpos hlossesFinite
  rw [hgainsValue] at hgainValue
  rw [hlossesValue] at hlossValue
  have hgainIn : wilderAverageIn .default selectedPeriod
      (gainsIn .default (selected.map fun candle => candle.closing.value)) = .ok gain.value := hgainValue
  have hlossIn : wilderAverageIn .default selectedPeriod
      (lossesIn .default (selected.map fun candle => candle.closing.value)) = .ok loss.value := hlossValue
  have hgains' : arith ((changes (selected.map Candle.closing)).mapM fun change => Decimal.maximum change 0) =
      .ok gains := hgains
  have hzero (d : Decimal) (hd : d.IsFinite) : Decimal.Equal d 0 ↔ d.value = 0 := by
    rw [Decimal.equal_of_finite hd (literal_isFinite 0), Decimal.value_zero]
  simp only [hgains', hlosses, hgain, hloss, hgainIn, hlossIn, ok_bind, hzero gain hgainFinite, hzero loss hlossFinite]
  split
  · refine ⟨.ok (some (if gain.value = 0 then .ofInt 50 else .ofInt 100)), ?_, ?_⟩
    · split
      · exact congrArg (fun b => Except.ok (some b)) (by decide +kernel)
      · exact congrArg (fun b => Except.ok (some b)) (by decide +kernel)
    · split
      · exact congrArg (fun x => Except.ok (some x)) ((Decimal.ofInt_value 50).trans (by norm_num))
      · exact congrArg (fun x => Except.ok (some x)) ((Decimal.ofInt_value 100).trans (by norm_num))
  · rename_i hne
    obtain ⟨strength, hstrength, hstrengthFinite, hstrengthValue⟩ :=
      divide_means hgainFinite hlossFinite rfl rfl hne
    have hone : (Decimal.add .default 1 strength).IsFinite := Decimal.add_isFinite (literal_isFinite 1) hstrengthFinite
    have honeValue : (Decimal.add .default 1 strength).value = DecimalContext.default.add 1 strength.value := by
      rw [Decimal.add_value (literal_isFinite 1) hstrengthFinite]
      exact congrArg (fun x => roundDigits 28 (x + strength.value)) ((literal_value 1).trans Nat.cast_one)
    have hhundred : (100 : Decimal).value = 100 := literal_value 100
    simp only [hstrength, hstrengthValue, ok_bind]
    by_cases hdivisor : DecimalContext.default.add 1 strength.value = 0
    · have hzeroDivide := divide_zero hone (honeValue.trans hdivisor)
      refine ⟨.error (.arithmetic .divisionByZero), ?_, ?_⟩
      · rw [hzeroDivide]
        rfl
      · rw [divideIn, DecimalContext.div, if_pos hdivisor]
        rfl
    · obtain ⟨share, hshare, hshareFinite, hshareValue⟩ :=
        divide_means (literal_isFinite 100) hone hhundred honeValue hdivisor
      refine ⟨.ok (some (Decimal.sub .default 100 share)), ?_, ?_⟩
      · rw [show arith (Decimal.divide 100 (Decimal.add .default 1 strength)) = .ok share from hshare]
        rfl
      · rw [hshareValue]
        refine congrArg (fun x => Except.ok (some x)) ?_
        rw [Decimal.sub_value (literal_isFinite 100) hshareFinite]
        exact congrArg (fun x => roundDigits 28 (x - share.value)) hhundred

/-- The decimals of the indicators have the values that the computations over numbers give in the default context, and the
faults are the same. -/
theorem indicators_compute :
    (ema candles period asOf).map (Option.map Decimal.value) = emaIn .default candles period asOf ∧
    (wma candles period asOf).map (Option.map Decimal.value) = wmaIn .default candles period asOf ∧
    (vwap candles asOf).map (Option.map Decimal.value) = vwapIn .default candles asOf ∧
    (atr candles period asOf).map (Option.map Decimal.value) = atrIn .default candles period asOf ∧
    ∃ result : Except Fault (Option Decimal),
      wilderRsi candles period asOf = result.map (Option.map Binary64.ofDecimal) ∧
        result.map (Option.map Decimal.value) = wilderRsiIn .default candles period asOf :=
  ⟨ema_value candles period asOf, wma_value candles period asOf, vwap_value candles asOf, atr_value candles period asOf,
    wilderRsi_value candles period asOf⟩

end Indicators

end TecoQuant.Analytics
