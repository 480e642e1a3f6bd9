import Mathlib.Data.List.Sort
import TecoQuant.BaseBinary64
import TecoQuant.BaseDatetime
import TecoQuant.BaseDict

/-! Indicators over completed candles. The fields `end`, `open` and `close` of the source are `ending`, `opening`
and `closing` here. -/

namespace TecoQuant.Analytics

inductive Fault where
  | analyticsInput (message : String)
  | arithmetic (error : ArithmeticError)
  | overflow
  deriving DecidableEq, Repr

def arith {α : Type} (result : Except ArithmeticError α) : Except Fault α := result.mapError Fault.arithmetic

inductive TrendDirection where
  | bullish
  | bearish
  | neutral
  | insufficientData
  deriving DecidableEq, Repr

/-! ### Candles -/

def aware (t : Datetime) (name : String) : Except Fault Unit :=
  if t.Aware then .ok () else .error (.analyticsInput (name ++ " must be timezone-aware"))

/-- What `__post_init__` checks of the prices and the volume. -/
structure ValidPrices (opening high low closing volume : Decimal) : Prop where
  finite : opening.IsFinite ∧ high.IsFinite ∧ low.IsFinite ∧ closing.IsFinite ∧ volume.IsFinite
  positive : 0 < opening ∧ 0 < high ∧ 0 < low ∧ 0 < closing
  volume_nonneg : 0 ≤ volume
  high_most : opening ≤ high ∧ closing ≤ high ∧ low ≤ high
  low_least : low ≤ opening ∧ low ≤ closing ∧ low ≤ high

/-- What `__post_init__` checks. -/
structure ValidCandle (start ending : Datetime) (opening high low closing volume : Decimal) : Prop
    extends ValidPrices opening high low closing volume where
  start_aware : start.Aware
  ending_aware : ending.Aware
  lasts : start.instant < ending.instant

structure Candle where
  start : Datetime
  ending : Datetime
  opening : Decimal
  high : Decimal
  low : Decimal
  closing : Decimal
  volume : Decimal
  completed : Bool
  valid : ValidCandle start ending opening high low closing volume

instance (opening high low closing volume : Decimal) : Decidable (ValidPrices opening high low closing volume) :=
  decidable_of_iff
    ((opening.IsFinite ∧ high.IsFinite ∧ low.IsFinite ∧ closing.IsFinite ∧ volume.IsFinite) ∧
      (0 < opening ∧ 0 < high ∧ 0 < low ∧ 0 < closing) ∧ 0 ≤ volume ∧
      (opening ≤ high ∧ closing ≤ high ∧ low ≤ high) ∧ (low ≤ opening ∧ low ≤ closing ∧ low ≤ high))
    ⟨fun ⟨h₁, h₂, h₃, h₄, h₅⟩ => ⟨h₁, h₂, h₃, h₄, h₅⟩, fun ⟨h₁, h₂, h₃, h₄, h₅⟩ => ⟨h₁, h₂, h₃, h₄, h₅⟩⟩

instance (start ending : Datetime) (opening high low closing volume : Decimal) :
    Decidable (ValidCandle start ending opening high low closing volume) :=
  decidable_of_iff
    (ValidPrices opening high low closing volume ∧ start.Aware ∧ ending.Aware ∧ start.instant < ending.instant)
    ⟨fun ⟨h₁, h₂, h₃, h₄⟩ => ⟨h₁, h₂, h₃, h₄⟩, fun ⟨h₁, h₂, h₃, h₄⟩ => ⟨h₁, h₂, h₃, h₄⟩⟩

/-- What is wrong with a price, if anything. -/
def priceFault (value : Decimal) (name : String) : Option String :=
  if ¬value.IsFinite then some ("candle " ++ name ++ " must be finite")
  else if value ≤ 0 then some ("candle " ++ name ++ " must be positive")
  else none

/-- The first check of `__post_init__` that fails; the last one when no other does. -/
def candleFault (start ending : Datetime) (opening high low closing volume : Decimal) : String :=
  if ¬start.Aware then "candle start must be timezone-aware"
  else if ¬ending.Aware then "candle end must be timezone-aware"
  else if ending.instant ≤ start.instant then "candle end must be after candle start"
  else
    match [(opening, "open"), (high, "high"), (low, "low"), (closing, "close")].findSome? fun (value, name) =>
        priceFault value name with
    | some message => message
    | none =>
        if ¬volume.IsFinite then "candle volume must be finite"
        else if volume < 0 then "candle volume cannot be negative"
        else if ¬(opening ≤ high ∧ closing ≤ high ∧ low ≤ high) then "candle high is below an OHLC value"
        else "candle low is above an OHLC value"

/-- `Candle(...)`. -/
def Candle.new (start ending : Datetime) (opening high low closing volume : Decimal) (completed : Bool) :
    Except Fault Candle :=
  if valid : ValidCandle start ending opening high low closing volume then
    .ok ⟨start, ending, opening, high, low, closing, volume, completed, valid⟩
  else .error (.analyticsInput (candleFault start ending opening high low closing volume))

/-! ### Selection -/

def checkPeriod (value : Int) : Except Fault Nat :=
  if value ≤ 0 then .error (.analyticsInput "indicator period must be a positive integer") else .ok value.toNat

/-- A completed candle that ends by the evaluation time. -/
def Eligible (asOf : Option Datetime) (candle : Candle) : Prop :=
  candle.completed = true ∧ ∀ t ∈ asOf, candle.ending.instant ≤ t.instant

instance (asOf : Option Datetime) (candle : Candle) : Decidable (Eligible asOf candle) :=
  inferInstanceAs (Decidable (_ ∧ ∀ t ∈ asOf, _))

/-- The order of the key `(candle.end, candle.start)`. -/
def KeyLe (left right : Candle) : Prop :=
  left.ending.instant < right.ending.instant ∨
    left.ending.instant = right.ending.instant ∧ left.start.instant ≤ right.start.instant

instance : DecidableRel KeyLe := fun _ _ => inferInstanceAs (Decidable (_ ∨ _))

/-- A candle that does not start before the other ends. -/
def Precedes (left right : Candle) : Prop := left.ending.instant ≤ right.start.instant

instance : DecidableRel Precedes := fun _ _ => inferInstanceAs (Decidable (_ ≤ _))

/-- `_completed`. -/
def completed (candles : List Candle) (asOf : Option Datetime) : Except Fault (List Candle) := do
  match asOf with
  | none => pure ()
  | some t => aware t "indicator evaluation time"
  let selected := (candles.filter (Eligible asOf ·)).insertionSort KeyLe
  if selected.IsChain Precedes then return selected
  else .error (.analyticsInput "completed candles overlap")

/-! ### Averages -/

/-- `sum(values, Decimal(0))`. -/
def total (values : List Decimal) : Decimal := Decimal.sum .default values

def vwap (candles : List Candle) (asOf : Option Datetime) : Except Fault (Option Decimal) := do
  let selected ← completed candles asOf
  let totalVolume := total (selected.map Candle.volume)
  if Decimal.Equal totalVolume 0 then return none
  else
    let terms ← selected.mapM fun candle => do
      let prices := Decimal.add .default (Decimal.add .default candle.high candle.low) candle.closing
      let typical ← arith (Decimal.divide prices 3)
      return Decimal.mul .default typical candle.volume
    return some (← arith (Decimal.divide (total terms) totalVolume))

/-- The recursion of `_ema_values` after its seed. -/
def smooth (alpha : Decimal) (current : Decimal) (values : List Decimal) : Decimal :=
  values.foldl (fun current value => Decimal.add .default (Decimal.mul .default value alpha)
    (Decimal.mul .default current (Decimal.sub .default 1 alpha))) current

def emaValues (values : List Decimal) (period : Int) : Except Fault (Option Decimal) := do
  let selectedPeriod ← checkPeriod period
  if values.length < selectedPeriod then return none
  else
    let seed ← arith (Decimal.divide (total (values.take selectedPeriod)) (.ofInt selectedPeriod))
    let alpha ← arith (Decimal.divide 2 (.ofInt (selectedPeriod + 1)))
    return some (smooth alpha seed (values.drop selectedPeriod))

def ema (candles : List Candle) (period : Int) (asOf : Option Datetime) : Except Fault (Option Decimal) := do
  let selected ← completed candles asOf
  emaValues (selected.map Candle.closing) period

def wma (candles : List Candle) (period : Int) (asOf : Option Datetime) : Except Fault (Option Decimal) := do
  let selectedPeriod ← checkPeriod period
  let selected ← completed candles asOf
  if selected.length < selectedPeriod then return none
  else
    let window := selected.drop (selected.length - selectedPeriod)
    let numerator := total (window.zipIdx.map fun (candle, index) =>
      Decimal.mul .default candle.closing (.ofInt (index + 1)))
    let denominator := Decimal.ofInt (selectedPeriod * (selectedPeriod + 1) / 2 : Nat)
    return some (← arith (Decimal.divide numerator denominator))

/-- Wilder's recursion: the average weighs one period less one against the new value. -/
def wilder (period : Nat) (current : Decimal) (values : List Decimal) : Except Fault Decimal :=
  values.foldlM (fun current value => arith (Decimal.divide
    (Decimal.add .default (Decimal.mul .default current (.ofInt (period - 1))) value) (.ofInt period))) current

/-- The average of the first values, smoothed over the rest. -/
def wilderAverage (period : Nat) (values : List Decimal) : Except Fault Decimal := do
  let seed ← arith (Decimal.divide (total (values.take period)) (.ofInt period))
  wilder period seed (values.drop period)

/-- The differences of neighbours. -/
def changes : List Decimal → List Decimal
  | previous :: current :: rest => Decimal.sub .default current previous :: changes (current :: rest)
  | _ => []

def wilderRsi (candles : List Candle) (period : Int) (asOf : Option Datetime) : Except Fault (Option Binary64) := do
  let selectedPeriod ← checkPeriod period
  let selected ← completed candles asOf
  if selected.length < selectedPeriod + 1 then return none
  else
    let moves := changes (selected.map Candle.closing)
    let gains ← arith (moves.mapM fun change => Decimal.maximum change 0)
    let losses ← arith (moves.mapM fun change => Decimal.maximum (Decimal.neg .default change) 0)
    let averageGain ← wilderAverage selectedPeriod gains
    let averageLoss ← wilderAverage selectedPeriod losses
    if Decimal.Equal averageLoss 0 then return some (if Decimal.Equal averageGain 0 then 50 else 100)
    else
      let relativeStrength ← arith (Decimal.divide averageGain averageLoss)
      let share ← arith (Decimal.divide 100 (Decimal.add .default 1 relativeStrength))
      return some (Binary64.ofDecimal (Decimal.sub .default 100 share))

/-- `max` of decimals: a later one only if it is larger. -/
def greatest (first : Decimal) (rest : List Decimal) : Except Fault Decimal :=
  rest.foldlM (fun best value => arith (Decimal.maximum best value)) first

def least (first : Decimal) (rest : List Decimal) : Except Fault Decimal :=
  rest.foldlM (fun best value => arith (Decimal.minimum best value)) first

def trueRange (candle : Candle) (previousClose : Option Decimal) : Except Fault Decimal :=
  let height := Decimal.sub .default candle.high candle.low
  if candle.completed = false then .error (.analyticsInput "true range requires a completed candle")
  else
    match previousClose with
    | none => .ok height
    | some close =>
        if ¬close.IsFinite then .error (.analyticsInput "previous close must be finite")
        else if close ≤ 0 then .error (.analyticsInput "previous close must be positive")
        else
          greatest height [Decimal.absolute .default (Decimal.sub .default candle.high close),
            Decimal.absolute .default (Decimal.sub .default candle.low close)]

/-- The true ranges of candles in order, each against the close before it. -/
def trueRanges (previousClose : Option Decimal) : List Candle → Except Fault (List Decimal)
  | [] => .ok []
  | candle :: rest => do
      let range ← trueRange candle previousClose
      return range :: (← trueRanges (some candle.closing) rest)

def atr (candles : List Candle) (period : Int) (asOf : Option Datetime) : Except Fault (Option Decimal) := do
  let selectedPeriod ← checkPeriod period
  let selected ← completed candles asOf
  if selected.length < selectedPeriod then return none
  else return some (← wilderAverage selectedPeriod (← trueRanges none selected))

/-! ### Resampling -/

/-- `_utc_microseconds`. -/
def utcMicroseconds (t : Datetime) : Except Fault Int := Datetime.instant <$> t.astimezone .overflow

/-- `t + timedelta(microseconds=count)`. -/
def shift (t : Datetime) (count : Int) : Except Fault Datetime :=
  if (t.plus count).InCalendar then .ok (t.plus count) else .error .overflow

/-- Midnight of the day, at the same offset. -/
def midnight (t : Datetime) : Datetime := { t with wall := t.wall - t.wall % 86400000000 }

/-- The candles by the index of their bucket. -/
def bucketed (anchor interval : Int) : List Candle → List (Int × List Candle) →
    Except Fault (List (Int × List Candle))
  | [], buckets => .ok buckets
  | candle :: rest, buckets => do
      let index := ((← utcMicroseconds candle.start) - anchor) / interval
      let bucketEnd := anchor + (index + 1) * interval
      if bucketEnd < (← utcMicroseconds candle.ending) then
        .error (.analyticsInput "source candle crosses a resampling bucket boundary")
      else bucketed anchor interval rest (Dict.assign index ((buckets.lookup index).getD [] ++ [candle]) buckets)

/-- Each candle ends where the next one starts. -/
def Contiguous (group : List Candle) : Prop :=
  group.IsChain fun left right => left.ending.instant = right.start.instant

instance (group : List Candle) : Decidable (Contiguous group) := inferInstanceAs (Decidable (List.IsChain _ _))

/-- The candle of a bucket, when its candles cover it. -/
def bucketCandle (anchor : Datetime) (interval : Int) (bucket : Int × List Candle) :
    Except Fault (Option Candle) := do
  let start ← shift anchor (bucket.1 * interval)
  let ending ← shift start interval
  match bucket.2 with
  | [] => return none
  | first :: rest =>
      let last := rest.getLastD first
      if first.start.instant ≠ start.instant ∨ last.ending.instant ≠ ending.instant then return none
      else if ¬Contiguous (first :: rest) then return none
      else
        let high ← greatest first.high (rest.map Candle.high)
        let low ← least first.low (rest.map Candle.low)
        return some (← Candle.new start ending first.opening high low last.closing
          (total ((first :: rest).map Candle.volume)) true)

def resampleCompletedCandles (candles : List Candle) (interval : Int) (asOf : Datetime) (anchor : Option Datetime) :
    Except Fault (List Candle) := do
  aware asOf "resampling evaluation time"
  if interval ≤ 0 then .error (.analyticsInput "resampling interval must be positive")
  else
    match ← completed candles (some asOf) with
    | [] => return []
    | first :: rest =>
        let selectedAnchor := anchor.getD (midnight first.start)
        aware selectedAnchor "resampling anchor"
        let anchorMicroseconds ← utcMicroseconds selectedAnchor
        let buckets ← bucketed anchorMicroseconds interval (first :: rest) []
        let ordered := buckets.insertionSort fun left right => left.1 ≤ right.1
        return (← ordered.mapM (bucketCandle selectedAnchor interval)).filterMap id

structure HourlyConfirmation where
  asOf : Datetime
  lastCompletedHour : Option Datetime
  fastEma : Option Decimal
  slowEma : Option Decimal
  direction : TrendDirection
  completedHours : Nat
  deriving DecidableEq, Repr

def trendDirection (fastValue slowValue : Option Decimal) : TrendDirection :=
  match fastValue, slowValue with
  | some fast, some slow => if slow < fast then .bullish else if fast < slow then .bearish else .neutral
  | _, _ => .insufficientData

def hourlyConfirmation (candles : List Candle) (asOf : Datetime) (fastPeriod slowPeriod : Int)
    (anchor : Option Datetime) : Except Fault HourlyConfirmation := do
  let fast ← checkPeriod fastPeriod
  let slow ← checkPeriod slowPeriod
  if slow ≤ fast then .error (.analyticsInput "hourly fast period must be below slow period")
  else
    let hourly ← resampleCompletedCandles candles 3600000000 asOf anchor
    let fastValue ← ema hourly fast none
    let slowValue ← ema hourly slow none
    return {
      asOf := asOf
      lastCompletedHour := hourly.getLast?.map Candle.ending
      fastEma := fastValue
      slowEma := slowValue
      direction := trendDirection fastValue slowValue
      completedHours := hourly.length }

end TecoQuant.Analytics
