import TecoQuant.AnalyticsIndicators
import TecoQuant.BaseDecimalText
import TecoQuant.DomainModels

/-! Intraday candles of the provider: the arrays of a payload are turned into candles in order or rejected as a
whole, and the completed ones give the technical state of the strategy. The natural logarithm and the population
deviation of the standard library are parameters. -/

namespace TecoQuant.Ingestion

open Analytics

inductive IntradayFault where
  | normalization (message : String)
  | analytics (fault : Analytics.Fault)
  | arithmetic (error : ArithmeticError)
  | overflow
  deriving DecidableEq, Repr

def supportedIntervals : List Int := [1, 5, 15, 25, 60]

/-! ### Values -/

/-- `Decimal(str(value).strip())`; the text of an array or of an object is no number. -/
def readDecimal : Json → Option Decimal
  | .int n => Decimal.ofText (String.ofList (Json.intText n))
  | .float x => Decimal.ofText x.repr
  | .string s => Decimal.ofText s
  | _ => none

/-- The checks that come before a number is read. -/
def required (value : Json) (field : String) : Except IntradayFault Unit :=
  match value with
  | .null | .string "" => .error (.normalization (field ++ " is required"))
  | .bool _ => .error (.normalization (field ++ " cannot be boolean"))
  | _ => .ok ()

def decimalValue (value : Json) (field : String) : Except IntradayFault Decimal := do
  required value field
  match readDecimal value with
  | none => .error (.normalization (field ++ " is not a valid decimal"))
  | some d => if ¬d.IsFinite then .error (.normalization (field ++ " must be finite")) else .ok d

/-- The integer that a value shows, if it shows one. -/
def readInteger (value : Json) : Option Int :=
  match readDecimal value with
  | none => none
  | some d => if ¬d.IsFinite ∨ d.value ≠ ⌊d.value⌋ then none else some ⌊d.value⌋

def integerValue (value : Json) (field : String) : Except IntradayFault Int := do
  required value field
  match readInteger value with
  | none => .error (.normalization (field ++ " is not an integer"))
  | some n => .ok n

def requiredPrice (value : Json) (field : String) : Except IntradayFault Decimal := do
  let selected ← decimalValue value field
  if selected ≤ 0 then .error (.normalization (field ++ " must be positive")) else return selected

def requiredVolume (value : Json) (field : String) : Except IntradayFault Decimal := do
  let selected ← decimalValue value field
  if selected < 0 then .error (.normalization (field ++ " cannot be negative")) else return selected

/-! ### Series -/

/-- The offset of `_IST`. -/
def istOffset : Int := 19800000000

/-- `t.astimezone(_IST)`. -/
def toIst (t : Datetime) : Datetime := ⟨t.instant + istOffset, some istOffset⟩

/-- `t.astimezone(_IST).date()`, as a day counted from 1970-01-01. -/
def istDate (t : Datetime) : Except IntradayFault Int :=
  if (toIst t).InCalendar then .ok ((toIst t).wall / 86400000000) else .error .overflow

structure DhanIntradaySeries where
  intervalMinutes : Int
  candles : List Candle
  sourceFirstTimestamp : Datetime
  sourceLastTimestamp : Datetime

def DhanIntradaySeries.completed (series : DhanIntradaySeries) : List Candle := series.candles.filter (·.completed)

def awareAs (t : Datetime) (name : String) : Except IntradayFault Unit :=
  if t.Aware then .ok () else .error (.normalization (name ++ " must be timezone-aware"))

/-- The entries of the six arrays at one index. -/
structure IntradayRow where
  opening : Json
  high : Json
  low : Json
  closing : Json
  volume : Json
  timestamp : Json
  deriving Repr

def zipRows : List Json → List Json → List Json → List Json → List Json → List Json → List IntradayRow
  | opening :: openings, high :: highs, low :: lows, closing :: closings, volume :: volumes, timestamp :: timestamps =>
      ⟨opening, high, low, closing, volume, timestamp⟩ :: zipRows openings highs lows closings volumes timestamps
  | _, _, _, _, _, _ => []

def arrayOf (data : List (String × Json)) (name : String) : Except IntradayFault (List Json) :=
  match data.lookup name with
  | some (.array items) => .ok items
  | _ => .error (.normalization ("Dhan intraday " ++ name ++ " must be an array"))

/-- `payload.get("data", payload)`. -/
def payloadData (payload : List (String × Json)) : Json := (payload.lookup "data").getD (.object payload)

def intradayRows (payload : List (String × Json)) : Except IntradayFault (List IntradayRow) :=
  match payloadData payload with
  | .object data => do
      let openings ← arrayOf data "open"
      let highs ← arrayOf data "high"
      let lows ← arrayOf data "low"
      let closings ← arrayOf data "close"
      let volumes ← arrayOf data "volume"
      let timestamps ← arrayOf data "timestamp"
      if ∃ array ∈ [openings, highs, lows, closings, volumes], array.length ≠ timestamps.length then
        .error (.normalization "Dhan intraday OHLCV arrays have different lengths")
      else if timestamps.length = 0 then .error (.normalization "Dhan intraday payload contains no candles")
      else return zipRows openings highs lows closings volumes timestamps
  | _ => .error (.normalization "Dhan intraday data object is missing")

/-- A start on the day of the one before it follows it after the interval. -/
def checkContinuity (duration : Int) (previousStart : Option Datetime) (start : Datetime) : Except IntradayFault Unit :=
  match previousStart with
  | none => .ok ()
  | some previous => do
      if start.instant ≤ previous.instant then
        .error (.normalization "Dhan intraday timestamps must be strictly increasing")
      else if (← istDate start) = (← istDate previous) ∧ start.instant - previous.instant ≠ duration then
        .error (.normalization "Dhan intraday candles are discontinuous within an IST session")
      else return ()

/-- The candle of a row, at an index of the arrays. -/
def rowCandle (duration : Int) (asOf : Datetime) (previousStart : Option Datetime) (index : Nat) (row : IntradayRow) :
    Except IntradayFault Candle := do
  let label (name : String) := name ++ "[" ++ toString index ++ "]"
  let epoch ← integerValue row.timestamp (label "timestamp")
  if epoch ≤ 0 then .error (.normalization (label "timestamp" ++ " must be a positive Unix epoch"))
  else
    let start := Datetime.utc (epoch * 1000000)
    if ¬start.InCalendar then .error (.normalization (label "timestamp" ++ " is outside the supported range"))
    else
      checkContinuity duration previousStart start
      let ending := start.plus duration
      if ¬ending.InCalendar then .error .overflow
      else
        let opening ← requiredPrice row.opening (label "open")
        let high ← requiredPrice row.high (label "high")
        let low ← requiredPrice row.low (label "low")
        let closing ← requiredPrice row.closing (label "close")
        let volume ← requiredVolume row.volume (label "volume")
        (Candle.new start ending opening high low closing volume (decide (ending.instant ≤ asOf.instant))).mapError
          IntradayFault.analytics

/-- The loop over the arrays. -/
def rowCandles (duration : Int) (asOf : Datetime) :
    Option Datetime → Nat → List IntradayRow → Except IntradayFault (List Candle)
  | _, _, [] => .ok []
  | previousStart, index, row :: rows => do
      let candle ← rowCandle duration asOf previousStart index row
      return candle :: (← rowCandles duration asOf (some candle.start) (index + 1) rows)

def normalizeDhanIntraday (payload : List (String × Json)) (intervalMinutes : Int) (asOf : Datetime) :
    Except IntradayFault DhanIntradaySeries :=
  if intervalMinutes ∉ supportedIntervals then .error (.normalization "unsupported Dhan intraday interval")
  else do
    awareAs asOf "intraday as_of"
    let rows ← intradayRows payload
    match ← rowCandles (intervalMinutes * 60000000) asOf none 0 rows with
    | [] => .error (.normalization "Dhan intraday payload contains no candles")
    | first :: rest => return {
        intervalMinutes := intervalMinutes
        candles := first :: rest
        sourceFirstTimestamp := first.start
        sourceLastTimestamp := (rest.getLastD first).start }

/-! ### Technical state -/

structure CompletedTechnicalResult where
  state : Domain.TechnicalState
  sessionVwap : Decimal
  latestCandle : Candle
  completedCandleCount : Nat

/-- The functions of the standard library that the realized volatility calls. -/
structure Statistics where
  log : Binary64 → Except ArithmeticError Binary64
  pstdev : List Binary64 → Except ArithmeticError Binary64

section Technical

variable (statistics : Statistics)

/-- The logarithms of the changes of the close. -/
def logReturns : List Candle → Except ArithmeticError (List Binary64)
  | previous :: current :: rest => do
      let ratio ← Decimal.divide current.closing previous.closing
      let change ← statistics.log (Binary64.ofDecimal ratio)
      return change :: (← logReturns (current :: rest))
  | _ => .ok []

def realizedVolatility (candles : List Candle) (annualPeriods : Int) : Except ArithmeticError (Option Binary64) := do
  if candles.length < 2 then return none
  else
    let returns ← logReturns statistics candles
    let deviation ← statistics.pstdev returns
    let annualized := deviation.mul (← Binary64.sqrt (← Binary64.ofQuotient annualPeriods 1))
    if ¬annualized.IsFinite ∨ annualized ≤ 0 then return none else return some annualized

/-- What an indicator returns or raises. -/
def indicator {α : Type} (result : Except Analytics.Fault α) : Except IntradayFault α := result.mapError .analytics

/-- The completed candles that end by the observation. -/
def DhanIntradaySeries.completedBy (series : DhanIntradaySeries) (observedAt : Datetime) : List Candle :=
  series.candles.filter fun candle => candle.completed && decide (candle.ending.instant ≤ observedAt.instant)

/-- The candles of the day on which the latest one ends. -/
def sessionOf (latest : Candle) (candles : List Candle) : Except IntradayFault (List Candle) := do
  let latestSessionDate ← istDate latest.ending
  let dates ← candles.mapM fun candle => return (candle, ← istDate candle.ending)
  return (dates.filter (·.2 = latestSessionDate)).map Prod.fst

def completedTechnicalState (series : DhanIntradaySeries) (observedAt : Datetime) (annualPeriods : Int) :
    Except IntradayFault CompletedTechnicalResult := do
  awareAs observedAt "technical observed_at"
  if series.intervalMinutes ≠ 15 then .error (.normalization "strategy technicals require 15-minute candles")
  else if annualPeriods ≤ 0 then .error (.normalization "annual_periods must be a positive integer")
  else
    let completed := series.completedBy observedAt
    match completed.getLast? with
    | none => .error (.normalization "at least 45 completed 15-minute candles are required for WMA44 history")
    | some latest =>
        if completed.length < 45 then
          .error (.normalization "at least 45 completed 15-minute candles are required for WMA44 history")
        else
          let ema9 ← indicator (ema completed 9 (some observedAt))
          let ema21 ← indicator (ema completed 21 (some observedAt))
          let wma44 ← indicator (wma completed 44 (some observedAt))
          let previousWma44 ← indicator (wma completed.dropLast 44 (some observedAt))
          let rsi14 ← indicator (wilderRsi completed 14 (some observedAt))
          let atr14 ← indicator (atr completed 14 (some observedAt))
          if ema9 = none ∨ ema21 = none ∨ wma44 = none ∨ previousWma44 = none ∨ rsi14 = none ∨ atr14 = none then
            .error (.normalization "completed candle history cannot produce required indicators")
          else
            let session ← sessionOf latest completed
            match ← indicator (vwap session (some observedAt)) with
            | none => .error (.normalization "latest completed session cannot produce a positive VWAP")
            | some sessionVwap =>
                if ¬sessionVwap.IsFinite ∨ sessionVwap ≤ 0 then
                  .error (.normalization "latest completed session cannot produce a positive VWAP")
                else
                  match ← (realizedVolatility statistics completed annualPeriods).mapError IntradayFault.arithmetic with
                  | none =>
                      .error (.normalization "completed candle history cannot produce positive volatility")
                  | some referenceVolatility => return {
                      state := {
                        observedAt := observedAt
                        ema9 := ema9
                        ema21 := ema21
                        wma44 := wma44
                        previousWma44 := previousWma44
                        rsi14 := rsi14
                        atr14 := atr14
                        referenceVolatility := some referenceVolatility
                        timeframe := "15m"
                        completedCandle := true }
                      sessionVwap := sessionVwap
                      latestCandle := latest
                      completedCandleCount := completed.length }

end Technical

end TecoQuant.Ingestion
