import TecoQuant.ExecutionModels
import TecoQuant.SignalPipeline

/-! From a signal plan to what execution control takes. -/

namespace TecoQuant.Signal

open Domain Strategy

/-- What an adapter raises. -/
inductive AdapterFault where
  | valueError (message : String)
  | typeError (message : String)
  | overflowError (message : String)
  | arithmetic (error : ArithmeticError)
  deriving DecidableEq, Repr

/-- `t + timedelta`, of a duration in microseconds. -/
def addDuration (t : Datetime) (duration : Int) : Except AdapterFault Datetime :=
  let moved : Datetime := ⟨t.wall + duration, t.utcoffset⟩
  if moved.InCalendar then .ok moved else .error (.overflowError "date value out of range")

/-- `min(left, right)`. -/
def earlier (left right : Datetime) : Except AdapterFault Datetime :=
  if left.Aware ↔ right.Aware then .ok (if right.instant < left.instant then right else left)
  else .error (.typeError "can't compare offset-naive and offset-aware datetimes")

/-- `left - right`, in microseconds. -/
def duration (left right : Datetime) : Except AdapterFault Int :=
  if left.Aware ↔ right.Aware then .ok (left.instant - right.instant)
  else .error (.typeError "can't subtract offset-naive and offset-aware datetimes")

/-- `_require_same_snapshot`. -/
def requireSameSnapshot (plan : TradePlan) (snapshot : AtomicSnapshot) : Except AdapterFault Unit :=
  if plan.snapshotId ≠ snapshot.snapshotId ∨ plan.contractKey ≠ snapshot.contract.contractKey ∨
      plan.strategyVersion ≠ snapshot.strategyVersion then
    .error (.valueError "trade plan is not bound to the supplied snapshot")
  else .ok ()

/-- `riskPerLot * lots`. -/
def maximumLoss (plan : TradePlan) : Except AdapterFault Decimal :=
  match Decimal.times .default plan.riskPerLot (.ofInt plan.lots) with
  | .ok loss => .ok loss
  | .error error => .error (.arithmetic error)

/-- `to_execution_plan`, with its validity and its buffer in microseconds. -/
def toExecutionPlan (plan : TradePlan) (snapshot : AtomicSnapshot) (validity minimumExpiryBuffer : Int) :
    Except AdapterFault Execution.TradePlan := do
  requireSameSnapshot plan snapshot
  if plan.actionable = false then
    .error (.valueError "only an actionable BUY plan can enter execution control")
  else if validity ≤ 0 ∨ minimumExpiryBuffer < 0 then
    .error (.valueError "execution validity and expiry buffer are invalid")
  else do
    let maximumLoss ← maximumLoss plan
    let validUntil ← earlier plan.expiry (← addDuration plan.generatedAt validity)
    let remaining ← duration plan.expiry plan.generatedAt
    return {
      signalId := plan.signalId
      correlationId := plan.signalId
      symbol := plan.symbol
      securityId := plan.securityId
      side := .buy
      quantity := plan.quantity
      limitPrice := plan.entry
      maximumLoss := maximumLoss
      signalTime := plan.generatedAt
      dataTime := snapshot.sourceTimestamp
      validUntil := validUntil
      contractExpiry := plan.expiry
      eventRiskActive := snapshot.context.eventRiskActive
      expiryRiskClear := decide (minimumExpiryBuffer < remaining)
      strategyVersion := plan.strategyVersion }

/-- The default validity of an execution plan: 30 seconds. -/
def executionValidity : Int := 30000000

/-- The default buffer before the expiry: 15 minutes. -/
def executionExpiryBuffer : Int := 900000000

end TecoQuant.Signal
