import TecoQuant.BaseDatetime
import TecoQuant.BaseDecimal
import TecoQuant.BaseText

/-! The typed execution contracts: plans, orders, fills, positions, the gateway's acknowledgements,
the policy and the exceptions. -/

namespace TecoQuant.Execution

inductive ExecutionMode where
  | off
  | dataOnly
  | paperTrading
  | manualApproval
  | liveAutomatic
  deriving DecidableEq, Repr

def ExecutionMode.value : ExecutionMode → String
  | .off => "OFF"
  | .dataOnly => "DATA_ONLY"
  | .paperTrading => "PAPER_TRADING"
  | .manualApproval => "MANUAL_APPROVAL"
  | .liveAutomatic => "LIVE_AUTOMATIC"

inductive OrderSide where
  | buy
  | sell
  deriving DecidableEq, Repr

inductive OrderState where
  | pending
  | acknowledged
  | partiallyFilled
  | filled
  | rejected
  | cancelled
  | unknown
  deriving DecidableEq, Repr

inductive FillState where
  | partialFill
  | complete
  deriving DecidableEq, Repr

inductive PositionState where
  | opened
  | closed
  deriving DecidableEq, Repr

inductive SignalExecutionState where
  | received
  | blocked
  | awaitingApproval
  | submitted
  | partiallyFilled
  | filled
  | uncertain
  deriving DecidableEq, Repr

def OrderState.value : OrderState → String
  | .pending => "PENDING"
  | .acknowledged => "ACKNOWLEDGED"
  | .partiallyFilled => "PARTIALLY_FILLED"
  | .filled => "FILLED"
  | .rejected => "REJECTED"
  | .cancelled => "CANCELLED"
  | .unknown => "UNKNOWN"

def SignalExecutionState.value : SignalExecutionState → String
  | .received => "RECEIVED"
  | .blocked => "BLOCKED"
  | .awaitingApproval => "AWAITING_APPROVAL"
  | .submitted => "SUBMITTED"
  | .partiallyFilled => "PARTIALLY_FILLED"
  | .filled => "FILLED"
  | .uncertain => "UNCERTAIN"

/-- The execution view of a trade plan. -/
structure TradePlan where
  signalId : String
  correlationId : String
  symbol : String
  securityId : String
  side : OrderSide
  quantity : Int
  limitPrice : Decimal
  maximumLoss : Decimal
  signalTime : Datetime
  dataTime : Datetime
  validUntil : Datetime
  contractExpiry : Datetime
  eventRiskActive : Option Bool
  expiryRiskClear : Bool
  strategyVersion : String
  deriving DecidableEq, Repr

structure BrokerOrder where
  orderId : String
  correlationId : String
  signalId : String
  symbol : String
  securityId : String
  side : OrderSide
  quantity : Int
  filledQuantity : Int
  limitPrice : Decimal
  averageFillPrice : Option Decimal
  state : OrderState
  submittedAt : Datetime
  deriving DecidableEq, Repr

structure BrokerFill where
  fillId : String
  orderId : String
  quantity : Int
  price : Decimal
  state : FillState
  filledAt : Datetime
  deriving DecidableEq, Repr

structure Approval where
  signalId : String
  actor : String
  reason : String
  approvedAt : Datetime
  deriving DecidableEq, Repr

structure ExecutionResult where
  signalId : String
  state : SignalExecutionState
  order : Option BrokerOrder := none
  fills : List BrokerFill := []
  message : Option String := none
  deriving DecidableEq, Repr

/-- What a broker reports as the filled quantity: an integer, or something `isinstance` rejects. -/
inductive ReportedQuantity where
  | int (quantity : Int)
  | other
  deriving DecidableEq, Repr

/-- The quantity once `_validate_live_acknowledgement` has checked that it is an integer. -/
def ReportedQuantity.toInt : ReportedQuantity → Int
  | .int quantity => quantity
  | .other => 0

structure LiveOrderAcknowledgement where
  brokerOrderId : String
  correlationId : String
  state : OrderState
  filledQuantity : ReportedQuantity := .int 0
  averageFillPrice : Option Decimal := none
  deriving DecidableEq, Repr

/-- The exceptions that leave the controller. -/
inductive FaultKind where
  | executionError
  | executionBlocked
  | planValidation
  | duplicateSignal
  | duplicatePosition
  | approval
  | killSwitch
  | liveExecutionDisabled
  | executionUncertain
  | integrityError
  | overflowError
  | invalidOperation
  | gatewayError
  deriving DecidableEq, Repr

structure Fault where
  kind : FaultKind
  message : String
  deriving DecidableEq, Repr

/-- The policy; `__post_init__` is its last three fields. -/
structure ExecutionPolicy where
  mode : ExecutionMode := .off
  maxDataAgeSeconds : ℚ := 30
  futureClockSkewSeconds : ℚ := 2
  minExpiryBufferSeconds : ℚ := 900
  maxOrderQuantity : Int := 10000
  maxOrderNotional : Decimal := 1000000
  maxPlanLoss : Decimal := 50000
  maxDailyLoss : Decimal := 100000
  maxConsecutiveLosses : Int := 3
  liveEnabled : Bool := false
  durations_nonneg : ∀ seconds ∈ [maxDataAgeSeconds, futureClockSkewSeconds, minExpiryBufferSeconds],
    0 ≤ seconds
  limits_pos : 0 < maxOrderQuantity ∧ 0 < maxConsecutiveLosses
  amounts_pos : ∀ amount ∈ [maxOrderNotional, maxPlanLoss, maxDailyLoss],
    amount.IsFinite ∧ 0 < amount

/-- The default limits; they pass their own checks. -/
def ExecutionPolicy.ofMode (mode : ExecutionMode) (liveEnabled : Bool) : ExecutionPolicy where
  mode := mode
  liveEnabled := liveEnabled
  durations_nonneg := by simp
  limits_pos := by decide
  amounts_pos := by 
    simp only [List.mem_cons, List.not_mem_nil, or_false, forall_eq_or_imp, forall_eq]
    decide +kernel

structure PaperBrokerConfig where
  slippageBps : Decimal := 0
  partialFillRatio : Decimal := 1
  slippage_bounds : slippageBps.IsFinite ∧ 0 ≤ slippageBps ∧ slippageBps < 10000
  ratio_bounds : partialFillRatio.IsFinite ∧ 0 ≤ partialFillRatio ∧ partialFillRatio ≤ 1

/-- Full fills at the limit price. -/
def PaperBrokerConfig.default : PaperBrokerConfig where
  slippage_bounds := by decide +kernel
  ratio_bounds := by decide +kernel

end TecoQuant.Execution
