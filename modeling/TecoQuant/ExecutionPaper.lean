import TecoQuant.BaseSha256
import TecoQuant.ExecutionModels

/-! The deterministic paper broker: it fills a fixed share of every order, at the limit price moved by
a fixed slippage. -/

namespace TecoQuant.Execution.PaperBrokerConfig

/-- The first twenty hexadecimal digits of the digest of the correlation id. -/
def digest (correlationId : String) : String :=
  String.ofList ((Sha256.hexdigest (PyText.utf8 correlationId)).take 20)

/-- The whole contracts of the fill ratio, at least one unless the ratio is zero. -/
def filledQuantity (config : PaperBrokerConfig) (quantity : Int) : Int :=
  let share := (Decimal.mul .default (.ofInt quantity) config.partialFillRatio).floor
  min quantity (if 0 < config.partialFillRatio ∧ share = 0 then 1 else share)

/-- One plus or minus the slippage. -/
def multiplier (config : PaperBrokerConfig) (side : OrderSide) : Decimal :=
  Decimal.add .default 1 <| Decimal.shiftDown .default 4 <|
    match side with
    | .buy => config.slippageBps
    | .sell => Decimal.neg .default config.slippageBps

/-- The limit price with slippage, in ten-thousandths; none is an `InvalidOperation`. -/
def fillPrice (config : PaperBrokerConfig) (side : OrderSide) (limitPrice : Decimal) : Option Decimal :=
  Decimal.quantize .default 4 (Decimal.mul .default limitPrice (config.multiplier side))

def orderState (quantity filledQuantity : Int) : OrderState :=
  if filledQuantity = quantity then .filled
  else if 0 < filledQuantity then .partiallyFilled
  else .acknowledged

def fillState (quantity filledQuantity : Int) : FillState :=
  if filledQuantity = quantity then .complete else .partialFill

/-- The order and the fills `PaperBroker.submit` reports for a plan. -/
def submit (config : PaperBrokerConfig) (plan : TradePlan) (now : Datetime) :
    Except Fault (BrokerOrder × List BrokerFill) :=
  let digest := digest plan.correlationId
  let filledQuantity := config.filledQuantity plan.quantity
  match config.fillPrice plan.side plan.limitPrice with
  | none => .error ⟨.invalidOperation, "quantize result has too many digits for current context"⟩
  | some fillPrice =>
      let fills : List BrokerFill :=
        if filledQuantity = 0 then []
        else [{
          fillId := "paper-fill-" ++ digest ++ "-1"
          orderId := "paper-order-" ++ digest
          quantity := filledQuantity
          price := fillPrice
          state := fillState plan.quantity filledQuantity
          filledAt := now }]
      .ok ({
        orderId := "paper-order-" ++ digest
        correlationId := plan.correlationId
        signalId := plan.signalId
        symbol := plan.symbol
        securityId := plan.securityId
        side := plan.side
        quantity := plan.quantity
        filledQuantity := filledQuantity
        limitPrice := plan.limitPrice
        averageFillPrice := if filledQuantity = 0 then none else some fillPrice
        state := orderState plan.quantity filledQuantity
        submittedAt := now }, fills)

theorem filledQuantity_le (config : PaperBrokerConfig) (quantity : Int) :
    config.filledQuantity quantity ≤ quantity :=
  min_le_left _ _

end TecoQuant.Execution.PaperBrokerConfig
