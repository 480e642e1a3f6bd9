import TecoQuant.BaseProgram
import TecoQuant.ExecutionLedger
import TecoQuant.ExecutionPaper

/-! The execution controller as programs over atomic commands. A command is one ledger read, one ledger
transaction or one gateway call: what the ledger's lock makes indivisible. -/

namespace TecoQuant.Execution

open Atomic

/-- What `submit_order` does: it acknowledges, times out, or raises another exception. -/
inductive SubmitReply where
  | acknowledged (acknowledgement : LiveOrderAcknowledgement)
  | timedOut
  | raised (message : String)
  deriving DecidableEq, Repr

inductive LookupReply where
  | found (acknowledgement : Option LiveOrderAcknowledgement)
  | raised (message : String)
  deriving DecidableEq, Repr

/-- A request the live gateway received. -/
inductive GatewayCall where
  | submitOrder (plan : TradePlan) (correlationId : String)
  | lookupByCorrelation (correlationId : String)
  deriving DecidableEq, Repr

/-- A live broker: its replies may depend on every request it has received before. -/
structure LiveBrokerGateway where
  submitOrder : List GatewayCall → TradePlan → String → SubmitReply
  lookupByCorrelation : List GatewayCall → String → LookupReply

inductive Command where
  | killSwitch
  | dailyRealizedPnl (day : Int)
  | consecutiveLosses
  | setKillSwitch (active : Bool) (reason actor : String) (changedAt : Datetime)
  | signalExists (signalId : String)
  | plan (signalId : String)
  | signalState (signalId : String)
  | openPositionForSecurity (securityId : String)
  | recordSignal (plan : TradePlan) (state : SignalExecutionState) (recordedAt : Datetime)
  | updateSignalState (signalId : String) (state : SignalExecutionState) (now : Datetime)
  | recordApproval (approval : Approval)
  | recordExecution (order : BrokerOrder) (fills : List BrokerFill) (now : Datetime)
  | closePosition (positionId : String) (exitPrice : Decimal) (closedAt : Datetime)
  | submitOrder (plan : TradePlan) (correlationId : String)
  | lookupByCorrelation (correlationId : String)
  deriving DecidableEq, Repr

abbrev Command.Reply : Command → Type
  | .killSwitch => KillSwitchRow
  | .dailyRealizedPnl _ => Decimal
  | .consecutiveLosses => Nat
  | .signalExists _ => Bool
  | .plan _ => Option TradePlan
  | .signalState _ => Option SignalExecutionState
  | .openPositionForSecurity _ => Option PositionRow
  | .closePosition .. => Except Fault Decimal
  | .submitOrder .. => SubmitReply
  | .lookupByCorrelation _ => LookupReply
  | _ => Except Fault Unit

instance (cmd : Command) : DecidableEq cmd.Reply := by
  cases cmd <;> infer_instance

abbrev Action (α : Type) := Program Command Command.Reply Fault α

/-- One atomic step, with its reply. -/
def issue (cmd : Command) : Action cmd.Reply := Program.command cmd

/-- The ledger and the requests the live gateway has received. -/
structure World where
  ledger : Ledger
  gatewayCalls : List GatewayCall
  deriving DecidableEq, Repr

def World.fresh (createdAt : Int) : World := ⟨.fresh createdAt, []⟩

/-- Replace the ledger by what a transaction leaves. -/
def World.commit {α : Type} (w : World) (result : Except Fault α × Ledger) : Except Fault α × World :=
  (result.1, { w with ledger := result.2 })

@[simp] theorem World.commit_gatewayCalls {α : Type} (w : World) (result : Except Fault α × Ledger) :
    (w.commit result).2.gatewayCalls = w.gatewayCalls :=
  rfl

/-- The reply and the effect of each command. Without a gateway no order is ever submitted. -/
def perform (live : Option LiveBrokerGateway) : Handler Command Command.Reply World
  | .killSwitch, w => (w.ledger.killSwitch, w)
  | .dailyRealizedPnl day, w => (w.ledger.dailyRealizedPnl day, w)
  | .consecutiveLosses, w => (w.ledger.consecutiveLosses, w)
  | .setKillSwitch active reason actor changedAt, w =>
      w.commit (Ledger.updateKillSwitch active reason actor changedAt w.ledger)
  | .signalExists signalId, w => (w.ledger.signalExists signalId, w)
  | .plan signalId, w => (w.ledger.plan signalId, w)
  | .signalState signalId, w => (w.ledger.signalState signalId, w)
  | .openPositionForSecurity securityId, w => (w.ledger.openPositionForSecurity securityId, w)
  | .recordSignal plan state recordedAt, w =>
      w.commit (Ledger.recordSignal plan state recordedAt w.ledger)
  | .updateSignalState signalId state now, w =>
      w.commit (Ledger.updateSignalState signalId state now w.ledger)
  | .recordApproval approval, w => w.commit (Ledger.recordApproval approval w.ledger)
  | .recordExecution order fills now, w => w.commit (Ledger.recordExecution order fills now w.ledger)
  | .closePosition positionId exitPrice closedAt, w =>
      w.commit (Ledger.closePosition positionId exitPrice closedAt w.ledger)
  | .submitOrder plan correlationId, w =>
      let reply := match live with
        | some gateway => gateway.submitOrder w.gatewayCalls plan correlationId
        | none => .raised "no live broker gateway is configured"
      (reply, { w with gatewayCalls := w.gatewayCalls ++ [.submitOrder plan correlationId] })
  | .lookupByCorrelation correlationId, w =>
      let reply := match live with
        | some gateway => gateway.lookupByCorrelation w.gatewayCalls correlationId
        | none => .raised "no live broker gateway is configured"
      (reply, { w with gatewayCalls := w.gatewayCalls ++ [.lookupByCorrelation correlationId] })

/-! ### Commands that can raise -/

def setKillSwitchCommand (active : Bool) (actor reason : String) (changedAt : Datetime) :
    Action Unit := do
  .ofExcept (← issue (.setKillSwitch active reason actor changedAt))

def recordSignal (plan : TradePlan) (state : SignalExecutionState) (recordedAt : Datetime) :
    Action Unit := do
  .ofExcept (← issue (.recordSignal plan state recordedAt))

def updateSignalState (signalId : String) (state : SignalExecutionState) (now : Datetime) :
    Action Unit := do
  .ofExcept (← issue (.updateSignalState signalId state now))

def recordApproval (approval : Approval) : Action Unit := do
  .ofExcept (← issue (.recordApproval approval))

def recordExecution (order : BrokerOrder) (fills : List BrokerFill) (now : Datetime) :
    Action Unit := do
  .ofExcept (← issue (.recordExecution order fills now))

section Run

variable (live : Option LiveBrokerGateway) (w : World)

theorem run_issue_bind {α : Type} (cmd : Command) (next : cmd.Reply → Action α) :
    run (perform live) (issue cmd >>= next) w =
      run (perform live) (next (perform live cmd w).1) (perform live cmd w).2 :=
  rfl

theorem run_setKillSwitchCommand (active : Bool) (actor reason : String) (changedAt : Datetime) :
    run (perform live) (setKillSwitchCommand active actor reason changedAt) w =
      w.commit (Ledger.updateKillSwitch active reason actor changedAt w.ledger) := by
  generalize hresult : Ledger.updateKillSwitch active reason actor changedAt w.ledger = result
  have hperform : perform live (.setKillSwitch active reason actor changedAt) w = w.commit result := by
    rw [← hresult]
    rfl
  unfold setKillSwitchCommand
  rw [run_issue_bind, hperform]
  exact run_ofExcept _ _ _

theorem run_recordSignal (plan : TradePlan) (state : SignalExecutionState) (recordedAt : Datetime) :
    run (perform live) (recordSignal plan state recordedAt) w =
      w.commit (Ledger.recordSignal plan state recordedAt w.ledger) :=
  run_ofExcept _ _ _

theorem run_updateSignalState (signalId : String) (state : SignalExecutionState) (now : Datetime) :
    run (perform live) (updateSignalState signalId state now) w =
      w.commit (Ledger.updateSignalState signalId state now w.ledger) :=
  run_ofExcept _ _ _

theorem run_recordApproval (approval : Approval) :
    run (perform live) (recordApproval approval) w = w.commit (Ledger.recordApproval approval w.ledger) := by
  unfold recordApproval
  rw [run_issue_bind, perform]
  generalize w.commit (Ledger.recordApproval approval w.ledger) = committed
  exact run_ofExcept _ _ _

theorem run_recordExecution (order : BrokerOrder) (fills : List BrokerFill) (now : Datetime) :
    run (perform live) (recordExecution order fills now) w =
      w.commit (Ledger.recordExecution order fills now w.ledger) :=
  run_ofExcept _ _ _

end Run

/-! ### The controller -/

/-- The registry is the verified map from symbols to security ids. -/
structure ExecutionController where
  policy : ExecutionPolicy
  instrumentRegistry : List (String × String)
  paper : PaperBrokerConfig
  live : Option LiveBrokerGateway

/-- A controller with the default limits and the default paper broker. -/
def ExecutionController.ofMode (mode : ExecutionMode) (instrumentRegistry : List (String × String))
    (live : Option LiveBrokerGateway) : ExecutionController :=
  ⟨.ofMode mode live.isSome, instrumentRegistry, .default, live⟩

/-- A gateway that fills every order. Its answers name an order id and a correlation id that depend on
the requested correlation id. -/
def fillingGateway (brokerOrderId correlationId : String → String) : LiveBrokerGateway where
  submitOrder _ plan requested := .acknowledged {
    brokerOrderId := brokerOrderId requested
    correlationId := correlationId requested
    state := .filled
    filledQuantity := .int plan.quantity
    averageFillPrice := some plan.limitPrice }
  lookupByCorrelation _ _ := .found none

/-- A controller in live mode over a gateway. -/
def liveController (gateway : LiveBrokerGateway) : ExecutionController :=
  .ofMode .liveAutomatic [("NIFTY", "101")] (some gateway)

/-- A plan that passes the default gates at the epoch, for a registry that lists its symbol. -/
def TradePlan.sample (signalId correlationId securityId : String) : TradePlan where
  signalId := signalId
  correlationId := correlationId
  symbol := "NIFTY"
  securityId := securityId
  side := .buy
  quantity := 10
  limitPrice := 100
  maximumLoss := 500
  signalTime := .utc 0
  dataTime := .utc 0
  validUntil := .utc 60000000
  contractExpiry := .utc 86400000000
  eventRiskActive := some false
  expiryRiskClear := true
  strategyVersion := "v1"

/-- `_require_aware`. -/
def requireAware (value : Datetime) (name : String) : Except Fault Unit :=
  if value.Aware then .ok ()
  else .error ⟨.planValidation, name ++ " must be timezone-aware"⟩

/-- `if not value.strip(): raise PlanValidationError(f"{name} is required")`. -/
def requireText (name value : String) : Except Fault Unit :=
  if PyText.Blank value then .error ⟨.planValidation, name ++ " is required"⟩ else .ok ()

def require (condition : Prop) [Decidable condition] (message : String) : Except Fault Unit :=
  if condition then .ok () else .error ⟨.planValidation, message⟩

namespace ExecutionController

/-- The checks of `_validate_plan` between its two ledger reads. -/
@[irreducible] def planChecks (c : ExecutionController) (plan : TradePlan) (now : Datetime) : Except Fault Unit := do
  requireText "signal_id" plan.signalId
  requireText "correlation_id" plan.correlationId
  requireText "symbol" plan.symbol
  requireText "security_id" plan.securityId
  requireText "strategy_version" plan.strategyVersion
  require (c.instrumentRegistry.lookup plan.symbol = some plan.securityId)
    "symbol/security ID does not match the execution registry"
  require (0 < plan.quantity ∧ plan.quantity ≤ c.policy.maxOrderQuantity)
    "quantity exceeds the configured limit"
  require (plan.limitPrice.IsFinite ∧ 0 < plan.limitPrice) "limit price must be finite and positive"
  require (plan.maximumLoss.IsFinite ∧ 0 < plan.maximumLoss ∧ plan.maximumLoss ≤ c.policy.maxPlanLoss)
    "maximum plan loss exceeds the configured limit"
  require (Decimal.mul .default plan.limitPrice (.ofInt plan.quantity) ≤ c.policy.maxOrderNotional)
    "order notional exceeds the configured limit"
  requireAware plan.signalTime "signal_time"
  requireAware plan.dataTime "data_time"
  requireAware plan.validUntil "valid_until"
  requireAware plan.contractExpiry "contract_expiry"
  let dataAge := now.secondsSince plan.dataTime
  require (dataAge ≤ c.policy.maxDataAgeSeconds) "market data is stale"
  require (-c.policy.futureClockSkewSeconds ≤ dataAge) "market data is future-dated"
  require (plan.signalTime.secondsSince now ≤ c.policy.futureClockSkewSeconds)
    "signal timestamp is future-dated"
  require (now.instant < plan.validUntil.instant) "execution plan has expired"
  require (plan.eventRiskActive = some false) "event risk must be explicitly clear"
  require (plan.expiryRiskClear = true) "expiry-risk gate is not clear"
  require (c.policy.minExpiryBufferSeconds < plan.contractExpiry.secondsSince now)
    "contract is inside the expiry-risk buffer"

/-- The first check of `_validate_plan`. -/
def requireNewSignal (checkSignal : Bool) (signalId : String) : Action Unit :=
  if checkSignal then do
    let known : Bool ← issue (.signalExists signalId)
    if known then .raise ⟨.duplicateSignal, "signal has already been processed"⟩ else pure ()
  else pure ()

/-- `_validate_plan`. -/
def validatePlan (c : ExecutionController) (plan : TradePlan) (now : Datetime) (checkSignal : Bool) :
    Action Unit := do
  requireNewSignal checkSignal plan.signalId
  .ofExcept (c.planChecks plan now)
  let position : Option PositionRow ← issue (.openPositionForSecurity plan.securityId)
  match position with
  | none => pure ()
  | some _ => .raise ⟨.duplicatePosition, "an open position already exists for this security"⟩

/-- The text of the `KillSwitchError` of an active switch. -/
def killSwitchMessage (row : KillSwitchRow) : String :=
  match row.reason with
  | none => "kill switch is active"
  | some reason => if reason = "" then "kill switch is active" else reason

/-- Trip the kill switch and raise. -/
def tripKillSwitch (reason : String) (now : Datetime) : Action Unit := do
  setKillSwitchCommand true "system" reason now
  .raise ⟨.killSwitch, reason⟩

/-- `_check_kill_limits`. -/
def checkKillLimits (c : ExecutionController) (now : Datetime) : Action Unit := do
  let current : KillSwitchRow ← issue .killSwitch
  if current.active then .raise ⟨.killSwitch, killSwitchMessage current⟩
  else do
    let today : Datetime ← .ofExcept (now.astimezone dateOverflow)
    let dailyPnl : Decimal ← issue (.dailyRealizedPnl today.utcDay)
    if dailyPnl ≤ Decimal.neg .default c.policy.maxDailyLoss then
      tripKillSwitch "daily loss limit reached" now
    else do
      let losses : Nat ← issue .consecutiveLosses
      if c.policy.maxConsecutiveLosses ≤ losses then
        tripKillSwitch "consecutive loss limit reached" now
      else pure ()

/-- The signal state the caller is told, read off the state of the order. -/
def resultState (state : OrderState) : SignalExecutionState :=
  match state with
  | .filled => .filled
  | .partiallyFilled => .partiallyFilled
  | _ => .submitted

/-- Record a broker's order and report it. -/
def recordAndReport (plan : TradePlan) (order : BrokerOrder) (fills : List BrokerFill) (now : Datetime) :
    Action ExecutionResult := do
  recordExecution order fills now
  return { signalId := plan.signalId, state := resultState order.state, order := some order, fills := fills }

/-- `_execute_paper`. -/
def executePaper (c : ExecutionController) (plan : TradePlan) (now : Datetime) :
    Action ExecutionResult := do
  let (order, fills) ← .ofExcept (c.paper.submit plan now)
  recordAndReport plan order fills now

/-- `_live_order`. -/
def liveOrder (plan : TradePlan) (acknowledgement : LiveOrderAcknowledgement) (now : Datetime) :
    BrokerOrder where
  orderId := acknowledgement.brokerOrderId
  correlationId := plan.correlationId
  signalId := plan.signalId
  symbol := plan.symbol
  securityId := plan.securityId
  side := plan.side
  quantity := plan.quantity
  filledQuantity := acknowledgement.filledQuantity.toInt
  limitPrice := plan.limitPrice
  averageFillPrice := acknowledgement.averageFillPrice
  state := acknowledgement.state
  submittedAt := now

/-- `_validate_live_acknowledgement`. -/
def validateLiveAcknowledgement (plan : TradePlan) (acknowledgement : LiveOrderAcknowledgement) :
    Except Fault Unit :=
  match acknowledgement.filledQuantity with
  | .other => .error ⟨.executionUncertain, "broker acknowledgement has an invalid fill quantity"⟩
  | .int quantity =>
      if ¬(0 ≤ quantity ∧ quantity ≤ plan.quantity) then
        .error ⟨.executionUncertain, "broker acknowledgement has an invalid fill quantity"⟩
      else if 0 < quantity ∧ ¬∃ price ∈ acknowledgement.averageFillPrice, price.IsFinite ∧ 0 < price then
        .error ⟨.executionUncertain, "broker filled quantity lacks a valid average price"⟩
      else if quantity = 0 ∧ acknowledgement.averageFillPrice ≠ none then
        .error ⟨.executionUncertain, "broker average price exists without a fill"⟩
      else .ok ()

/-- The single fill of a live order that reports a filled quantity. -/
def liveFills (plan : TradePlan) (acknowledgement : LiveOrderAcknowledgement) (now : Datetime) :
    Except Fault (List BrokerFill) :=
  let quantity := acknowledgement.filledQuantity.toInt
  if quantity = 0 then .ok []
  else
    match acknowledgement.averageFillPrice with
    | none => .error ⟨.executionUncertain, "broker reported fills without an average price"⟩
    | some price => .ok [{
        fillId := "live-fill-" ++ acknowledgement.brokerOrderId ++ "-reconciled"
        orderId := acknowledgement.brokerOrderId
        quantity := quantity
        price := price
        state := if quantity = plan.quantity then .complete else .partialFill
        filledAt := now }]

/-- The acknowledgement that stands for an order nobody could find. -/
def unknownAcknowledgement (plan : TradePlan) : LiveOrderAcknowledgement where
  brokerOrderId := "unknown-" ++ plan.correlationId
  correlationId := plan.correlationId
  state := .unknown

/-- `_execute_live` once an acknowledgement is there. -/
def acceptAcknowledgement (plan : TradePlan) (acknowledgement : LiveOrderAcknowledgement)
    (now : Datetime) : Action ExecutionResult := do
  if acknowledgement.correlationId ≠ plan.correlationId then
    .raise ⟨.executionUncertain, "broker reconciliation correlation mismatch"⟩
  else do
    .ofExcept (validateLiveAcknowledgement plan acknowledgement)
    let fills ← .ofExcept (liveFills plan acknowledgement now)
    recordAndReport plan (liveOrder plan acknowledgement now) fills now

/-- `_execute_live` once the lookup has found no order. -/
def recordUnknown (plan : TradePlan) (now : Datetime) : Action ExecutionResult := do
  recordExecution (liveOrder plan (unknownAcknowledgement plan) now) [] now
  updateSignalState plan.signalId .uncertain now
  .raise ⟨.executionUncertain,
    "live mutation timed out and reconciliation found no order; no retry was sent"⟩

/-- Submit the order; after a timeout look it up, and never submit it again. -/
def submitLive (plan : TradePlan) (now : Datetime) : Action ExecutionResult := do
  let reply : SubmitReply ← issue (.submitOrder plan plan.correlationId)
  match reply with
  | .acknowledged acknowledgement => acceptAcknowledgement plan acknowledgement now
  | .raised message => .raise ⟨.gatewayError, message⟩
  | .timedOut => do
      let reconciled : LookupReply ← issue (.lookupByCorrelation plan.correlationId)
      match reconciled with
      | .found (some acknowledgement) => acceptAcknowledgement plan acknowledgement now
      | .found none => recordUnknown plan now
      | .raised message => .raise ⟨.gatewayError, message⟩

/-- Block the signal and raise. -/
def block (plan : TradePlan) (now : Datetime) (fault : Fault) : Action ExecutionResult := do
  updateSignalState plan.signalId .blocked now
  .raise fault

/-- `_execute_live`. -/
def executeLive (c : ExecutionController) (plan : TradePlan) (now : Datetime) :
    Action ExecutionResult :=
  if c.policy.liveEnabled = false then
    block plan now ⟨.liveExecutionDisabled, "live execution is locked by policy"⟩
  else if c.live.isNone then
    block plan now ⟨.liveExecutionDisabled, "no live broker gateway is configured"⟩
  else submitLive plan now

/-- The part of `submit` after the signal is recorded. -/
def dispatch (c : ExecutionController) (plan : TradePlan) (now : Datetime) : Action ExecutionResult :=
  match c.policy.mode with
  | .off | .dataOnly =>
      block plan now
        ⟨.executionBlocked, "execution mode " ++ c.policy.mode.value ++ " does not submit orders"⟩
  | .manualApproval => do
      updateSignalState plan.signalId .awaitingApproval now
      return {
        signalId := plan.signalId
        state := .awaitingApproval
        message := some "manual approval required" }
  | .paperTrading => c.executePaper plan now
  | .liveAutomatic => c.executeLive plan now

/-- `submit` at the time `now`, which the caller gives or the clock reads. -/
def submit (c : ExecutionController) (plan : TradePlan) (now : Datetime) : Action ExecutionResult := do
  .ofExcept (requireAware now "execution time")
  c.checkKillLimits now
  c.validatePlan plan now true
  recordSignal plan .received now
  c.dispatch plan now

/-- The checks of `approve` before it reads the ledger. -/
def approvalChecks (c : ExecutionController) (actor reason : String) (approvalTime now : Datetime) :
    Except Fault Unit := do
  if c.policy.mode ≠ .manualApproval then
    .error ⟨.approval, "manual approval is only valid in MANUAL_APPROVAL mode"⟩
  requireAware now "execution time"
  requireAware approvalTime "approval time"
  if PyText.Blank actor ∨ PyText.Blank reason then
    .error ⟨.approval, "manual approval requires actor and reason"⟩
  if c.policy.futureClockSkewSeconds < approvalTime.secondsSince now then
    .error ⟨.approval, "approval timestamp is in the future"⟩

/-- The stored plan that `approve` is about. -/
def awaitingPlan (signalId : String) (approvalTime : Datetime) : Action TradePlan := do
  let stored : Option TradePlan ← issue (.plan signalId)
  match stored with
  | none => .raise ⟨.approval, "signal does not exist"⟩
  | some plan =>
      if approvalTime.instant < plan.signalTime.instant then
        .raise ⟨.approval, "approval timestamp precedes the signal"⟩
      else do
        let state : Option SignalExecutionState ← issue (.signalState signalId)
        if state ≠ some .awaitingApproval then
          .raise ⟨.approval, "signal is not awaiting approval"⟩
        else pure plan

/-- `approve` at the time `now`, which the caller gives or the clock reads. -/
def approve (c : ExecutionController) (signalId actor reason : String) (approvedAt : Option Datetime)
    (now : Datetime) : Action ExecutionResult := do
  let approvalTime := approvedAt.getD now
  .ofExcept (c.approvalChecks actor reason approvalTime now)
  let plan ← awaitingPlan signalId approvalTime
  c.checkKillLimits now
  c.validatePlan plan now false
  recordApproval ⟨signalId, PyText.strip actor, PyText.strip reason, approvalTime⟩
  c.executePaper plan now

/-- `set_kill_switch`. -/
def setKillSwitch (active : Bool) (actor reason : String) (changedAt : Datetime) : Action Unit :=
  setKillSwitchCommand active actor reason changedAt

end ExecutionController

/-! ### Sequential runs -/

/-- A call to the controller or its ledger, with the time it reads. -/
inductive Call where
  | submit (plan : TradePlan) (now : Datetime)
  | approve (signalId actor reason : String) (approvedAt : Option Datetime) (now : Datetime)
  | setKillSwitch (active : Bool) (actor reason : String) (changedAt : Datetime)
  | closePosition (positionId : String) (exitPrice : Decimal) (closedAt : Datetime)

namespace ExecutionController

/-- What a call leaves, whether it returns or raises. -/
def after (c : ExecutionController) (w : World) : Call → World
  | .submit plan now => (run (perform c.live) (c.submit plan now) w).2
  | .approve signalId actor reason approvedAt now =>
      (run (perform c.live) (c.approve signalId actor reason approvedAt now) w).2
  | .setKillSwitch active actor reason changedAt =>
      (run (perform c.live) (setKillSwitch active actor reason changedAt) w).2
  | .closePosition positionId exitPrice closedAt =>
      (perform c.live (.closePosition positionId exitPrice closedAt) w).2

/-- A call that raises an exception. -/
def Raises (c : ExecutionController) (w : World) : Call → Prop
  | .submit plan now => (run (perform c.live) (c.submit plan now) w).1.toOption = none
  | .approve signalId actor reason approvedAt now =>
      (run (perform c.live) (c.approve signalId actor reason approvedAt now) w).1.toOption = none
  | .setKillSwitch active actor reason changedAt =>
      (run (perform c.live) (setKillSwitch active actor reason changedAt) w).1.toOption = none
  | .closePosition positionId exitPrice closedAt =>
      (perform c.live (.closePosition positionId exitPrice closedAt) w).1.toOption = none

end ExecutionController

theorem ExecutionController.after_setKillSwitch (c : ExecutionController) (w : World) (active : Bool)
    (actor reason : String) (changedAt : Datetime) :
    c.after w (.setKillSwitch active actor reason changedAt) =
      (perform c.live (.setKillSwitch active reason actor changedAt) w).2 := by
  exact congrArg Prod.snd (run_setKillSwitchCommand c.live w active actor reason changedAt)

/-- Sequential calls, in order. The controller may be another one at each call: its policy, registry,
brokers and gateway are configuration. -/
def World.runCalls (w : World) (calls : List (ExecutionController × Call)) : World :=
  calls.foldl (fun w call => call.1.after w call.2) w

/-- The worlds that sequential calls reach from a fresh ledger. -/
def Reachable (w : World) : Prop := ∃ createdAt calls, w = (World.fresh createdAt).runCalls calls

/-- A property that every call keeps holds after all calls. -/
theorem World.runCalls_invariant {Inv : World → Prop}
    (hstep : ∀ (c : ExecutionController) (call : Call) (w : World), Inv w → Inv (c.after w call))
    {w : World} (hw : Inv w) (calls : List (ExecutionController × Call)) : Inv (w.runCalls calls) := by
  induction calls generalizing w with
  | nil => exact hw
  | cons call calls ih => exact ih (hstep call.1 call.2 w hw)

end TecoQuant.Execution
