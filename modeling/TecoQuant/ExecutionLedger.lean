import Mathlib.Data.List.Sort
import TecoQuant.ExecutionModels

/-! The execution ledger: its SQLite tables as lists of rows in insertion order, the constraints each
insertion has to meet, and the ledger's transactions and reads. A text column that holds an instant or
a decimal is modelled by the instant or the decimal its text denotes; UTC texts sort like instants. -/

namespace TecoQuant.Execution

/-- The values of a JSON detail: a text, a flag, or the text of a decimal. -/
inductive Scalar where
  | text (value : String)
  | flag (value : Bool)
  | decimal (value : Decimal)
  deriving DecidableEq, Repr

abbrev Payload := List (String × Scalar)

structure SignalRow where
  signalId : String
  correlationId : String
  symbol : String
  securityId : String
  plan : TradePlan
  state : SignalExecutionState
  receivedAt : Int
  updatedAt : Int
  deriving DecidableEq, Repr

structure ApprovalRow where
  signalId : String
  actor : String
  reason : String
  approvedAt : Int
  deriving DecidableEq, Repr

structure OrderRow where
  orderId : String
  correlationId : String
  signalId : String
  symbol : String
  securityId : String
  side : OrderSide
  quantity : Int
  filledQuantity : Int
  limitPrice : Decimal
  averageFillPrice : Option Decimal
  state : OrderState
  submittedAt : Int
  deriving DecidableEq, Repr

structure FillRow where
  fillId : String
  orderId : String
  quantity : Int
  price : Decimal
  state : FillState
  filledAt : Int
  deriving DecidableEq, Repr

structure PositionRow where
  positionId : String
  signalId : String
  symbol : String
  securityId : String
  side : OrderSide
  quantity : Int
  averageEntryPrice : Decimal
  state : PositionState
  openedAt : Int
  closedAt : Option Int := none
  closedDay : Option Int := none
  realizedPnl : Option Decimal := none
  deriving DecidableEq, Repr

structure JournalRow where
  signalId : Option String
  entryType : String
  amount : Option Decimal
  occurredAt : Int
  details : Payload
  deriving DecidableEq, Repr

structure EventRow where
  eventType : String
  aggregateId : String
  occurredAt : Int
  payload : Payload
  deriving DecidableEq, Repr

structure KillSwitchRow where
  active : Bool
  reason : Option String
  actor : Option String
  changedAt : Int
  deriving DecidableEq, Repr

structure Ledger where
  signals : List SignalRow
  approvals : List ApprovalRow
  orders : List OrderRow
  fills : List FillRow
  positions : List PositionRow
  journal : List JournalRow
  events : List EventRow
  killSwitch : KillSwitchRow
  deriving DecidableEq, Repr

/-- `_create_schema` at a given moment. -/
def Ledger.fresh (createdAt : Int) : Ledger :=
  ⟨[], [], [], [], [], [], [], ⟨false, none, none, createdAt⟩⟩

/-! ### Column values -/

/-- What `astimezone` raises of a moment that the calendar cannot hold in UTC. -/
def dateOverflow : Fault := ⟨.overflowError, "date value out of range"⟩

/-- `_timestamp`. -/
def timestamp (t : Datetime) : Except Fault Int :=
  if ¬t.Aware then .error ⟨.executionError, "execution timestamps must be timezone-aware"⟩
  else (t.astimezone dateOverflow).map Datetime.instant

/-- `_decimal`. -/
def decimalColumn (d : Decimal) : Except Fault Decimal :=
  if d.IsFinite then .ok d.plain
  else .error ⟨.executionError, "execution decimals must be finite"⟩

/-- `_optional_decimal`. -/
def optionalDecimalColumn : Option Decimal → Except Fault (Option Decimal)
  | none => .ok none
  | some d => (decimalColumn d).map some

/-- An INTEGER column takes 64-bit values; the driver refuses others before the statement runs. -/
def integerColumn (n : Int) : Except Fault Int :=
  if -2 ^ 63 ≤ n ∧ n < 2 ^ 63 then .ok n
  else .error ⟨.overflowError, "Python int too large to convert to SQLite INTEGER"⟩

/-- `CAST(text AS REAL) > 0`: up to half the smallest double, a decimal is read as zero. -/
def CastPositive (d : Decimal) : Prop := (2 : ℚ) ^ (-1075 : ℤ) < d.value

instance (d : Decimal) : Decidable (CastPositive d) := inferInstanceAs (Decidable (_ < _))

/-- `length(trim(text)) > 0` in SQLite: `trim` removes spaces only and `length` stops at a NUL. -/
def TrimmedNonempty (text : String) : Prop :=
  ((text.toList.dropWhile (· = ' ')).takeWhile (· ≠ '\x00')) ≠ []

instance (text : String) : Decidable (TrimmedNonempty text) := inferInstanceAs (Decidable (_ ≠ _))

namespace Ledger

def constraintFailed : Fault := ⟨.integrityError, "constraint failed"⟩

/-! ### Insertions

Each insertion checks the constraints of its table and appends the row, or raises `IntegrityError`. -/

/-- `PRIMARY KEY (signal_id)` and `UNIQUE (correlation_id)`. -/
def SignalConstraints (L : Ledger) (row : SignalRow) : Prop :=
  ∀ s ∈ L.signals, s.signalId ≠ row.signalId ∧ s.correlationId ≠ row.correlationId

instance (L : Ledger) (row : SignalRow) : Decidable (L.SignalConstraints row) :=
  inferInstanceAs (Decidable (∀ _ ∈ _, _))

/-- The foreign key to `signals`. -/
def HasSignal (L : Ledger) (signalId : String) : Prop := ∃ s ∈ L.signals, s.signalId = signalId

instance (L : Ledger) (signalId : String) : Decidable (L.HasSignal signalId) :=
  inferInstanceAs (Decidable (∃ _, _ ∧ _))

def ApprovalConstraints (L : Ledger) (row : ApprovalRow) : Prop :=
  (∀ a ∈ L.approvals, a.signalId ≠ row.signalId) ∧ L.HasSignal row.signalId ∧
    TrimmedNonempty row.actor ∧ TrimmedNonempty row.reason

instance (L : Ledger) (row : ApprovalRow) : Decidable (L.ApprovalConstraints row) :=
  inferInstanceAs (Decidable ((∀ _ ∈ _, _) ∧ _ ∧ _ ∧ _))

def OrderConstraints (L : Ledger) (row : OrderRow) : Prop :=
  (∀ o ∈ L.orders, o.orderId ≠ row.orderId ∧ o.correlationId ≠ row.correlationId ∧
      o.signalId ≠ row.signalId) ∧
    L.HasSignal row.signalId ∧ 0 < row.quantity ∧
    0 ≤ row.filledQuantity ∧ row.filledQuantity ≤ row.quantity ∧
    CastPositive row.limitPrice ∧ ∀ price ∈ row.averageFillPrice, CastPositive price

instance (L : Ledger) (row : OrderRow) : Decidable (L.OrderConstraints row) :=
  inferInstanceAs (Decidable ((∀ _ ∈ _, _) ∧ _ ∧ _ ∧ _ ∧ _ ∧ _ ∧ (∀ _ ∈ _, _)))

def FillConstraints (L : Ledger) (row : FillRow) : Prop :=
  (∀ f ∈ L.fills, f.fillId ≠ row.fillId) ∧ (∃ o ∈ L.orders, o.orderId = row.orderId) ∧
    0 < row.quantity ∧ CastPositive row.price

instance (L : Ledger) (row : FillRow) : Decidable (L.FillConstraints row) :=
  inferInstanceAs (Decidable ((∀ _ ∈ _, _) ∧ (∃ _, _ ∧ _) ∧ _ ∧ _))

/-- The last conjunct is the unique index `one_open_position_per_security`. -/
def PositionConstraints (L : Ledger) (row : PositionRow) : Prop :=
  (∀ p ∈ L.positions, p.positionId ≠ row.positionId ∧ p.signalId ≠ row.signalId) ∧
    L.HasSignal row.signalId ∧ 0 < row.quantity ∧ CastPositive row.averageEntryPrice ∧
    (row.state = .opened → ∀ p ∈ L.positions, p.state = .opened → p.securityId ≠ row.securityId)

instance (L : Ledger) (row : PositionRow) : Decidable (L.PositionConstraints row) :=
  inferInstanceAs (Decidable ((∀ _ ∈ _, _) ∧ _ ∧ _ ∧ _ ∧ (_ → ∀ _ ∈ _, _ → _)))

def insertSignal (L : Ledger) (row : SignalRow) : Except Fault Ledger :=
  if L.SignalConstraints row then .ok { L with signals := L.signals ++ [row] }
  else .error constraintFailed

def insertApproval (L : Ledger) (row : ApprovalRow) : Except Fault Ledger :=
  if L.ApprovalConstraints row then .ok { L with approvals := L.approvals ++ [row] }
  else .error constraintFailed

def insertOrder (L : Ledger) (row : OrderRow) : Except Fault Ledger :=
  if L.OrderConstraints row then .ok { L with orders := L.orders ++ [row] }
  else .error constraintFailed

def insertFill (L : Ledger) (row : FillRow) : Except Fault Ledger :=
  if L.FillConstraints row then .ok { L with fills := L.fills ++ [row] }
  else .error constraintFailed

def insertPosition (L : Ledger) (row : PositionRow) : Except Fault Ledger :=
  if L.PositionConstraints row then .ok { L with positions := L.positions ++ [row] }
  else .error constraintFailed

/-- `UPDATE signals SET state = ?, updated_at = ? WHERE signal_id = ?`. -/
def setSignalState (L : Ledger) (signalId : String) (state : SignalExecutionState) (updatedAt : Int) :
    Ledger :=
  { L with signals := L.signals.map fun s =>
      if s.signalId = signalId then { s with state := state, updatedAt := updatedAt } else s }

/-- `UPDATE positions SET state = 'CLOSED', ... WHERE position_id = ?`. -/
def setPositionClosed (L : Ledger) (positionId : String) (closedAt closedDay : Int) (pnl : Decimal) :
    Ledger :=
  { L with positions := L.positions.map fun p =>
      if p.positionId = positionId then
        { p with state := .closed, closedAt := some closedAt, closedDay := some closedDay,
                 realizedPnl := some pnl }
      else p }

def appendJournal (L : Ledger) (row : JournalRow) : Ledger := { L with journal := L.journal ++ [row] }

/-- `_event`. -/
def event (L : Ledger) (eventType aggregateId : String) (occurredAt : Datetime) (payload : Payload) :
    Except Fault Ledger := do
  let instant ← timestamp occurredAt
  return { L with events := L.events ++ [⟨eventType, aggregateId, instant, payload⟩] }

/-- `_transaction`: commit what the body leaves, or roll back and raise. -/
def transaction {α : Type} (body : Ledger → Except Fault (α × Ledger)) (L : Ledger) :
    Except Fault α × Ledger :=
  match body L with
  | .ok (value, L') => (.ok value, L')
  | .error fault => (.error fault, L)

/-- `except sqlite3.IntegrityError`: raise another exception in its place. -/
def onIntegrityError {α : Type} (fault : Fault) : Except Fault α → Except Fault α
  | .ok value => .ok value
  | .error raised => .error (if raised.kind = .integrityError then fault else raised)

/-! ### Transactions -/

def recordSignal (plan : TradePlan) (state : SignalExecutionState) (recordedAt : Datetime) :
    Ledger → Except Fault Unit × Ledger :=
  transaction fun L => do
    let instant ← timestamp recordedAt
    let L ← onIntegrityError
      ⟨.duplicateSignal, "signal_id or correlation_id has already been recorded"⟩
      (L.insertSignal ⟨plan.signalId, plan.correlationId, plan.symbol, plan.securityId, plan, state,
        instant, instant⟩)
    let L ← L.event "SIGNAL_RECORDED" plan.signalId recordedAt [("state", .text state.value)]
    return ((), L)

def updateSignalState (signalId : String) (state : SignalExecutionState) (now : Datetime) :
    Ledger → Except Fault Unit × Ledger :=
  transaction fun L => do
    let instant ← timestamp now
    if L.HasSignal signalId then do
      let L ← (L.setSignalState signalId state instant).event "SIGNAL_STATE_CHANGED" signalId now
        [("state", .text state.value)]
      return ((), L)
    else .error ⟨.executionError, "signal does not exist"⟩

def recordApproval (approval : Approval) : Ledger → Except Fault Unit × Ledger :=
  transaction fun L =>
    let actor := PyText.strip approval.actor
    let reason := PyText.strip approval.reason
    if actor = "" ∨ reason = "" then .error ⟨.approval, "approval requires actor and reason"⟩
    else do
      let instant ← timestamp approval.approvedAt
      let L ← onIntegrityError ⟨.approval, "signal is missing or already approved"⟩
        (L.insertApproval ⟨approval.signalId, actor, reason, instant⟩)
      let L ← L.event "MANUAL_APPROVAL_RECORDED" approval.signalId approval.approvedAt
        [("actor", .text actor), ("reason", .text reason)]
      return ((), L)

/-- The columns of one order. -/
def orderRow (order : BrokerOrder) : Except Fault OrderRow := do
  let limitPrice ← decimalColumn order.limitPrice
  let averageFillPrice ← optionalDecimalColumn order.averageFillPrice
  let submittedAt ← timestamp order.submittedAt
  let quantity ← integerColumn order.quantity
  let filledQuantity ← integerColumn order.filledQuantity
  return ⟨order.orderId, order.correlationId, order.signalId, order.symbol, order.securityId,
    order.side, quantity, filledQuantity, limitPrice, averageFillPrice, order.state, submittedAt⟩

def fillRow (fill : BrokerFill) : Except Fault FillRow := do
  let price ← decimalColumn fill.price
  let filledAt ← timestamp fill.filledAt
  let quantity ← integerColumn fill.quantity
  return ⟨fill.fillId, fill.orderId, quantity, price, fill.state, filledAt⟩

def insertFills : List BrokerFill → Ledger → Except Fault Ledger
  | [], L => .ok L
  | fill :: fills, L => do
      let row ← fillRow fill
      let L ← L.insertFill row
      insertFills fills L

/-- The position of an order that has fills, opened at `now`. -/
def positionRow (order : BrokerOrder) (averageFillPrice : Decimal) (now : Datetime) :
    Except Fault PositionRow := do
  let averageEntryPrice ← decimalColumn averageFillPrice
  let openedAt ← timestamp now
  let quantity ← integerColumn order.filledQuantity
  return {
    positionId := "position-" ++ order.orderId
    signalId := order.signalId
    symbol := order.symbol
    securityId := order.securityId
    side := order.side
    quantity := quantity
    averageEntryPrice := averageEntryPrice
    state := .opened
    openedAt := openedAt }

def insertOrderPosition (order : BrokerOrder) (now : Datetime) (L : Ledger) : Except Fault Ledger :=
  match order.averageFillPrice with
  | some price =>
      if 0 < order.filledQuantity then
        positionRow order price now >>= L.insertPosition
      else .ok L
  | none => .ok L

/-- The state `record_execution` gives the signal. -/
def executionState (order : BrokerOrder) : SignalExecutionState :=
  if order.filledQuantity = order.quantity then .filled
  else if order.filledQuantity ≠ 0 then .partiallyFilled
  else .submitted

def recordExecution (order : BrokerOrder) (fills : List BrokerFill) (now : Datetime) :
    Ledger → Except Fault Unit × Ledger :=
  transaction fun L => do
    let row ← orderRow order
    let L ← L.insertOrder row
    let L ← insertFills fills L
    let L ← insertOrderPosition order now L
    let instant ← timestamp now
    let L := L.setSignalState order.signalId (executionState order) instant
    let L := L.appendJournal ⟨some order.signalId, "ORDER_RECORDED", none, instant,
      [("order_id", .text order.orderId), ("state", .text order.state.value)]⟩
    let L ← L.event "ORDER_RECORDED" order.orderId now
      [("signal_id", .text order.signalId), ("state", .text order.state.value)]
    return ((), L)

/-- The realized profit or loss of closing a position. -/
def positionPnl (row : PositionRow) (exitPrice : Decimal) : Decimal :=
  let direction : Decimal := if row.side = .buy then 1 else .finite true 1 0
  let move := Decimal.sub .default exitPrice row.averageEntryPrice
  Decimal.mul .default (Decimal.mul .default move (.ofInt row.quantity)) direction

def closePosition (positionId : String) (exitPrice : Decimal) (closedAt : Datetime) :
    Ledger → Except Fault Decimal × Ledger :=
  transaction fun L =>
    if ¬(exitPrice.IsFinite ∧ 0 < exitPrice) then
      .error ⟨.executionError, "exit price must be positive and finite"⟩
    else
      match L.positions.find? fun p => p.positionId = positionId ∧ p.state = .opened with
      | none => .error ⟨.executionError, "open position does not exist"⟩
      | some row => do
          let pnl := positionPnl row exitPrice
          let instant ← timestamp closedAt
          let stored ← decimalColumn pnl
          let L := L.setPositionClosed positionId instant closedAt.utcDay stored
          let L := L.appendJournal ⟨some row.signalId, "POSITION_CLOSED", some stored, instant,
            [("position_id", .text positionId), ("exit_price", .decimal exitPrice)]⟩
          let L ← L.event "POSITION_CLOSED" positionId closedAt [("realized_pnl", .decimal pnl)]
          return (pnl, L)

def updateKillSwitch (active : Bool) (reason actor : String) (changedAt : Datetime) :
    Ledger → Except Fault Unit × Ledger :=
  transaction fun L =>
    if PyText.Blank actor ∨ PyText.Blank reason then
      .error ⟨.executionError, "kill-switch change requires actor and reason"⟩
    else do
      let instant ← timestamp changedAt
      let row : KillSwitchRow :=
        ⟨active, some (PyText.strip reason), some (PyText.strip actor), instant⟩
      let L ← { L with killSwitch := row }.event "KILL_SWITCH_CHANGED" "global" changedAt
        [("active", .flag active), ("reason", .text (PyText.strip reason)),
          ("actor", .text (PyText.strip actor))]
      return ((), L)

/-! ### Reads -/

def signalExists (L : Ledger) (signalId : String) : Bool :=
  L.signals.any fun s => s.signalId = signalId

def plan (L : Ledger) (signalId : String) : Option TradePlan :=
  (L.signals.find? fun s => s.signalId = signalId).map (·.plan)

def signalState (L : Ledger) (signalId : String) : Option SignalExecutionState :=
  (L.signals.find? fun s => s.signalId = signalId).map (·.state)

def openPositionForSecurity (L : Ledger) (securityId : String) : Option PositionRow :=
  L.positions.find? fun p => p.securityId = securityId ∧ p.state = .opened

def dailyRealizedPnl (L : Ledger) (day : Int) : Decimal :=
  Decimal.sum .default
    ((L.positions.filter fun p => p.state = .closed ∧ p.closedDay = some day).filterMap (·.realizedPnl))

/-- The closed positions `ORDER BY closed_at DESC, rowid DESC`. -/
def closedNewestFirst (L : Ledger) : List PositionRow :=
  (L.positions.filter fun p => p.state = .closed).reverse.insertionSort
    fun left right => right.closedAt.getD 0 ≤ left.closedAt.getD 0

def consecutiveLosses (L : Ledger) : Nat :=
  ((L.closedNewestFirst.filterMap (·.realizedPnl)).takeWhile fun pnl => pnl < 0).length

end Ledger
end TecoQuant.Execution
