import TecoQuant.BaseExcept
import TecoQuant.ExecutionController

/-! What each transaction of the ledger can do. A transaction that raises leaves the ledger as it was;
one that returns has met every constraint, and its lemma says which rows it has written. -/

namespace TecoQuant.Execution.Ledger

section Columns

theorem timestamp_eq_ok {t : Datetime} {instant : Int} :
    timestamp t = .ok instant ↔ t.HasUtc ∧ t.instant = instant := by
  rw [timestamp, Except.ite_error_eq_ok, not_not, Except.map_eq_ok]
  simp only [Datetime.astimezone_eq_ok]
  constructor
  · rintro ⟨haware, _, ⟨hcalendar, rfl⟩, rfl⟩
    exact ⟨⟨haware, hcalendar⟩, (Datetime.instant_toUtc t).symm⟩
  · rintro ⟨⟨haware, hcalendar⟩, rfl⟩
    exact ⟨haware, _, ⟨hcalendar, rfl⟩, Datetime.instant_toUtc t⟩

theorem timestamp_of_hasUtc {t : Datetime} (h : t.HasUtc) : timestamp t = .ok t.instant :=
  timestamp_eq_ok.mpr ⟨h, rfl⟩

theorem decimalColumn_eq_ok {d stored : Decimal} :
    decimalColumn d = .ok stored ↔ d.IsFinite ∧ d.plain = stored := by
  simp only [decimalColumn, Except.ite_ok_eq_ok]

/-- A price column that may be NULL. -/
theorem optionalDecimalColumn_eq_ok {price stored : Option Decimal} :
    optionalDecimalColumn price = .ok stored ↔
      (∀ d ∈ price, d.IsFinite) ∧ price.map Decimal.plain = stored := by
  cases price with
  | none => simp [optionalDecimalColumn]
  | some d =>
      simp only [optionalDecimalColumn, Except.map_eq_ok, decimalColumn_eq_ok, Option.mem_some_iff,
        forall_eq', Option.map_some]
      constructor
      · rintro ⟨_, ⟨hfinite, rfl⟩, rfl⟩
        exact ⟨hfinite, rfl⟩
      · rintro ⟨hfinite, rfl⟩
        exact ⟨_, ⟨hfinite, rfl⟩, rfl⟩

theorem integerColumn_eq_ok {n stored : Int} :
    integerColumn n = .ok stored ↔ (-2 ^ 63 ≤ n ∧ n < 2 ^ 63) ∧ n = stored := by
  simp only [integerColumn, Except.ite_ok_eq_ok]

theorem onIntegrityError_eq_ok {α : Type} {fault : Fault} {x : Except Fault α} {value : α} :
    onIntegrityError fault x = .ok value ↔ x = .ok value := by
  cases x <;> simp [onIntegrityError]

end Columns

section Transactions

variable {L L' : Ledger}

theorem transaction_eq_ok {α : Type} {body : Ledger → Except Fault (α × Ledger)} {value : α} :
    transaction body L = (.ok value, L') ↔ body L = .ok (value, L') := by
  unfold transaction
  cases h : body L with
  | error fault => simp
  | ok result => simp [Prod.ext_iff]

/-- A transaction that raises has rolled back. -/
theorem transaction_of_error {α : Type} {body : Ledger → Except Fault (α × Ledger)} {fault : Fault}
    (h : transaction body L = (.error fault, L')) : L' = L := by
  unfold transaction at h
  cases hbody : body L with
  | error raised => simpa [hbody, eq_comm] using congrArg Prod.snd h
  | ok result => simp [hbody] at h

theorem event_eq_ok {eventType aggregateId : String} {occurredAt : Datetime} {payload : Payload} :
    L.event eventType aggregateId occurredAt payload = .ok L' ↔
      occurredAt.HasUtc ∧ { L with events := L.events ++
        [⟨eventType, aggregateId, occurredAt.instant, payload⟩] } = L' := by
  simp only [event, Except.bind_eq_ok, timestamp_eq_ok, pure, Except.pure, Except.ok.injEq]
  constructor
  · rintro ⟨instant, ⟨haware, rfl⟩, rfl⟩
    exact ⟨haware, rfl⟩
  · rintro ⟨haware, rfl⟩
    exact ⟨_, ⟨haware, rfl⟩, rfl⟩

/-- The row `record_signal` inserts. -/
def signalRow (plan : TradePlan) (state : SignalExecutionState) (recordedAt : Datetime) : SignalRow :=
  ⟨plan.signalId, plan.correlationId, plan.symbol, plan.securityId, plan, state, recordedAt.instant,
    recordedAt.instant⟩

theorem recordSignal_ok {plan : TradePlan} {state : SignalExecutionState} {recordedAt : Datetime}
    (h : recordSignal plan state recordedAt L = (.ok (), L')) :
    L.SignalConstraints (signalRow plan state recordedAt) ∧ ∃ events, L' =
      { L with signals := L.signals ++ [signalRow plan state recordedAt], events := events } := by
  simp only [recordSignal, transaction_eq_ok, Except.bind_eq_ok, timestamp_eq_ok,
    onIntegrityError_eq_ok, insertSignal, Except.ite_ok_eq_ok, event_eq_ok, pure, Except.pure,
    Except.ok.injEq, Prod.mk.injEq, true_and] at h
  obtain ⟨_, ⟨_, rfl⟩, _, ⟨hfree, rfl⟩, _, ⟨_, rfl⟩, rfl⟩ := h
  exact ⟨hfree, _, rfl⟩

theorem updateSignalState_ok {signalId : String} {state : SignalExecutionState} {now : Datetime}
    (h : updateSignalState signalId state now L = (.ok (), L')) :
    ∃ events, L' = { L.setSignalState signalId state now.instant with events := events } := by
  simp only [updateSignalState, transaction_eq_ok, Except.bind_eq_ok, timestamp_eq_ok] at h
  obtain ⟨_, ⟨_, rfl⟩, h⟩ := h
  split at h
  · simp only [Except.bind_eq_ok, event_eq_ok, pure, Except.pure, Except.ok.injEq, Prod.mk.injEq,
      true_and] at h
    obtain ⟨_, ⟨_, rfl⟩, rfl⟩ := h
    exact ⟨_, rfl⟩
  · cases h

/-- The state of a recorded signal can always be changed at a time that has a reading in UTC. -/
theorem updateSignalState_succeeds {signalId : String} (state : SignalExecutionState) {now : Datetime}
    (hsignal : L.HasSignal signalId) (hutc : now.HasUtc) :
    ∃ L', updateSignalState signalId state now L = (.ok (), L') := by
  rcases h : updateSignalState signalId state now L with ⟨fault | value, L'⟩
  · simp [updateSignalState, transaction, hsignal, timestamp_of_hasUtc hutc, event, bind, Except.bind, pure,
      Except.pure] at h
  · exact ⟨L', rfl⟩

theorem recordApproval_ok {approval : Approval} (h : recordApproval approval L = (.ok (), L')) :
    ∃ row events, row.signalId = approval.signalId ∧ L.ApprovalConstraints row ∧
      L' = { L with approvals := L.approvals ++ [row], events := events } := by
  simp only [recordApproval, transaction_eq_ok, Except.ite_error_eq_ok, Except.bind_eq_ok,
    timestamp_eq_ok, onIntegrityError_eq_ok, insertApproval, Except.ite_ok_eq_ok, event_eq_ok, pure,
    Except.pure, Except.ok.injEq, Prod.mk.injEq, true_and] at h
  obtain ⟨_, _, ⟨_, rfl⟩, _, ⟨hfree, rfl⟩, _, ⟨_, rfl⟩, rfl⟩ := h
  exact ⟨_, _, rfl, hfree, rfl⟩

theorem updateKillSwitch_ok {active : Bool} {reason actor : String} {changedAt : Datetime}
    (h : updateKillSwitch active reason actor changedAt L = (.ok (), L')) :
    ∃ row events, row.active = active ∧ L' = { L with killSwitch := row, events := events } := by
  simp only [updateKillSwitch, transaction_eq_ok, Except.ite_error_eq_ok, Except.bind_eq_ok,
    timestamp_eq_ok, event_eq_ok, pure, Except.pure, Except.ok.injEq, Prod.mk.injEq, true_and] at h
  obtain ⟨_, _, ⟨_, rfl⟩, _, ⟨_, rfl⟩, rfl⟩ := h
  exact ⟨_, _, rfl, rfl⟩

theorem closePosition_ok {positionId : String} {exitPrice pnl : Decimal} {closedAt : Datetime}
    (h : closePosition positionId exitPrice closedAt L = (.ok pnl, L')) :
    ∃ day stored journal events, L' = { L.setPositionClosed positionId closedAt.instant day stored with
      journal := journal, events := events } := by
  simp only [closePosition, transaction_eq_ok, Except.ite_error_eq_ok] at h
  obtain ⟨_, h⟩ := h
  split at h
  · cases h
  · simp only [Except.bind_eq_ok, timestamp_eq_ok, decimalColumn_eq_ok, event_eq_ok, pure, Except.pure,
      Except.ok.injEq, Prod.mk.injEq] at h
    obtain ⟨_, ⟨_, rfl⟩, _, ⟨_, rfl⟩, _, ⟨_, rfl⟩, _, rfl⟩ := h
    exact ⟨_, _, _, _, rfl⟩

end Transactions

/-! ### `record_execution` -/

/-- The row of an order whose columns can all be written. -/
def storedOrder (order : BrokerOrder) : OrderRow :=
  ⟨order.orderId, order.correlationId, order.signalId, order.symbol, order.securityId, order.side,
    order.quantity, order.filledQuantity, order.limitPrice.plain,
    order.averageFillPrice.map Decimal.plain, order.state, order.submittedAt.instant⟩

def storedFill (fill : BrokerFill) : FillRow :=
  ⟨fill.fillId, fill.orderId, fill.quantity, fill.price.plain, fill.state, fill.filledAt.instant⟩

/-- The position an order opens, if it is filled at a price. -/
def storedPosition (order : BrokerOrder) (now : Datetime) : Option PositionRow :=
  match order.averageFillPrice with
  | some price =>
      if 0 < order.filledQuantity then
        some {
          positionId := "position-" ++ order.orderId
          signalId := order.signalId
          symbol := order.symbol
          securityId := order.securityId
          side := order.side
          quantity := order.filledQuantity
          averageEntryPrice := price.plain
          state := .opened
          openedAt := now.instant }
      else none
  | none => none

/-- A 64-bit integer. -/
def Fits (n : Int) : Prop := -2 ^ 63 ≤ n ∧ n < 2 ^ 63

/-- The columns of an order are finite, aware and in range. -/
def OrderWritable (order : BrokerOrder) : Prop :=
  order.limitPrice.IsFinite ∧ (∀ price ∈ order.averageFillPrice, price.IsFinite) ∧
    order.submittedAt.HasUtc ∧ Fits order.quantity ∧ Fits order.filledQuantity

def FillWritable (fill : BrokerFill) : Prop :=
  fill.price.IsFinite ∧ fill.filledAt.HasUtc ∧ Fits fill.quantity

/-- The ledger with the rows of an order, its fills and its position, and the state of its signal. -/
def withExecution (L : Ledger) (order : BrokerOrder) (fills : List BrokerFill) (now : Datetime) :
    Ledger :=
  { L.setSignalState order.signalId (executionState order) now.instant with
    orders := L.orders ++ [storedOrder order]
    fills := L.fills ++ fills.map storedFill
    positions := L.positions ++ (storedPosition order now).toList }

section RecordExecution

variable {L L' : Ledger} {order : BrokerOrder} {now : Datetime}

theorem orderRow_eq_ok {row : OrderRow} :
    orderRow order = .ok row ↔ OrderWritable order ∧ storedOrder order = row := by
  simp only [orderRow, Except.bind_eq_ok, decimalColumn_eq_ok, optionalDecimalColumn_eq_ok,
    timestamp_eq_ok, integerColumn_eq_ok, pure, Except.pure, Except.ok.injEq]
  constructor
  · rintro ⟨_, ⟨hl, rfl⟩, _, ⟨ha, rfl⟩, _, ⟨ht, rfl⟩, _, ⟨hq, rfl⟩, _, ⟨hf, rfl⟩, rfl⟩
    exact ⟨⟨hl, ha, ht, hq, hf⟩, rfl⟩
  · rintro ⟨⟨hl, ha, ht, hq, hf⟩, rfl⟩
    exact ⟨_, ⟨hl, rfl⟩, _, ⟨ha, rfl⟩, _, ⟨ht, rfl⟩, _, ⟨hq, rfl⟩, _, ⟨hf, rfl⟩, rfl⟩

theorem fillRow_eq_ok {fill : BrokerFill} {row : FillRow} :
    fillRow fill = .ok row ↔ FillWritable fill ∧ storedFill fill = row := by
  simp only [fillRow, Except.bind_eq_ok, decimalColumn_eq_ok, timestamp_eq_ok, integerColumn_eq_ok,
    pure, Except.pure, Except.ok.injEq]
  constructor
  · rintro ⟨_, ⟨hp, rfl⟩, _, ⟨ht, rfl⟩, _, ⟨hq, rfl⟩, rfl⟩
    exact ⟨⟨hp, ht, hq⟩, rfl⟩
  · rintro ⟨⟨hp, ht, hq⟩, rfl⟩
    exact ⟨_, ⟨hp, rfl⟩, _, ⟨ht, rfl⟩, _, ⟨hq, rfl⟩, rfl⟩

theorem insertOrder_eq_ok {row : OrderRow} : L.insertOrder row = .ok L' ↔
    L.OrderConstraints row ∧ { L with orders := L.orders ++ [row] } = L' := by
  simp only [insertOrder, Except.ite_ok_eq_ok]

theorem insertFills_cons_eq_ok {fill : BrokerFill} {fills : List BrokerFill} :
    insertFills (fill :: fills) L = .ok L' ↔
      FillWritable fill ∧ L.FillConstraints (storedFill fill) ∧
        insertFills fills { L with fills := L.fills ++ [storedFill fill] } = .ok L' := by
  simp only [insertFills, insertFill, Except.bind_eq_ok, fillRow_eq_ok, Except.ite_ok_eq_ok]
  constructor
  · rintro ⟨_, ⟨hw, rfl⟩, _, ⟨hc, rfl⟩, h⟩
    exact ⟨hw, hc, h⟩
  · rintro ⟨hw, hc, h⟩
    exact ⟨_, ⟨hw, rfl⟩, _, ⟨hc, rfl⟩, h⟩

/-- Fills are appended one by one, and nothing else changes. -/
theorem insertFills_ok {fills : List BrokerFill} (h : insertFills fills L = .ok L') :
    L' = { L with fills := L.fills ++ fills.map storedFill } := by
  induction fills generalizing L with
  | nil => cases h; simp
  | cons fill fills ih =>
      obtain ⟨_, _, h⟩ := insertFills_cons_eq_ok.mp h
      rw [ih h]
      simp

/-- The position of an order is inserted, or the order opens none. -/
theorem insertOrderPosition_eq_ok : insertOrderPosition order now L = .ok L' ↔
    (∀ row ∈ storedPosition order now,
      (∀ price ∈ order.averageFillPrice, price.IsFinite) ∧ now.HasUtc ∧ Fits order.filledQuantity ∧
        L.PositionConstraints row) ∧
      { L with positions := L.positions ++ (storedPosition order now).toList } = L' := by
  cases hprice : order.averageFillPrice with
  | none => simp [insertOrderPosition, storedPosition, hprice]
  | some price =>
      by_cases hpos : 0 < order.filledQuantity
      · simp only [insertOrderPosition, storedPosition, hprice, if_pos hpos, positionRow,
          Except.bind_eq_ok, decimalColumn_eq_ok, timestamp_eq_ok, integerColumn_eq_ok, pure,
          Except.pure, Except.ok.injEq, insertPosition, Except.ite_ok_eq_ok, Option.mem_some_iff,
          forall_eq', Option.toList_some]
        constructor
        · rintro ⟨_, ⟨_, ⟨hp, rfl⟩, _, ⟨ht, rfl⟩, _, ⟨hq, rfl⟩, rfl⟩, hc, rfl⟩
          exact ⟨⟨hp, ht, hq, hc⟩, rfl⟩
        · rintro ⟨⟨hp, ht, hq, hc⟩, rfl⟩
          exact ⟨_, ⟨_, ⟨hp, rfl⟩, _, ⟨ht, rfl⟩, _, ⟨hq, rfl⟩, rfl⟩, hc, rfl⟩
      · simp [insertOrderPosition, storedPosition, hprice, hpos]

/-- `record_execution` returns exactly when every insertion does. -/
theorem recordExecution_eq_ok {fills : List BrokerFill} :
    recordExecution order fills now L = (.ok (), L') ↔
      OrderWritable order ∧ L.OrderConstraints (storedOrder order) ∧
      ∃ L₁, insertFills fills { L with orders := L.orders ++ [storedOrder order] } = .ok L₁ ∧
        ∃ L₂, insertOrderPosition order now L₁ = .ok L₂ ∧ now.HasUtc ∧
          { L₂.setSignalState order.signalId (executionState order) now.instant with
            journal := L₂.journal ++ [⟨some order.signalId, "ORDER_RECORDED", none, now.instant,
              [("order_id", .text order.orderId), ("state", .text order.state.value)]⟩]
            events := L₂.events ++ [⟨"ORDER_RECORDED", order.orderId, now.instant,
              [("signal_id", .text order.signalId), ("state", .text order.state.value)]⟩] } = L' := by
  simp only [recordExecution, transaction_eq_ok, Except.bind_eq_ok, orderRow_eq_ok, insertOrder_eq_ok,
    timestamp_eq_ok, event_eq_ok, pure, Except.pure, Except.ok.injEq, Prod.mk.injEq, true_and]
  constructor
  · rintro ⟨_, ⟨hw, rfl⟩, _, ⟨hc, rfl⟩, L₁, h₁, L₂, h₂, _, ⟨ht, rfl⟩, _, ⟨_, rfl⟩, rfl⟩
    exact ⟨hw, hc, L₁, h₁, L₂, h₂, ht, rfl⟩
  · rintro ⟨hw, hc, L₁, h₁, L₂, h₂, ht, rfl⟩
    exact ⟨_, ⟨hw, rfl⟩, _, ⟨hc, rfl⟩, L₁, h₁, L₂, h₂, _, ⟨ht, rfl⟩, _, ⟨ht, rfl⟩, rfl⟩

theorem recordExecution_ok {fills : List BrokerFill}
    (h : recordExecution order fills now L = (.ok (), L')) :
    L.OrderConstraints (storedOrder order) ∧
      (∀ row ∈ storedPosition order now, L.PositionConstraints row) ∧
      ∃ journal events,
        L' = { L.withExecution order fills now with journal := journal, events := events } := by
  obtain ⟨_, horder, L₁, hfills, L₂, hposition, _, rfl⟩ := recordExecution_eq_ok.mp h
  obtain ⟨hrow, rfl⟩ := insertOrderPosition_eq_ok.mp hposition
  rw [insertFills_ok hfills] at hrow ⊢
  exact ⟨horder, fun row hmem => (hrow row hmem).2.2.2, _, _, rfl⟩

end RecordExecution
end TecoQuant.Execution.Ledger

/-! ### Commands -/

namespace TecoQuant.Execution

/-- A transaction that has committed. -/
def Committed : (cmd : Command) → cmd.Reply → Prop
  | .setKillSwitch .., .ok _ | .recordSignal .., .ok _ | .updateSignalState .., .ok _
  | .recordApproval _, .ok _ | .recordExecution .., .ok _ | .closePosition .., .ok _ => True
  | _, _ => False

/-- What a command with its reply does to the ledger. -/
inductive Effect : (cmd : Command) → cmd.Reply → Ledger → Ledger → Prop where
  | unchanged {cmd reply L} (h : ¬Committed cmd reply) : Effect cmd reply L L
  | setKillSwitch {active reason actor changedAt L} (row : KillSwitchRow) (events : List EventRow)
      (hactive : row.active = active) :
      Effect (.setKillSwitch active reason actor changedAt) (.ok ()) L
        { L with killSwitch := row, events := events }
  | recordSignal {plan state recordedAt L} (events : List EventRow)
      (h : L.SignalConstraints (Ledger.signalRow plan state recordedAt)) :
      Effect (.recordSignal plan state recordedAt) (.ok ()) L
        { L with signals := L.signals ++ [Ledger.signalRow plan state recordedAt], events := events }
  | updateSignalState {signalId state now L} (events : List EventRow) :
      Effect (.updateSignalState signalId state now) (.ok ()) L
        { L.setSignalState signalId state now.instant with events := events }
  | recordApproval {approval L} (row : ApprovalRow) (events : List EventRow)
      (h : L.ApprovalConstraints row) : Effect (.recordApproval approval) (.ok ()) L
        { L with approvals := L.approvals ++ [row], events := events }
  | recordExecution {order fills now L} (journal : List JournalRow) (events : List EventRow)
      (horder : L.OrderConstraints (Ledger.storedOrder order))
      (hposition : ∀ row ∈ Ledger.storedPosition order now, L.PositionConstraints row) :
      Effect (.recordExecution order fills now) (.ok ()) L
        { L.withExecution order fills now with journal := journal, events := events }
  | closePosition {positionId exitPrice closedAt pnl L} (day : Int) (stored : Decimal)
      (journal : List JournalRow) (events : List EventRow) :
      Effect (.closePosition positionId exitPrice closedAt) (.ok pnl) L
        { L.setPositionClosed positionId closedAt.instant day stored with
          journal := journal, events := events }

/-- Every command has one of these effects. -/
theorem perform_effect (live : Option LiveBrokerGateway) (cmd : Command) (w : World) :
    Effect cmd (perform live cmd w).1 w.ledger (perform live cmd w).2.ledger := by
  cases cmd with
  | setKillSwitch active reason actor changedAt =>
      simp only [perform, World.commit]
      rcases h : Ledger.updateKillSwitch active reason actor changedAt w.ledger with ⟨fault | value, L'⟩
      · rw [Ledger.transaction_of_error h]
        exact .unchanged not_false
      · obtain ⟨row, events, hactive, rfl⟩ := Ledger.updateKillSwitch_ok h
        exact .setKillSwitch row events hactive
  | recordSignal plan state recordedAt =>
      simp only [perform, World.commit]
      rcases h : Ledger.recordSignal plan state recordedAt w.ledger with ⟨fault | value, L'⟩
      · rw [Ledger.transaction_of_error h]
        exact .unchanged not_false
      · obtain ⟨hfree, events, rfl⟩ := Ledger.recordSignal_ok h
        exact .recordSignal events hfree
  | updateSignalState signalId state now =>
      simp only [perform, World.commit]
      rcases h : Ledger.updateSignalState signalId state now w.ledger with ⟨fault | value, L'⟩
      · rw [Ledger.transaction_of_error h]
        exact .unchanged not_false
      · obtain ⟨events, rfl⟩ := Ledger.updateSignalState_ok h
        exact .updateSignalState events
  | recordApproval approval =>
      simp only [perform, World.commit]
      rcases h : Ledger.recordApproval approval w.ledger with ⟨fault | value, L'⟩
      · rw [Ledger.transaction_of_error h]
        exact .unchanged not_false
      · obtain ⟨row, events, _, hfree, rfl⟩ := Ledger.recordApproval_ok h
        exact .recordApproval row events hfree
  | recordExecution order fills now =>
      simp only [perform, World.commit]
      rcases h : Ledger.recordExecution order fills now w.ledger with ⟨fault | value, L'⟩
      · rw [Ledger.transaction_of_error h]
        exact .unchanged not_false
      · obtain ⟨horder, hposition, journal, events, rfl⟩ := Ledger.recordExecution_ok h
        exact .recordExecution journal events horder hposition
  | closePosition positionId exitPrice closedAt =>
      simp only [perform, World.commit]
      rcases h : Ledger.closePosition positionId exitPrice closedAt w.ledger with ⟨fault | value, L'⟩
      · rw [Ledger.transaction_of_error h]
        exact .unchanged not_false
      · obtain ⟨day, stored, journal, events, rfl⟩ := Ledger.closePosition_ok h
        exact .closePosition day stored journal events
  | _ => exact .unchanged not_false

end TecoQuant.Execution
