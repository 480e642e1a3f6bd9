import Mathlib.Data.List.Nodup
import TecoQuant.ExecutionProtocol
import TecoQuant.ExecutionTransactions

/-! Consistency of the ledger's tables. Each transaction keeps the tables consistent under a condition on
its arguments, the controller's programs guarantee these conditions, and so every sequence of calls
leaves a consistent ledger. -/

namespace TecoQuant.Execution

open Atomic

/-- The total quantity of the fills of an order. -/
def Ledger.filled (L : Ledger) (orderId : String) : Int :=
  ((L.fills.filter fun f => f.orderId = orderId).map (·.quantity)).sum

/-- An order and its position: same signal and security, and the position has the order's fills. -/
def Opens (o : OrderRow) (p : PositionRow) : Prop :=
  p.signalId = o.signalId ∧ p.securityId = o.securityId ∧ 0 < o.filledQuantity ∧
    p.quantity = o.filledQuantity ∧ some p.averageEntryPrice = o.averageFillPrice

/-- What the five tables of a ledger have to do with each other. -/
structure Ledger.Consistent (L : Ledger) : Prop where
  signals_unique : L.signals.Pairwise fun s t =>
    s.signalId ≠ t.signalId ∧ s.correlationId ≠ t.correlationId
  approvals_unique : L.approvals.Pairwise fun a b => a.signalId ≠ b.signalId
  orders_unique : L.orders.Pairwise fun o q =>
    o.orderId ≠ q.orderId ∧ o.correlationId ≠ q.correlationId ∧ o.signalId ≠ q.signalId
  positions_unique : L.positions.Pairwise fun p q =>
    p.positionId ≠ q.positionId ∧ p.signalId ≠ q.signalId
  signal_plan : ∀ s ∈ L.signals, s.signalId = s.plan.signalId ∧ s.correlationId = s.plan.correlationId
  order_signal : ∀ o ∈ L.orders, ∃ s ∈ L.signals,
    s.signalId = o.signalId ∧ s.correlationId = o.correlationId
  fill_order : ∀ f ∈ L.fills, ∃ o ∈ L.orders, o.orderId = f.orderId
  order_filled : ∀ o ∈ L.orders, L.filled o.orderId = o.filledQuantity
  order_bounds : ∀ o ∈ L.orders, 0 < o.quantity ∧ 0 ≤ o.filledQuantity ∧ o.filledQuantity ≤ o.quantity
  position_order : ∀ p ∈ L.positions, ∃ o ∈ L.orders, Opens o p
  order_position : ∀ o ∈ L.orders, 0 < o.filledQuantity → ∃ p ∈ L.positions, Opens o p
  one_open : L.positions.Pairwise fun p q =>
    p.state = .opened → q.state = .opened → p.securityId ≠ q.securityId
  signal_filled : ∀ s ∈ L.signals, s.state = .filled ↔
    ∃ o ∈ L.orders, o.signalId = s.signalId ∧ o.filledQuantity = o.quantity
  signal_partially_filled : ∀ s ∈ L.signals, s.state = .partiallyFilled ↔
    ∃ o ∈ L.orders, o.signalId = s.signalId ∧ 0 < o.filledQuantity ∧ o.filledQuantity < o.quantity

/-- A new row differs from every earlier one. -/
theorem pairwise_append_singleton {α : Type} {R : α → α → Prop} {l : List α} {a : α}
    (hl : l.Pairwise R) (ha : ∀ b ∈ l, R b a) : (l ++ [a]).Pairwise R :=
  List.pairwise_append.mpr ⟨hl, List.pairwise_singleton _ _, fun b hb c hc => by
    rw [List.mem_singleton.mp hc]
    exact ha b hb⟩

namespace Ledger.Consistent

variable {L L' : Ledger}

theorem fresh (createdAt : Int) : (Ledger.fresh createdAt).Consistent := by
  constructor <;> simp [Ledger.fresh]

/-- The journal, the events and the kill switch are not concerned. -/
theorem frame (h : L.Consistent) (journal : List JournalRow) (events : List EventRow)
    (killSwitch : KillSwitchRow) :
    { L with journal := journal, events := events, killSwitch := killSwitch }.Consistent := by
  obtain ⟨h₁, h₂, h₃, h₄, h₅, h₆, h₇, h₈, h₉, h₁₀, h₁₁, h₁₂, h₁₃, h₁₄⟩ := h
  exact ⟨h₁, h₂, h₃, h₄, h₅, h₆, h₇, h₈, h₉, h₁₀, h₁₁, h₁₂, h₁₃, h₁₄⟩

/-- A signal without a row has no order. -/
theorem no_order (h : L.Consistent) {signalId : String} (hnew : ∀ s ∈ L.signals, s.signalId ≠ signalId) :
    ∀ o ∈ L.orders, o.signalId ≠ signalId := by
  rintro o ho rfl
  obtain ⟨s, hs, heq, _⟩ := h.order_signal o ho
  exact hnew s hs heq

theorem recordSignal (h : L.Consistent) {row : SignalRow} (hrow : L.SignalConstraints row)
    (hplan : row.signalId = row.plan.signalId ∧ row.correlationId = row.plan.correlationId)
    (hstate : row.state = .received) : { L with signals := L.signals ++ [row] }.Consistent := by
  have hnone := h.no_order fun s hs => (hrow s hs).1
  refine { h with
    signals_unique := pairwise_append_singleton h.signals_unique hrow
    signal_plan := fun s hs => ?_
    order_signal := fun o ho => ?_
    signal_filled := fun s hs => ?_
    signal_partially_filled := fun s hs => ?_ }
  · rcases List.mem_append.mp hs with hs | hs
    · exact h.signal_plan s hs
    · rwa [List.mem_singleton.mp hs]
  · obtain ⟨s, hs, heq⟩ := h.order_signal o ho
    exact ⟨s, List.mem_append_left _ hs, heq⟩
  · rcases List.mem_append.mp hs with hs | hs
    · exact h.signal_filled s hs
    · rw [List.mem_singleton.mp hs, hstate]
      simpa using fun o ho heq => absurd heq (hnone o ho)
  · rcases List.mem_append.mp hs with hs | hs
    · exact h.signal_partially_filled s hs
    · rw [List.mem_singleton.mp hs, hstate]
      simpa using fun o ho heq => absurd heq (hnone o ho)

theorem recordApproval (h : L.Consistent) {row : ApprovalRow} (hrow : L.ApprovalConstraints row) :
    { L with approvals := L.approvals ++ [row] }.Consistent :=
  { h with approvals_unique := pairwise_append_singleton h.approvals_unique hrow.1 }

/-- Changing the state of a signal whose order has no fills. -/
theorem updateSignalState (h : L.Consistent) {signalId : String} {state : SignalExecutionState}
    (updatedAt : Int) (hstate : state ≠ .filled ∧ state ≠ .partiallyFilled)
    (hunfilled : ∀ o ∈ L.orders, o.signalId = signalId → o.filledQuantity = 0) :
    (L.setSignalState signalId state updatedAt).Consistent := by
  have hnone {o : OrderRow} (ho : o ∈ L.orders) (heq : o.signalId = signalId) :
      ¬o.filledQuantity = o.quantity ∧ ¬0 < o.filledQuantity := by
    have hquantity := (h.order_bounds o ho).1
    have hzero := hunfilled o ho heq
    omega
  refine { h with
    signals_unique := ?_
    signal_plan := fun s hs => ?_
    order_signal := fun o ho => ?_
    signal_filled := fun s hs => ?_
    signal_partially_filled := fun s hs => ?_ }
  · refine List.pairwise_map.mpr (h.signals_unique.imp fun hst => ?_)
    split <;> split <;> exact hst
  · obtain ⟨t, ht, rfl⟩ := List.mem_map.mp hs
    split <;> exact h.signal_plan t ht
  · obtain ⟨s, hs, heq⟩ := h.order_signal o ho
    refine ⟨_, List.mem_map_of_mem hs, ?_⟩
    split <;> exact heq
  · obtain ⟨t, ht, rfl⟩ := List.mem_map.mp hs
    split
    · rename_i heq
      simp only [hstate.1, false_iff]
      rintro ⟨o, ho, hsignal, hfilled⟩
      exact (hnone ho (hsignal.trans heq)).1 hfilled
    · exact h.signal_filled t ht
  · obtain ⟨t, ht, rfl⟩ := List.mem_map.mp hs
    split
    · rename_i heq
      simp only [hstate.2, false_iff]
      rintro ⟨o, ho, hsignal, hfilled, _⟩
      exact (hnone ho (hsignal.trans heq)).2 hfilled
    · exact h.signal_partially_filled t ht

/-- Closing a position changes neither what it was opened with nor its keys. -/
theorem closePosition (h : L.Consistent) (positionId : String) (closedAt closedDay : Int)
    (pnl : Decimal) : (L.setPositionClosed positionId closedAt closedDay pnl).Consistent := by
  refine { h with
    positions_unique := ?_
    position_order := fun p hp => ?_
    order_position := fun o ho hpos => ?_
    one_open := ?_ }
  · refine List.pairwise_map.mpr (h.positions_unique.imp fun hpq => ?_)
    split <;> split <;> exact hpq
  · obtain ⟨q, hq, rfl⟩ := List.mem_map.mp hp
    obtain ⟨o, ho, hopens⟩ := h.position_order q hq
    refine ⟨o, ho, ?_⟩
    split <;> exact hopens
  · obtain ⟨p, hp, hopens⟩ := h.order_position o ho hpos
    refine ⟨_, List.mem_map_of_mem hp, ?_⟩
    split <;> exact hopens
  · refine List.pairwise_map.mpr (h.one_open.imp fun hpq hp hq => ?_)
    split at hp
    · cases hp
    · split at hq
      · cases hq
      · rename_i hne hne'
        simpa only [if_neg hne, if_neg hne'] using hpq hp hq

end Ledger.Consistent

/-! ### Executions -/

/-- The fills of an order belong to it, add up to its filled quantity, and have a price if any. -/
def Balanced (order : BrokerOrder) (fills : List BrokerFill) : Prop :=
  (∀ fill ∈ fills, fill.orderId = order.orderId) ∧
    (fills.map (·.quantity)).sum = order.filledQuantity ∧
    (0 < order.filledQuantity → order.averageFillPrice ≠ none)

namespace Ledger

variable {L : Ledger} {order : BrokerOrder} {fills : List BrokerFill} {now : Datetime}

theorem storedPosition_opens {p : PositionRow} (h : p ∈ storedPosition order now) :
    Opens (storedOrder order) p ∧ p.state = .opened := by
  unfold storedPosition at h
  cases hprice : order.averageFillPrice with
  | none => simp [hprice] at h
  | some price =>
      simp only [hprice, Option.mem_def, Option.ite_none_right_eq_some, Option.some.injEq] at h
      obtain ⟨hpos, rfl⟩ := h
      exact ⟨⟨rfl, rfl, hpos, rfl, by simp [storedOrder, hprice]⟩, rfl⟩

theorem storedPosition_of_pos (h : Balanced order fills) (hpos : 0 < order.filledQuantity)
    (now : Datetime) :
    ∃ p, p ∈ storedPosition order now := by
  obtain ⟨price, hprice⟩ := Option.ne_none_iff_exists'.mp (h.2.2 hpos)
  exact ⟨_, by simp [storedPosition, hprice, hpos]; rfl⟩

/-- The fills of the earlier orders do not change. -/
theorem filled_withExecution_of_ne (h : Balanced order fills) {orderId : String}
    (hne : orderId ≠ order.orderId) : (L.withExecution order fills now).filled orderId = L.filled orderId := by
  have hnone : (fills.map storedFill).filter (fun f => f.orderId = orderId) = [] := by
    simp only [List.filter_eq_nil_iff, List.mem_map, decide_eq_true_eq]
    rintro _ ⟨fill, hfill, rfl⟩ heq
    exact hne (heq.symm.trans (h.1 fill hfill))
  simp [filled, withExecution, hnone]

/-- The fills of a new order are those recorded with it. -/
theorem filled_withExecution_self (h : Balanced order fills)
    (hnew : ∀ f ∈ L.fills, f.orderId ≠ order.orderId) :
    (L.withExecution order fills now).filled order.orderId = order.filledQuantity := by
  have hnone : L.fills.filter (fun f => f.orderId = order.orderId) = [] := by
    simpa only [List.filter_eq_nil_iff, decide_eq_true_eq] using hnew
  have hall : (fills.map storedFill).filter (fun f => f.orderId = order.orderId) =
      fills.map storedFill := by
    simp only [List.filter_eq_self, List.mem_map, decide_eq_true_eq]
    rintro _ ⟨fill, hfill, rfl⟩
    exact h.1 fill hfill
  simp only [filled, withExecution, List.filter_append, hnone, hall, List.nil_append, List.map_map]
  exact h.2.1

theorem executionState_eq_filled :
    executionState order = .filled ↔ order.filledQuantity = order.quantity := by
  unfold executionState
  split
  · simpa
  · split <;> simpa

theorem executionState_eq_partiallyFilled : executionState order = .partiallyFilled ↔
    order.filledQuantity ≠ order.quantity ∧ order.filledQuantity ≠ 0 := by
  unfold executionState
  split
  · simp [*]
  · split <;> simp [*]

/-- A signal of the order takes its state from the order; the others keep theirs. -/
theorem mem_signals_withExecution {s : SignalRow} (hs : s ∈ (L.withExecution order fills now).signals) :
    ∃ t ∈ L.signals, s.signalId = t.signalId ∧ s.correlationId = t.correlationId ∧ s.plan = t.plan ∧
      s.state = if t.signalId = order.signalId then executionState order else t.state := by
  obtain ⟨t, ht, rfl⟩ := List.mem_map.mp hs
  refine ⟨t, ht, ?_⟩
  split <;> exact ⟨rfl, rfl, rfl, by simp [*]⟩

theorem mem_positions_withExecution {p : PositionRow} :
    p ∈ (L.withExecution order fills now).positions ↔ p ∈ L.positions ∨ p ∈ storedPosition order now := by
  simp [withExecution]

namespace Consistent

/-- An order of another signal is an earlier one; the order of this signal is the new one. -/
theorem exists_order_iff (hfree : ∀ o ∈ L.orders, o.signalId ≠ order.signalId) {P : OrderRow → Prop}
    (signalId : String) :
    (∃ o ∈ L.orders ++ [storedOrder order], o.signalId = signalId ∧ P o) ↔
      if signalId = order.signalId then P (storedOrder order) else ∃ o ∈ L.orders, o.signalId = signalId ∧ P o := by
  split
  · rename_i heq
    constructor
    · rintro ⟨o, ho, hid, hP⟩
      rcases List.mem_append.mp ho with ho | ho
      · exact absurd (hid.trans heq) (hfree o ho)
      · rwa [List.mem_singleton.mp ho] at hP
    · exact fun hP => ⟨_, List.mem_append_right _ (List.mem_singleton_self _), heq.symm, hP⟩
  · rename_i hne
    constructor
    · rintro ⟨o, ho, hid, hP⟩
      rcases List.mem_append.mp ho with ho | ho
      · exact ⟨o, ho, hid, hP⟩
      · rw [List.mem_singleton.mp ho] at hid
        exact absurd hid.symm hne
    · rintro ⟨o, ho, hid, hP⟩
      exact ⟨o, List.mem_append_left _ ho, hid, hP⟩

theorem withExecution_order_signal (h : L.Consistent)
    (hsignal : ∃ s ∈ L.signals, s.signalId = order.signalId ∧ s.correlationId = order.correlationId) :
    ∀ o ∈ (L.withExecution order fills now).orders, ∃ s ∈ (L.withExecution order fills now).signals,
      s.signalId = o.signalId ∧ s.correlationId = o.correlationId := by
  intro o ho
  have hold : ∃ s ∈ L.signals, s.signalId = o.signalId ∧ s.correlationId = o.correlationId := by
    rcases List.mem_append.mp ho with ho | ho
    · exact h.order_signal o ho
    · rwa [List.mem_singleton.mp ho]
  obtain ⟨s, hs, heq⟩ := hold
  refine ⟨_, List.mem_map_of_mem hs, ?_⟩
  split <;> exact heq

theorem withExecution_fill_order (h : L.Consistent) (hbalanced : Balanced order fills) :
    ∀ f ∈ (L.withExecution order fills now).fills, ∃ o ∈ (L.withExecution order fills now).orders,
      o.orderId = f.orderId := by
  intro f hf
  rcases List.mem_append.mp hf with hf | hf
  · obtain ⟨o, ho, hid⟩ := h.fill_order f hf
    exact ⟨o, List.mem_append_left _ ho, hid⟩
  · obtain ⟨fill, hfill, rfl⟩ := List.mem_map.mp hf
    exact ⟨_, List.mem_append_right _ (List.mem_singleton_self _), (hbalanced.1 fill hfill).symm⟩

theorem withExecution_order_filled (h : L.Consistent) (hbalanced : Balanced order fills)
    (hfree : ∀ o ∈ L.orders, o.orderId ≠ order.orderId) : ∀ o ∈ (L.withExecution order fills now).orders,
      (L.withExecution order fills now).filled o.orderId = o.filledQuantity := by
  intro o ho
  rcases List.mem_append.mp ho with ho | ho
  · rw [filled_withExecution_of_ne hbalanced (hfree o ho)]
    exact h.order_filled o ho
  · rw [List.mem_singleton.mp ho]
    refine filled_withExecution_self hbalanced fun f hf heq => ?_
    obtain ⟨o, ho, hid⟩ := h.fill_order f hf
    exact hfree o ho (hid.trans heq)

theorem withExecution_position_order (h : L.Consistent) : ∀ p ∈ (L.withExecution order fills now).positions,
    ∃ o ∈ (L.withExecution order fills now).orders, Opens o p := by
  intro p hp
  rcases mem_positions_withExecution.mp hp with hp | hp
  · obtain ⟨o, ho, hopens⟩ := h.position_order p hp
    exact ⟨o, List.mem_append_left _ ho, hopens⟩
  · exact ⟨_, List.mem_append_right _ (List.mem_singleton_self _), (storedPosition_opens hp).1⟩

theorem withExecution_order_position (h : L.Consistent) (hbalanced : Balanced order fills) :
    ∀ o ∈ (L.withExecution order fills now).orders, 0 < o.filledQuantity →
      ∃ p ∈ (L.withExecution order fills now).positions, Opens o p := by
  intro o ho hpos
  rcases List.mem_append.mp ho with ho | ho
  · obtain ⟨p, hp, hopens⟩ := h.order_position o ho hpos
    exact ⟨p, mem_positions_withExecution.mpr (.inl hp), hopens⟩
  · rw [List.mem_singleton.mp ho] at hpos ⊢
    obtain ⟨p, hp⟩ := storedPosition_of_pos hbalanced hpos now
    exact ⟨p, mem_positions_withExecution.mpr (.inr hp), (storedPosition_opens hp).1⟩

/-- Recording an execution whose order belongs to a recorded signal. -/
theorem recordExecution (h : L.Consistent) (hbalanced : Balanced order fills)
    (horder : L.OrderConstraints (storedOrder order))
    (hposition : ∀ row ∈ storedPosition order now, L.PositionConstraints row)
    (hsignal : ∃ s ∈ L.signals, s.signalId = order.signalId ∧ s.correlationId = order.correlationId) :
    (L.withExecution order fills now).Consistent := by
  obtain ⟨hfree, -, hquantity, hnonneg, hle, -, -⟩ := horder
  refine {
    signals_unique := ?_
    approvals_unique := h.approvals_unique
    orders_unique := pairwise_append_singleton h.orders_unique hfree
    positions_unique := ?_
    signal_plan := fun s hs => ?_
    order_signal := withExecution_order_signal h hsignal
    fill_order := withExecution_fill_order h hbalanced
    order_filled := withExecution_order_filled h hbalanced fun o ho => (hfree o ho).1
    order_bounds := fun o ho => ?_
    position_order := withExecution_position_order h
    order_position := withExecution_order_position h hbalanced
    one_open := ?_
    signal_filled := fun s hs => ?_
    signal_partially_filled := fun s hs => ?_ }
  · refine List.pairwise_map.mpr (h.signals_unique.imp fun hst => ?_)
    split <;> split <;> exact hst
  · refine List.pairwise_append.mpr ⟨h.positions_unique, ?_, fun q hq p hp => ?_⟩
    · cases storedPosition order now <;> simp
    · exact (hposition p (by simpa using hp)).1 q hq
  · obtain ⟨t, ht, hid, hcorrelation, hplan, _⟩ := mem_signals_withExecution hs
    rw [hid, hcorrelation, hplan]
    exact h.signal_plan t ht
  · rcases List.mem_append.mp ho with ho | ho
    · exact h.order_bounds o ho
    · rw [List.mem_singleton.mp ho]
      exact ⟨hquantity, hnonneg, hle⟩
  · refine List.pairwise_append.mpr ⟨h.one_open, ?_, fun q hq p hp hopen hopen' => ?_⟩
    · cases storedPosition order now <;> simp
    · exact (hposition p (by simpa using hp)).2.2.2.2 hopen' q hq hopen
  · obtain ⟨t, ht, hid, _, _, heq⟩ := mem_signals_withExecution hs
    rw [heq, hid]
    refine Iff.trans ?_ (exists_order_iff (fun o ho => (hfree o ho).2.2) t.signalId).symm
    split
    · exact executionState_eq_filled
    · exact h.signal_filled t ht
  · obtain ⟨t, ht, hid, _, _, heq⟩ := mem_signals_withExecution hs
    rw [heq, hid]
    refine Iff.trans ?_ (exists_order_iff (fun o ho => (hfree o ho).2.2) t.signalId).symm
    split
    · rw [executionState_eq_partiallyFilled]
      simp only [storedOrder] at hnonneg hle ⊢
      omega
    · exact h.signal_partially_filled t ht

end Consistent
end Ledger

/-! ### What the brokers report -/

section Brokers

open ExecutionController

variable {c : ExecutionController} {plan : TradePlan} {now : Datetime} {order : BrokerOrder}
  {fills : List BrokerFill}

/-- An order of a plan. -/
def OrderOf (plan : TradePlan) (order : BrokerOrder) : Prop :=
  order.signalId = plan.signalId ∧ order.correlationId = plan.correlationId ∧
    order.securityId = plan.securityId

theorem paper_submit_balanced (h : c.paper.submit plan now = .ok (order, fills)) :
    Balanced order fills ∧ OrderOf plan order := by
  unfold PaperBrokerConfig.submit at h
  cases hprice : c.paper.fillPrice plan.side plan.limitPrice with
  | none => simp [hprice] at h
  | some price =>
      simp only [hprice, Except.ok.injEq, Prod.mk.injEq] at h
      obtain ⟨rfl, rfl⟩ := h
      by_cases hzero : c.paper.filledQuantity plan.quantity = 0
      · simp [Balanced, OrderOf, hzero]
      · simp [Balanced, OrderOf, hzero]

theorem live_balanced {acknowledgement : LiveOrderAcknowledgement}
    (h : liveFills plan acknowledgement now = .ok fills) :
    Balanced (liveOrder plan acknowledgement now) fills := by
  unfold liveFills at h
  by_cases hzero : acknowledgement.filledQuantity.toInt = 0
  · simp only [hzero, if_true, Except.ok.injEq] at h
    subst h
    simp [Balanced, liveOrder, hzero]
  · cases hprice : acknowledgement.averageFillPrice with
    | none => simp [hzero, hprice] at h
    | some price =>
        simp only [hzero, if_false, hprice, Except.ok.injEq] at h
        subst h
        simp [Balanced, liveOrder, hprice]

theorem Reported.balanced {log : Log} (h : Reported c plan log order fills now) :
    Balanced order fills ∧ OrderOf plan order := by
  cases h with
  | paper hmode h => exact paper_submit_balanced h
  | live hmode hreached hreceived haccept hfills => exact ⟨live_balanced hfills, rfl, rfl, rfl⟩
  | unknown hmode hreached =>
      exact ⟨by simp [Balanced, liveOrder, unknownAcknowledgement, ReportedQuantity.toInt], rfl, rfl, rfl⟩

end Brokers

/-! ### Calls -/

/-- The condition under which a command keeps the tables consistent. -/
def Sound (L : Ledger) : Command → Prop
  | .recordSignal _ state _ => state = .received
  | .updateSignalState signalId state _ =>
      (state ≠ .filled ∧ state ≠ .partiallyFilled) ∧
        ∀ o ∈ L.orders, o.signalId = signalId → o.filledQuantity = 0
  | .recordExecution order fills _ =>
      Balanced order fills ∧
        ∃ s ∈ L.signals, s.signalId = order.signalId ∧ s.correlationId = order.correlationId
  | _ => True

/-- A sound command leaves a consistent ledger. -/
theorem Effect.consistent {cmd : Command} {reply : cmd.Reply} {L L' : Ledger}
    (h : Effect cmd reply L L') (hL : L.Consistent) (hsound : Sound L cmd) : L'.Consistent := by
  cases h with
  | unchanged => exact hL
  | setKillSwitch row events => exact hL.frame _ _ _
  | recordSignal events hfree => exact (hL.recordSignal hfree ⟨rfl, rfl⟩ hsound).frame _ _ _
  | updateSignalState events => exact (hL.updateSignalState _ hsound.1 hsound.2).frame _ _ _
  | recordApproval row events hfree => exact (hL.recordApproval hfree).frame _ _ _
  | recordExecution journal events horder hposition =>
      exact (hL.recordExecution hsound.1 horder hposition hsound.2).frame _ _ _
  | closePosition day stored journal events => exact (hL.closePosition _ _ _ _).frame _ _ _

/-- Signals stay, with their plans. -/
theorem Effect.signals {cmd : Command} {reply : cmd.Reply} {L L' : Ledger}
    (h : Effect cmd reply L L') {s : SignalRow} (hs : s ∈ L.signals) :
    ∃ t ∈ L'.signals, t.plan = s.plan := by
  have hset (signalId : String) (state : SignalExecutionState) (updatedAt : Int) :
      ∃ t ∈ (L.setSignalState signalId state updatedAt).signals, t.plan = s.plan :=
    ⟨_, List.mem_map_of_mem hs, by split <;> rfl⟩
  cases h with
  | recordSignal events hfree => exact ⟨s, List.mem_append_left _ hs, rfl⟩
  | updateSignalState events => exact hset _ _ _
  | recordExecution journal events horder hposition => exact hset _ _ _
  | _ => exact ⟨s, hs, rfl⟩

/-- An order is an earlier one or that of the execution just recorded. -/
theorem Effect.orders {cmd : Command} {reply : cmd.Reply} {L L' : Ledger}
    (h : Effect cmd reply L L') {o : OrderRow} (ho : o ∈ L'.orders) :
    o ∈ L.orders ∨ ∃ order fills now, (⟨cmd, reply⟩ : Event Command Command.Reply) =
      ⟨.recordExecution order fills now, .ok ()⟩ ∧ o = Ledger.storedOrder order := by
  cases h with
  | recordExecution journal events horder hposition =>
      rcases List.mem_append.mp ho with ho | ho
      · exact .inl ho
      · exact .inr ⟨_, _, _, rfl, List.mem_singleton.mp ho⟩
  | _ => exact .inl ho

theorem Effect.orders_subset {cmd : Command} {reply : cmd.Reply} {L L' : Ledger}
    (h : Effect cmd reply L L') {o : OrderRow} (ho : o ∈ L.orders) : o ∈ L'.orders := by
  cases h with
  | recordExecution journal events horder hposition => exact List.mem_append_left _ ho
  | _ => exact ho

/-- What the ledger holds of the plans a program has recorded or read. -/
structure Tracks (log : Log) (L : Ledger) : Prop where
  known : ∀ plan, Recorded plan log ∨ ReadPlan plan log → ∃ s ∈ L.signals, s.plan = plan
  own : ∀ plan, Recorded plan log → ∀ o ∈ L.orders, o.signalId = plan.signalId →
    ∃ order fills now, ⟨.recordExecution order fills now, .ok ()⟩ ∈ log ∧
      o = Ledger.storedOrder order

/-- A plan read from the ledger is the plan of a signal. -/
theorem plan_of_reply {live : Option LiveBrokerGateway} {cmd : Command} {w : World} {signalId : String}
    {plan : TradePlan} (h : (⟨.plan signalId, some plan⟩ : Event Command Command.Reply) =
      ⟨cmd, (perform live cmd w).1⟩) : ∃ s ∈ w.ledger.signals, s.plan = plan := by
  obtain rfl : Command.plan signalId = cmd := congrArg Sigma.fst h
  have hread : some plan = w.ledger.plan signalId := by simpa [perform] using h
  obtain ⟨s, hfind, hplan⟩ := Option.map_eq_some_iff.mp hread.symm
  exact ⟨s, List.mem_of_find?_eq_some hfind, hplan⟩

theorem Tracks.step {live : Option LiveBrokerGateway} {cmd : Command} {w : World} {log : Log}
    (h : Tracks log w.ledger) (hL : w.ledger.Consistent) :
    Tracks (log ++ [⟨cmd, (perform live cmd w).1⟩]) (perform live cmd w).2.ledger := by
  have hread (signalId : String) (plan : TradePlan) :
      (⟨.plan signalId, some plan⟩ : Event Command Command.Reply) = ⟨cmd, (perform live cmd w).1⟩ →
        ∃ s ∈ w.ledger.signals, s.plan = plan := plan_of_reply
  have heffect := perform_effect live cmd w
  generalize (perform live cmd w).1 = reply at heffect hread ⊢
  generalize (perform live cmd w).2.ledger = L' at heffect ⊢
  have hknown {plan : TradePlan} (hplan : ∃ s ∈ w.ledger.signals, s.plan = plan) :
      ∃ s ∈ L'.signals, s.plan = plan := by
    obtain ⟨s, hs, rfl⟩ := hplan
    exact heffect.signals hs
  refine ⟨fun plan hplan => ?_, fun plan hplan o ho hid => ?_⟩
  · rcases hplan with ⟨t, hmem⟩ | ⟨signalId, hmem⟩
    · rcases List.mem_append.mp hmem with hmem | hmem
      · exact hknown (h.known plan (.inl ⟨t, hmem⟩))
      · cases List.mem_singleton.mp hmem
        cases heffect with
        | unchanged hnot => exact absurd trivial hnot
        | recordSignal events hfree => exact ⟨_, List.mem_append_right _ (List.mem_singleton_self _), rfl⟩
    · rcases List.mem_append.mp hmem with hmem | hmem
      · exact hknown (h.known plan (.inr ⟨signalId, hmem⟩))
      · exact hknown (hread _ _ (List.mem_singleton.mp hmem))
  · obtain ⟨t, hmem⟩ := hplan
    rcases List.mem_append.mp hmem with hmem | hmem
    · rcases heffect.orders ho with ho | ⟨order, fills, now, heq, rfl⟩
      · obtain ⟨order, fills, now, hexecuted, heq⟩ := h.own plan ⟨t, hmem⟩ o ho hid
        exact ⟨order, fills, now, List.mem_append_left _ hexecuted, heq⟩
      · exact ⟨order, fills, now, by simp [heq], rfl⟩
    · cases List.mem_singleton.mp hmem
      cases heffect with
      | unchanged hnot => exact absurd trivial hnot
      | recordSignal events hfree => exact absurd hid (hL.no_order (fun s hs => (hfree s hs).1) o ho)

section Calls

open ExecutionController

variable {c : ExecutionController} {plan : TradePlan} {log : Log} {L : Ledger} {cmd : Command}

/-- A signal whose plan has an order: same signal id and correlation id. -/
theorem signal_of_plan {order : BrokerOrder} (hL : L.Consistent) (horder : OrderOf plan order)
    (hknown : ∃ s ∈ L.signals, s.plan = plan) :
    ∃ s ∈ L.signals, s.signalId = order.signalId ∧ s.correlationId = order.correlationId := by
  obtain ⟨s, hs, rfl⟩ := hknown
  obtain ⟨hid, hcorrelation⟩ := hL.signal_plan s hs
  exact ⟨s, hs, hid.trans horder.1.symm, hcorrelation.trans horder.2.1.symm⟩

theorem sound_of_submitAllowed (hcmd : SubmitAllowed c plan log cmd) (h : Tracks log L)
    (hL : L.Consistent) : Sound L cmd := by
  cases cmd with
  | recordSignal recorded state recordedAt => exact hcmd.2.1
  | updateSignalState signalId state now =>
      obtain ⟨rfl, hstate, hrecorded, hunfilled⟩ := hcmd
      refine ⟨?_, fun o ho hid => ?_⟩
      · simp only [List.mem_cons, List.not_mem_nil, or_false] at hstate
        rcases hstate with rfl | rfl | rfl <;> simp
      · obtain ⟨order, fills, now, hmem, rfl⟩ := h.own plan hrecorded o ho hid
        exact hunfilled order fills now _ hmem
  | recordExecution order fills now =>
      obtain ⟨_, _, hrecorded, _, hreported⟩ := hcmd
      exact ⟨hreported.balanced.1,
        signal_of_plan hL hreported.balanced.2 (h.known plan (.inl hrecorded))⟩
  | _ => trivial

theorem sound_of_approveAllowed (hcmd : ApproveAllowed c log cmd) (h : Tracks log L)
    (hL : L.Consistent) : Sound L cmd := by
  cases cmd with
  | recordExecution order fills now =>
      obtain ⟨plan, hread, hpaper⟩ := hcmd
      obtain ⟨hbalanced, horder⟩ := paper_submit_balanced hpaper
      exact ⟨hbalanced, signal_of_plan hL horder (h.known plan (.inr hread))⟩
  | recordSignal recorded state recordedAt => exact hcmd.elim
  | updateSignalState signalId state now => exact hcmd.elim
  | _ => trivial

/-- A program that issues sound commands only leaves a consistent ledger. -/
theorem run_consistent {α : Type} {p : Action α} {allowed : Log → Command → Prop}
    {post : Log → Except Fault α → Prop} (hp : p.Guarantees allowed post [])
    (hsound : ∀ log cmd L, allowed log cmd → Tracks log L → L.Consistent → Sound L cmd)
    (live : Option LiveBrokerGateway) {w : World} (hw : w.ledger.Consistent) :
    (run (perform live) p w).2.ledger.Consistent := by
  have hstep (log : Log) (cmd : Command) (w : World) (hcmd : allowed log cmd)
      (hinv : w.ledger.Consistent ∧ Tracks log w.ledger) :
      (perform live cmd w).2.ledger.Consistent ∧
        Tracks (log ++ [⟨cmd, (perform live cmd w).1⟩]) (perform live cmd w).2.ledger :=
    ⟨(perform_effect live cmd w).consistent hinv.1 (hsound _ _ _ hcmd hinv.2 hinv.1),
      hinv.2.step hinv.1⟩
  obtain ⟨_, ⟨hconsistent, _⟩, _⟩ :=
    run_guarantees hstep hp ⟨hw, by simp [Recorded, ReadPlan], by simp [Recorded]⟩
  exact hconsistent

/-- Every call keeps the tables consistent, whether it returns or raises. -/
theorem after_consistent (c : ExecutionController) (call : Call) (w : World)
    (hw : w.ledger.Consistent) : (c.after w call).ledger.Consistent := by
  cases call with
  | submit plan now =>
      exact run_consistent submit_guarantees (fun _ _ _ => sound_of_submitAllowed) c.live hw
  | approve signalId actor reason approvedAt now =>
      exact run_consistent approve_guarantees (fun _ _ _ => sound_of_approveAllowed) c.live hw
  | setKillSwitch active actor reason changedAt =>
      rw [after_setKillSwitch]
      exact (perform_effect c.live (.setKillSwitch active reason actor changedAt) w).consistent hw trivial
  | closePosition positionId exitPrice closedAt =>
      exact (perform_effect c.live (.closePosition positionId exitPrice closedAt) w).consistent hw trivial

end Calls

theorem Reachable.consistent {w : World} (h : Reachable w) : w.ledger.Consistent := by
  obtain ⟨createdAt, calls, rfl⟩ := h
  exact World.runCalls_invariant after_consistent (Ledger.Consistent.fresh createdAt) calls

/-- At most one row meets a condition that no two rows share. -/
theorem length_filter_le_one {α : Type} {R : α → α → Prop} {l : List α} (hl : l.Pairwise R)
    {p : α → Bool} (hp : ∀ a b, R a b → p a = true → p b = true → False) : (l.filter p).length ≤ 1 := by
  have hfilter := hl.filter p
  have hall : ∀ a ∈ l.filter p, p a = true := fun a ha => (List.mem_filter.mp ha).2
  generalize l.filter p = rows at hfilter hall
  match rows with
  | [] => simp
  | [a] => simp
  | a :: b :: rest =>
      have hab := (List.pairwise_cons.mp hfilter).1 b (by simp)
      exact (hp a b hab (hall a (by simp)) (hall b (by simp))).elim

/-- The relations between a signal, its order, the fills, the position and the approval. -/
structure Ledger.Settled (L : Ledger) : Prop where
  one_order : ∀ signalId, (L.orders.filter fun o => o.signalId = signalId).length ≤ 1
  one_approval : ∀ signalId, (L.approvals.filter fun a => a.signalId = signalId).length ≤ 1
  one_position : ∀ signalId, (L.positions.filter fun p => p.signalId = signalId).length ≤ 1
  fills_sum : ∀ o ∈ L.orders, L.filled o.orderId = o.filledQuantity
  filled_bounds : ∀ o ∈ L.orders, 0 ≤ o.filledQuantity ∧ o.filledQuantity ≤ o.quantity
  position_order : ∀ p ∈ L.positions, ∃ o ∈ L.orders, o.signalId = p.signalId
  position_iff : ∀ o ∈ L.orders, (∃ p ∈ L.positions, p.signalId = o.signalId) ↔ 0 < o.filledQuantity
  position_values : ∀ o ∈ L.orders, ∀ p ∈ L.positions, p.signalId = o.signalId →
    p.quantity = o.filledQuantity ∧ some p.averageEntryPrice = o.averageFillPrice
  one_open : ∀ securityId,
    (L.positions.filter fun p => p.state = .opened ∧ p.securityId = securityId).length ≤ 1
  signal_filled : ∀ s ∈ L.signals, s.state = .filled ↔
    ∃ o ∈ L.orders, o.signalId = s.signalId ∧ o.filledQuantity = o.quantity
  signal_partially_filled : ∀ s ∈ L.signals, s.state = .partiallyFilled ↔
    ∃ o ∈ L.orders, o.signalId = s.signalId ∧ 0 < o.filledQuantity ∧ o.filledQuantity < o.quantity

namespace Ledger.Consistent

variable {L : Ledger}

/-- The order of a signal is unique. -/
theorem order_eq (h : L.Consistent) {o q : OrderRow} (ho : o ∈ L.orders) (hq : q ∈ L.orders)
    (hid : o.signalId = q.signalId) : o = q := by
  have hnodup : (L.orders.map (·.signalId)).Nodup :=
    List.pairwise_map.mpr (h.orders_unique.imp fun hoq => hoq.2.2)
  exact List.inj_on_of_nodup_map hnodup ho hq hid

theorem opens_of_signal (h : L.Consistent) {o : OrderRow} {p : PositionRow} (ho : o ∈ L.orders)
    (hp : p ∈ L.positions) (hid : p.signalId = o.signalId) : Opens o p := by
  obtain ⟨q, hq, hopens⟩ := h.position_order p hp
  rwa [h.order_eq ho hq (hid.symm.trans hopens.1)]

theorem settled (h : L.Consistent) : L.Settled where
  one_order signalId := length_filter_le_one h.orders_unique fun o q hoq ho hq =>
    hoq.2.2 ((of_decide_eq_true ho).trans (of_decide_eq_true hq).symm)
  one_approval signalId := length_filter_le_one h.approvals_unique fun a b hab ha hb =>
    hab ((of_decide_eq_true ha).trans (of_decide_eq_true hb).symm)
  one_position signalId := length_filter_le_one h.positions_unique fun p q hpq hp hq =>
    hpq.2 ((of_decide_eq_true hp).trans (of_decide_eq_true hq).symm)
  fills_sum := h.order_filled
  filled_bounds o ho := (h.order_bounds o ho).2
  position_order p hp := by
    obtain ⟨o, ho, hopens⟩ := h.position_order p hp
    exact ⟨o, ho, hopens.1.symm⟩
  position_iff o ho := by
    constructor
    · rintro ⟨p, hp, hid⟩
      exact (h.opens_of_signal ho hp hid).2.2.1
    · intro hpos
      obtain ⟨p, hp, hopens⟩ := h.order_position o ho hpos
      exact ⟨p, hp, hopens.1⟩
  position_values o ho p hp hid := (h.opens_of_signal ho hp hid).2.2.2
  one_open securityId := length_filter_le_one h.one_open fun p q hpq hp hq =>
    have hp := of_decide_eq_true hp
    have hq := of_decide_eq_true hq
    hpq hp.1 hq.1 (hp.2.trans hq.2.symm)
  signal_filled := h.signal_filled
  signal_partially_filled := h.signal_partially_filled

end Ledger.Consistent

/-- Whatever calls are made in whatever order, with any configuration and any gateway, the tables of
the ledger agree with each other. -/
theorem runCalls_settled (createdAt : Int) (calls : List (ExecutionController × Call)) :
    ((World.fresh createdAt).runCalls calls).ledger.Settled :=
  Reachable.consistent ⟨createdAt, calls, rfl⟩ |>.settled

end TecoQuant.Execution
