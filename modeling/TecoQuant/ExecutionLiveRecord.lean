import TecoQuant.ExecutionConsistency
import TecoQuant.ExecutionGates

/-! Whether a live mutation leaves a record. Once the gateway has been invoked, the ledger ends with an
order for the signal exactly when the acknowledgement the controller works with can be recorded. -/

namespace TecoQuant.Execution

open Atomic ExecutionController

/-- One order row for the signal, a state other than `RECEIVED`, and `UNCERTAIN` when the call says so. -/
def LeavesRecord (plan : TradePlan) (result : Except Fault ExecutionResult) (L : Ledger) : Prop :=
  (L.orders.filter fun o => o.signalId = plan.signalId).length = 1 ∧
    (∃ state, L.signalState plan.signalId = some state ∧ state ≠ .received) ∧
    ∀ fault, result = .error fault → fault.kind = .executionUncertain →
      L.signalState plan.signalId = some .uncertain

/-- The acknowledgement the controller works with: the gateway's own, the one a lookup finds after a
timeout, or the one that stands for an order nobody found. -/
def effectiveAcknowledgement (gateway : LiveBrokerGateway) (calls : List GatewayCall)
    (plan : TradePlan) : Option LiveOrderAcknowledgement :=
  match gateway.submitOrder calls plan plan.correlationId with
  | .acknowledged acknowledgement => some acknowledgement
  | .raised _ => none
  | .timedOut =>
      match gateway.lookupByCorrelation (calls ++ [.submitOrder plan plan.correlationId])
        plan.correlationId with
      | .found (some acknowledgement) => some acknowledgement
      | .found none => some (unknownAcknowledgement plan)
      | .raised _ => none

/-- An acknowledgement the controller accepts and the tables take: its ids are new, its numbers fit. -/
def Recordable (L : Ledger) (plan : TradePlan) (acknowledgement : LiveOrderAcknowledgement) : Prop :=
  Acceptable plan acknowledgement ∧
    (∀ o ∈ L.orders, o.orderId ≠ acknowledgement.brokerOrderId) ∧
    (0 < acknowledgement.filledQuantity.toInt →
      (∀ f ∈ L.fills, f.fillId ≠ "live-fill-" ++ acknowledgement.brokerOrderId ++ "-reconciled") ∧
      ∀ p ∈ L.positions, p.positionId ≠ "position-" ++ acknowledgement.brokerOrderId) ∧
    plan.quantity < 2 ^ 63 ∧ CastPositive plan.limitPrice ∧
    ∀ price ∈ acknowledgement.averageFillPrice, CastPositive price

instance (L : Ledger) (plan : TradePlan) (acknowledgement : LiveOrderAcknowledgement) :
    Decidable (Recordable L plan acknowledgement) :=
  inferInstanceAs (Decidable (_ ∧ _))

/-! ### Recording an acknowledgement -/

/-- A ledger in which nothing of the plan is recorded but its signal. -/
structure Ready (L : Ledger) (plan : TradePlan) : Prop where
  signal : L.HasSignal plan.signalId
  no_order : ∀ o ∈ L.orders, o.signalId ≠ plan.signalId ∧ o.correlationId ≠ plan.correlationId
  no_position : ∀ p ∈ L.positions, p.signalId ≠ plan.signalId
  no_open : ∀ p ∈ L.positions, p.state = .opened → p.securityId ≠ plan.securityId

section Recording

variable {plan : TradePlan} {now : Datetime} {L L' : Ledger} {acknowledgement : LiveOrderAcknowledgement}

theorem ready_of_recordSignal (hL : L.Consistent)
    (hopen : L.openPositionForSecurity plan.securityId = none)
    (h : Ledger.recordSignal plan .received now L = (.ok (), L')) :
    Ready L' plan ∧ L'.signalState plan.signalId = some .received ∧
      ∃ signals events, L' = { L with signals := signals, events := events } := by
  obtain ⟨hfree, events, rfl⟩ := Ledger.recordSignal_ok h
  refine ⟨⟨?_, fun o ho => ?_, fun p hp => ?_, fun p hp hstate hsecurity => ?_⟩, ?_, _, _, rfl⟩
  · exact ⟨_, List.mem_append_right _ (List.mem_singleton_self _), rfl⟩
  · obtain ⟨s, hs, hid, hcorrelation⟩ := hL.order_signal o ho
    rw [← hid, ← hcorrelation]
    exact hfree s hs
  · obtain ⟨o, ho, hopens⟩ := hL.position_order p hp
    rw [hopens.1]
    exact hL.no_order (fun s hs => (hfree s hs).1) o ho
  · have hnot := List.find?_eq_none.mp hopen p hp
    simp [hstate, hsecurity] at hnot
  · have hnone : L.signals.find? (fun s => s.signalId = plan.signalId) = none :=
      List.find?_eq_none.mpr fun s hs => by simpa [Ledger.signalRow] using (hfree s hs).1
    simp [Ledger.signalState, List.find?_append, hnone, Ledger.signalRow]

theorem signalState_setSignalState {signalId : String} (state : SignalExecutionState) (updatedAt : Int)
    (h : L.HasSignal signalId) :
    (L.setSignalState signalId state updatedAt).signalState signalId = some state := by
  obtain ⟨s, hs, hid⟩ := h
  have hkeep : ((fun s : SignalRow => decide (s.signalId = signalId)) ∘ fun s : SignalRow =>
      if s.signalId = signalId then { s with state := state, updatedAt := updatedAt } else s) =
      fun s => decide (s.signalId = signalId) := by
    funext t
    simp only [Function.comp_apply]
    split <;> rfl
  rw [Ledger.signalState, Ledger.setSignalState, List.find?_map, hkeep]
  rcases hfind : L.signals.find? (fun s => s.signalId = signalId) with _ | t
  · exact absurd hid (by simpa using List.find?_eq_none.mp hfind s hs)
  · have ht : t.signalId = signalId := by simpa using List.find?_some hfind
    simp [hfind, ht]

@[simp] theorem castPositive_plain {d : Decimal} : CastPositive d.plain ↔ CastPositive d := by
  simp [CastPositive]

/-- The columns of a live order can be written when its quantity fits. -/
theorem orderWritable_live_iff (hutc : now.HasUtc) (hquantity : 0 < plan.quantity)
    (hlimit : plan.limitPrice.IsFinite) (haccept : Acceptable plan acknowledgement) :
    Ledger.OrderWritable (liveOrder plan acknowledgement now) ↔ plan.quantity < 2 ^ 63 := by
  obtain ⟨quantity, hfilled, hnonneg, hle, hprice, hnone⟩ :=
    validateLiveAcknowledgement_eq_ok.mp haccept.2
  have hfinite : ∀ price ∈ acknowledgement.averageFillPrice, price.IsFinite := by
    intro price hmem
    rcases hnonneg.lt_or_eq with hpos | hzero
    · obtain ⟨price', hmem', hfinite, _⟩ := hprice hpos
      rwa [Option.mem_unique hmem hmem']
    · rw [hnone hzero.symm] at hmem
      cases hmem
  simp only [Ledger.OrderWritable, Ledger.Fits, liveOrder, hfilled, ReportedQuantity.toInt]
  constructor
  · exact fun h => h.2.2.2.1.2
  · exact fun h => ⟨hlimit, hfinite, hutc, ⟨by omega, h⟩, ⟨by omega, by omega⟩⟩

/-- The constraints on a live order that the gates do not settle. -/
theorem orderConstraints_live_iff (hready : Ready L plan) (hquantity : 0 < plan.quantity)
    (haccept : Acceptable plan acknowledgement) :
    L.OrderConstraints (Ledger.storedOrder (liveOrder plan acknowledgement now)) ↔
      (∀ o ∈ L.orders, o.orderId ≠ acknowledgement.brokerOrderId) ∧ CastPositive plan.limitPrice ∧
        ∀ price ∈ acknowledgement.averageFillPrice, CastPositive price := by
  obtain ⟨quantity, hfilled, hnonneg, hle, -, -⟩ := validateLiveAcknowledgement_eq_ok.mp haccept.2
  simp only [Ledger.OrderConstraints, Ledger.storedOrder, liveOrder, castPositive_plain, hfilled,
    ReportedQuantity.toInt, Option.mem_def, Option.map_eq_some_iff, forall_exists_index, and_imp,
    forall_apply_eq_imp_iff₂]
  constructor
  · rintro ⟨hids, _, _, _, _, hlimit, hprices⟩
    exact ⟨fun o ho => (hids o ho).1, hlimit, hprices⟩
  · rintro ⟨hids, hlimit, hprices⟩
    exact ⟨fun o ho => ⟨hids o ho, (hready.no_order o ho).2, (hready.no_order o ho).1⟩, hready.signal,
      hquantity, hnonneg, hle, hlimit, hprices⟩

/-- The single fill of a live order filled at a price. -/
def liveFill (plan : TradePlan) (acknowledgement : LiveOrderAcknowledgement) (price : Decimal)
    (now : Datetime) : BrokerFill where
  fillId := "live-fill-" ++ acknowledgement.brokerOrderId ++ "-reconciled"
  orderId := acknowledgement.brokerOrderId
  quantity := acknowledgement.filledQuantity.toInt
  price := price
  state := if acknowledgement.filledQuantity.toInt = plan.quantity then .complete else .partialFill
  filledAt := now

/-- The position of a live order filled at a price. -/
def livePosition (plan : TradePlan) (acknowledgement : LiveOrderAcknowledgement) (price : Decimal)
    (now : Datetime) : PositionRow where
  positionId := "position-" ++ acknowledgement.brokerOrderId
  signalId := plan.signalId
  symbol := plan.symbol
  securityId := plan.securityId
  side := plan.side
  quantity := acknowledgement.filledQuantity.toInt
  averageEntryPrice := price.plain
  state := .opened
  openedAt := now.instant

/-- The fill of a live order meets its constraints when its id is new. -/
theorem fillConstraints_live_iff {price : Decimal} {M : Ledger}
    (horder : ∃ o ∈ M.orders, o.orderId = acknowledgement.brokerOrderId)
    (hpos : 0 < acknowledgement.filledQuantity.toInt) :
    M.FillConstraints (Ledger.storedFill (liveFill plan acknowledgement price now)) ↔
      (∀ f ∈ M.fills, f.fillId ≠ "live-fill-" ++ acknowledgement.brokerOrderId ++ "-reconciled") ∧
        CastPositive price := by
  simp only [Ledger.FillConstraints, Ledger.storedFill, liveFill, castPositive_plain]
  exact ⟨fun h => ⟨h.1, h.2.2.2⟩, fun h => ⟨h.1, horder, hpos, h.2⟩⟩

/-- The position of a live order meets its constraints when its id is new. -/
theorem positionConstraints_live_iff (hready : Ready L plan) {price : Decimal}
    (hpos : 0 < acknowledgement.filledQuantity.toInt) :
    L.PositionConstraints (livePosition plan acknowledgement price now) ↔
      (∀ p ∈ L.positions, p.positionId ≠ "position-" ++ acknowledgement.brokerOrderId) ∧
        CastPositive price := by
  simp only [Ledger.PositionConstraints, livePosition, castPositive_plain]
  constructor
  · exact fun h => ⟨fun p hp => (h.1 p hp).1, h.2.2.2.1⟩
  · exact fun h => ⟨fun p hp => ⟨h.1 p hp, hready.no_position p hp⟩, hready.signal, hpos, h.2,
      fun _ p hp hstate => hready.no_open p hp hstate⟩

/-- An acknowledgement without a fill is recorded exactly when its order id is new. -/
theorem recordExecution_unfilled_iff (hready : Ready L plan) (hutc : now.HasUtc)
    (hquantity : 0 < plan.quantity) (hlimit : plan.limitPrice.IsFinite)
    (haccept : Acceptable plan acknowledgement) (hzero : acknowledgement.filledQuantity.toInt = 0)
    (hprice : acknowledgement.averageFillPrice = none) :
    (∃ L', Ledger.recordExecution (liveOrder plan acknowledgement now) [] now L = (.ok (), L')) ↔
      Recordable L plan acknowledgement := by
  have hposition : Ledger.storedPosition (liveOrder plan acknowledgement now) now = none := by
    simp [Ledger.storedPosition, liveOrder, hprice]
  simp only [Ledger.recordExecution_eq_ok, orderWritable_live_iff hutc hquantity hlimit haccept,
    orderConstraints_live_iff hready hquantity haccept]
  constructor
  · rintro ⟨L', hfits, ⟨hids, hcast, hprices⟩, _⟩
    exact ⟨haccept, hids, fun hpos => absurd hpos (by omega), hfits, hcast, hprices⟩
  · rintro ⟨_, hids, _, hfits, hcast, hprices⟩
    exact ⟨_, hfits, ⟨hids, hcast, hprices⟩, _, rfl, _,
      Ledger.insertOrderPosition_eq_ok.mpr ⟨by simp [hposition], rfl⟩, hutc, rfl⟩

/-- A filled acknowledgement is recorded exactly when the ids of its order, its fill and its position
are new. -/
theorem recordExecution_filled_iff (hready : Ready L plan) (hutc : now.HasUtc)
    (hquantity : 0 < plan.quantity) (hlimit : plan.limitPrice.IsFinite)
    (haccept : Acceptable plan acknowledgement) (hpos : 0 < acknowledgement.filledQuantity.toInt)
    (hle : acknowledgement.filledQuantity.toInt ≤ plan.quantity) {price : Decimal}
    (hprice : acknowledgement.averageFillPrice = some price) (hfinite : price.IsFinite) :
    (∃ L', Ledger.recordExecution (liveOrder plan acknowledgement now)
      [liveFill plan acknowledgement price now] now L = (.ok (), L')) ↔
      Recordable L plan acknowledgement := by
  have hposition : Ledger.storedPosition (liveOrder plan acknowledgement now) now =
      some (livePosition plan acknowledgement price now) := by
    simp [Ledger.storedPosition, liveOrder, livePosition, hprice, hpos]
  have horder : ∃ o ∈ L.orders ++ [Ledger.storedOrder (liveOrder plan acknowledgement now)],
      o.orderId = acknowledgement.brokerOrderId :=
    ⟨_, List.mem_append_right _ (List.mem_singleton_self _), rfl⟩
  simp only [Ledger.recordExecution_eq_ok, orderWritable_live_iff hutc hquantity hlimit haccept,
    orderConstraints_live_iff hready hquantity haccept]
  constructor
  · rintro ⟨L', hfits, ⟨hids, hcast, hprices⟩, L₁, hfills, L₂, hinsert, _⟩
    obtain ⟨_, hfill, hrest⟩ := Ledger.insertFills_cons_eq_ok.mp hfills
    cases hrest
    obtain ⟨hrow, _⟩ := Ledger.insertOrderPosition_eq_ok.mp hinsert
    obtain ⟨_, _, _, hconstraints⟩ := hrow _ hposition
    exact ⟨haccept, hids, fun _ => ⟨((fillConstraints_live_iff horder hpos).mp hfill).1,
      ((positionConstraints_live_iff hready hpos).mp hconstraints).1⟩, hfits, hcast, hprices⟩
  · rintro ⟨_, hids, hrest, hfits, hcast, hprices⟩
    obtain ⟨hfills, hpositions⟩ := hrest hpos
    have hcastPrice := hprices price hprice
    have hfilledFits : Ledger.Fits acknowledgement.filledQuantity.toInt := ⟨by omega, by omega⟩
    refine ⟨_, hfits, ⟨hids, hcast, hprices⟩, _, Ledger.insertFills_cons_eq_ok.mpr
      ⟨⟨hfinite, hutc, hfilledFits⟩, (fillConstraints_live_iff horder hpos).mpr ⟨hfills, hcastPrice⟩,
        rfl⟩, _, Ledger.insertOrderPosition_eq_ok.mpr ⟨fun row hrow => ?_, rfl⟩, hutc, rfl⟩
    rw [hposition] at hrow
    cases hrow
    refine ⟨fun price' hmem => ?_, hutc, hfilledFits,
      (positionConstraints_live_iff hready hpos).mpr ⟨hpositions, hcastPrice⟩⟩
    rwa [Option.mem_unique hmem hprice]

/-- An accepted acknowledgement is recorded exactly when its ids are new and its numbers fit. -/
theorem recordExecution_live_iff {fills : List BrokerFill} (hready : Ready L plan) (hutc : now.HasUtc)
    (hquantity : 0 < plan.quantity) (hlimit : plan.limitPrice.IsFinite)
    (haccept : Acceptable plan acknowledgement)
    (hfills : liveFills plan acknowledgement now = .ok fills) :
    (∃ L', Ledger.recordExecution (liveOrder plan acknowledgement now) fills now L = (.ok (), L')) ↔
      Recordable L plan acknowledgement := by
  obtain ⟨quantity, hfilled, hnonneg, hle, hprice, hnone⟩ :=
    validateLiveAcknowledgement_eq_ok.mp haccept.2
  have htoInt : acknowledgement.filledQuantity.toInt = quantity := by rw [hfilled]; rfl
  rcases hnonneg.lt_or_eq with hpos | hzero
  · obtain ⟨price, hmem, hfinite, hprice⟩ := hprice hpos
    obtain rfl : [liveFill plan acknowledgement price now] = fills := by
      simpa [liveFills, htoInt, hpos.ne', Option.mem_def.mp hmem, liveFill] using hfills
    exact recordExecution_filled_iff hready hutc hquantity hlimit haccept (htoInt ▸ hpos)
      (htoInt ▸ hle) hmem hfinite
  · obtain rfl : [] = fills := by simpa [liveFills, htoInt, ← hzero] using hfills
    exact recordExecution_unfilled_iff hready hutc hquantity hlimit haccept
      (htoInt.trans hzero.symm) (hnone hzero.symm)

end Recording
/-! ### The live path -/

section Live

variable {c : ExecutionController} {plan : TradePlan} {now : Datetime} {w : World}
  {acknowledgement : LiveOrderAcknowledgement} {live : Option LiveBrokerGateway}

theorem not_leavesRecord {L : Ledger} (hreceived : L.signalState plan.signalId = some .received)
    (result : Except Fault ExecutionResult) : ¬LeavesRecord plan result L := by
  rintro ⟨_, ⟨state, hstate, hne⟩, _⟩
  rw [hreceived, Option.some_inj] at hstate
  exact hne hstate.symm

/-- After a recorded execution the signal has one order, and the state of that order. -/
theorem recorded_execution {order : BrokerOrder} {fills : List BrokerFill} {L L' : Ledger}
    (hready : Ready L plan) (horder : order.signalId = plan.signalId)
    (h : Ledger.recordExecution order fills now L = (.ok (), L')) :
    (L'.orders.filter fun o => o.signalId = plan.signalId).length = 1 ∧ L'.HasSignal plan.signalId ∧
      L'.signalState plan.signalId = some (Ledger.executionState order) := by
  obtain ⟨_, _, journal, events, rfl⟩ := Ledger.recordExecution_ok h
  have hnone : L.orders.filter (fun o => o.signalId = plan.signalId) = [] := by
    simpa [List.filter_eq_nil_iff] using fun o ho => (hready.no_order o ho).1
  have hstate := signalState_setSignalState (Ledger.executionState order) now.instant
    hready.signal
  refine ⟨?_, ?_, ?_⟩
  · simp [Ledger.withExecution, hnone, Ledger.storedOrder, horder]
  · obtain ⟨s, hs, hid⟩ := hready.signal
    exact ⟨_, List.mem_map_of_mem hs, by split <;> exact hid⟩
  · rw [← hstate]
    simp [Ledger.withExecution, Ledger.signalState, horder]

theorem executionState_ne_received {order : BrokerOrder} :
    Ledger.executionState order ≠ .received := by
  unfold Ledger.executionState
  split
  · simp
  · split <;> simp

theorem run_acceptAcknowledgement (hready : Ready w.ledger plan)
    (hreceived : w.ledger.signalState plan.signalId = some .received) (hutc : now.HasUtc)
    (hquantity : 0 < plan.quantity) (hlimit : plan.limitPrice.IsFinite) :
    LeavesRecord plan (run (perform live) (acceptAcknowledgement plan acknowledgement now) w).1
        (run (perform live) (acceptAcknowledgement plan acknowledgement now) w).2.ledger ↔
      Recordable w.ledger plan acknowledgement := by
  unfold acceptAcknowledgement
  split
  · rename_i hcorrelation
    exact ⟨fun h => absurd h (not_leavesRecord hreceived _), fun h => absurd h.1.1 hcorrelation⟩
  rename_i hcorrelation
  rcases hvalid : validateLiveAcknowledgement plan acknowledgement with fault | value
  · rw [run_bind, run_ofExcept]
    exact ⟨fun h => absurd h (not_leavesRecord hreceived _), fun h => by simp [h.1.2] at hvalid⟩
  obtain ⟨fills, hfills⟩ := liveFills_of_valid hvalid now
  have hiff := recordExecution_live_iff hready hutc hquantity hlimit
    ⟨not_not.mp hcorrelation, hvalid⟩ hfills
  rw [run_bind, run_ofExcept]
  dsimp only
  rw [hfills, run_bind, run_ofExcept]
  dsimp only [recordAndReport]
  rw [run_bind, run_recordExecution, ← hiff]
  rcases hrecord : Ledger.recordExecution (liveOrder plan acknowledgement now) fills now w.ledger with
    ⟨fault | value, L'⟩
  · obtain rfl := Ledger.transaction_of_error hrecord
    exact ⟨fun h => absurd h (not_leavesRecord hreceived _), fun ⟨_, h⟩ => by simp at h⟩
  · obtain ⟨hlength, _, hstate⟩ := recorded_execution hready rfl hrecord
    exact ⟨fun _ => ⟨_, rfl⟩, fun _ => ⟨hlength, ⟨_, hstate, executionState_ne_received⟩, fun _ h => by cases h⟩⟩

theorem run_recordUnknown (hready : Ready w.ledger plan)
    (hreceived : w.ledger.signalState plan.signalId = some .received) (hutc : now.HasUtc)
    (hquantity : 0 < plan.quantity) (hlimit : plan.limitPrice.IsFinite) :
    LeavesRecord plan (run (perform live) (recordUnknown plan now) w).1
        (run (perform live) (recordUnknown plan now) w).2.ledger ↔
      Recordable w.ledger plan (unknownAcknowledgement plan) := by
  have haccept : Acceptable plan (unknownAcknowledgement plan) :=
    ⟨rfl, validateLiveAcknowledgement_eq_ok.mpr ⟨0, rfl, le_rfl, hquantity.le, by simp, fun _ => rfl⟩⟩
  have hiff := recordExecution_live_iff hready hutc hquantity hlimit haccept rfl
  unfold recordUnknown
  rw [run_bind, run_recordExecution, ← hiff]
  rcases hrecord : Ledger.recordExecution (liveOrder plan (unknownAcknowledgement plan) now) [] now
    w.ledger with ⟨fault | value, L'⟩
  · obtain rfl := Ledger.transaction_of_error hrecord
    exact ⟨fun h => absurd h (not_leavesRecord hreceived _), fun ⟨_, h⟩ => by simp at h⟩
  refine ⟨fun _ => ⟨_, rfl⟩, fun _ => ?_⟩
  obtain ⟨hlength, hsignal, _⟩ := recorded_execution hready rfl hrecord
  obtain ⟨L'', hupdate⟩ := Ledger.updateSignalState_succeeds .uncertain hsignal hutc
  dsimp only [World.commit]
  rw [run_bind, run_updateSignalState, hupdate]
  obtain ⟨events, rfl⟩ := Ledger.updateSignalState_ok hupdate
  have hstate := signalState_setSignalState .uncertain now.instant hsignal
  exact ⟨hlength, ⟨_, hstate, by simp⟩, fun _ _ _ => hstate⟩

theorem run_submitLive {gateway : LiveBrokerGateway} (hready : Ready w.ledger plan)
    (hreceived : w.ledger.signalState plan.signalId = some .received) (hutc : now.HasUtc) (hquantity : 0 < plan.quantity)
    (hlimit : plan.limitPrice.IsFinite) :
    LeavesRecord plan (run (perform (some gateway)) (submitLive plan now) w).1
        (run (perform (some gateway)) (submitLive plan now) w).2.ledger ↔
      ∃ acknowledgement, effectiveAcknowledgement gateway w.gatewayCalls plan = some acknowledgement ∧
        Recordable w.ledger plan acknowledgement := by
  unfold submitLive effectiveAcknowledgement
  rw [run_issue_bind]
  dsimp only [perform]
  rcases gateway.submitOrder w.gatewayCalls plan plan.correlationId with ack | _ | message
  · dsimp only
    rw [run_acceptAcknowledgement (by exact hready) (by exact hreceived) hutc hquantity hlimit]
    simp
  · dsimp only
    rw [run_issue_bind]
    dsimp only [perform]
    rcases hlookup : gateway.lookupByCorrelation
      (w.gatewayCalls ++ [.submitOrder plan plan.correlationId]) plan.correlationId with
      (_ | ack) | message
    all_goals simp only [hlookup]
    · rw [run_recordUnknown (by exact hready) (by exact hreceived) hutc hquantity hlimit]
      simp
    · rw [run_acceptAcknowledgement (by exact hready) (by exact hreceived) hutc hquantity hlimit]
      simp
    · exact ⟨fun h => absurd h (not_leavesRecord hreceived _), fun ⟨_, h, _⟩ => by cases h⟩
  · exact ⟨fun h => absurd h (not_leavesRecord hreceived _), fun ⟨_, h, _⟩ => by cases h⟩

end Live

/-- Once a submission has invoked the gateway, it leaves an order and a settled state for its signal
exactly when the acknowledgement it works with can be recorded. -/
theorem submit_leavesRecord_iff (c : ExecutionController) {w : World} (hw : Reachable w)
    {gateway : LiveBrokerGateway} (hmode : c.policy.mode = .liveAutomatic)
    (henabled : c.policy.liveEnabled = true) (hlive : c.live = some gateway) (plan : TradePlan)
    (now : Datetime)
    (hinvoked : (run (perform c.live) (c.submit plan now) w).2.gatewayCalls ≠ w.gatewayCalls) :
    LeavesRecord plan (run (perform c.live) (c.submit plan now) w).1
        (run (perform c.live) (c.submit plan now) w).2.ledger ↔
      ∃ acknowledgement, effectiveAcknowledgement gateway w.gatewayCalls plan = some acknowledgement ∧
        Recordable w.ledger plan acknowledgement := by
  rcases run_submit_cases c w plan now c.live with ⟨hgates, L, hrecord, hrun⟩ | ⟨_, _, _, hcalls⟩
  swap
  · exact absurd hcalls hinvoked
  obtain ⟨hquantity, hlimit, -⟩ := planChecks_ok hgates.valid.checks
  obtain ⟨hready, hreceived, _, _, rfl⟩ :=
    ready_of_recordSignal hw.consistent hgates.valid.unopened hrecord
  rw [hrun]
  have hdispatch : c.dispatch plan now = submitLive plan now := by
    simp [dispatch, hmode, executeLive, henabled, hlive]
  rw [hdispatch, hlive, run_submitLive (by exact hready) (by exact hreceived) hgates.hasUtc hquantity hlimit]
  rfl

theorem submit_leavesRecord_filled :
    LeavesRecord (.sample "s1" "c1" "101")
      (run (perform (some (fillingGateway id id)))
        ((liveController (fillingGateway id id)).submit (.sample "s1" "c1" "101") (.utc 0))
        (.fresh 0)).1
      (run (perform (some (fillingGateway id id)))
        ((liveController (fillingGateway id id)).submit (.sample "s1" "c1" "101") (.utc 0))
        (.fresh 0)).2.ledger :=
  (submit_leavesRecord_iff (liveController (fillingGateway id id)) ⟨0, [], rfl⟩ rfl rfl rfl _ _
    (by decide +kernel)).mpr ⟨_, rfl, ⟨rfl, by decide +kernel⟩, by decide +kernel⟩

/-- A filled order acknowledged under another correlation id leaves no order, and a signal in state
`RECEIVED`, although the call reports an uncertain execution. -/
theorem submit_mismatch_unrecorded :
    let outcome := run (perform (some (fillingGateway id fun _ => "other")))
      ((liveController (fillingGateway id fun _ => "other")).submit (.sample "s1" "c1" "101") (.utc 0))
      (.fresh 0)
    outcome.2.gatewayCalls = [.submitOrder (.sample "s1" "c1" "101") "c1"] ∧
      outcome.1 = .error ⟨.executionUncertain, "broker reconciliation correlation mismatch"⟩ ∧
      outcome.2.ledger.orders = [] ∧ outcome.2.ledger.signalState "s1" = some .received ∧
      ¬LeavesRecord (.sample "s1" "c1" "101") outcome.1 outcome.2.ledger := by
  refine ⟨by decide +kernel, by decide +kernel, by decide +kernel, by decide +kernel, ?_⟩
  rintro ⟨hlength, -⟩
  revert hlength
  decide +kernel

end TecoQuant.Execution
