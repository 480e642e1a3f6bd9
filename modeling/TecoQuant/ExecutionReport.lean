import Mathlib.Data.Option.Basic
import TecoQuant.ExecutionKillSwitch

/-! What a call reports against what it has stored. The state of the result is read off the state the
broker gives the order, the state of the signal off the quantities. The paper broker keeps the two
together; an acknowledgement of a live gateway need not, and nothing checks that it does. -/

namespace TecoQuant.Execution

open Atomic ExecutionController

/-! ### Stored values -/

/-- The row holds the values of the order. -/
structure OrderRow.Stores (row : OrderRow) (order : BrokerOrder) : Prop where
  orderId : row.orderId = order.orderId
  correlationId : row.correlationId = order.correlationId
  signalId : row.signalId = order.signalId
  symbol : row.symbol = order.symbol
  securityId : row.securityId = order.securityId
  side : row.side = order.side
  quantity : row.quantity = order.quantity
  filledQuantity : row.filledQuantity = order.filledQuantity
  limitPrice : Decimal.Same row.limitPrice order.limitPrice
  averageFillPrice : Option.Rel Decimal.Same row.averageFillPrice order.averageFillPrice
  state : row.state = order.state
  submittedAt : row.submittedAt = order.submittedAt.instant

/-- The row holds the values of the fill. -/
structure FillRow.Stores (row : FillRow) (fill : BrokerFill) : Prop where
  fillId : row.fillId = fill.fillId
  orderId : row.orderId = fill.orderId
  quantity : row.quantity = fill.quantity
  price : Decimal.Same row.price fill.price
  state : row.state = fill.state
  filledAt : row.filledAt = fill.filledAt.instant

/-- The state of an order says how much of it is filled. -/
def OrderRow.Coherent (row : OrderRow) : Prop :=
  (row.state = .filled ↔ row.filledQuantity = row.quantity) ∧
    (row.state = .partiallyFilled ↔ 0 < row.filledQuantity ∧ row.filledQuantity < row.quantity)

/-- The result and the ledger agree: on the state of the signal, on the order and its fills. -/
structure Agrees (r : ExecutionResult) (L : Ledger) : Prop where
  state : L.signalState r.signalId = some r.state
  order : ∀ order ∈ r.order, ∃ row ∈ L.orders, row.Stores order ∧ row.Coherent ∧
    List.Forall₂ FillRow.Stores (L.fills.filter fun f => f.orderId = order.orderId) r.fills
  no_order : r.order = none → r.fills = []

/-- The state of an acknowledgement says how much of the plan is filled. -/
def LiveOrderAcknowledgement.Coherent (acknowledgement : LiveOrderAcknowledgement) (plan : TradePlan) :
    Prop :=
  (acknowledgement.state = .filled ↔ acknowledgement.filledQuantity.toInt = plan.quantity) ∧
    (acknowledgement.state = .partiallyFilled ↔
      0 < acknowledgement.filledQuantity.toInt ∧ acknowledgement.filledQuantity.toInt < plan.quantity)

/-- In live mode, the acknowledgement the controller works with is coherent. -/
def CoherentReply (c : ExecutionController) (w : World) : Call → Prop
  | .submit plan _ => c.policy.mode = .liveAutomatic → ∀ gateway ∈ c.live,
      ∀ acknowledgement ∈ effectiveAcknowledgement gateway w.gatewayCalls plan,
        acknowledgement.Coherent plan
  | _ => True

/-! ### Recording -/

section Recording

variable {plan : TradePlan} {now : Datetime} {order : BrokerOrder} {fills : List BrokerFill} {L L' : Ledger}

theorem storedOrder_stores (h : Ledger.OrderWritable order) : (Ledger.storedOrder order).Stores order := by
  refine ⟨rfl, rfl, rfl, rfl, rfl, rfl, rfl, rfl, Decimal.same_plain h.1, ?_, rfl, rfl⟩
  dsimp only [Ledger.storedOrder]
  cases hprice : order.averageFillPrice with
  | none => exact .none
  | some price => exact .some (Decimal.same_plain (h.2.1 price hprice))

theorem insertFills_stores (h : Ledger.insertFills fills L = .ok L') :
    List.Forall₂ FillRow.Stores (fills.map Ledger.storedFill) fills := by
  induction fills generalizing L with
  | nil => exact .nil
  | cons fill fills ih =>
      obtain ⟨hwritable, _, hrest⟩ := Ledger.insertFills_cons_eq_ok.mp h
      exact .cons ⟨rfl, rfl, rfl, Decimal.same_plain hwritable.1, rfl, rfl⟩ (ih hrest)

/-- A coherent state is the one the ledger derives from the quantities. -/
theorem resultState_eq (hbounds : 0 ≤ order.filledQuantity ∧ order.filledQuantity ≤ order.quantity)
    (h : (Ledger.storedOrder order).Coherent) :
    Ledger.executionState order = resultState order.state := by
  obtain ⟨hfilled, hsome⟩ := h
  dsimp only [Ledger.storedOrder] at hfilled hsome
  unfold Ledger.executionState
  by_cases hall : order.filledQuantity = order.quantity
  · rw [if_pos hall, hfilled.mpr hall]
    rfl
  rw [if_neg hall]
  by_cases hnone : order.filledQuantity ≠ 0
  · rw [if_pos hnone, hsome.mpr ⟨by omega, by omega⟩]
    rfl
  rw [if_neg hnone]
  cases hstate : order.state with
  | filled => exact absurd (hfilled.mp hstate) hall
  | partiallyFilled => exact absurd (hsome.mp hstate).1 (by omega)
  | _ => rfl

/-- A recorded execution is reported as it is stored exactly when its state is coherent. -/
theorem agrees_recorded_iff (hconsistent : L.Consistent) (hsignal : L.HasSignal plan.signalId)
    (hbalanced : Balanced order fills) (horder : order.signalId = plan.signalId)
    (h : Ledger.recordExecution order fills now L = (.ok (), L')) :
    Agrees { signalId := plan.signalId, state := resultState order.state, order := some order,
             fills := fills } L' ↔ (Ledger.storedOrder order).Coherent := by
  obtain ⟨hwritable, hconstraints, L₁, hfills, -⟩ := Ledger.recordExecution_eq_ok.mp h
  obtain ⟨_, _, journal, events, rfl⟩ := Ledger.recordExecution_ok h
  have hmem : Ledger.storedOrder order ∈ (L.withExecution order fills now).orders :=
    List.mem_append_right _ (List.mem_singleton_self _)
  constructor
  · intro hagrees
    obtain ⟨row, hrow, hstores, hcoherent, -⟩ := hagrees.order order rfl
    rcases List.mem_append.mp hrow with hrow | hrow
    · exact absurd hstores.orderId (hconstraints.1 row hrow).1
    · rwa [List.mem_singleton.mp hrow] at hcoherent
  · intro hcoherent
    refine ⟨?_, fun reported hreported => ?_, fun hnone => by cases hnone⟩
    · have hstate := signalState_setSignalState (Ledger.executionState order) now.instant hsignal
      rw [← horder] at hstate ⊢
      rw [← resultState_eq ⟨hconstraints.2.2.2.1, hconstraints.2.2.2.2.1⟩ hcoherent]
      exact hstate
    · obtain rfl : order = reported := Option.some.inj hreported
      refine ⟨_, hmem, storedOrder_stores hwritable, hcoherent, ?_⟩
      have hnew : L.fills.filter (fun f => f.orderId = order.orderId) = [] := by
        simp only [List.filter_eq_nil_iff, decide_eq_true_eq]
        intro f hf heq
        obtain ⟨o, ho, hid⟩ := hconsistent.fill_order f hf
        exact (hconstraints.1 o ho).1 (hid.trans heq)
      have hall : (fills.map Ledger.storedFill).filter (fun f => f.orderId = order.orderId) =
          fills.map Ledger.storedFill := by
        simp only [List.filter_eq_self, List.mem_map, decide_eq_true_eq]
        rintro _ ⟨fill, hfill, rfl⟩
        exact hbalanced.1 fill hfill
      have hstored : (L.withExecution order fills now).fills.filter (fun f => f.orderId = order.orderId) =
          fills.map Ledger.storedFill := by
        rw [Ledger.withExecution, List.filter_append, hnew, hall, List.nil_append]
      rw [hstored]
      exact insertFills_stores hfills

/-- What `record_execution` has recorded is what the call reports. -/
theorem run_recordAndReport_ok {live : Option LiveBrokerGateway} {w w' : World} {r : ExecutionResult}
    (h : run (perform live) (recordAndReport plan order fills now) w = (.ok r, w')) :
    ∃ L', Ledger.recordExecution order fills now w.ledger = (.ok (), L') ∧ w'.ledger = L' ∧
      r = { signalId := plan.signalId, state := resultState order.state, order := some order,
            fills := fills } := by
  unfold recordAndReport at h
  rw [run_bind, run_recordExecution] at h
  rcases hrecord : Ledger.recordExecution order fills now w.ledger with ⟨fault | value, L'⟩
  · rw [hrecord] at h
    cases h
  · rw [hrecord] at h
    cases h
    exact ⟨L', rfl, rfl, rfl⟩

end Recording

/-! ### Calls -/

section Calls

variable {c : ExecutionController} {plan : TradePlan} {now : Datetime} {w w' : World} {r : ExecutionResult}
  {live : Option LiveBrokerGateway}

/-- The paper broker gives every order the state its quantities have. -/
theorem paper_coherent {order : BrokerOrder} {fills : List BrokerFill}
    (h : c.paper.submit plan now = .ok (order, fills)) : (Ledger.storedOrder order).Coherent := by
  unfold PaperBrokerConfig.submit at h
  cases hprice : c.paper.fillPrice plan.side plan.limitPrice with
  | none => simp [hprice] at h
  | some price =>
      simp only [hprice, Except.ok.injEq, Prod.mk.injEq] at h
      obtain ⟨rfl, rfl⟩ := h
      have hle := c.paper.filledQuantity_le plan.quantity
      dsimp only [OrderRow.Coherent, Ledger.storedOrder, PaperBrokerConfig.orderState]
      split
      · simp [*]
      · split
        · simp only [reduceCtorEq, false_iff, true_iff]
          omega
        · simp only [reduceCtorEq, false_iff]
          omega

theorem executePaper_agrees (hconsistent : w.ledger.Consistent)
    (hsignal : w.ledger.HasSignal plan.signalId)
    (h : run (perform live) (c.executePaper plan now) w = (.ok r, w')) : Agrees r w'.ledger := by
  unfold executePaper at h
  rw [run_bind, run_ofExcept] at h
  rcases hpaper : c.paper.submit plan now with fault | ⟨order, fills⟩
  · rw [hpaper] at h
    cases h
  · rw [hpaper] at h
    obtain ⟨L', hrecord, rfl, rfl⟩ := run_recordAndReport_ok h
    obtain ⟨hbalanced, horder⟩ := paper_submit_balanced hpaper
    exact (agrees_recorded_iff hconsistent hsignal hbalanced horder.1 hrecord).mpr (paper_coherent hpaper)

theorem acceptAcknowledgement_agrees_iff {acknowledgement : LiveOrderAcknowledgement}
    (hconsistent : w.ledger.Consistent) (hsignal : w.ledger.HasSignal plan.signalId)
    (h : run (perform live) (acceptAcknowledgement plan acknowledgement now) w = (.ok r, w')) :
    Agrees r w'.ledger ↔ acknowledgement.Coherent plan := by
  unfold acceptAcknowledgement at h
  split at h
  · cases h
  rw [run_bind, run_ofExcept] at h
  rcases hvalid : validateLiveAcknowledgement plan acknowledgement with fault | value
  · rw [hvalid] at h
    cases h
  rw [hvalid] at h
  dsimp only at h
  rw [run_bind, run_ofExcept] at h
  rcases hfills : liveFills plan acknowledgement now with fault | fills
  · rw [hfills] at h
    cases h
  rw [hfills] at h
  obtain ⟨L', hrecord, rfl, rfl⟩ := run_recordAndReport_ok h
  exact agrees_recorded_iff hconsistent hsignal (live_balanced hfills) rfl hrecord

/-- A submission whose order nobody can find raises. -/
theorem run_recordUnknown_raises : (run (perform live) (recordUnknown plan now) w).1 ≠ .ok r := by
  unfold recordUnknown
  rw [run_bind]
  rcases run (perform live) (recordExecution (liveOrder plan (unknownAcknowledgement plan) now) [] now) w
    with ⟨fault | value, w₁⟩
  · simp
  dsimp only
  rw [run_bind]
  rcases run (perform live) (updateSignalState plan.signalId .uncertain now) w₁ with ⟨fault | value, w₂⟩ <;>
    simp

theorem submitLive_agrees_iff {gateway : LiveBrokerGateway} (hconsistent : w.ledger.Consistent)
    (hsignal : w.ledger.HasSignal plan.signalId)
    (h : run (perform (some gateway)) (submitLive plan now) w = (.ok r, w')) :
    Agrees r w'.ledger ↔ ∀ acknowledgement ∈ effectiveAcknowledgement gateway w.gatewayCalls plan,
      acknowledgement.Coherent plan := by
  unfold submitLive at h
  unfold effectiveAcknowledgement
  rw [run_issue_bind] at h
  dsimp only [perform] at h
  rcases hreply : gateway.submitOrder w.gatewayCalls plan plan.correlationId with ack | _ | message
  · rw [hreply] at h
    simpa using acceptAcknowledgement_agrees_iff (by exact hconsistent) (by exact hsignal) h
  · rw [hreply] at h
    dsimp only at h ⊢
    rw [run_issue_bind] at h
    dsimp only [perform] at h
    rcases hlookup : gateway.lookupByCorrelation
      (w.gatewayCalls ++ [.submitOrder plan plan.correlationId]) plan.correlationId with
      (_ | ack) | message
    · rw [hlookup] at h
      exact absurd (congrArg Prod.fst h) run_recordUnknown_raises
    · rw [hlookup] at h
      simpa [hlookup] using acceptAcknowledgement_agrees_iff (by exact hconsistent) (by exact hsignal) h
    · rw [hlookup] at h
      cases h
  · rw [hreply] at h
    cases h

/-- A blocked signal is never reported. -/
theorem run_block_raises {fault : Fault} : (run (perform live) (block plan now fault) w).1 ≠ .ok r := by
  unfold block
  rw [run_bind]
  rcases run (perform live) (updateSignalState plan.signalId .blocked now) w with ⟨fault | value, w₁⟩ <;>
    simp

theorem submit_agrees_iff (hw : Reachable w)
    (h : run (perform c.live) (c.submit plan now) w = (.ok r, w')) :
    Agrees r w'.ledger ↔ CoherentReply c w (.submit plan now) := by
  rcases run_submit_cases c w plan now c.live with ⟨hgates, L, hrecord, hrun⟩ | ⟨_, fault, hfault, _⟩
  swap
  · rw [h] at hfault
    cases hfault
  rw [hrun] at h
  have hvacuous (hmode : c.policy.mode ≠ .liveAutomatic) : CoherentReply c w (.submit plan now) :=
    fun hlive => absurd hlive hmode
  have hconsistent : L.Consistent := by
    have hrecorded := Ledger.recordSignal_ok hrecord
    obtain ⟨hfree, events, rfl⟩ := hrecorded
    exact (hw.consistent.recordSignal hfree ⟨rfl, rfl⟩ rfl).frame _ _ _
  obtain ⟨hready, _, _, _, rfl⟩ := ready_of_recordSignal hw.consistent hgates.valid.unopened hrecord
  have hsignal := hready.signal
  unfold dispatch at h
  cases hmode : c.policy.mode with
  | off =>
      rw [hmode] at h
      exact absurd (congrArg Prod.fst h) run_block_raises
  | dataOnly =>
      rw [hmode] at h
      exact absurd (congrArg Prod.fst h) run_block_raises
  | manualApproval =>
      rw [hmode] at h
      dsimp only at h
      rw [run_bind, run_updateSignalState] at h
      obtain ⟨L', hupdate⟩ := Ledger.updateSignalState_succeeds .awaitingApproval hsignal hgates.hasUtc
      rw [hupdate] at h
      obtain ⟨events, rfl⟩ := Ledger.updateSignalState_ok hupdate
      cases h
      refine iff_of_true ⟨?_, (fun _ h => nomatch h), fun _ => rfl⟩ (hvacuous (by simp [hmode]))
      exact signalState_setSignalState .awaitingApproval now.instant hsignal
  | paperTrading =>
      rw [hmode] at h
      exact iff_of_true (executePaper_agrees hconsistent hsignal h) (hvacuous (by simp [hmode]))
  | liveAutomatic =>
      rw [hmode] at h
      dsimp only [executeLive] at h
      split at h
      · exact absurd (congrArg Prod.fst h) run_block_raises
      split at h
      · exact absurd (congrArg Prod.fst h) run_block_raises
      rename_i hlive
      obtain ⟨gateway, hgateway⟩ := Option.isSome_iff_exists.mp (by simpa [Option.isSome_iff_ne_none] using hlive)
      rw [hgateway] at h
      rw [submitLive_agrees_iff hconsistent hsignal h]
      simp [CoherentReply, hmode, hgateway]

/-- The plan an approval is about is the one the ledger has stored. -/
theorem run_awaitingPlan_ok {signalId : String} {approvalTime : Datetime}
    (h : run (perform live) (awaitingPlan signalId approvalTime) w = (.ok plan, w')) :
    w' = w ∧ w.ledger.plan signalId = some plan := by
  have hsame := run_awaitingPlan live w signalId approvalTime
  rw [h] at hsame
  refine ⟨hsame, ?_⟩
  unfold awaitingPlan at h
  rw [run_issue_bind] at h
  dsimp only [perform] at h
  rcases hplan : w.ledger.plan signalId with _ | stored
  · rw [hplan] at h
    cases h
  rw [hplan] at h
  dsimp only at h
  split at h
  · cases h
  rw [run_issue_bind] at h
  split at h
  · cases h
  · cases h
    rfl

/-- A stored plan has a signal of its own id. -/
theorem hasSignal_of_plan {L : Ledger} (hL : L.Consistent) {signalId : String}
    (h : L.plan signalId = some plan) : L.HasSignal plan.signalId := by
  obtain ⟨s, hfind, rfl⟩ := Option.map_eq_some_iff.mp h
  have hs := List.mem_of_find?_eq_some hfind
  exact ⟨s, hs, (hL.signal_plan s hs).1⟩

theorem approve_agrees {signalId actor reason : String} {approvedAt : Option Datetime} (hw : Reachable w)
    (h : run (perform c.live) (c.approve signalId actor reason approvedAt now) w = (.ok r, w')) :
    Agrees r w'.ledger := by
  unfold approve at h
  dsimp only at h
  rw [run_bind, run_ofExcept] at h
  rcases hchecks : c.approvalChecks actor reason (approvedAt.getD now) now with fault | value
  · rw [hchecks] at h
    cases h
  rw [hchecks] at h
  dsimp only at h
  rw [run_bind] at h
  rcases hplan : run (perform c.live) (awaitingPlan signalId (approvedAt.getD now)) w with
    ⟨fault | plan, w₁⟩
  · rw [hplan] at h
    cases h
  obtain ⟨rfl, hstored⟩ := run_awaitingPlan_ok hplan
  rw [hplan] at h
  dsimp only at h
  rcases run_checkKillLimits_cases c w₁ now c.live with ⟨_, hkill⟩ | ⟨_, fault, hkill, _⟩
  swap
  · rw [run_bind] at h
    generalize run (perform c.live) (c.checkKillLimits now) w₁ = outcome at h hkill
    obtain ⟨result, w₂⟩ := outcome
    subst hkill
    cases h
  rw [run_bind_ok _ hkill] at h
  rcases run_validatePlan_cases c w₁ plan now false c.live with ⟨_, hvalid⟩ | ⟨_, fault, hvalid⟩
  swap
  · rw [run_bind_error _ hvalid] at h
    cases h
  rw [run_bind_ok _ hvalid, run_bind, run_recordApproval] at h
  rcases hrecord : Ledger.recordApproval ⟨signalId, PyText.strip actor, PyText.strip reason,
    approvedAt.getD now⟩ w₁.ledger with ⟨fault | value, L⟩
  · rw [hrecord] at h
    cases h
  rw [hrecord] at h
  obtain ⟨row, events, _, hfree, rfl⟩ := Ledger.recordApproval_ok hrecord
  have hsignal := hasSignal_of_plan hw.consistent hstored
  exact executePaper_agrees ((hw.consistent.recordApproval hfree).frame _ _ _) (by exact hsignal) h

end Calls

/-- Whenever a call returns a result, the result agrees with the ledger exactly when the acknowledgement
it worked with, if any, has the state its quantity says. -/
theorem returns_agrees_iff {w w' : World} (hw : Reachable w) (c : ExecutionController) (call : Call)
    {r : ExecutionResult} (h : run (perform c.live) (c.program call) w = (.ok (some r), w')) :
    Agrees r w'.ledger ↔ CoherentReply c w call := by
  have hreturned {p : Action ExecutionResult}
      (h : run (perform c.live) (p >>= fun result => pure (some result)) w = (.ok (some r), w')) :
      run (perform c.live) p w = (.ok r, w') := by
    rw [run_bind] at h
    rcases hrun : run (perform c.live) p w with ⟨fault | value, w₁⟩
    · rw [hrun] at h
      cases h
    · rw [hrun] at h
      cases h
      rfl
  cases call with
  | submit plan now => exact submit_agrees_iff hw (hreturned h)
  | approve signalId actor reason approvedAt now =>
      exact iff_of_true (approve_agrees hw (hreturned h)) trivial
  | setKillSwitch active actor reason changedAt =>
      unfold program at h
      rw [run_bind] at h
      generalize run (perform c.live) (ExecutionController.setKillSwitch active actor reason changedAt) w =
        outcome at h
      obtain ⟨fault | value, w₁⟩ := outcome <;> cases h
  | closePosition positionId exitPrice closedAt =>
      unfold program at h
      cases h

/-- The result of a call that returns one. -/
theorem exists_result (outcome : Except Fault (Option ExecutionResult) × World)
    (h : (outcome.1.toOption.join).isSome = true) : ∃ r, outcome = (.ok (some r), outcome.2) := by
  obtain ⟨fault | (_ | r), w⟩ := outcome
  · cases h
  · cases h
  · exact ⟨r, rfl⟩

/-- The result of a filled live submission agrees with the ledger. -/
theorem returns_agrees_filled :
    let c := liveController (fillingGateway id id)
    let outcome := run (perform c.live) (c.program (.submit (.sample "s1" "c1" "101") (.utc 0))) (.fresh 0)
    ∃ r, outcome.1 = .ok (some r) ∧ Agrees r outcome.2.ledger := by
  obtain ⟨r, h⟩ := exists_result (run (perform (liveController (fillingGateway id id)).live)
    ((liveController (fillingGateway id id)).program (.submit (.sample "s1" "c1" "101") (.utc 0)))
    (.fresh 0)) (by decide +kernel)
  refine ⟨r, congrArg Prod.fst h, (returns_agrees_iff ⟨0, [], rfl⟩ _ _ h).mpr ?_⟩
  intro _ gateway hgateway acknowledgement hacknowledgement
  cases hgateway
  cases hacknowledgement
  exact ⟨by decide, by decide⟩

/-- A gateway that calls an order filled although it reports no filled quantity. -/
def contradictoryGateway : LiveBrokerGateway where
  submitOrder _ _ requested := .acknowledged {
    brokerOrderId := requested
    correlationId := requested
    state := .filled }
  lookupByCorrelation _ _ := .found none

/-- A filled order without a filled quantity is reported as filled, and stored as a submitted signal. -/
theorem returns_contradiction :
    let c := liveController contradictoryGateway
    let outcome := run (perform c.live) (c.program (.submit (.sample "s1" "c1" "101") (.utc 0))) (.fresh 0)
    ∃ r, outcome.1 = .ok (some r) ∧ r.signalId = "s1" ∧ r.state = .filled ∧
      outcome.2.ledger.signalState "s1" = some .submitted ∧
      outcome.2.ledger.orders.map (fun o => (o.state, o.filledQuantity, o.quantity)) = [(.filled, 0, 10)] ∧
      ¬Agrees r outcome.2.ledger := by
  let order : BrokerOrder := liveOrder (.sample "s1" "c1" "101") ⟨"c1", "c1", .filled, .int 0, none⟩ (.utc 0)
  have hstate : (run (perform (liveController contradictoryGateway).live)
      ((liveController contradictoryGateway).program (.submit (.sample "s1" "c1" "101") (.utc 0)))
      (.fresh 0)).2.ledger.signalState "s1" = some .submitted := by decide +kernel
  refine ⟨⟨"s1", .filled, some order, [], none⟩, by decide +kernel, rfl, rfl, hstate, by decide +kernel, ?_⟩
  intro h
  have hfilled := h.state
  rw [hstate] at hfilled
  cases hfilled

end TecoQuant.Execution
