import TecoQuant.ExecutionApproval
import TecoQuant.ExecutionPlanText

/-! What is executed is what was submitted. A recorded plan is read back from its column as it was, whatever calls
follow, and the orders of its signal carry its values. -/

namespace TecoQuant.Execution

open Atomic ExecutionController

/-- The order is one for the plan. -/
structure OrderRow.Carries (row : OrderRow) (plan : TradePlan) : Prop where
  signalId : row.signalId = plan.signalId
  correlationId : row.correlationId = plan.correlationId
  symbol : row.symbol = plan.symbol
  securityId : row.securityId = plan.securityId
  side : row.side = plan.side
  quantity : row.quantity = plan.quantity
  limitPrice : row.limitPrice = plan.limitPrice.plain

/-- Every order is one for the plan of a signal. -/
def Ledger.Faithful (L : Ledger) : Prop := ∀ o ∈ L.orders, ∃ s ∈ L.signals, o.Carries s.plan

/-- The text in the `plan_json` column of a signal. -/
def Ledger.planText (L : Ledger) (signalId : String) : Option String :=
  (L.signals.find? fun s => s.signalId = signalId).map fun s => planJson s.plan

/-- `plan`, as it reads the column. -/
def Ledger.readPlan (L : Ledger) (signalId : String) : Option TradePlan := L.planText signalId >>= Execution.readPlan

/-- Reading the column of a plan whose times are datetimes of the calendar gives the plan. -/
theorem Ledger.readPlan_eq {L : Ledger} {signalId : String} {plan : TradePlan} (h : L.plan signalId = some plan)
    (hplan : plan.IsRepresentable) : L.readPlan signalId = some plan := by
  obtain ⟨s, hfind, rfl⟩ := Option.map_eq_some_iff.mp h
  simp only [readPlan, planText, hfind, Option.map_some, Option.bind_eq_bind, Option.bind_some,
    readPlan_planJson hplan]

/-! ### Orders -/

section Orders

variable {c : ExecutionController} {plan : TradePlan} {now : Datetime} {order : BrokerOrder} {fills : List BrokerFill}
  {log : Log} {L : Ledger} {cmd : Command}

theorem paper_carries (h : c.paper.submit plan now = .ok (order, fills)) : (Ledger.storedOrder order).Carries plan := by
  cases hprice : c.paper.fillPrice plan.side plan.limitPrice with
  | none =>
      obtain ⟨fault, hnone⟩ := submit_of_none now hprice
      rw [hnone] at h
      cases h
  | some price =>
      rw [submit_of_fillPrice hprice] at h
      cases h
      exact ⟨rfl, rfl, rfl, rfl, rfl, rfl, rfl⟩

theorem Reported.carries (h : Reported c plan log order fills now) : (Ledger.storedOrder order).Carries plan := by
  cases h with
  | paper hmode h => exact paper_carries h
  | live => exact ⟨rfl, rfl, rfl, rfl, rfl, rfl, rfl⟩
  | unknown => exact ⟨rfl, rfl, rfl, rfl, rfl, rfl, rfl⟩

/-- The condition under which a command keeps the orders faithful. -/
def Carrying (L : Ledger) : Command → Prop
  | .recordExecution order _ _ => ∃ s ∈ L.signals, (Ledger.storedOrder order).Carries s.plan
  | _ => True

theorem Effect.faithful {reply : cmd.Reply} {L' : Ledger} (h : Effect cmd reply L L') (hL : L.Faithful)
    (hcarrying : Carrying L cmd) : L'.Faithful := by
  intro o ho
  have hkept : ∀ {row : OrderRow}, (∃ s ∈ L.signals, row.Carries s.plan) → ∃ s ∈ L'.signals, row.Carries s.plan := by
    rintro row ⟨s, hs, hcarries⟩
    obtain ⟨t, ht, hplan⟩ := h.signals hs
    exact ⟨t, ht, hplan ▸ hcarries⟩
  rcases h.orders ho with ho | ⟨order, fills, now, heq, rfl⟩
  · exact hkept (hL o ho)
  · obtain rfl : cmd = .recordExecution order fills now := congrArg Sigma.fst heq
    exact hkept hcarrying

theorem carrying_of_submitAllowed (hcmd : SubmitAllowed c plan log cmd) (h : Tracks log L) : Carrying L cmd := by
  cases cmd with
  | recordExecution order fills now =>
      obtain ⟨-, -, hrecorded, -, hreported⟩ := hcmd
      obtain ⟨s, hs, rfl⟩ := h.known plan (.inl hrecorded)
      exact ⟨s, hs, hreported.carries⟩
  | _ => trivial

theorem carrying_of_approveAllowed (hcmd : ApproveAllowed c log cmd) (h : Tracks log L) : Carrying L cmd := by
  cases cmd with
  | recordExecution order fills now =>
      obtain ⟨plan, hread, hpaper⟩ := hcmd
      obtain ⟨s, hs, rfl⟩ := h.known plan (.inr hread)
      exact ⟨s, hs, paper_carries hpaper⟩
  | _ => trivial

/-- A program that issues such commands only leaves faithful orders. -/
theorem run_faithful {α : Type} {p : Action α} {allowed : Log → Command → Prop} {post : Log → Except Fault α → Prop}
    (hp : p.Guarantees allowed post [])
    (hallowed : ∀ log cmd L, allowed log cmd → Tracks log L → L.Consistent → Sound L cmd ∧ Carrying L cmd)
    (live : Option LiveBrokerGateway) {w : World} (hw : w.ledger.Consistent) (hfaithful : w.ledger.Faithful) :
    (run (perform live) p w).2.ledger.Faithful := by
  have hstep (log : Log) (cmd : Command) (w : World) (hcmd : allowed log cmd)
      (hinv : w.ledger.Consistent ∧ w.ledger.Faithful ∧ Tracks log w.ledger) :
      (perform live cmd w).2.ledger.Consistent ∧ (perform live cmd w).2.ledger.Faithful ∧
        Tracks (log ++ [⟨cmd, (perform live cmd w).1⟩]) (perform live cmd w).2.ledger := by
    obtain ⟨hconsistent, hfaithful, htracks⟩ := hinv
    obtain ⟨hsound, hcarrying⟩ := hallowed _ _ _ hcmd htracks hconsistent
    have heffect := perform_effect live cmd w
    exact ⟨heffect.consistent hconsistent hsound, heffect.faithful hfaithful hcarrying, htracks.step hconsistent⟩
  obtain ⟨_, ⟨-, hafter, -⟩, _⟩ :=
    run_guarantees hstep hp ⟨hw, hfaithful, by simp [Recorded, ReadPlan], by simp [Recorded]⟩
  exact hafter

theorem after_faithful (c : ExecutionController) (call : Call) (w : World)
    (hw : w.ledger.Consistent ∧ w.ledger.Faithful) :
    (c.after w call).ledger.Consistent ∧ (c.after w call).ledger.Faithful := by
  refine ⟨after_consistent c call w hw.1, ?_⟩
  cases call with
  | submit plan now =>
      exact run_faithful submit_guarantees (fun _ _ _ hcmd htracks hL =>
        ⟨sound_of_submitAllowed hcmd htracks hL, carrying_of_submitAllowed hcmd htracks⟩) c.live hw.1 hw.2
  | approve signalId actor reason approvedAt now =>
      exact run_faithful approve_guarantees (fun _ _ _ hcmd htracks hL =>
        ⟨sound_of_approveAllowed hcmd htracks hL, carrying_of_approveAllowed hcmd htracks⟩) c.live hw.1 hw.2
  | setKillSwitch active actor reason changedAt =>
      rw [after_setKillSwitch]
      exact (perform_effect c.live (.setKillSwitch active reason actor changedAt) w).faithful hw.2 trivial
  | closePosition positionId exitPrice closedAt =>
      exact (perform_effect c.live (.closePosition positionId exitPrice closedAt) w).faithful hw.2 trivial

theorem Reachable.faithful {w : World} (h : Reachable w) : w.ledger.Faithful := by
  obtain ⟨createdAt, calls, rfl⟩ := h
  exact (World.runCalls_invariant after_faithful
    ⟨Ledger.Consistent.fresh createdAt, fun o ho => absurd ho List.not_mem_nil⟩ calls).2

end Orders

/-! ### Signals -/

section Signals

variable {plan : TradePlan} {w : World}

/-- A plan that is recorded. -/
def Ledger.Holds (L : Ledger) (plan : TradePlan) : Prop := ∃ s ∈ L.signals, s.plan = plan

theorem perform_holds (live : Option LiveBrokerGateway) (cmd : Command) (h : w.ledger.Holds plan) :
    (perform live cmd w).2.ledger.Holds plan := by
  obtain ⟨s, hs, rfl⟩ := h
  exact (perform_effect live cmd w).signals hs

theorem run_holds {α : Type} (live : Option LiveBrokerGateway) (p : Action α) (h : w.ledger.Holds plan) :
    (run (perform live) p w).2.ledger.Holds plan := by
  have hstep : ∀ (cmd : Command) (w : World), w.ledger.Holds plan → (perform live cmd w).2.ledger.Holds plan :=
    fun cmd w => perform_holds live cmd
  exact run_invariant (perform live) hstep p h

theorem after_holds (c : ExecutionController) (call : Call) (w : World) (h : w.ledger.Holds plan) :
    (c.after w call).ledger.Holds plan := by
  cases call with
  | submit plan now => exact run_holds c.live _ h
  | approve signalId actor reason approvedAt now => exact run_holds c.live _ h
  | setKillSwitch active actor reason changedAt =>
      rw [after_setKillSwitch]
      exact perform_holds c.live (.setKillSwitch active reason actor changedAt) h
  | closePosition positionId exitPrice closedAt =>
      exact perform_holds c.live (.closePosition positionId exitPrice closedAt) h

/-- The plan of a signal is the one that is held under its id. -/
theorem Ledger.Holds.plan_eq {L : Ledger} (hL : L.Consistent) (h : L.Holds plan) :
    L.plan plan.signalId = some plan := by
  obtain ⟨s, hs, rfl⟩ := h
  have hid := (hL.signal_plan s hs).1
  rcases hfind : L.signals.find? (fun t => t.signalId = s.plan.signalId) with _ | t
  · have hnone := List.find?_eq_none.mp hfind s hs
    simp [hid] at hnone
  · have ht : t.signalId = s.plan.signalId := by simpa using List.find?_some hfind
    have hnodup : (L.signals.map (·.signalId)).Nodup :=
      List.pairwise_map.mpr (hL.signals_unique.imp fun hst => hst.1)
    obtain rfl := List.inj_on_of_nodup_map hnodup (List.mem_of_find?_eq_some hfind) hs (ht.trans hid.symm)
    rw [Ledger.plan, hfind]
    rfl

/-- A submission that returns has passed its gates. -/
theorem gates_of_returns {c : ExecutionController} {now : Datetime} (h : ¬c.Raises w (.submit plan now)) :
    c.Gates w.ledger plan now := by
  rcases run_submit_cases c w plan now c.live with ⟨hgates, -⟩ | ⟨-, fault, hfault, -⟩
  · exact hgates
  · refine absurd ?_ h
    rw [Raises, hfault]
    rfl

/-- A submission that has passed its gates has recorded its plan. -/
theorem holds_of_gates {c : ExecutionController} {now : Datetime} (h : c.Gates w.ledger plan now) :
    (c.after w (.submit plan now)).ledger.Holds plan := by
  rcases run_submit_cases c w plan now c.live with ⟨-, L, hrecord, hrun⟩ | ⟨hnot, -⟩
  swap
  · exact absurd h hnot
  obtain ⟨-, events, rfl⟩ := Ledger.recordSignal_ok hrecord
  rw [after, hrun]
  exact run_holds c.live _ ⟨_, List.mem_append_right _ (List.mem_singleton_self _), rfl⟩

end Signals

/-- What is executed is what was submitted: in every run, a plan that a submission has accepted is read from the
ledger as it was, and every order of its signal carries its values. -/
theorem runCalls_carries (createdAt : Int) (earlier later : List (ExecutionController × Call)) (c : ExecutionController)
    (plan : TradePlan) (now : Datetime) (hplan : plan.IsRepresentable)
    (haccepted : ¬c.Raises ((World.fresh createdAt).runCalls earlier) (.submit plan now) ∨
      c.Gates ((World.fresh createdAt).runCalls earlier).ledger plan now) :
    let L := ((World.fresh createdAt).runCalls (earlier ++ (c, .submit plan now) :: later)).ledger
    L.readPlan plan.signalId = some plan ∧ L.plan plan.signalId = some plan ∧
      ∀ o ∈ L.orders, o.signalId = plan.signalId → o.Carries plan ∧ Decimal.Same o.limitPrice plan.limitPrice := by
  intro L
  have hgates := haccepted.elim gates_of_returns id
  have hreachable : Reachable ((World.fresh createdAt).runCalls (earlier ++ (c, .submit plan now) :: later)) :=
    ⟨createdAt, _, rfl⟩
  have hholds : L.Holds plan := by
    show (World.runCalls _ _).ledger.Holds plan
    rw [World.runCalls, List.foldl_append, List.foldl_cons]
    exact World.runCalls_invariant (fun c call w => after_holds c call w) (holds_of_gates hgates) later
  have hL := hreachable.consistent
  have hstored := hholds.plan_eq hL
  refine ⟨Ledger.readPlan_eq hstored hplan, hstored, fun o ho hid => ?_⟩
  obtain ⟨s, hs, hcarries⟩ := hreachable.faithful o ho
  -- the signal of the order is that of the plan
  have hsame : s.plan = plan := by
    have hplanned : L.plan s.plan.signalId = some s.plan := Ledger.Holds.plan_eq hL ⟨s, hs, rfl⟩
    rw [← hcarries.signalId, hid, hstored] at hplanned
    exact (Option.some.inj hplanned).symm
  rw [hsame] at hcarries
  refine ⟨hcarries, ?_⟩
  rw [hcarries.limitPrice]
  exact Decimal.same_plain (planChecks_ok hgates.valid.checks).2.1

/-- A plan that was submitted for approval is kept by the calls that follow. -/
theorem runCalls_carries_sample :
    let L := ((World.fresh 0).runCalls ([] ++
      (sampleController .manualApproval, .submit (.sample "s1" "c1" "101") (.utc 0)) ::
      [(sampleController .manualApproval, .approve "s1" "desk" "checked" none (.utc 0))])).ledger
    L.readPlan "s1" = some (.sample "s1" "c1" "101") := by
  refine (runCalls_carries 0 [] [(sampleController .manualApproval, .approve "s1" "desk" "checked" none (.utc 0))]
    (sampleController .manualApproval) (.sample "s1" "c1" "101") (.utc 0) ⟨?_, ?_, ?_, ?_⟩ (.inl ?_)).1
  · decide +kernel
  · decide +kernel
  · decide +kernel
  · decide +kernel
  · simp only [Raises]
    decide +kernel

end TecoQuant.Execution
