import TecoQuant.ExecutionKillSwitch

/-! Orders whose outcome is open. A submission looks for an open position of its security, and an order
opens a position only with its first fill. An order that the broker has acknowledged without a fill, or
that nobody could find, therefore does not hold off the next signal. The gateway is never invoked over an
outstanding order exactly in the runs that submit nothing over an unfilled one. -/

namespace TecoQuant.Execution

open Atomic ExecutionController

/-- The outcome of the order is not settled at the broker. -/
def OrderRow.OpenOutcome (o : OrderRow) : Prop :=
  o.state = .pending ∨ o.state = .acknowledged ∨ o.state = .unknown ∨
    o.state = .partiallyFilled ∧ o.filledQuantity < o.quantity

instance (o : OrderRow) : Decidable o.OpenOutcome := inferInstanceAs (Decidable (_ ∨ _))

/-- The order's outcome is open, and no closed position has followed it. -/
def Ledger.Outstanding (L : Ledger) (o : OrderRow) : Prop :=
  o.OpenOutcome ∧ ∀ p ∈ L.positions, p.signalId = o.signalId → p.state ≠ .closed

/-- Everything that has to hold of a plan, a ledger and a policy for the live gateway to be invoked. -/
structure ExecutionController.Admits (c : ExecutionController) (L : Ledger) (plan : TradePlan)
    (now : Datetime) : Prop where
  gates : c.Gates L plan now
  mode : c.policy.mode = .liveAutomatic
  enabled : c.policy.liveEnabled = true
  live : c.live.isSome = true

/-- The command is a request to the live gateway. -/
def Command.ReachesGateway : Command → Prop
  | .submitOrder .. | .lookupByCorrelation _ => True
  | _ => False

/-- The call is a submission that invokes the live gateway. -/
def ExecutionController.Invokes (c : ExecutionController) (w : World) (call : Call) : Prop :=
  (c.after w call).gatewayCalls ≠ w.gatewayCalls

/-- The gateway is not invoked over an outstanding order of the security. -/
def NotDoubled (w : World) (c : ExecutionController) : Call → Prop
  | .submit plan now => c.Invokes w (.submit plan now) →
      ∀ o ∈ w.ledger.orders, o.securityId = plan.securityId → ¬w.ledger.Outstanding o
  | _ => True

/-- No order of the security with an open outcome is still without a fill, unless a gate refuses the
plan. -/
def Unobstructed (w : World) (c : ExecutionController) : Call → Prop
  | .submit plan now => c.Admits w.ledger plan now →
      ∀ o ∈ w.ledger.orders, o.securityId = plan.securityId → o.OpenOutcome → 0 < o.filledQuantity
  | _ => True

/-- A property of every call of a run, with the world before it. -/
def World.EveryCall (P : World → ExecutionController → Call → Prop) :
    World → List (ExecutionController × Call) → Prop
  | _, [] => True
  | w, call :: calls => P w call.1 call.2 ∧ EveryCall P (call.1.after w call.2) calls

/-- Properties that agree in every reachable world agree on every run. -/
theorem World.everyCall_congr {P Q : World → ExecutionController → Call → Prop}
    (h : ∀ w, Reachable w → ∀ c call, P w c call ↔ Q w c call) (calls : List (ExecutionController × Call))
    {w : World} (hw : Reachable w) : w.EveryCall P calls ↔ w.EveryCall Q calls := by
  induction calls generalizing w with
  | nil => exact Iff.rfl
  | cons call calls ih =>
      have hnext : Reachable (call.1.after w call.2) := by
        obtain ⟨createdAt, before, rfl⟩ := hw
        exact ⟨createdAt, before ++ [call], by simp [World.runCalls]⟩
      exact and_congr (h w hw call.1 call.2) (ih hnext)

/-! ### When the gateway is invoked -/

section Invoked

variable {c : ExecutionController} {plan : TradePlan} {now : Datetime} {w : World}

/-- A submission to the live gateway adds a request to those the gateway has received. -/
theorem run_submitLive_invokes {live : Option LiveBrokerGateway} :
    (run (perform live) (submitLive plan now) w).2.gatewayCalls ≠ w.gatewayCalls := by
  -- Requests are only ever added, and the first command adds one.
  have hgrows (calls : List GatewayCall) (cmd : Command) (w : World)
      (h : calls <+: w.gatewayCalls) : calls <+: (perform live cmd w).2.gatewayCalls := by
    cases cmd with
    | submitOrder => exact h.trans (List.prefix_append _ _)
    | lookupByCorrelation => exact h.trans (List.prefix_append _ _)
    | _ => simpa [perform] using h
  intro heq
  have hearlier : w.gatewayCalls ++ [.submitOrder plan plan.correlationId] <+:
      (run (perform live) (submitLive plan now) w).2.gatewayCalls := by
    unfold submitLive
    rw [run_issue_bind]
    exact run_invariant (perform live) (hgrows _) _ (by exact List.prefix_rfl)
  have hlength := hearlier.length_le
  rw [heq] at hlength
  simp at hlength

/-- Outside the live mode, without the permission or without a gateway nothing is submitted. -/
theorem run_dispatch_offline {live : Option LiveBrokerGateway}
    (h : ¬(c.policy.mode = .liveAutomatic ∧ c.policy.liveEnabled = true ∧ c.live.isSome = true)) :
    (run (perform live) (c.dispatch plan now) w).2.gatewayCalls = w.gatewayCalls := by
  have hstep (calls : List GatewayCall) (cmd : Command) (w : World) (hcmd : ¬cmd.ReachesGateway)
      (hw : w.gatewayCalls = calls) : (perform live cmd w).2.gatewayCalls = calls := by
    cases cmd with
    | submitOrder => exact absurd trivial hcmd
    | lookupByCorrelation => exact absurd trivial hcmd
    | _ => simpa [perform] using hw
  have hpassive {p : Action ExecutionResult} (hp : p.Only Command.Passive) :
      (run (perform live) p w).2.gatewayCalls = w.gatewayCalls := by
    refine run_only (hstep w.gatewayCalls) (hp.mono fun cmd hcmd hreaches => hcmd.1 ?_) rfl
    cases cmd with
    | submitOrder => trivial
    | lookupByCorrelation => trivial
    | _ => exact hreaches.elim
  unfold dispatch
  cases hmode : c.policy.mode with
  | off => exact hpassive (block_passive _)
  | dataOnly => exact hpassive (block_passive _)
  | manualApproval =>
      refine hpassive (Program.only_bind (updateSignalState_passive _ _) fun _ => ?_)
      trivial
  | paperTrading =>
      refine run_only (hstep w.gatewayCalls) (Program.only_bind (Program.only_ofExcept _) fun result => ?_) rfl
      refine Program.only_bind (Program.only_bind ⟨not_false, fun _ => trivial⟩ fun _ => ?_) fun _ => trivial
      exact Program.only_ofExcept _
  | liveAutomatic =>
      dsimp only [executeLive]
      by_cases henabled : c.policy.liveEnabled = false
      · rw [if_pos henabled]
        exact hpassive (block_passive _)
      rw [if_neg henabled]
      by_cases hlive : c.live.isNone = true
      · rw [if_pos hlive]
        exact hpassive (block_passive _)
      · exact absurd ⟨hmode, by simpa using henabled, Option.isSome_iff_ne_none.mpr (by simpa using hlive)⟩ h

/-- The live gateway is invoked exactly by the submissions that every gate admits. -/
theorem invokes_submit_iff : c.Invokes w (.submit plan now) ↔ c.Admits w.ledger plan now := by
  unfold Invokes
  dsimp only [after]
  rcases run_submit_cases c w plan now c.live with ⟨hgates, L, _, hrun⟩ | ⟨hgates, _, _, hcalls⟩
  swap
  · exact iff_of_false (fun h => h hcalls) fun h => hgates h.gates
  rw [hrun]
  by_cases hlive : c.policy.mode = .liveAutomatic ∧ c.policy.liveEnabled = true ∧ c.live.isSome = true
  · have hdispatch : c.dispatch plan now = submitLive plan now := by
      simp [dispatch, hlive.1, executeLive, hlive.2.1, Option.isSome_iff_ne_none.mp hlive.2.2]
    rw [hdispatch]
    exact iff_of_true run_submitLive_invokes ⟨hgates, hlive.1, hlive.2.1, hlive.2.2⟩
  · exact iff_of_false (fun h => h (run_dispatch_offline hlive)) fun h => hlive ⟨h.mode, h.enabled, h.live⟩

end Invoked

/-! ### Outstanding orders -/

/-- Where no position of a security is open, its outstanding orders are those without a fill. -/
theorem Ledger.Consistent.outstanding_iff {L : Ledger} (h : L.Consistent) {securityId : String}
    (hopen : L.openPositionForSecurity securityId = none) {o : OrderRow} (ho : o ∈ L.orders)
    (hsecurity : o.securityId = securityId) :
    L.Outstanding o ↔ o.OpenOutcome ∧ ¬0 < o.filledQuantity := by
  refine and_congr_right fun _ => ⟨fun houtstanding hpos => ?_, fun hunfilled p hp hid => ?_⟩
  · obtain ⟨p, hp, hopens⟩ := h.order_position o ho hpos
    have hnot := List.find?_eq_none.mp hopen p hp
    cases hstate : p.state with
    | opened => simp [hstate, hopens.2.1.trans hsecurity] at hnot
    | closed => exact houtstanding p hp hopens.1 hstate
  · exact absurd (h.opens_of_signal ho hp hid).2.2.1 hunfilled

/-- One call invokes the gateway over no outstanding order exactly when it meets the condition. -/
theorem notDoubled_iff {w : World} (hw : Reachable w) (c : ExecutionController) (call : Call) :
    NotDoubled w c call ↔ Unobstructed w c call := by
  cases call with
  | submit plan now =>
      refine imp_congr_ctx invokes_submit_iff fun hadmits => ?_
      refine forall₃_congr fun o ho hsecurity => ?_
      rw [hw.consistent.outstanding_iff hadmits.gates.valid.unopened ho hsecurity]
      exact ⟨fun h hopen => not_not.mp fun hunfilled => h ⟨hopen, hunfilled⟩,
        fun h hout => hout.2 (h hout.1)⟩
  | _ => exact Iff.rfl

/-- In a run of calls the gateway is never invoked over an outstanding order exactly when no submission
that the gates admit is for a security with an unsettled order that has no fill. -/
theorem runCalls_notDoubled_iff (createdAt : Int) (calls : List (ExecutionController × Call)) :
    (World.fresh createdAt).EveryCall NotDoubled calls ↔
      (World.fresh createdAt).EveryCall Unobstructed calls :=
  World.everyCall_congr (fun _ hw c call => notDoubled_iff hw c call) calls ⟨createdAt, [], rfl⟩

/-- A gateway whose requests all time out, and that finds no order afterwards. -/
def silentGateway : LiveBrokerGateway where
  submitOrder _ _ _ := .timedOut
  lookupByCorrelation _ _ := .found none

/-- A timed-out order of unknown outcome does not hold off the next signal for its security. -/
theorem runCalls_doubles_unknown :
    let c := liveController silentGateway
    let first := c.after (.fresh 0) (.submit (.sample "s1" "c1" "101") (.utc 0))
    let second := c.after first (.submit (.sample "s2" "c2" "101") (.utc 0))
    first.ledger.orders.map (fun o => (o.securityId, o.state, o.filledQuantity)) = [("101", .unknown, 0)] ∧
      second.gatewayCalls = [.submitOrder (.sample "s1" "c1" "101") "c1", .lookupByCorrelation "c1",
        .submitOrder (.sample "s2" "c2" "101") "c2", .lookupByCorrelation "c2"] ∧
      ¬(World.fresh 0).EveryCall NotDoubled
        [(c, .submit (.sample "s1" "c1" "101") (.utc 0)), (c, .submit (.sample "s2" "c2" "101") (.utc 0))] := by
  refine ⟨by decide +kernel, by decide +kernel, fun h => ?_⟩
  obtain ⟨-, hsecond, -⟩ := h
  have hinvokes : (liveController silentGateway).Invokes
      ((liveController silentGateway).after (.fresh 0) (.submit (.sample "s1" "c1" "101") (.utc 0)))
      (.submit (.sample "s2" "c2" "101") (.utc 0)) := by
    unfold Invokes
    decide +kernel
  have hnone := hsecond hinvokes
  revert hnone
  unfold Ledger.Outstanding
  decide +kernel

end TecoQuant.Execution
