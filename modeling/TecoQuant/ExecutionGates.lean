import TecoQuant.ExecutionHalt

/-! The gates of a call. Each of them reads the ledger and either lets the call pass, with the world as it
was, or raises before the call has reached the gateway. -/

namespace TecoQuant.Execution

open Atomic ExecutionController

/-- The kill-limit check lets a call pass. -/
def ExecutionController.WithinLimits (c : ExecutionController) (L : Ledger) (now : Datetime) : Prop :=
  L.killSwitch.active = false ∧ now.toUtc.InCalendar ∧
    ¬L.dailyRealizedPnl now.utcDay ≤ Decimal.neg .default c.policy.maxDailyLoss ∧
    ¬c.policy.maxConsecutiveLosses ≤ L.consecutiveLosses

/-- The checks of a plan let a call pass. -/
structure ExecutionController.Validates (c : ExecutionController) (L : Ledger) (plan : TradePlan)
    (now : Datetime) (checkSignal : Bool) : Prop where
  unknown : checkSignal = true → L.signalExists plan.signalId = false
  checks : c.planChecks plan now = .ok ()
  unopened : L.openPositionForSecurity plan.securityId = none

/-- All gates of a submission let it pass. -/
structure ExecutionController.Gates (c : ExecutionController) (L : Ledger) (plan : TradePlan)
    (now : Datetime) : Prop where
  aware : now.Aware
  limits : c.WithinLimits L now
  valid : c.Validates L plan now true
  recorded : (Ledger.recordSignal plan .received now L).1 = .ok ()

/-- The gates tell the day, so the time has a reading in UTC. -/
theorem ExecutionController.Gates.hasUtc {c : ExecutionController} {L : Ledger} {plan : TradePlan} {now : Datetime}
    (h : c.Gates L plan now) : now.HasUtc := ⟨h.aware, h.limits.2.1⟩

section Gates

variable {c : ExecutionController} {plan : TradePlan} {now : Datetime} {w : World}
  {live : Option LiveBrokerGateway}

theorem require_eq_ok {condition : Prop} [Decidable condition] {message : String} {value : Unit} :
    require condition message = .ok value ↔ condition := by
  simp [require]

/-- What the gates establish about a plan's own numbers. -/
theorem planChecks_ok (h : c.planChecks plan now = .ok ()) :
    0 < plan.quantity ∧ plan.limitPrice.IsFinite ∧ 0 < plan.limitPrice := by
  simp only [planChecks, Except.bind_eq_ok, require_eq_ok] at h
  obtain ⟨_, _, _, _, _, _, _, _, _, _, _, _, _, hquantity, _, hprice, _⟩ := h
  exact ⟨hquantity.1, hprice⟩

/-- Tripping the kill switch raises, and no request reaches the gateway. -/
theorem run_tripKillSwitch_raises (w : World) (reason : String) :
    ∃ fault, (run (perform live) (tripKillSwitch reason now) w).1 = .error fault ∧
      (run (perform live) (tripKillSwitch reason now) w).2.gatewayCalls = w.gatewayCalls := by
  unfold tripKillSwitch
  rw [run_bind, run_setKillSwitchCommand]
  rcases Ledger.updateKillSwitch true reason "system" now w.ledger with ⟨fault | value, L'⟩
  · exact ⟨fault, rfl, rfl⟩
  · exact ⟨⟨.killSwitch, reason⟩, rfl, rfl⟩

/-- The kill-limit check passes within the limits, and leaves the world as it was. -/
theorem run_checkKillLimits_cases (c : ExecutionController) (w : World) (now : Datetime)
    (live : Option LiveBrokerGateway) :
    c.WithinLimits w.ledger now ∧ run (perform live) (c.checkKillLimits now) w = (.ok (), w) ∨
      ¬c.WithinLimits w.ledger now ∧
        ∃ fault, (run (perform live) (c.checkKillLimits now) w).1 = .error fault ∧
          (run (perform live) (c.checkKillLimits now) w).2.gatewayCalls = w.gatewayCalls := by
  unfold checkKillLimits WithinLimits
  rw [run_issue_bind]
  by_cases hactive : w.ledger.killSwitch.active = true
  · rw [if_pos (show (perform live .killSwitch w).1.active = true from hactive)]
    exact .inr ⟨fun h => by simp [hactive] at h, _, rfl, rfl⟩
  rw [if_neg (show ¬(perform live .killSwitch w).1.active = true from hactive), run_bind, run_ofExcept]
  by_cases hcalendar : now.toUtc.InCalendar
  swap
  · rw [Datetime.astimezone, if_neg hcalendar]
    exact .inr ⟨fun h => hcalendar h.2.1, dateOverflow, rfl, rfl⟩
  rw [Datetime.astimezone_of_inCalendar hcalendar]
  dsimp only
  rw [Datetime.utcDay_toUtc, run_issue_bind]
  by_cases hdaily : w.ledger.dailyRealizedPnl now.utcDay ≤ Decimal.neg .default c.policy.maxDailyLoss
  · rw [if_pos (by exact hdaily)]
    exact .inr ⟨fun h => h.2.2.1 hdaily, run_tripKillSwitch_raises w _⟩
  rw [if_neg (by exact hdaily), run_issue_bind]
  by_cases hlosses : c.policy.maxConsecutiveLosses ≤ w.ledger.consecutiveLosses
  · rw [if_pos (by exact hlosses)]
    exact .inr ⟨fun h => h.2.2.2 hlosses, run_tripKillSwitch_raises w _⟩
  · rw [if_neg (by exact hlosses)]
    exact .inl ⟨⟨Bool.eq_false_iff.mpr hactive, hcalendar, hdaily, hlosses⟩, rfl⟩

/-- The check for a new signal only reads. -/
theorem run_requireNewSignal (w : World) (checkSignal : Bool) (signalId : String) :
    run (perform live) (requireNewSignal checkSignal signalId) w =
      (if checkSignal = true ∧ w.ledger.signalExists signalId = true then
        .error ⟨.duplicateSignal, "signal has already been processed"⟩ else .ok (), w) := by
  unfold requireNewSignal
  cases checkSignal with
  | false => simp
  | true =>
      rw [if_pos rfl, run_issue_bind]
      by_cases hknown : w.ledger.signalExists signalId = true
      · rw [if_pos (by exact hknown), if_pos ⟨rfl, hknown⟩]
        rfl
      · rw [if_neg (by exact hknown), if_neg fun h => hknown h.2]
        rfl

/-- The checks of a plan read and never write. -/
theorem run_validatePlan_cases (c : ExecutionController) (w : World) (plan : TradePlan)
    (now : Datetime) (checkSignal : Bool) (live : Option LiveBrokerGateway) :
    c.Validates w.ledger plan now checkSignal ∧
        run (perform live) (c.validatePlan plan now checkSignal) w = (.ok (), w) ∨
      ¬c.Validates w.ledger plan now checkSignal ∧
        ∃ fault, run (perform live) (c.validatePlan plan now checkSignal) w = (.error fault, w) := by
  unfold validatePlan
  rw [run_bind, run_requireNewSignal]
  by_cases hknown : checkSignal = true ∧ w.ledger.signalExists plan.signalId = true
  · rw [if_pos hknown]
    exact .inr ⟨fun h => by simp [h.unknown hknown.1] at hknown, _, rfl⟩
  rw [if_neg hknown]
  dsimp only
  rw [run_bind, run_ofExcept]
  rcases hchecks : c.planChecks plan now with fault | value
  · exact .inr ⟨fun h => by simpa [hchecks] using h.checks, fault, rfl⟩
  dsimp only
  rw [run_issue_bind]
  dsimp only [perform]
  rcases hopen : w.ledger.openPositionForSecurity plan.securityId with _ | row
  · refine .inl ⟨⟨fun hcheck => ?_, hchecks, hopen⟩, rfl⟩
    exact Bool.eq_false_iff.mpr fun h => hknown ⟨hcheck, h⟩
  · exact .inr ⟨fun h => by simpa [hopen] using h.unopened, _, rfl⟩

/-- A submission that passes the gates goes on with its signal recorded; any other one raises before it
has reached the gateway. -/
theorem run_submit_cases (c : ExecutionController) (w : World) (plan : TradePlan) (now : Datetime)
    (live : Option LiveBrokerGateway) :
    (c.Gates w.ledger plan now ∧ ∃ L, Ledger.recordSignal plan .received now w.ledger = (.ok (), L) ∧
        run (perform live) (c.submit plan now) w =
          run (perform live) (c.dispatch plan now) { w with ledger := L }) ∨
      ¬c.Gates w.ledger plan now ∧
        ∃ fault, (run (perform live) (c.submit plan now) w).1 = .error fault ∧
          (run (perform live) (c.submit plan now) w).2.gatewayCalls = w.gatewayCalls := by
  unfold submit requireAware
  by_cases haware : now.Aware
  swap
  · rw [if_neg haware]
    exact .inr ⟨fun h => haware h.aware, _, rfl, rfl⟩
  rw [if_pos haware, run_bind, run_ofExcept]
  dsimp only
  rcases run_checkKillLimits_cases c w now live with ⟨hlimits, hkill⟩ | ⟨hlimits, fault, hkill, hcalls⟩
  swap
  · rw [run_bind]
    generalize run (perform live) (c.checkKillLimits now) w = outcome at hkill hcalls
    obtain ⟨result, w'⟩ := outcome
    subst hkill
    exact .inr ⟨fun h => hlimits h.limits, fault, rfl, hcalls⟩
  rw [run_bind_ok _ hkill]
  rcases run_validatePlan_cases c w plan now true live with ⟨hvalid, hrun⟩ | ⟨hvalid, fault, hrun⟩
  swap
  · rw [run_bind_error _ hrun]
    exact .inr ⟨fun h => hvalid h.valid, fault, rfl, rfl⟩
  rw [run_bind_ok _ hrun, run_bind, run_recordSignal]
  rcases hrecord : Ledger.recordSignal plan .received now w.ledger with ⟨fault | value, L⟩
  · exact .inr ⟨fun h => by simpa [hrecord] using h.recorded, fault, rfl, rfl⟩
  · exact .inl ⟨⟨haware, hlimits, hvalid, by rw [hrecord]⟩, L, rfl, rfl⟩

end Gates

end TecoQuant.Execution
