import TecoQuant.BaseExcept
import TecoQuant.ExecutionController

/-! What a submission does, whatever the ledger and the gateway reply: the order of its commands, and
where the executions it records come from. -/

namespace TecoQuant.Execution

open Atomic ExecutionController

abbrev Log := List (Event Command Command.Reply)

/-- The submission has found no open position for its security. -/
def Passed (plan : TradePlan) (log : Log) : Prop :=
  ⟨.openPositionForSecurity plan.securityId, none⟩ ∈ log

/-- The submission has recorded its signal. -/
def Recorded (plan : TradePlan) (log : Log) : Prop :=
  ∃ recordedAt, ⟨.recordSignal plan .received recordedAt, .ok ()⟩ ∈ log

/-- The submission has invoked the live gateway. -/
def ReachedGateway (plan : TradePlan) (log : Log) : Prop :=
  ∃ reply, ⟨.submitOrder plan plan.correlationId, reply⟩ ∈ log

/-- The gateway has acknowledged the order, at once or in the lookup after a timeout. -/
def Acknowledged (plan : TradePlan) (log : Log) (acknowledgement : LiveOrderAcknowledgement) : Prop :=
  ⟨.submitOrder plan plan.correlationId, .acknowledged acknowledgement⟩ ∈ log ∨
    ⟨.lookupByCorrelation plan.correlationId, .found (some acknowledgement)⟩ ∈ log

/-- The submission has asked the ledger to record an execution. -/
def Executed (log : Log) : Prop :=
  ∃ order fills now reply, ⟨.recordExecution order fills now, reply⟩ ∈ log

/-- An acknowledgement the controller accepts for a plan. -/
def Acceptable (plan : TradePlan) (acknowledgement : LiveOrderAcknowledgement) : Prop :=
  acknowledgement.correlationId = plan.correlationId ∧
    validateLiveAcknowledgement plan acknowledgement = .ok ()

instance (plan : TradePlan) (acknowledgement : LiveOrderAcknowledgement) :
    Decidable (Acceptable plan acknowledgement) :=
  inferInstanceAs (Decidable (_ ∧ _))

/-- Where the executions of a submission come from: the paper broker, an acknowledgement, or a lookup
that has found no order. -/
inductive Reported (c : ExecutionController) (plan : TradePlan) (log : Log) :
    BrokerOrder → List BrokerFill → Datetime → Prop where
  | paper {order fills now} (hmode : c.policy.mode = .paperTrading)
      (h : c.paper.submit plan now = .ok (order, fills)) : Reported c plan log order fills now
  | live {acknowledgement fills now} (hmode : c.policy.mode = .liveAutomatic)
      (hreached : ReachedGateway plan log) (hreceived : Acknowledged plan log acknowledgement)
      (haccept : Acceptable plan acknowledgement)
      (hfills : liveFills plan acknowledgement now = .ok fills) :
      Reported c plan log (liveOrder plan acknowledgement now) fills now
  | unknown {now} (hmode : c.policy.mode = .liveAutomatic) (hreached : ReachedGateway plan log) :
      Reported c plan log (liveOrder plan (unknownAcknowledgement plan) now) [] now

/-- The plan has passed the checks at this time, which has a reading in UTC. -/
def Gated (c : ExecutionController) (plan : TradePlan) (now : Datetime) : Prop :=
  now.HasUtc ∧ c.planChecks plan now = .ok ()

/-- The commands a submission may issue after the events of its log. -/
def SubmitAllowed (c : ExecutionController) (plan : TradePlan) (log : Log) : Command → Prop
  | .killSwitch | .dailyRealizedPnl _ | .consecutiveLosses | .setKillSwitch .. | .signalExists _ => True
  | .openPositionForSecurity securityId => securityId = plan.securityId ∧ ¬Passed plan log
  | .recordSignal recorded state _ =>
      recorded = plan ∧ state = .received ∧ Passed plan log ∧ ¬Recorded plan log
  | .updateSignalState signalId state _ =>
      signalId = plan.signalId ∧ state ∈ [.blocked, .awaitingApproval, .uncertain] ∧
        Recorded plan log ∧ ∀ order fills now reply,
          ⟨.recordExecution order fills now, reply⟩ ∈ log → order.filledQuantity = 0
  | .submitOrder submitted correlationId =>
      submitted = plan ∧ correlationId = plan.correlationId ∧ c.policy.mode = .liveAutomatic ∧
        Passed plan log ∧ Recorded plan log
  | .lookupByCorrelation correlationId =>
      correlationId = plan.correlationId ∧ ReachedGateway plan log
  | .recordExecution order fills now =>
      Gated c plan now ∧ Passed plan log ∧ Recorded plan log ∧ ¬Executed log ∧ Reported c plan log order fills now
  | _ => False

/-- A submission that has received an acceptable acknowledgement ends after recording it. -/
def SubmitEnds (plan : TradePlan) (log : Log) : Prop :=
  ∀ acknowledgement, Acknowledged plan log acknowledgement → Acceptable plan acknowledgement →
    ∃ fills now reply, liveFills plan acknowledgement now = .ok fills ∧
      ⟨.recordExecution (liveOrder plan acknowledgement now) fills now, reply⟩ ∈ log

theorem validateLiveAcknowledgement_eq_ok {plan : TradePlan}
    {acknowledgement : LiveOrderAcknowledgement} :
    validateLiveAcknowledgement plan acknowledgement = .ok () ↔
      ∃ quantity, acknowledgement.filledQuantity = .int quantity ∧ 0 ≤ quantity ∧
        quantity ≤ plan.quantity ∧
        (0 < quantity → ∃ price ∈ acknowledgement.averageFillPrice, price.IsFinite ∧ 0 < price) ∧
        (quantity = 0 → acknowledgement.averageFillPrice = none) := by
  unfold validateLiveAcknowledgement
  cases acknowledgement.filledQuantity with
  | other => simp
  | int quantity =>
      simp only [Except.ite_error_eq_ok, ReportedQuantity.int.injEq, exists_eq_left', and_true, not_not]
      simp only [not_and, not_not, ne_eq, and_assoc]

/-- An acknowledgement that passes the validation has the price its fill needs. -/
theorem liveFills_of_valid {plan : TradePlan} {acknowledgement : LiveOrderAcknowledgement}
    (h : validateLiveAcknowledgement plan acknowledgement = .ok ()) (now : Datetime) :
    ∃ fills, liveFills plan acknowledgement now = .ok fills := by
  obtain ⟨quantity, hquantity, hnonneg, _, hprice, _⟩ := validateLiveAcknowledgement_eq_ok.mp h
  unfold liveFills
  rw [hquantity]
  by_cases hzero : quantity = 0
  · exact ⟨[], by simp [ReportedQuantity.toInt, hzero]⟩
  · obtain ⟨price, hmem, _⟩ := hprice (lt_of_le_of_ne hnonneg (Ne.symm hzero))
    rw [Option.mem_def.mp hmem]
    exact ⟨_, by simp [ReportedQuantity.toInt, hzero]; rfl⟩

/-! ### The checks -/

/-- The reads and the trip of the kill switch that precede the open-position check. -/
def Command.Quiet : Command → Prop
  | .killSwitch | .dailyRealizedPnl _ | .consecutiveLosses | .setKillSwitch .. | .signalExists _ => True
  | _ => False

def QuietLog (log : Log) : Prop := ∀ event ∈ log, event.1.Quiet

theorem QuietLog.append (log : Log) (cmd : Command) (reply : cmd.Reply) (hcmd : cmd.Quiet)
    (h : QuietLog log) : QuietLog (log ++ [⟨cmd, reply⟩]) := by
  intro e he
  rcases List.mem_append.mp he with he | he
  · exact h e he
  · rw [List.mem_singleton.mp he]
    exact hcmd

theorem QuietLog.not_mem {log : Log} (h : QuietLog log) (cmd : Command) (hcmd : ¬cmd.Quiet)
    (reply : cmd.Reply) : ⟨cmd, reply⟩ ∉ log :=
  fun hmem => hcmd (h _ hmem)

section Checks

variable {c : ExecutionController} {plan : TradePlan} {now : Datetime} {log : Log}
  {allowed : Log → Command → Prop}

section Quiet

variable {Kept : Log → Prop} {post : Log → Except Fault Unit → Prop}
  (hallowed : ∀ log cmd, cmd.Quiet → allowed log cmd)
  (hkept : ∀ log cmd reply, cmd.Quiet → Kept log → Kept (log ++ [⟨cmd, reply⟩]))
  (hlog : Kept log) (herror : ∀ log', Kept log' → ∀ fault, post log' (.error fault))
include hallowed hkept hlog herror

theorem tripKillSwitch_guarantees {reason : String} :
    (tripKillSwitch reason now).Guarantees allowed post log := by
  refine ⟨hallowed _ _ trivial, fun reply => ?_⟩
  cases reply with
  | error fault => exact herror _ (hkept _ _ _ (by trivial) hlog) _
  | ok value => exact herror _ (hkept _ _ _ (by trivial) hlog) _

/-- The kill-limit check issues quiet commands only, and passes only at a time with a UTC day. -/
theorem checkKillLimits_guarantees (hok : ∀ log', Kept log' → now.toUtc.InCalendar → post log' (.ok ())) :
    (c.checkKillLimits now).Guarantees allowed post log := by
  refine Program.guarantees_command_bind (hallowed _ _ trivial) fun row => ?_
  have hrow := hkept _ .killSwitch row trivial hlog
  split
  · exact herror _ hrow _
  refine Program.guarantees_ofExcept_bind (fun today htoday => ?_) fun fault _ => herror _ hrow _
  refine Program.guarantees_command_bind (hallowed _ _ trivial) fun pnl => ?_
  have hpnl := hkept _ (.dailyRealizedPnl today.utcDay) pnl trivial hrow
  split
  · exact tripKillSwitch_guarantees hallowed hkept hpnl herror
  refine Program.guarantees_command_bind (hallowed _ _ trivial) fun losses => ?_
  have hlosses := hkept _ .consecutiveLosses losses trivial hpnl
  split
  · exact tripKillSwitch_guarantees hallowed hkept hlosses herror
  · exact hok _ hlosses (Datetime.astimezone_eq_ok.mp htoday).1

theorem requireNewSignal_guarantees {checkSignal : Bool} {signalId : String}
    (hok : ∀ log', Kept log' → post log' (.ok ())) :
    (requireNewSignal checkSignal signalId).Guarantees allowed post log := by
  cases checkSignal with
  | false => exact hok _ hlog
  | true =>
      refine Program.guarantees_command_bind (hallowed _ _ trivial) fun known => ?_
      have hknown := hkept _ _ known (by trivial) hlog
      split
      · exact herror _ hknown _
      · exact hok _ hknown

end Quiet

/-- The checks of a plan end quietly, or with the open-position check. -/
theorem validatePlan_guarantees {Kept : Log → Prop} {post : Log → Except Fault Unit → Prop}
    (hallowed : ∀ log cmd, cmd.Quiet → allowed log cmd)
    (hkept : ∀ log cmd reply, cmd.Quiet → Kept log → Kept (log ++ [⟨cmd, reply⟩]))
    (hopen : ∀ log, Kept log → allowed log (.openPositionForSecurity plan.securityId))
    (hlog : Kept log)
    (herror : ∀ log', Kept log' → ∀ fault, post log' (.error fault))
    (hfound : ∀ log', Kept log' → ∀ position fault,
      post (log' ++ [⟨.openPositionForSecurity plan.securityId, some position⟩]) (.error fault))
    (hok : c.planChecks plan now = .ok () → ∀ log', Kept log' →
      post (log' ++ [⟨.openPositionForSecurity plan.securityId, none⟩]) (.ok ())) (checkSignal : Bool) :
    (c.validatePlan plan now checkSignal).Guarantees allowed post log := by
  refine Program.guarantees_bind (requireNewSignal_guarantees hallowed hkept hlog
    (fun _ hlog' fault => ?_) fun _ hlog' => ?_)
  · exact herror _ hlog' fault
  refine Program.guarantees_ofExcept_bind (fun _ hchecks => ?_) fun fault _ => herror _ hlog' fault
  refine Program.guarantees_command_bind (hopen _ hlog') fun position => ?_
  cases position with
  | none => exact hok hchecks _ hlog'
  | some row => exact hfound _ hlog' row _

end Checks

/-! ### Submission -/

section Submission

variable {c : ExecutionController} {plan : TradePlan} {now : Datetime} {quiet : Log}

theorem submitAllowed_of_quiet (log : Log) (cmd : Command) (h : cmd.Quiet) :
    SubmitAllowed c plan log cmd := by
  cases cmd <;> trivial

/-- The events of a submission that has recorded its signal. -/
def recordedLog (plan : TradePlan) (now : Datetime) (quiet : Log) : Log :=
  quiet ++ [⟨.openPositionForSecurity plan.securityId, none⟩,
    ⟨.recordSignal plan .received now, .ok ()⟩]

theorem passed_recordedLog (rest : Log) : Passed plan (recordedLog plan now quiet ++ rest) := by
  simp [Passed, recordedLog]

theorem recorded_recordedLog (rest : Log) : Recorded plan (recordedLog plan now quiet ++ rest) :=
  ⟨now, by simp [recordedLog]⟩

/-- Beyond the checks, only the later events matter for an execution or a gateway call. -/
theorem mem_recordedLog (h : QuietLog quiet) {cmd : Command} {reply : cmd.Reply} {rest : Log}
    (hcmd : ¬cmd.Quiet ∧ cmd ≠ .openPositionForSecurity plan.securityId ∧
      cmd ≠ .recordSignal plan .received now) :
    ⟨cmd, reply⟩ ∈ recordedLog plan now quiet ++ rest ↔ ⟨cmd, reply⟩ ∈ rest := by
  have hnot := h.not_mem cmd hcmd.1 reply
  have hne {cmd' : Command} (hne : cmd ≠ cmd') (reply' : cmd'.Reply) :
      (⟨cmd, reply⟩ : Event Command Command.Reply) ≠ ⟨cmd', reply'⟩ := fun heq => hne (congrArg Sigma.fst heq)
  simp [recordedLog, hnot, hne hcmd.2.1, hne hcmd.2.2]

theorem acknowledged_recordedLog (hquiet : QuietLog quiet) {rest : Log}
    {acknowledgement : LiveOrderAcknowledgement} :
    Acknowledged plan (recordedLog plan now quiet ++ rest) acknowledgement ↔
      Acknowledged plan rest acknowledgement := by
  rw [Acknowledged, mem_recordedLog hquiet (by simp [Command.Quiet]),
    mem_recordedLog hquiet (by simp [Command.Quiet]), Acknowledged]

theorem executed_recordedLog (hquiet : QuietLog quiet) {rest : Log} :
    Executed (recordedLog plan now quiet ++ rest) ↔ Executed rest := by
  constructor
  · rintro ⟨order, fills, t, reply, hmem⟩
    exact ⟨order, fills, t, reply, (mem_recordedLog hquiet (by simp [Command.Quiet])).mp hmem⟩
  · rintro ⟨order, fills, t, reply, hmem⟩
    exact ⟨order, fills, t, reply, (mem_recordedLog hquiet (by simp [Command.Quiet])).mpr hmem⟩

/-- Recording an execution ends a submission. -/
theorem recordAndReport_guarantees {order : BrokerOrder} {fills : List BrokerFill} {log : Log}
    (hallowed : SubmitAllowed c plan log (.recordExecution order fills now))
    (hend : ∀ reply, SubmitEnds plan (log ++ [⟨.recordExecution order fills now, reply⟩])) :
    (recordAndReport plan order fills now).Guarantees (SubmitAllowed c plan)
      (fun log _ => SubmitEnds plan log) log := by
  refine ⟨hallowed, fun reply => ?_⟩
  cases reply with
  | error fault => exact hend _
  | ok value => exact hend _

theorem acceptAcknowledgement_guarantees (hquiet : QuietLog quiet) (hgated : Gated c plan now)
    (hmode : c.policy.mode = .liveAutomatic) {rest : Log} {acknowledgement : LiveOrderAcknowledgement}
    (hreached : ReachedGateway plan rest)
    (hreceived : ∀ ack, Acknowledged plan rest ack ↔ ack = acknowledgement)
    (hfirst : ¬Executed rest) :
    (acceptAcknowledgement plan acknowledgement now).Guarantees (SubmitAllowed c plan)
      (fun log _ => SubmitEnds plan log) (recordedLog plan now quiet ++ rest) := by
  have hack (ack : LiveOrderAcknowledgement) :
      Acknowledged plan (recordedLog plan now quiet ++ rest) ack ↔ ack = acknowledgement := by
    rw [acknowledged_recordedLog hquiet, hreceived]
  have hreject (h : ¬Acceptable plan acknowledgement) :
      SubmitEnds plan (recordedLog plan now quiet ++ rest) :=
    fun ack hmem haccept => absurd ((hack ack).mp hmem ▸ haccept) h
  unfold acceptAcknowledgement
  split
  · rename_i hcorrelation
    exact hreject fun haccept => hcorrelation haccept.1
  · rename_i hcorrelation
    refine Program.guarantees_ofExcept_bind (fun _ hvalid => ?_) fun fault hinvalid =>
      hreject fun haccept => by simp [haccept.2] at hinvalid
    have haccept : Acceptable plan acknowledgement := ⟨not_not.mp hcorrelation, hvalid⟩
    obtain ⟨fills, hfills⟩ := liveFills_of_valid hvalid now
    refine Program.guarantees_ofExcept_bind (fun fills' hfills' => ?_) fun fault hfault => by
      simp [hfills] at hfault
    refine recordAndReport_guarantees ⟨hgated, passed_recordedLog rest, recorded_recordedLog rest, ?_, ?_⟩ ?_
    · rwa [executed_recordedLog hquiet]
    · refine .live hmode ?_ ((hack _).mpr rfl) haccept hfills'
      obtain ⟨reply, hmem⟩ := hreached
      exact ⟨reply, List.mem_append_right _ hmem⟩
    · intro reply ack hmem _
      have hmem : Acknowledged plan (recordedLog plan now quiet ++ rest) ack := by
        simpa [Acknowledged] using hmem
      rw [(hack ack).mp hmem]
      exact ⟨fills', now, reply, hfills', by simp⟩

/-- A lookup that finds no order leaves an order in state `UNKNOWN` and an uncertain signal. -/
theorem recordUnknown_guarantees (hquiet : QuietLog quiet) (hgated : Gated c plan now)
    (hmode : c.policy.mode = .liveAutomatic)
    {rest : Log} (hreached : ReachedGateway plan rest)
    (hreceived : ∀ ack, ¬Acknowledged plan rest ack) (hfirst : ¬Executed rest) :
    (recordUnknown plan now).Guarantees (SubmitAllowed c plan) (fun log _ => SubmitEnds plan log)
      (recordedLog plan now quiet ++ rest) := by
  have hends (later : Log) (h : ∀ ack, Acknowledged plan (rest ++ later) ack → Acknowledged plan rest ack) :
      SubmitEnds plan (recordedLog plan now quiet ++ rest ++ later) := fun ack hmem => by
    rw [List.append_assoc, acknowledged_recordedLog hquiet] at hmem
    exact absurd (h ack hmem) (hreceived ack)
  obtain ⟨reached, hreached⟩ := hreached
  refine Program.guarantees_bind ⟨⟨hgated, passed_recordedLog rest, recorded_recordedLog rest, ?_, ?_⟩,
    fun reply => ?_⟩
  · rwa [executed_recordedLog hquiet]
  · exact .unknown hmode ⟨reached, List.mem_append_right _ hreached⟩
  cases reply with
  | error fault => exact hends _ (by simp [Acknowledged])
  | ok value =>
      refine Program.guarantees_bind ⟨⟨rfl, by simp, ?_, ?_⟩, fun reply => ?_⟩
      · rw [List.append_assoc]
        exact recorded_recordedLog _
      · intro order fills t reply hmem
        rw [List.append_assoc, mem_recordedLog hquiet (by simp [Command.Quiet])] at hmem
        rcases List.mem_append.mp hmem with hmem | hmem
        · exact absurd ⟨order, fills, t, reply, hmem⟩ hfirst
        · obtain ⟨⟨rfl, _⟩, _⟩ : ((order = liveOrder plan (unknownAcknowledgement plan) now ∧ _) ∧ _) := by
            simpa using hmem
          rfl
      · rw [List.append_assoc]
        cases reply <;> exact hends _ (by simp [Acknowledged])

theorem submitLive_guarantees (hquiet : QuietLog quiet) (hgated : Gated c plan now)
    (hmode : c.policy.mode = .liveAutomatic) :
    (submitLive plan now).Guarantees (SubmitAllowed c plan) (fun log _ => SubmitEnds plan log)
      (recordedLog plan now quiet) := by
  have hnone (rest : Log) (h : ∀ ack, ¬Acknowledged plan rest ack) :
      SubmitEnds plan (recordedLog plan now quiet ++ rest) :=
    fun ack hmem => absurd ((acknowledged_recordedLog hquiet).mp hmem) (h ack)
  refine Program.guarantees_command_bind
    ⟨rfl, rfl, hmode, by simp [Passed, recordedLog], now, by simp [recordedLog]⟩ fun reply => ?_
  cases reply with
  | acknowledged acknowledgement =>
      exact acceptAcknowledgement_guarantees hquiet hgated hmode ⟨_, List.mem_singleton_self _⟩
        (by simp [Acknowledged]) (by simp [Executed])
  | raised message => exact hnone _ (by simp [Acknowledged])
  | timedOut =>
      refine Program.guarantees_command_bind ⟨rfl, .timedOut, by simp⟩ fun reconciled => ?_
      rw [List.append_assoc]
      cases reconciled with
      | raised message => exact hnone _ (by simp [Acknowledged])
      | found acknowledgement =>
          cases acknowledgement with
          | none => 
              exact recordUnknown_guarantees hquiet hgated hmode ⟨.timedOut, by simp⟩ (by simp [Acknowledged])
                (by simp [Executed])
          | some acknowledgement =>
              exact acceptAcknowledgement_guarantees hquiet hgated hmode ⟨.timedOut, by simp⟩
                (by simp [Acknowledged]) (by simp [Executed])

/-- A submission that changes the state of its signal without an execution ends there. -/
theorem updateSignalState_guarantees (hquiet : QuietLog quiet) {state : SignalExecutionState}
    (hstate : state ∈ [.blocked, .awaitingApproval, .uncertain])
    (result : Except Fault ExecutionResult) :
    (updateSignalState plan.signalId state now >>= fun _ => .ofExcept result).Guarantees
      (SubmitAllowed c plan) (fun log _ => SubmitEnds plan log) (recordedLog plan now quiet) := by
  have hend (reply : Except Fault Unit) : SubmitEnds plan (recordedLog plan now quiet ++
      [⟨.updateSignalState plan.signalId state now, reply⟩]) := fun ack hmem => by
    rw [acknowledged_recordedLog hquiet] at hmem
    simp [Acknowledged] at hmem
  refine Program.guarantees_bind ⟨⟨rfl, hstate, ⟨now, by simp [recordedLog]⟩, ?_⟩, fun reply => ?_⟩
  · intro order fills t reply hmem
    have hmem : ⟨.recordExecution order fills t, reply⟩ ∈ ([] : Log) :=
      (mem_recordedLog hquiet (by simp [Command.Quiet])).mp (by simpa using hmem)
    exact absurd hmem List.not_mem_nil
  · cases reply with
    | error fault => exact hend _
    | ok value => exact Program.guarantees_ofExcept (hend _)

theorem executePaper_guarantees (hquiet : QuietLog quiet) (hgated : Gated c plan now)
    (hmode : c.policy.mode = .paperTrading) :
    (c.executePaper plan now).Guarantees (SubmitAllowed c plan) (fun log _ => SubmitEnds plan log)
      (recordedLog plan now quiet) := by
  have hack (rest : Log) (h : ∀ ack, ¬Acknowledged plan rest ack) :
      SubmitEnds plan (recordedLog plan now quiet ++ rest) :=
    fun ack hmem => absurd ((acknowledged_recordedLog hquiet).mp hmem) (h ack)
  rw [← List.append_nil (recordedLog plan now quiet)]
  refine Program.guarantees_ofExcept_bind (fun result hresult => ?_) fun _ _ =>
    hack [] (by simp [Acknowledged])
  obtain ⟨order, fills⟩ := result
  refine recordAndReport_guarantees ⟨hgated, passed_recordedLog [], recorded_recordedLog [], ?_,
    .paper hmode hresult⟩ fun reply => ?_
  · rw [executed_recordedLog hquiet]
    simp [Executed]
  · rw [List.append_assoc]
    exact hack _ (by simp [Acknowledged])

/-- What follows the recording of the signal keeps to the protocol in every mode. -/
theorem dispatch_guarantees (hquiet : QuietLog quiet) (hgated : Gated c plan now) :
    (c.dispatch plan now).Guarantees (SubmitAllowed c plan) (fun log _ => SubmitEnds plan log)
      (recordedLog plan now quiet) := by
  unfold dispatch
  cases hmode : c.policy.mode with
  | off => exact updateSignalState_guarantees hquiet (by simp) (.error _)
  | dataOnly => exact updateSignalState_guarantees hquiet (by simp) (.error _)
  | manualApproval => exact updateSignalState_guarantees hquiet (by simp) (.ok _)
  | paperTrading => exact executePaper_guarantees hquiet hgated hmode
  | liveAutomatic =>
      dsimp only
      unfold executeLive
      split
      · exact updateSignalState_guarantees hquiet (by simp) (.error _)
      · split
        · exact updateSignalState_guarantees hquiet (by simp) (.error _)
        · exact submitLive_guarantees hquiet hgated hmode

/-- A submission that has not reached the gateway has nothing to record. -/
theorem submitEnds_of_not_mem {log : Log}
    (hsubmit : ∀ reply, ⟨.submitOrder plan plan.correlationId, reply⟩ ∉ log)
    (hlookup : ∀ reply, ⟨.lookupByCorrelation plan.correlationId, reply⟩ ∉ log) : SubmitEnds plan log :=
  fun _ hmem => hmem.elim (fun h => absurd h (hsubmit _)) fun h => absurd h (hlookup _)

/-- Whatever the ledger and the gateway reply, a submission keeps to its protocol. -/
theorem submit_guarantees :
    (c.submit plan now).Guarantees (SubmitAllowed c plan) (fun log _ => SubmitEnds plan log) [] := by
  have hquietEnd {log : Log} (hlog : QuietLog log) : SubmitEnds plan log :=
    submitEnds_of_not_mem (hlog.not_mem _ not_false) (hlog.not_mem _ not_false)
  have hnil : QuietLog [] := fun _ hmem => absurd hmem List.not_mem_nil
  unfold submit
  refine Program.guarantees_ofExcept_bind (fun _ haware => ?_) fun _ _ => hquietEnd hnil
  have haware : now.Aware := (Except.ite_ok_eq_ok.mp haware).1
  refine Program.guarantees_bind (checkKillLimits_guarantees submitAllowed_of_quiet QuietLog.append hnil
    (fun _ hlog _ => hquietEnd hlog) fun log hlog hcalendar => ?_)
  refine Program.guarantees_bind (validatePlan_guarantees submitAllowed_of_quiet QuietLog.append ?_ hlog
    (fun _ hlog _ => hquietEnd hlog) (fun _ hlog _ _ => ?_) (fun hchecks log hlog => ?_) true)
  · exact fun log hlog => ⟨rfl, hlog.not_mem (.openPositionForSecurity plan.securityId) not_false _⟩
  · have hsubmit := hlog.not_mem (.submitOrder plan plan.correlationId) not_false
    have hlookup := hlog.not_mem (.lookupByCorrelation plan.correlationId) not_false
    exact submitEnds_of_not_mem (by simp [hsubmit]) (by simp [hlookup])
  · have hsubmit := hlog.not_mem (.submitOrder plan plan.correlationId) not_false
    have hlookup := hlog.not_mem (.lookupByCorrelation plan.correlationId) not_false
    have hsignal := fun t => hlog.not_mem (.recordSignal plan .received t) not_false (.ok ())
    refine Program.guarantees_bind ⟨⟨rfl, rfl, ?_, ?_⟩, fun reply => ?_⟩
    · simp [Passed]
    · simp [Recorded, hsignal]
    · rw [List.append_assoc]
      cases reply with
      | ok value => exact dispatch_guarantees hlog ⟨⟨haware, hcalendar⟩, hchecks⟩
      | error fault => exact submitEnds_of_not_mem (by simp [hsubmit]) (by simp [hlookup])

end Submission

/-! ### Approval -/

/-- The approval has read the plan from the ledger. -/
def ReadPlan (plan : TradePlan) (log : Log) : Prop := ∃ signalId, ⟨.plan signalId, some plan⟩ ∈ log

/-- The commands an approval may issue: it records executions of the paper broker only. -/
def ApproveAllowed (c : ExecutionController) (log : Log) : Command → Prop
  | .killSwitch | .dailyRealizedPnl _ | .consecutiveLosses | .setKillSwitch .. | .signalExists _
  | .plan _ | .signalState _ | .openPositionForSecurity _ | .recordApproval _ => True
  | .recordExecution order fills now =>
      ∃ plan, ReadPlan plan log ∧ c.paper.submit plan now = .ok (order, fills)
  | _ => False

theorem approveAllowed_of_quiet {c : ExecutionController} (log : Log) (cmd : Command) (h : cmd.Quiet) :
    ApproveAllowed c log cmd := by
  cases cmd <;> trivial

theorem approve_guarantees {c : ExecutionController} {signalId actor reason : String}
    {approvedAt : Option Datetime} {now : Datetime} :
    (c.approve signalId actor reason approvedAt now).Guarantees (ApproveAllowed c)
      (fun _ _ => True) [] := by
  have hplan {approvalTime : Datetime} {log : Log} :
      (awaitingPlan signalId approvalTime).Guarantees (ApproveAllowed c)
        (fun log result => ∀ plan, result = .ok plan → ReadPlan plan log) log := by
    refine Program.guarantees_command_bind trivial fun stored => ?_
    cases stored with
    | none => exact fun plan h => nomatch h
    | some plan =>
        dsimp only
        split
        · exact fun plan h => nomatch h
        · refine Program.guarantees_command_bind trivial fun state => ?_
          split
          · exact fun plan h => nomatch h
          · rintro _ ⟨⟩
            exact ⟨signalId, by simp⟩
  dsimp only [approve]
  refine Program.guarantees_ofExcept_bind (fun _ _ => ?_) fun _ _ => trivial
  refine Program.guarantees_bind (hplan.mono (fun _ _ h => h) fun log result hread => ?_)
  cases result with
  | error fault => trivial
  | ok plan =>
      have hkept (log : Log) (cmd : Command) (reply : cmd.Reply) (_ : cmd.Quiet)
          (h : ReadPlan plan log) : ReadPlan plan (log ++ [⟨cmd, reply⟩]) :=
        ⟨h.choose, List.mem_append_left _ h.choose_spec⟩
      refine Program.guarantees_bind (checkKillLimits_guarantees approveAllowed_of_quiet hkept
        (hread plan rfl) (fun _ _ _ => trivial) fun log hread _ => ?_)
      refine Program.guarantees_bind (validatePlan_guarantees approveAllowed_of_quiet hkept
        (fun _ _ => trivial) hread (fun _ _ _ => trivial) (fun _ _ _ _ => trivial)
        (fun _ log hread => ?_) false)
      refine Program.guarantees_bind ⟨trivial, fun reply => ?_⟩
      cases reply with
      | error fault => trivial
      | ok value =>
          refine Program.guarantees_ofExcept_bind (fun result hresult => ?_) fun _ _ => trivial
          obtain ⟨signalId, hmem⟩ := hread
          refine Program.guarantees_bind
            ⟨⟨plan, ⟨signalId, by simp [hmem]⟩, hresult⟩, fun reply => ?_⟩
          cases reply <;> trivial

end TecoQuant.Execution
