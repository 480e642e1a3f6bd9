import Mathlib.Data.Fintype.Basic
import TecoQuant.ExecutionLiveRecord

/-! The kill switch against calls under way. Every call reads the switch once, at its start, and trades
some steps later. An activation therefore stops exactly the calls that have not yet read the switch: the
calls that have read it as inactive go on. Runs in which the switch is activated only when no such call is
left keep the gateway, the orders, the fills and the positions as they are until the switch is reset. -/

namespace TecoQuant.Execution

open Atomic ExecutionController

/-- A call as a program, with the result it returns. -/
def ExecutionController.program (c : ExecutionController) : Call → Action (Option ExecutionResult)
  | .submit plan now => do
      let result ← c.submit plan now
      return some result
  | .approve signalId actor reason approvedAt now => do
      let result ← c.approve signalId actor reason approvedAt now
      return some result
  | .setKillSwitch active actor reason changedAt => do
      ExecutionController.setKillSwitch active actor reason changedAt
      return none
  | .closePosition positionId exitPrice closedAt => do
      let _ : Except Fault Decimal ← issue (.closePosition positionId exitPrice closedAt)
      return none

/-- Run alone, the program of a call leaves what the call leaves. -/
theorem run_program (c : ExecutionController) (w : World) (call : Call) :
    (run (perform c.live) (c.program call) w).2 = c.after w call := by
  have hmap {α : Type} (p : Action α) (f : α → Option ExecutionResult) :
      (run (perform c.live) (p >>= fun value => pure (f value)) w).2 = (run (perform c.live) p w).2 := by
    rw [run_bind]
    rcases run (perform c.live) p w with ⟨fault | value, w'⟩ <;> rfl
  cases call with
  | submit plan now => exact hmap _ some
  | approve signalId actor reason approvedAt now => exact hmap _ some
  | setKillSwitch active actor reason changedAt => exact hmap _ fun _ => none
  | closePosition positionId exitPrice closedAt => rfl

/-- Calls under way. -/
abbrev Calls (ι : Type) := Pool ι Command Command.Reply World Fault (Option ExecutionResult)

/-! ### Calls that have read the switch -/

/-- The command reaches the gateway or records an execution. -/
def Command.Trades : Command → Prop
  | .submitOrder .. | .lookupByCorrelation _ | .recordExecution .. => True
  | _ => False

/-- After this command a call trades no more. -/
def Command.Ends : Command → Prop
  | .recordExecution .. | .setKillSwitch .. => True
  | _ => False

/-- The event is a read of the kill switch as inactive. -/
def ReadsClear : Event Command Command.Reply → Prop
  | ⟨.killSwitch, row⟩ => row.active = false
  | _ => False

/-- The call has read the switch as inactive, and has neither recorded an execution nor set the switch. -/
def Cleared (log : Log) : Prop :=
  (∃ event ∈ log, ReadsClear event) ∧ ∀ event ∈ log, ¬event.1.Ends

/-- In this mode a call of this kind can trade at all. -/
def ExecutionController.CanTrade (c : ExecutionController) : Call → Prop
  | .submit .. => c.policy.mode = .paperTrading ∨ c.policy.mode = .liveAutomatic
  | .approve .. => c.policy.mode = .manualApproval
  | _ => False

/-- A call that the switch no longer stops. -/
def InFlight (c : ExecutionController) (call : Call)
    (thread : Thread Command Command.Reply Fault (Option ExecutionResult)) : Prop :=
  c.CanTrade call ∧ ¬thread.program.Finished ∧ Cleared thread.log

instance (cmd : Command) : Decidable cmd.Trades :=
  match cmd with
  | .submitOrder .. | .lookupByCorrelation _ | .recordExecution .. => .isTrue trivial
  | .killSwitch | .dailyRealizedPnl _ | .consecutiveLosses | .setKillSwitch .. | .signalExists _ | .plan _
  | .signalState _ | .openPositionForSecurity _ | .recordSignal .. | .updateSignalState .. | .recordApproval ..
  | .closePosition .. => .isFalse id

instance (cmd : Command) : Decidable cmd.Ends :=
  match cmd with
  | .recordExecution .. | .setKillSwitch .. => .isTrue trivial
  | .killSwitch | .dailyRealizedPnl _ | .consecutiveLosses | .signalExists _ | .plan _ | .signalState _
  | .openPositionForSecurity _ | .recordSignal .. | .updateSignalState .. | .recordApproval .. | .closePosition ..
  | .submitOrder .. | .lookupByCorrelation _ => .isFalse id

instance (event : Event Command Command.Reply) : Decidable (ReadsClear event) := by
  unfold ReadsClear
  split <;> infer_instance

instance (log : Log) : Decidable (Cleared log) := inferInstanceAs (Decidable (_ ∧ _))

instance (c : ExecutionController) (call : Call) : Decidable (c.CanTrade call) := by
  unfold ExecutionController.CanTrade
  split <;> infer_instance

instance (c : ExecutionController) (call : Call)
    (thread : Thread Command Command.Reply Fault (Option ExecutionResult)) :
    Decidable (InFlight c call thread) :=
  inferInstanceAs (Decidable (_ ∧ _))

/-! ### Where a call may trade -/

/-- A call trades only in a mode that trades, and only as long as it is cleared. -/
def TradesCleared (c : ExecutionController) (call : Call) (log : Log) (cmd : Command) : Prop :=
  cmd.Trades → c.CanTrade call ∧ Cleared log

/-- A command that neither trades nor ends the trading of its call. -/
def Command.Passive (cmd : Command) : Prop := ¬cmd.Trades ∧ ¬cmd.Ends

section Cleared

variable {log : Log} {cmd : Command}

theorem Cleared.append (h : Cleared log) (cmd : Command) (hcmd : ¬cmd.Ends) (reply : cmd.Reply) :
    Cleared (log ++ [⟨cmd, reply⟩]) := by
  obtain ⟨⟨event, hmem, hread⟩, hends⟩ := h
  refine ⟨⟨event, List.mem_append_left _ hmem, hread⟩, fun event' hmem' => ?_⟩
  rcases List.mem_append.mp hmem' with hmem' | hmem'
  · exact hends event' hmem'
  · rw [List.mem_singleton.mp hmem']
    exact hcmd

/-- A log that a step leaves cleared was cleared before, unless the step has read the switch. -/
theorem Cleared.before {reply : cmd.Reply} (h : Cleared (log ++ [⟨cmd, reply⟩]))
    (hread : ¬ReadsClear ⟨cmd, reply⟩) : Cleared log := by
  obtain ⟨⟨event, hmem, hclear⟩, hends⟩ := h
  refine ⟨?_, fun event' hmem' => hends event' (List.mem_append_left _ hmem')⟩
  rcases List.mem_append.mp hmem with hmem | hmem
  · exact ⟨event, hmem, hclear⟩
  · rw [List.mem_singleton.mp hmem] at hclear
    exact absurd hclear hread

end Cleared

section Programs

variable {c : ExecutionController} {plan : TradePlan} {now : Datetime} {log : Log} {call : Call}

/-- Passive commands are allowed at any time and keep a log cleared. -/
theorem passive_guarantees {α : Type} {p : Action α} (hp : p.Only Command.Passive)
    (hlog : Cleared log) : p.Guarantees (TradesCleared c call) (fun log' _ => Cleared log') log :=
  hp.guarantees (fun _ _ hcmd _ htrades => absurd htrades hcmd.1)
    (fun _ cmd reply hcmd h => h.append cmd hcmd.2 reply) hlog

/-- A program of passive commands is allowed after any log. -/
theorem passive_allowed {α : Type} {p : Action α} (hp : p.Only Command.Passive) (log : Log) :
    p.Guarantees (TradesCleared c call) (fun _ _ => True) log := by
  have hkept : ∀ (log : Log) (cmd : Command) (reply : cmd.Reply), cmd.Passive → True → True :=
    fun _ _ _ _ _ => trivial
  exact hp.guarantees (fun _ _ hcmd _ htrades => absurd htrades hcmd.1) hkept trivial

theorem issue_passive {cmd : Command} (hcmd : cmd.Passive) :
    (issue cmd).Only Command.Passive :=
  ⟨hcmd, fun _ => trivial⟩

theorem recordSignal_passive (state : SignalExecutionState) :
    (recordSignal plan state now).Only Command.Passive :=
  Program.only_bind (issue_passive ⟨not_false, not_false⟩) fun _ => Program.only_ofExcept _

theorem updateSignalState_passive (signalId : String) (state : SignalExecutionState) :
    (updateSignalState signalId state now).Only Command.Passive :=
  Program.only_bind (issue_passive ⟨not_false, not_false⟩) fun _ => Program.only_ofExcept _

theorem block_passive (fault : Fault) : (block plan now fault).Only Command.Passive :=
  Program.only_bind (updateSignalState_passive _ _) fun _ => trivial

theorem validatePlan_passive (checkSignal : Bool) :
    (c.validatePlan plan now checkSignal).Only Command.Passive := by
  have hnew : (requireNewSignal checkSignal plan.signalId).Only Command.Passive := by
    unfold requireNewSignal
    split
    · refine Program.only_bind (issue_passive ⟨not_false, not_false⟩) fun known => ?_
      split <;> trivial
    · trivial
  refine Program.only_bind hnew fun _ => Program.only_bind (Program.only_ofExcept _) fun _ => ?_
  refine Program.only_bind (issue_passive ⟨not_false, not_false⟩) fun position => ?_
  cases position <;> trivial

theorem awaitingPlan_passive (signalId : String) (approvalTime : Datetime) :
    (awaitingPlan signalId approvalTime).Only Command.Passive := by
  refine Program.only_bind (issue_passive ⟨not_false, not_false⟩) fun stored => ?_
  cases stored with
  | none => trivial
  | some plan =>
      dsimp only
      split
      · trivial
      · refine Program.only_bind (issue_passive ⟨not_false, not_false⟩) fun state => ?_
        split <;> trivial

/-- The kill-limit check passes only after it has read the switch as inactive. -/
theorem checkKillLimits_clears (hlog : ∀ event ∈ log, ¬event.1.Ends) :
    (c.checkKillLimits now).Guarantees (TradesCleared c call)
      (fun log' result => result = .ok () → Cleared log') log := by
  have hallowed {log : Log} {cmd : Command} (hcmd : ¬cmd.Trades) : TradesCleared c call log cmd :=
    fun htrades => absurd htrades hcmd
  have htrip (reason : String) (log : Log) : (tripKillSwitch reason now).Guarantees
      (TradesCleared c call) (fun log' result => result = .ok () → Cleared log') log := by
    refine ⟨hallowed not_false, fun reply => ?_⟩
    cases reply <;> exact fun h => by cases h
  refine Program.guarantees_command_bind (hallowed not_false) fun row => ?_
  split
  · exact fun h => by cases h
  rename_i hactive
  have hcleared : Cleared (log ++ [⟨.killSwitch, row⟩]) := by
    have hread : row.active = false := by simpa using hactive
    refine ⟨⟨_, List.mem_append_right _ (List.mem_singleton_self _), hread⟩, ?_⟩
    intro event hmem
    rcases List.mem_append.mp hmem with hmem | hmem
    · exact hlog event hmem
    · rw [List.mem_singleton.mp hmem]
      exact not_false
  refine Program.guarantees_ofExcept_bind (fun today _ => ?_) fun fault _ h => by cases h
  refine Program.guarantees_command_bind (hallowed not_false) fun pnl => ?_
  split
  · exact htrip _ _
  refine Program.guarantees_command_bind (hallowed not_false) fun losses => ?_
  split
  · exact htrip _ _
  · intro _
    have hpnl : Cleared (log ++ [⟨.killSwitch, row⟩] ++ [⟨.dailyRealizedPnl today.utcDay, pnl⟩]) :=
      hcleared.append (.dailyRealizedPnl today.utcDay) not_false pnl
    exact hpnl.append .consecutiveLosses not_false losses

/-- Recording an execution is the last command of a cleared call. -/
theorem recordAndReport_cleared {order : BrokerOrder} {fills : List BrokerFill}
    (htrades : c.CanTrade call) (hlog : Cleared log) :
    (recordAndReport plan order fills now).Guarantees (TradesCleared c call) (fun _ _ => True) log := by
  refine ⟨fun _ => ⟨htrades, hlog⟩, fun reply => ?_⟩
  cases reply <;> trivial

theorem executePaper_cleared (htrades : c.CanTrade call) (hlog : Cleared log) :
    (c.executePaper plan now).Guarantees (TradesCleared c call) (fun _ _ => True) log :=
  Program.guarantees_ofExcept_bind (fun _ _ => recordAndReport_cleared htrades hlog) fun _ _ => trivial

theorem acceptAcknowledgement_cleared {acknowledgement : LiveOrderAcknowledgement}
    (htrades : c.CanTrade call) (hlog : Cleared log) :
    (acceptAcknowledgement plan acknowledgement now).Guarantees (TradesCleared c call)
      (fun _ _ => True) log := by
  unfold acceptAcknowledgement
  split
  · trivial
  refine Program.guarantees_ofExcept_bind (fun _ _ => ?_) fun _ _ => trivial
  exact Program.guarantees_ofExcept_bind (fun _ _ => recordAndReport_cleared htrades hlog)
    fun _ _ => trivial

theorem recordUnknown_cleared (htrades : c.CanTrade call) (hlog : Cleared log) :
    (recordUnknown plan now).Guarantees (TradesCleared c call) (fun _ _ => True) log := by
  refine Program.guarantees_bind ⟨fun _ => ⟨htrades, hlog⟩, fun reply => ?_⟩
  cases reply with
  | error fault => trivial
  | ok value =>
      refine passive_allowed (Program.only_bind (updateSignalState_passive _ _) fun _ => ?_) _
      trivial

theorem submitLive_cleared (htrades : c.CanTrade call) (hlog : Cleared log) :
    (submitLive plan now).Guarantees (TradesCleared c call) (fun _ _ => True) log := by
  refine Program.guarantees_command_bind (fun _ => ⟨htrades, hlog⟩) fun reply => ?_
  have hsubmitted : Cleared (log ++ [⟨.submitOrder plan plan.correlationId, reply⟩]) :=
    hlog.append (.submitOrder plan plan.correlationId) not_false reply
  cases reply with
  | acknowledged acknowledgement => exact acceptAcknowledgement_cleared htrades hsubmitted
  | raised message => trivial
  | timedOut =>
      refine Program.guarantees_command_bind (fun _ => ⟨htrades, hsubmitted⟩) fun reconciled => ?_
      have hlooked : Cleared (log ++ [⟨.submitOrder plan plan.correlationId, .timedOut⟩] ++
          [⟨.lookupByCorrelation plan.correlationId, reconciled⟩]) :=
        hsubmitted.append (.lookupByCorrelation plan.correlationId) not_false reconciled
      cases reconciled with
      | raised message => trivial
      | found acknowledgement =>
          cases acknowledgement with
          | none => exact recordUnknown_cleared htrades hlooked
          | some acknowledgement => exact acceptAcknowledgement_cleared htrades hlooked

/-- What follows the recording of the signal trades only in the two modes that do. -/
theorem dispatch_cleared (hlog : Cleared log) :
    (c.dispatch plan now).Guarantees (TradesCleared c (.submit plan now)) (fun _ _ => True) log := by
  unfold dispatch
  cases hmode : c.policy.mode with
  | off => exact passive_allowed (block_passive _) _
  | dataOnly => exact passive_allowed (block_passive _) _
  | manualApproval =>
      refine passive_allowed (Program.only_bind (updateSignalState_passive _ _) fun _ => ?_) _
      trivial
  | paperTrading => exact executePaper_cleared (.inl hmode) hlog
  | liveAutomatic =>
      dsimp only [executeLive]
      split
      · exact passive_allowed (block_passive _) _
      split
      · exact passive_allowed (block_passive _) _
      · exact submitLive_cleared (.inr hmode) hlog

/-- Until it has passed the kill-limit check a call does not trade; then it is cleared. -/
theorem afterKillLimits_cleared {α : Type} {next : Unit → Action α}
    (hlog : ∀ event ∈ log, ¬event.1.Ends)
    (hnext : ∀ log', Cleared log' →
      (next ()).Guarantees (TradesCleared c call) (fun _ _ => True) log') :
    (c.checkKillLimits now >>= next).Guarantees (TradesCleared c call) (fun _ _ => True) log := by
  refine Program.guarantees_bind ?_
  refine (checkKillLimits_clears hlog).mono (fun _ _ h => h) fun log' result hresult => ?_
  cases result with
  | error fault => trivial
  | ok value => exact hnext log' (hresult rfl)

/-- A passive program before the rest of a cleared call. -/
theorem passive_bind_cleared {α β : Type} {p : Action α} {next : α → Action β}
    (hp : p.Only Command.Passive) (hlog : Cleared log)
    (hnext : ∀ value log', Cleared log' →
      (next value).Guarantees (TradesCleared c call) (fun _ _ => True) log') :
    (p >>= next).Guarantees (TradesCleared c call) (fun _ _ => True) log := by
  refine Program.guarantees_bind ?_
  refine (passive_guarantees hp hlog).mono (fun _ _ h => h) fun log' result hlog' => ?_
  cases result with
  | error fault => trivial
  | ok value => exact hnext value log' hlog'

theorem submit_cleared : (c.submit plan now).Guarantees (TradesCleared c (.submit plan now))
    (fun _ _ => True) [] := by
  refine Program.guarantees_ofExcept_bind (fun _ _ => ?_) fun _ _ => trivial
  refine afterKillLimits_cleared (by simp) fun log' hlog' => ?_
  refine passive_bind_cleared (validatePlan_passive true) hlog' fun _ log' hlog' => ?_
  exact passive_bind_cleared (recordSignal_passive _) hlog' fun _ _ hlog' => dispatch_cleared hlog'

/-- The checks of an approval pass in one mode only. -/
theorem approvalChecks_mode {actor reason : String} {approvalTime : Datetime}
    (h : c.approvalChecks actor reason approvalTime now = .ok ()) :
    c.policy.mode = .manualApproval := by
  by_contra hmode
  simp [approvalChecks, hmode, bind, Except.bind] at h

theorem approve_cleared {signalId actor reason : String} {approvedAt : Option Datetime} :
    (c.approve signalId actor reason approvedAt now).Guarantees
      (TradesCleared c (.approve signalId actor reason approvedAt now)) (fun _ _ => True) [] := by
  refine Program.guarantees_ofExcept_bind (fun _ hchecks => ?_) fun _ _ => trivial
  have hmode := approvalChecks_mode hchecks
  refine Program.guarantees_bind ?_
  -- Reading the plan is not cleared yet, but no command of it ends the trading either.
  have hread : (awaitingPlan signalId (approvedAt.getD now)).Guarantees
      (TradesCleared c (.approve signalId actor reason approvedAt now))
      (fun log' _ => ∀ event ∈ log', ¬event.1.Ends) [] := by
    refine (awaitingPlan_passive _ _).guarantees (fun _ _ hcmd _ htrades => absurd htrades hcmd.1)
      (fun log cmd reply hcmd hlog event hmem => ?_) (by simp)
    rcases List.mem_append.mp hmem with hmem | hmem
    · exact hlog event hmem
    · rw [List.mem_singleton.mp hmem]
      exact hcmd.2
  refine hread.mono (fun _ _ h => h) fun log' result hlog' => ?_
  cases result with
  | error fault => trivial
  | ok plan =>
      refine afterKillLimits_cleared hlog' fun log' hlog' => ?_
      refine passive_bind_cleared (validatePlan_passive false) hlog' fun _ log' hlog' => ?_
      have hrecord : (recordApproval ⟨signalId, PyText.strip actor, PyText.strip reason,
          approvedAt.getD now⟩).Only Command.Passive :=
        Program.only_bind (issue_passive ⟨not_false, not_false⟩) fun _ => Program.only_ofExcept _
      exact passive_bind_cleared hrecord hlog' fun _ _ hlog' => executePaper_cleared hmode hlog'

/-- Every call trades only while it is cleared. -/
theorem program_cleared (c : ExecutionController) (call : Call) :
    (c.program call).Guarantees (TradesCleared c call) (fun _ _ => True) [] := by
  have hreturn {α : Type} {p : Action α} {f : α → Option ExecutionResult}
      (hp : p.Guarantees (TradesCleared c call) (fun _ _ => True) []) :
      (p >>= fun value => pure (f value)).Guarantees (TradesCleared c call) (fun _ _ => True) [] := by
    refine Program.guarantees_bind (hp.mono (fun _ _ h => h) fun log result _ => ?_)
    cases result <;> trivial
  cases call with
  | submit plan now => exact hreturn submit_cleared
  | approve signalId actor reason approvedAt now => exact hreturn approve_cleared
  | setKillSwitch active actor reason changedAt =>
      refine hreturn ⟨fun htrades => absurd htrades not_false, fun reply => ?_⟩
      cases reply <;> trivial
  | closePosition positionId exitPrice closedAt =>
      exact ⟨fun htrades => absurd htrades not_false, fun reply => trivial⟩

end Programs

/-! ### Runs -/

section Runs

variable {ι : Type} (c : ExecutionController) (calls : ι → Call)

/-- Every call at its start. -/
def Calls.start (w : World) : Calls ι := Pool.start (fun i => c.program (calls i)) w

/-- What a step has to meet: the switch is activated only when no other call is in flight. -/
def Drained (pool : Calls ι) (i : ι) : Prop :=
  match (pool.threads i).program with
  | .call (.setKillSwitch true _ _ _) _ => ∀ j, j ≠ i → ¬InFlight c (calls j) (pool.threads j)
  | _ => True

instance [Fintype ι] [DecidableEq ι] (pool : Calls ι) (i : ι) : Decidable (Drained c calls pool i) := by
  unfold Drained
  split <;> infer_instance

/-- The step resets the switch. -/
def ResetsSwitch (pool : Calls ι) (i : ι) : Prop :=
  match (pool.threads i).program with
  | .call (.setKillSwitch false _ _ _) _ => True
  | _ => False

instance (pool : Calls ι) (i : ι) : Decidable (ResetsSwitch pool i) := by
  unfold ResetsSwitch
  split <;> infer_instance

/-- No gateway call has started and no order, fill or position has been added. -/
structure Frozen (w w' : World) : Prop where
  gatewayCalls : w'.gatewayCalls = w.gatewayCalls
  orders : w'.ledger.orders = w.ledger.orders
  fills : w'.ledger.fills = w.ledger.fills
  positions : w'.ledger.positions.map (·.positionId) = w.ledger.positions.map (·.positionId)

theorem Frozen.refl (w : World) : Frozen w w := ⟨rfl, rfl, rfl, rfl⟩

theorem Frozen.trans {w w' w'' : World} (h : Frozen w w') (h' : Frozen w' w'') : Frozen w w'' where
  gatewayCalls := h'.gatewayCalls.trans h.gatewayCalls
  orders := h'.orders.trans h.orders
  fills := h'.fills.trans h.fills
  positions := h'.positions.trans h.positions

/-- Calls that keep to their programs; once the switch is active, none of them is in flight. -/
structure Quiescent (pool : Calls ι) : Prop where
  programs : ∀ i, (pool.threads i).program.Guarantees (TradesCleared c (calls i)) (fun _ _ => True)
    (pool.threads i).log
  drained : pool.state.ledger.killSwitch.active = true → ∀ i, ¬InFlight c (calls i) (pool.threads i)

end Runs

/-! ### Steps -/

section Steps

variable (live : Option LiveBrokerGateway) (cmd : Command) (w : World)

/-- A command that does not trade adds no execution. -/
theorem Effect.adds_nothing {cmd : Command} {reply : cmd.Reply} {L L' : Ledger}
    (h : Effect cmd reply L L') (hcmd : ¬cmd.Trades) :
    L'.orders = L.orders ∧ L'.fills = L.fills ∧
      L'.positions.map (·.positionId) = L.positions.map (·.positionId) := by
  cases h with
  | recordExecution => exact absurd trivial hcmd
  | closePosition day stored journal events =>
      refine ⟨rfl, rfl, ?_⟩
      simp only [Ledger.setPositionClosed, List.map_map]
      refine List.map_congr_left fun p _ => ?_
      dsimp only [Function.comp_apply]
      split <;> rfl
  | _ => exact ⟨rfl, rfl, rfl⟩

/-- A command that does not trade leaves the gateway and the executions alone. -/
theorem perform_frozen (hcmd : ¬cmd.Trades) : Frozen w (perform live cmd w).2 := by
  have hgateway : (perform live cmd w).2.gatewayCalls = w.gatewayCalls := by
    cases cmd with
    | submitOrder plan correlationId => exact absurd trivial hcmd
    | lookupByCorrelation correlationId => exact absurd trivial hcmd
    | _ => simp [perform]
  obtain ⟨horders, hfills, hpositions⟩ := (perform_effect live cmd w).adds_nothing hcmd
  exact ⟨hgateway, horders, hfills, hpositions⟩

/-- An active switch stays active unless the command resets it. -/
theorem perform_active (hactive : w.ledger.killSwitch.active = true)
    (hcmd : ∀ reason actor changedAt, cmd ≠ .setKillSwitch false reason actor changedAt) :
    (perform live cmd w).2.ledger.killSwitch.active = true := by
  have heffect := perform_effect live cmd w
  generalize (perform live cmd w).1 = reply at heffect
  generalize (perform live cmd w).2.ledger = L' at heffect ⊢
  cases heffect with
  | setKillSwitch row events hrow =>
      rename_i active reason actor changedAt
      cases active with
      | true => exact hrow
      | false => exact absurd rfl (hcmd reason actor changedAt)
  | _ => exact hactive

/-- The switch becomes active only when a command activates it. -/
theorem perform_activates (hinactive : ¬w.ledger.killSwitch.active = true)
    (hactive : (perform live cmd w).2.ledger.killSwitch.active = true) :
    ∃ reason actor changedAt, cmd = .setKillSwitch true reason actor changedAt := by
  have heffect := perform_effect live cmd w
  generalize (perform live cmd w).1 = reply at heffect
  generalize (perform live cmd w).2.ledger = L' at heffect hactive
  cases heffect with
  | setKillSwitch row events hrow =>
      rename_i active reason actor changedAt
      obtain rfl : active = true := hrow.symm.trans hactive
      exact ⟨reason, actor, changedAt, rfl⟩
  | _ => exact absurd hactive hinactive

end Steps

section Quiescence

variable {ι : Type} {c : ExecutionController} {calls : ι → Call} {pool : Calls ι} {i : ι}

theorem Quiescent.start (w : World) : Quiescent c calls (Calls.start c calls w) where
  programs i := program_cleared c (calls i)
  drained _ i h := by
    obtain ⟨_, _, ⟨event, hmem, _⟩, _⟩ := h
    exact absurd hmem List.not_mem_nil

/-- Once the switch is active a call that still has a command does not trade. -/
theorem Quiescent.not_trades (h : Quiescent c calls pool)
    (hactive : pool.state.ledger.killSwitch.active = true) {cmd : Command}
    {next : cmd.Reply → Action (Option ExecutionResult)}
    (hprogram : (pool.threads i).program = .call cmd next) : ¬cmd.Trades := by
  intro htrades
  have hguarantee := h.programs i
  rw [hprogram] at hguarantee
  obtain ⟨hcan, hcleared⟩ := hguarantee.1 htrades
  exact h.drained hactive i ⟨hcan, by simp [hprogram, Program.Finished], hcleared⟩

variable [DecidableEq ι]

/-- A step that activates the switch only when nothing else is in flight keeps the calls quiescent. -/
theorem Quiescent.step (h : Quiescent c calls pool) (hdrained : Drained c calls pool i) :
    Quiescent c calls (Pool.step (perform c.live) pool i) := by
  rcases hprogram : (pool.threads i).program with value | fault | ⟨cmd, next⟩
  · simpa [Pool.step, hprogram] using h
  · simpa [Pool.step, hprogram] using h
  have hguarantee := h.programs i
  rw [hprogram] at hguarantee
  have hothers (k : ι) (hk : k ≠ i) : (Pool.step (perform c.live) pool i).threads k = pool.threads k := by
    simp [Pool.step, hprogram, hk]
  have hlog : ((Pool.step (perform c.live) pool i).threads i).log =
      (pool.threads i).log ++ [⟨cmd, (perform c.live cmd pool.state).1⟩] := by
    simp [Pool.step, hprogram]
  have hstate : (Pool.step (perform c.live) pool i).state = (perform c.live cmd pool.state).2 := by
    simp [Pool.step, hprogram]
  refine ⟨fun k => ?_, fun hactive k hflight => ?_⟩
  · by_cases hk : k = i
    · subst hk
      simpa [Pool.step, hprogram] using hguarantee.2 _
    · rw [hothers k hk]
      exact h.programs k
  · rw [hstate] at hactive
    obtain ⟨hcan, hunfinished, hcleared⟩ := hflight
    by_cases hbefore : pool.state.ledger.killSwitch.active = true
    · by_cases hk : k = i
      · -- A read of the active switch does not clear a call.
        subst hk
        rw [hlog] at hcleared
        refine h.drained hbefore k ⟨hcan, by simp [hprogram, Program.Finished], hcleared.before ?_⟩
        intro hread
        cases cmd with
        | killSwitch => exact absurd hbefore (by simpa [ReadsClear, perform] using hread)
        | _ => exact hread
      · rw [hothers k hk] at hunfinished hcleared
        exact h.drained hbefore k ⟨hcan, hunfinished, hcleared⟩
    · obtain ⟨reason, actor, changedAt, rfl⟩ := perform_activates c.live cmd pool.state hbefore hactive
      by_cases hk : k = i
      · subst hk
        rw [hlog] at hcleared
        exact hcleared.2 _ (List.mem_append_right _ (List.mem_singleton_self _)) trivial
      · rw [hothers k hk] at hunfinished hcleared
        rw [Drained, hprogram] at hdrained
        exact hdrained k hk ⟨hcan, hunfinished, hcleared⟩

/-- Once the switch is active, a step that does not reset it trades nothing and leaves it active. -/
theorem Quiescent.frozen_step (h : Quiescent c calls pool)
    (hactive : pool.state.ledger.killSwitch.active = true) (hkept : ¬ResetsSwitch pool i) :
    Frozen pool.state (Pool.step (perform c.live) pool i).state ∧
      (Pool.step (perform c.live) pool i).state.ledger.killSwitch.active = true := by
  rcases hprogram : (pool.threads i).program with value | fault | ⟨cmd, next⟩
  · simpa [Pool.step, hprogram] using ⟨Frozen.refl _, hactive⟩
  · simpa [Pool.step, hprogram] using ⟨Frozen.refl _, hactive⟩
  have hstate : (Pool.step (perform c.live) pool i).state = (perform c.live cmd pool.state).2 := by
    simp [Pool.step, hprogram]
  rw [hstate]
  refine ⟨perform_frozen c.live cmd pool.state (h.not_trades hactive hprogram),
    perform_active c.live cmd pool.state hactive fun reason actor changedAt hcmd => hkept ?_⟩
  subst hcmd
  simp [ResetsSwitch, hprogram]

end Quiescence

/-- The kill switch halts every call, in every run that activates it only when no call is in flight: from
any moment at which the switch is active until a reset, no gateway call starts, no order, fill or
position is added, and the switch stays active. -/
theorem runSchedule_halts {ι : Type} [DecidableEq ι] (c : ExecutionController) (calls : ι → Call)
    (w : World) (before rest : List ι)
    (hdrained : Pool.EveryStep (perform c.live) (Drained c calls) (Calls.start c calls w) (before ++ rest))
    (hactive : (Pool.runSchedule (perform c.live) (Calls.start c calls w)
      before).state.ledger.killSwitch.active = true)
    (hkept : Pool.EveryStep (perform c.live) (fun pool i => ¬ResetsSwitch pool i)
      (Pool.runSchedule (perform c.live) (Calls.start c calls w) before) rest) :
    let halted := (Pool.runSchedule (perform c.live) (Calls.start c calls w) before).state
    let later := (Pool.runSchedule (perform c.live) (Calls.start c calls w) (before ++ rest)).state
    Frozen halted later ∧ later.ledger.killSwitch.active = true := by
  dsimp only
  obtain ⟨hfirst, hrest⟩ := Pool.everyStep_append.mp hdrained
  rw [Pool.runSchedule_append]
  have hquiescent : Quiescent c calls (Pool.runSchedule (perform c.live) (Calls.start c calls w) before) :=
    Pool.runSchedule_invariant (fun _ _ hcondition h => h.step hcondition) hfirst (.start w)
  generalize Pool.runSchedule (perform c.live) (Calls.start c calls w) before = pool at *
  have hstep (later : Calls ι) (i : ι) (hcondition : Drained c calls later i ∧ ¬ResetsSwitch later i)
      (hlater : Quiescent c calls later ∧ Frozen pool.state later.state ∧
        later.state.ledger.killSwitch.active = true) :
      Quiescent c calls (Pool.step (perform c.live) later i) ∧
        Frozen pool.state (Pool.step (perform c.live) later i).state ∧
        (Pool.step (perform c.live) later i).state.ledger.killSwitch.active = true := by
    obtain ⟨hquiescent, hfrozen, hactive⟩ := hlater
    obtain ⟨hstep, hactive'⟩ := hquiescent.frozen_step hactive hcondition.2
    exact ⟨hquiescent.step hcondition.1, hfrozen.trans hstep, hactive'⟩
  have hinv := Pool.runSchedule_invariant hstep (hrest.and hkept) ⟨hquiescent, .refl _, hactive⟩
  exact hinv.2

/-- A submission, an operator who sets the switch, and a second submission. -/
def haltedCalls : Fin 3 → Call
  | 0 => .submit (.sample "s1" "c1" "101") (.utc 0)
  | 1 => .setKillSwitch true "operator" "halt" (.utc 0)
  | 2 => .submit (.sample "s2" "c2" "101") (.utc 0)

/-- The switch is set after the first submission has ended and before the second one reads it. -/
theorem runSchedule_halts_drained :
    let controller := liveController (fillingGateway id id)
    let start := Calls.start controller haltedCalls (.fresh 0)
    let before := List.replicate 8 0 ++ [1]
    Frozen (Pool.runSchedule (perform controller.live) start before).state
        (Pool.runSchedule (perform controller.live) start (before ++ [2, 2])).state ∧
      (Pool.runSchedule (perform controller.live) start
        (before ++ [2, 2])).state.ledger.killSwitch.active = true :=
  runSchedule_halts (liveController (fillingGateway id id)) haltedCalls (.fresh 0)
    (List.replicate 8 0 ++ [1]) [2, 2] (by decide +kernel) (by decide +kernel) (by decide +kernel)

/-- When the switch is set after a submission has passed its checks, the submission still invokes the
gateway and records its order, its fill and its position. -/
theorem runSchedule_trades_after_halt :
    let controller := liveController (fillingGateway id id)
    let start := Calls.start controller haltedCalls (.fresh 0)
    let before := List.replicate 6 0 ++ [1]
    let halted := (Pool.runSchedule (perform controller.live) start before).state
    let later := (Pool.runSchedule (perform controller.live) start (before ++ [0, 0])).state
    halted.ledger.killSwitch.active = true ∧ later.ledger.killSwitch.active = true ∧
      halted.gatewayCalls = [] ∧ later.gatewayCalls = [.submitOrder (.sample "s1" "c1" "101") "c1"] ∧
      halted.ledger.orders = [] ∧ later.ledger.orders.map (·.orderId) = ["c1"] ∧
      later.ledger.fills.length = 1 ∧ later.ledger.positions.length = 1 ∧ ¬Frozen halted later := by
  refine ⟨by decide +kernel, by decide +kernel, by decide +kernel, by decide +kernel, by decide +kernel,
    by decide +kernel, by decide +kernel, by decide +kernel, fun h => ?_⟩
  exact absurd h.gatewayCalls (by decide +kernel)

end TecoQuant.Execution
