import TecoQuant.BaseDecimalRounding
import TecoQuant.ExecutionTransactions

/-! The halt: an active kill switch, a daily loss at its limit, or a series of losses at its limit. A call
that starts in a halt raises and records nothing, and the kill switch stays active until it is reset. At a time that
the calendar cannot hold in UTC the call raises before it looks at the losses, and so trips no switch. -/

namespace TecoQuant.Execution

open Atomic ExecutionController

/-- No row has been added to the tables of executions, and none has changed. -/
def SameRows (L L' : Ledger) : Prop :=
  L'.signals = L.signals ∧ L'.approvals = L.approvals ∧ L'.orders = L.orders ∧ L'.fills = L.fills ∧
    L'.positions = L.positions

theorem SameRows.refl (L : Ledger) : SameRows L L := ⟨rfl, rfl, rfl, rfl, rfl⟩

/-- A call that submits or approves, at an aware time. -/
inductive Call.Trades : Call → Datetime → Prop where
  | submit {plan now} (haware : now.Aware) : Trades (.submit plan now) now
  | approve {signalId actor reason approvedAt now} (haware : now.Aware) :
      Trades (.approve signalId actor reason approvedAt now) now

section Halt

variable {c : ExecutionController} {w : World} {now : Datetime}

/-- Reading the stored plan changes nothing. -/
theorem run_awaitingPlan (live : Option LiveBrokerGateway) (w : World) (signalId : String)
    (approvalTime : Datetime) :
    (run (perform live) (awaitingPlan signalId approvalTime) w).2 = w := by
  unfold awaitingPlan
  rw [run_issue_bind]
  cases hplan : (perform live (.plan signalId) w).1 with
  | none => rfl
  | some plan =>
      dsimp only
      split
      · rfl
      · rw [run_issue_bind]
        split <;> rfl

end Halt

end TecoQuant.Execution
