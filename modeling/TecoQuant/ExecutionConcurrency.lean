import Mathlib.Data.Fintype.Basic
import Mathlib.Data.List.Pairwise
import TecoQuant.ExecutionLiveRecord

/-! Concurrent submissions on one controller and one ledger. Every ledger read, every transaction and
every gateway call is one step; any number of submissions interleave, and nothing closes a position. The
open-position check and the recording of the position are separate steps, so two submissions for one
security can both pass the check. Runs in which no submission checks while another one is under way for
the same security keep one order for each security, and record what the gateway has filled. -/

namespace TecoQuant.Execution

open Atomic ExecutionController

/-- Submissions under way. -/
abbrev Submissions (ι : Type) := Pool ι Command Command.Reply World Fault ExecutionResult

section Definitions

variable {ι : Type} (c : ExecutionController) (plans : ι → TradePlan)

/-- Every submission at its start. -/
def Submissions.start (now : ι → Datetime) (w : World) : Submissions ι :=
  Pool.start (fun i => c.submit (plans i) (now i)) w

/-- A submission that has ended without invoking the gateway. -/
def Harmless (plan : TradePlan) (thread : Thread Command Command.Reply Fault ExecutionResult) : Prop :=
  thread.program.Finished ∧ ¬ReachedGateway plan thread.log

/-- What a step has to meet. A submission checks for an open position only when every other submission
for its security that has passed its own check is harmless, or has its position open; and it records an
accepted acknowledgement whose ids are new and whose numbers fit. -/
def Serialized (pool : Submissions ι) (i : ι) : Prop :=
  match (pool.threads i).program with
  | .call (.openPositionForSecurity securityId) _ =>
      ∀ j, j ≠ i → (plans j).securityId = securityId → Passed (plans j) (pool.threads j).log →
        Harmless (plans j) (pool.threads j) ∨
          ∃ p ∈ pool.state.ledger.positions, p.state = .opened ∧ p.securityId = securityId
  | .call (.recordExecution ..) _ =>
      ∀ acknowledgement, Acknowledged (plans i) (pool.threads i).log acknowledgement →
        Acceptable (plans i) acknowledgement → Recordable pool.state.ledger (plans i) acknowledgement
  | _ => True

/-- A submission has recorded an order with fills. -/
def RecordedFill (log : Log) : Prop :=
  ∃ order fills now, ⟨.recordExecution order fills now, .ok ()⟩ ∈ log ∧ 0 < order.filledQuantity

/-- One order for each security: no two submissions for a security reach the gateway, no two record an
order with fills, and every filled acknowledgement is recorded once its submission has ended. -/
structure OnePerSecurity (pool : Submissions ι) : Prop where
  gateway : ∀ i j, i ≠ j → (plans i).securityId = (plans j).securityId →
    ¬(ReachedGateway (plans i) (pool.threads i).log ∧ ReachedGateway (plans j) (pool.threads j).log)
  fills : ∀ i j, i ≠ j → (plans i).securityId = (plans j).securityId →
    ¬(RecordedFill (pool.threads i).log ∧ RecordedFill (pool.threads j).log)
  recorded : ∀ i acknowledgement, (pool.threads i).program.Finished →
    Acknowledged (plans i) (pool.threads i).log acknowledgement →
    Acceptable (plans i) acknowledgement → 0 < acknowledgement.filledQuantity.toInt →
    ∃ o ∈ pool.state.ledger.orders, o.orderId = acknowledgement.brokerOrderId ∧
      o.signalId = (plans i).signalId ∧ ∃ p ∈ pool.state.ledger.positions, Opens o p

end Definitions

/-! ### The condition is decidable -/

/-- The acknowledgement an event carries for a plan. -/
def acknowledgementOf (plan : TradePlan) : Event Command Command.Reply → Option LiveOrderAcknowledgement
  | ⟨.submitOrder submitted correlationId, .acknowledged acknowledgement⟩ =>
      if submitted = plan ∧ correlationId = plan.correlationId then some acknowledgement else none
  | ⟨.lookupByCorrelation correlationId, .found (some acknowledgement)⟩ =>
      if correlationId = plan.correlationId then some acknowledgement else none
  | _ => none

theorem acknowledged_iff {plan : TradePlan} {log : Log} {acknowledgement : LiveOrderAcknowledgement} :
    Acknowledged plan log acknowledgement ↔ acknowledgement ∈ log.filterMap (acknowledgementOf plan) := by
  rw [List.mem_filterMap]
  constructor
  · rintro (hmem | hmem)
    · exact ⟨_, hmem, by simp [acknowledgementOf]⟩
    · exact ⟨_, hmem, by simp [acknowledgementOf]⟩
  · rintro ⟨event, hmem, hevent⟩
    unfold acknowledgementOf at hevent
    split at hevent
    · obtain ⟨⟨rfl, rfl⟩, heq⟩ := Option.ite_none_right_eq_some.mp hevent
      cases heq
      exact .inl hmem
    · obtain ⟨rfl, heq⟩ := Option.ite_none_right_eq_some.mp hevent
      cases heq
      exact .inr hmem
    · cases hevent

instance (plan : TradePlan) (log : Log) : Decidable (ReachedGateway plan log) :=
  decidable_of_iff (∃ event ∈ log, event.1 = .submitOrder plan plan.correlationId)
    ⟨fun ⟨⟨cmd, reply⟩, hmem, heq⟩ => by cases heq; exact ⟨reply, hmem⟩,
      fun ⟨reply, hmem⟩ => ⟨_, hmem, rfl⟩⟩

instance (plan : TradePlan) (log : Log) (P : LiveOrderAcknowledgement → Prop) [∀ a, Decidable (P a)] :
    Decidable (∀ acknowledgement, Acknowledged plan log acknowledgement → P acknowledgement) :=
  decidable_of_iff (∀ acknowledgement ∈ log.filterMap (acknowledgementOf plan), P acknowledgement)
    (by simp only [acknowledged_iff])

instance {ι : Type} [Fintype ι] [DecidableEq ι] (plans : ι → TradePlan) (pool : Submissions ι) (i : ι) :
    Decidable (Serialized plans pool i) := by
  unfold Serialized Harmless Passed
  split <;> infer_instance

/-! ### What the log of a submission tells -/

/-- The facts every log of a submission has, whatever its replies. -/
structure WellLogged (c : ExecutionController) (plan : TradePlan) (log : Log) : Prop where
  own : ∀ recorded, Recorded recorded log → recorded = plan
  reached : ReachedGateway plan log → Passed plan log ∧ c.policy.mode = .liveAutomatic
  acknowledged : ∀ acknowledgement, Acknowledged plan log acknowledgement → ReachedGateway plan log
  executed : ∀ order fills now reply, ⟨.recordExecution order fills now, reply⟩ ∈ log →
    (Balanced order fills ∧ OrderOf plan order) ∧ Recorded plan log ∧ Passed plan log

section Logs

variable {c : ExecutionController} {plan : TradePlan} {log : Log} {cmd : Command}

theorem WellLogged.nil : WellLogged c plan [] where
  own _ h := by simp [Recorded] at h
  reached h := by simp [ReachedGateway] at h
  acknowledged _ h := by simp [Acknowledged] at h
  executed _ _ _ _ h := by simp at h

/-- An allowed command keeps the facts. -/
theorem WellLogged.append (h : WellLogged c plan log) (hcmd : SubmitAllowed c plan log cmd)
    (reply : cmd.Reply) : WellLogged c plan (log ++ [⟨cmd, reply⟩]) where
  own recorded := by
    rintro ⟨t, hmem⟩
    rcases List.mem_append.mp hmem with hmem | hmem
    · exact h.own recorded ⟨t, hmem⟩
    · cases List.mem_singleton.mp hmem
      exact hcmd.1
  reached := by
    rintro ⟨reached, hmem⟩
    rcases List.mem_append.mp hmem with hmem | hmem
    · exact ⟨List.mem_append_left _ (h.reached ⟨reached, hmem⟩).1, (h.reached ⟨reached, hmem⟩).2⟩
    · cases List.mem_singleton.mp hmem
      exact ⟨List.mem_append_left _ hcmd.2.2.2.1, hcmd.2.2.1⟩
  acknowledged acknowledgement := by
    have hleft : ReachedGateway plan log → ReachedGateway plan (log ++ [⟨cmd, reply⟩]) :=
      fun ⟨reached, hmem⟩ => ⟨reached, List.mem_append_left _ hmem⟩
    rintro (hmem | hmem)
    · exact ⟨_, hmem⟩
    · rcases List.mem_append.mp hmem with hmem | hmem
      · exact hleft (h.acknowledged acknowledgement (.inr hmem))
      · cases List.mem_singleton.mp hmem
        exact hleft hcmd.2
  executed order fills now executed := by
    have hleft : Recorded plan log → Recorded plan (log ++ [⟨cmd, reply⟩]) :=
      fun ⟨t, hmem⟩ => ⟨t, List.mem_append_left _ hmem⟩
    intro hmem
    rcases List.mem_append.mp hmem with hmem | hmem
    · obtain ⟨horder, hrecorded, hpassed⟩ := h.executed order fills now executed hmem
      exact ⟨horder, hleft hrecorded, List.mem_append_left _ hpassed⟩
    · cases List.mem_singleton.mp hmem
      exact ⟨hcmd.2.2.2.2.balanced, hleft hcmd.2.2.1, List.mem_append_left _ hcmd.2.1⟩

end Logs

/-! ### Steps -/

/-- A submission issues no command that closes a position. -/
theorem Effect.positions {c : ExecutionController} {plan : TradePlan} {log : Log} {cmd : Command}
    {reply : cmd.Reply} {L L' : Ledger} (h : Effect cmd reply L L')
    (hcmd : SubmitAllowed c plan log cmd) (p : PositionRow) :
    p ∈ L'.positions ↔ p ∈ L.positions ∨ ∃ order fills now, (⟨cmd, reply⟩ : Event _ _) =
      ⟨.recordExecution order fills now, .ok ()⟩ ∧ p ∈ Ledger.storedPosition order now := by
  cases h with
  | recordExecution journal events horder hposition =>
      constructor
      · intro hp
        rcases List.mem_append.mp hp with hp | hp
        · exact .inl hp
        · exact .inr ⟨_, _, _, rfl, by simpa using hp⟩
      · rintro (hp | ⟨_, _, _, heq, hp⟩)
        · exact List.mem_append_left _ hp
        · cases heq
          exact List.mem_append_right _ (by simpa using hp)
  | closePosition => exact hcmd.elim
  | unchanged hnot =>
      refine ⟨.inl, fun h => h.resolve_right ?_⟩
      rintro ⟨order, fills, now, heq, _⟩
      cases heq
      exact hnot trivial
  | _ => exact ⟨.inl, fun h => h.resolve_right fun ⟨_, _, _, heq, _⟩ => by cases heq⟩

/-- One submission has executed one command. -/
structure StepOf {ι : Type} (c : ExecutionController) (plans : ι → TradePlan)
    (pool pool' : Submissions ι) (i : ι) (cmd : Command) : Prop where
  unfinished : ¬(pool.threads i).program.Finished
  allowed : SubmitAllowed c (plans i) (pool.threads i).log cmd
  serialized : ∃ next, (pool.threads i).program = .call cmd next
  log : (pool'.threads i).log = (pool.threads i).log ++ [⟨cmd, (perform c.live cmd pool.state).1⟩]
  others : ∀ k, k ≠ i → pool'.threads k = pool.threads k
  state : pool'.state = (perform c.live cmd pool.state).2

/-- Submissions that keep to their programs and hold one another off. -/
structure Orderly {ι : Type} (c : ExecutionController) (plans : ι → TradePlan)
    (pool : Submissions ι) : Prop where
  programs : ∀ i, (pool.threads i).program.Guarantees (SubmitAllowed c (plans i))
    (fun log _ => SubmitEnds (plans i) log) (pool.threads i).log
  logged : ∀ i, WellLogged c (plans i) (pool.threads i).log
  consistent : pool.state.ledger.Consistent
  tracks : ∀ i, Tracks (pool.threads i).log pool.state.ledger
  distinct : ∀ i j, i ≠ j → Recorded (plans i) (pool.threads i).log →
    Recorded (plans j) (pool.threads j).log → (plans i).signalId ≠ (plans j).signalId
  exclusive : ∀ i j, i ≠ j → (plans i).securityId = (plans j).securityId →
    Passed (plans i) (pool.threads i).log → Passed (plans j) (pool.threads j).log →
    Harmless (plans i) (pool.threads i) ∨ Harmless (plans j) (pool.threads j)
  unopened : ∀ i, Passed (plans i) (pool.threads i).log → ¬(pool.threads i).program.Finished →
    ∀ p ∈ pool.state.ledger.positions, p.state = .opened → p.securityId = (plans i).securityId →
    Executed (pool.threads i).log
  stored : ∀ i order fills now, ⟨.recordExecution order fills now, .ok ()⟩ ∈ (pool.threads i).log →
    Ledger.storedOrder order ∈ pool.state.ledger.orders ∧
      ∀ p ∈ Ledger.storedPosition order now, p ∈ pool.state.ledger.positions
  recorded : c.policy.mode = .liveAutomatic → ∀ i order fills now reply,
    ⟨.recordExecution order fills now, reply⟩ ∈ (pool.threads i).log → 0 < order.filledQuantity →
    reply = .ok ()

section Steps

variable {ι : Type} {c : ExecutionController} {plans : ι → TradePlan} {pool pool' : Submissions ι}
  {i : ι} {cmd : Command}

theorem StepOf.effect (hstep : StepOf c plans pool pool' i cmd) :
    Effect cmd (perform c.live cmd pool.state).1 pool.state.ledger pool'.state.ledger :=
  hstep.state ▸ perform_effect c.live cmd pool.state

/-- A step adds one event to one log. -/
theorem StepOf.mem_log (hstep : StepOf c plans pool pool' i cmd) {k : ι}
    {event : Event Command Command.Reply} :
    event ∈ (pool'.threads k).log ↔ event ∈ (pool.threads k).log ∨
      k = i ∧ event = ⟨cmd, (perform c.live cmd pool.state).1⟩ := by
  by_cases hk : k = i
  · subst hk
    rw [hstep.log]
    simp
  · rw [hstep.others k hk]
    simp [hk]

/-- Submissions for one security hold one another off after the step, too. -/
theorem Orderly.exclusive_step (h : Orderly c plans pool) (hstep : StepOf c plans pool pool' i cmd)
    (hserialized : Serialized plans pool i) {j k : ι} (hne : j ≠ k)
    (hsecurity : (plans j).securityId = (plans k).securityId)
    (hj : Passed (plans j) (pool'.threads j).log) (hk : Passed (plans k) (pool'.threads k).log) :
    Harmless (plans j) (pool'.threads j) ∨ Harmless (plans k) (pool'.threads k) := by
  -- The submission that steps meets another one that has passed its check.
  have hmeets {k : ι} (hne : i ≠ k) (hsecurity : (plans i).securityId = (plans k).securityId)
      (hi : Passed (plans i) (pool'.threads i).log) (hk : Passed (plans k) (pool.threads k).log) :
      Harmless (plans k) (pool.threads k) := by
    rcases hstep.mem_log.mp hi with hi | ⟨-, hi⟩
    · exact (h.exclusive i k hne hsecurity hi hk).resolve_left fun hi => hstep.unfinished hi.1
    · obtain rfl : Command.openPositionForSecurity (plans i).securityId = cmd := congrArg Sigma.fst hi
      obtain ⟨next, hprogram⟩ := hstep.serialized
      rw [Serialized, hprogram] at hserialized
      refine (hserialized k hne.symm hsecurity.symm hk).resolve_right ?_
      rintro ⟨p, hp, hopen⟩
      have hnone : none = pool.state.ledger.openPositionForSecurity (plans i).securityId := by
        simpa [perform] using hi
      have hnot := List.find?_eq_none.mp hnone.symm p hp
      simp [hopen] at hnot
  by_cases hji : j = i
  · subst hji
    rw [hstep.others k hne.symm] at hk ⊢
    exact .inr (hmeets hne hsecurity hj hk)
  · by_cases hki : k = i
    · subst hki
      rw [hstep.others j hne] at hj ⊢
      exact .inl (hmeets hne.symm hsecurity.symm hk hj)
    · rw [hstep.others j hji] at hj ⊢
      rw [hstep.others k hki] at hk ⊢
      exact h.exclusive j k hne hsecurity hj hk

theorem StepOf.allowed_order (hstep : StepOf c plans pool pool' i cmd) {order : BrokerOrder}
    {fills : List BrokerFill} {now : Datetime} (hcmd : cmd = .recordExecution order fills now) :
    (Balanced order fills ∧ OrderOf (plans i) order) ∧ Recorded (plans i) (pool.threads i).log ∧
      Passed (plans i) (pool.threads i).log := by
  have hallowed := hstep.allowed
  rw [hcmd] at hallowed
  exact ⟨hallowed.2.2.2.2.balanced, hallowed.2.2.1, hallowed.2.1⟩

/-- A submission under way that has passed its check sees no open position but its own. -/
theorem Orderly.unopened_step (h : Orderly c plans pool) (hstep : StepOf c plans pool pool' i cmd)
    {k : ι} (hpassed : Passed (plans k) (pool'.threads k).log)
    (hunfinished : ¬(pool'.threads k).program.Finished) {p : PositionRow}
    (hp : p ∈ pool'.state.ledger.positions) (hopen : p.state = .opened)
    (hsecurity : p.securityId = (plans k).securityId) : Executed (pool'.threads k).log := by
  have hkeep : Executed (pool.threads k).log → Executed (pool'.threads k).log :=
    fun ⟨order, fills, now, reply, hmem⟩ => ⟨order, fills, now, reply, hstep.mem_log.mpr (.inl hmem)⟩
  have hbefore : ¬(pool.threads k).program.Finished := by
    by_cases hk : k = i
    · exact hk ▸ hstep.unfinished
    · rwa [hstep.others k hk] at hunfinished
  rcases (hstep.effect.positions hstep.allowed p).mp hp with hp | ⟨order, fills, now, heq, hnew⟩
  · rcases hstep.mem_log.mp hpassed with hpassed | ⟨-, heq⟩
    · exact hkeep (h.unopened k hpassed hbefore p hp hopen hsecurity)
    · obtain rfl : Command.openPositionForSecurity (plans k).securityId = cmd := congrArg Sigma.fst heq
      have hnone : none = pool.state.ledger.openPositionForSecurity (plans k).securityId := by
        simpa [perform] using heq
      have hnot := List.find?_eq_none.mp hnone.symm p hp
      simp [hopen, hsecurity] at hnot
  · obtain ⟨⟨_, horder⟩, _, hpassed'⟩ := hstep.allowed_order (congrArg Sigma.fst heq)
    by_cases hk : k = i
    · exact ⟨order, fills, now, _, hstep.mem_log.mpr (.inr ⟨hk, heq.symm⟩)⟩
    · -- Another submission for this security has passed its check and is under way.
      have hsame : (plans k).securityId = (plans i).securityId :=
        hsecurity.symm.trans ((Ledger.storedPosition_opens hnew).1.2.1.trans horder.2.2)
      rw [hstep.others k hk] at hpassed
      rcases h.exclusive k i hk hsame hpassed hpassed' with hharmless | hharmless
      · exact absurd hharmless.1 hbefore
      · exact absurd hharmless.1 hstep.unfinished

/-- A recorded signal is in the ledger. -/
theorem Orderly.known (h : Orderly c plans pool) {k : ι}
    (hrecorded : Recorded (plans k) (pool.threads k).log) :
    ∃ s ∈ pool.state.ledger.signals, s.plan = plans k ∧ s.signalId = (plans k).signalId ∧
      s.correlationId = (plans k).correlationId := by
  obtain ⟨s, hs, hplan⟩ := (h.tracks k).known _ (.inl hrecorded)
  obtain ⟨hid, hcorrelation⟩ := h.consistent.signal_plan s hs
  exact ⟨s, hs, hplan, hid.trans (hplan ▸ rfl), hcorrelation.trans (hplan ▸ rfl)⟩

theorem Orderly.distinct_step (h : Orderly c plans pool) (hstep : StepOf c plans pool pool' i cmd)
    {j k : ι} (hne : j ≠ k) (hj : Recorded (plans j) (pool'.threads j).log)
    (hk : Recorded (plans k) (pool'.threads k).log) : (plans j).signalId ≠ (plans k).signalId := by
  -- The signal a step records differs from every signal recorded before.
  have hfresh {k : ι} {t : Datetime} (hk : Recorded (plans k) (pool.threads k).log)
      (heq : (⟨.recordSignal (plans i) .received t, .ok ()⟩ : Event Command Command.Reply) =
        ⟨cmd, (perform c.live cmd pool.state).1⟩) : (plans i).signalId ≠ (plans k).signalId := by
    obtain ⟨s, hs, _, hid, _⟩ := h.known hk
    have heffect := hstep.effect
    generalize (perform c.live cmd pool.state).1 = reply at heq heffect
    cases heq
    generalize pool'.state.ledger = L' at heffect
    cases heffect with
    | unchanged hnot => exact absurd trivial hnot
    | recordSignal events hfree => exact fun hsame => (hfree s hs).1 (hid.trans hsame.symm)
  obtain ⟨t, hmem⟩ := hj
  obtain ⟨u, hmem'⟩ := hk
  rcases hstep.mem_log.mp hmem with hmem | ⟨rfl, heq⟩
  · rcases hstep.mem_log.mp hmem' with hmem' | ⟨rfl, heq⟩
    · exact h.distinct j k hne ⟨t, hmem⟩ ⟨u, hmem'⟩
    · exact (hfresh ⟨t, hmem⟩ heq).symm
  · rcases hstep.mem_log.mp hmem' with hmem' | ⟨rfl, _⟩
    · exact hfresh ⟨u, hmem'⟩ heq
    · exact absurd rfl hne

/-- The ledger keeps what it holds of every submission. -/
theorem Orderly.tracks_step (h : Orderly c plans pool) (hstep : StepOf c plans pool pool' i cmd)
    (k : ι) : Tracks (pool'.threads k).log pool'.state.ledger := by
  by_cases hk : k = i
  · subst hk
    rw [hstep.log, hstep.state]
    exact (h.tracks k).step h.consistent
  · rw [hstep.others k hk]
    refine ⟨fun plan hplan => ?_, fun plan hplan o ho hid => ?_⟩
    · obtain ⟨s, hs, rfl⟩ := (h.tracks k).known plan hplan
      exact hstep.effect.signals hs
    · rcases hstep.effect.orders ho with ho | ⟨order, fills, now, heq, rfl⟩
      · exact (h.tracks k).own plan hplan o ho hid
      · obtain ⟨⟨_, horder⟩, hrecorded, _⟩ := hstep.allowed_order (congrArg Sigma.fst heq)
        obtain rfl := (h.logged k).own plan hplan
        exact absurd (horder.1.symm.trans hid) (h.distinct i k (Ne.symm hk) hrecorded hplan)

theorem Orderly.stored_step (h : Orderly c plans pool) (hstep : StepOf c plans pool pool' i cmd)
    {k : ι} {order : BrokerOrder} {fills : List BrokerFill} {now : Datetime}
    (hmem : ⟨.recordExecution order fills now, .ok ()⟩ ∈ (pool'.threads k).log) :
    Ledger.storedOrder order ∈ pool'.state.ledger.orders ∧
      ∀ p ∈ Ledger.storedPosition order now, p ∈ pool'.state.ledger.positions := by
  rcases hstep.mem_log.mp hmem with hmem | ⟨-, heq⟩
  · obtain ⟨horder, hpositions⟩ := h.stored k order fills now hmem
    exact ⟨hstep.effect.orders_subset horder,
      fun p hp => (hstep.effect.positions hstep.allowed p).mpr (.inl (hpositions p hp))⟩
  · refine ⟨?_, fun p hp => (hstep.effect.positions hstep.allowed p).mpr (.inr ⟨_, _, _, heq.symm, hp⟩)⟩
    have heffect := hstep.effect
    generalize (perform c.live cmd pool.state).1 = reply at heq heffect
    cases heq
    generalize pool'.state.ledger = L' at heffect ⊢
    cases heffect with
    | unchanged hnot => exact absurd trivial hnot
    | recordExecution => exact List.mem_append_right _ (List.mem_singleton_self _)

/-- When a submission records its execution, the ledger holds nothing else of its plan, and no open
position for its security. -/
theorem Orderly.ready (h : Orderly c plans pool) (hpassed : Passed (plans i) (pool.threads i).log)
    (hrecorded : Recorded (plans i) (pool.threads i).log) (hfirst : ¬Executed (pool.threads i).log)
    (hunfinished : ¬(pool.threads i).program.Finished) : Ready pool.state.ledger (plans i) := by
  obtain ⟨s, hs, hplan, hid, hcorrelation⟩ := h.known hrecorded
  have hnone : ∀ o ∈ pool.state.ledger.orders, o.signalId ≠ (plans i).signalId := by
    intro o ho hsame
    obtain ⟨order, fills, now, hmem, _⟩ := (h.tracks i).own _ hrecorded o ho hsame
    exact hfirst ⟨order, fills, now, _, hmem⟩
  have hcorrelations : (pool.state.ledger.signals.map (·.correlationId)).Nodup :=
    List.pairwise_map.mpr (h.consistent.signals_unique.imp fun hst => hst.2)
  refine ⟨⟨s, hs, hid⟩, fun o ho => ⟨hnone o ho, fun hsame => ?_⟩, fun p hp hsame => ?_,
    fun p hp hopen hsecurity => hfirst (h.unopened i hpassed hunfinished p hp hopen hsecurity)⟩
  · obtain ⟨t, ht, htid, htcorrelation⟩ := h.consistent.order_signal o ho
    obtain rfl := List.inj_on_of_nodup_map hcorrelations ht hs
      (htcorrelation.trans (hsame.trans hcorrelation.symm))
    exact hnone o ho (htid.symm.trans hid)
  · obtain ⟨o, ho, hopens⟩ := h.consistent.position_order p hp
    exact hnone o ho (hopens.1.symm.trans hsame)

/-- A filled live execution is recorded when its ids are new and its numbers fit. -/
theorem Orderly.recorded_step (h : Orderly c plans pool) (hstep : StepOf c plans pool pool' i cmd)
    (hserialized : Serialized plans pool i) (hmode : c.policy.mode = .liveAutomatic) {k : ι}
    {order : BrokerOrder} {fills : List BrokerFill} {now : Datetime} {reply : Except Fault Unit}
    (hmem : ⟨.recordExecution order fills now, reply⟩ ∈ (pool'.threads k).log)
    (hpos : 0 < order.filledQuantity) : reply = .ok () := by
  rcases hstep.mem_log.mp hmem with hmem | ⟨rfl, heq⟩
  · exact h.recorded hmode k order fills now reply hmem hpos
  obtain rfl : Command.recordExecution order fills now = cmd := congrArg Sigma.fst heq
  obtain ⟨hgated, hpassed, hrecorded, hfirst, hreported⟩ := hstep.allowed
  obtain ⟨next, hprogram⟩ := hstep.serialized
  rw [Serialized, hprogram] at hserialized
  obtain ⟨hquantity, hlimit, -⟩ := planChecks_ok hgated.2
  have hreply : reply = (perform c.live (.recordExecution order fills now) pool.state).1 := by
    simpa using heq
  cases hreported with
  | paper hpaper => simp [hpaper] at hmode
  | unknown => simp [liveOrder, unknownAcknowledgement, ReportedQuantity.toInt] at hpos
  | live _ _ hreceived haccept hfills =>
      have hready := h.ready hpassed hrecorded hfirst hstep.unfinished
      obtain ⟨L', hok⟩ := (recordExecution_live_iff hready hgated.1 hquantity hlimit haccept hfills).mpr
        (hserialized _ hreceived haccept)
      rw [hreply]
      simp only [perform, hok, World.commit]

variable [DecidableEq ι]

/-- A step that meets the condition keeps the submissions orderly. -/
theorem Orderly.step (h : Orderly c plans pool) (hserialized : Serialized plans pool i) :
    Orderly c plans (Pool.step (perform c.live) pool i) := by
  rcases hprogram : (pool.threads i).program with value | fault | ⟨cmd, next⟩
  · simpa [Pool.step, hprogram] using h
  · simpa [Pool.step, hprogram] using h
  have hguarantee := h.programs i
  rw [hprogram] at hguarantee
  have hstep : StepOf c plans pool (Pool.step (perform c.live) pool i) i cmd := {
    unfinished := by simp [hprogram, Program.Finished]
    allowed := hguarantee.1
    serialized := ⟨next, hprogram⟩
    log := by simp [Pool.step, hprogram]
    others := fun k hk => by simp [Pool.step, hprogram, hk]
    state := by simp [Pool.step, hprogram] }
  exact {
    programs := fun k => by
      by_cases hk : k = i
      · subst hk
        simpa [Pool.step, hprogram] using hguarantee.2 _
      · rw [hstep.others k hk]
        exact h.programs k
    logged := fun k => by
      by_cases hk : k = i
      · subst hk
        rw [hstep.log]
        exact (h.logged k).append hstep.allowed _
      · rw [hstep.others k hk]
        exact h.logged k
    consistent := hstep.effect.consistent h.consistent
      (sound_of_submitAllowed hstep.allowed (h.tracks i) h.consistent)
    tracks := h.tracks_step hstep
    distinct := fun j k => h.distinct_step hstep
    exclusive := fun j k => h.exclusive_step hstep hserialized
    unopened := fun k hpassed hunfinished p hp => h.unopened_step hstep hpassed hunfinished hp
    stored := fun k order fills now => h.stored_step hstep
    recorded := fun hmode k order fills now reply => h.recorded_step hstep hserialized hmode }

end Steps

section Runs

variable {ι : Type} {c : ExecutionController} {plans : ι → TradePlan} {pool : Submissions ι}

theorem Orderly.start {w : World} (hw : w.ledger.Consistent) (now : ι → Datetime) :
    Orderly c plans (Submissions.start c plans now w) where
  programs _ := submit_guarantees
  logged _ := .nil
  consistent := hw
  tracks _ := ⟨by simp [Submissions.start, Pool.start, Recorded, ReadPlan],
    by simp [Submissions.start, Pool.start, Recorded]⟩
  distinct _ _ _ h := by simp [Submissions.start, Pool.start, Recorded] at h
  exclusive _ _ _ _ h := by simp [Submissions.start, Pool.start, Passed] at h
  unopened _ h := by simp [Submissions.start, Pool.start, Passed] at h
  stored _ _ _ _ h := by simp [Submissions.start, Pool.start] at h
  recorded _ _ _ _ _ _ h := by simp [Submissions.start, Pool.start] at h

/-- A recorded fill has its position. -/
theorem Orderly.position_of_fill (h : Orderly c plans pool) {i : ι}
    (hfill : RecordedFill (pool.threads i).log) :
    Recorded (plans i) (pool.threads i).log ∧ ∃ p ∈ pool.state.ledger.positions,
      p.state = .opened ∧ p.signalId = (plans i).signalId ∧ p.securityId = (plans i).securityId := by
  obtain ⟨order, fills, now, hmem, hpos⟩ := hfill
  obtain ⟨⟨hbalanced, horder⟩, hrecorded, _⟩ := (h.logged i).executed order fills now _ hmem
  obtain ⟨p, hp⟩ := Ledger.storedPosition_of_pos hbalanced hpos now
  obtain ⟨hopens, hopen⟩ := Ledger.storedPosition_opens hp
  exact ⟨hrecorded, p, (h.stored i order fills now hmem).2 p hp, hopen, hopens.1.trans horder.1,
    hopens.2.1.trans horder.2.2⟩

theorem Orderly.onePerSecurity (h : Orderly c plans pool) : OnePerSecurity plans pool where
  gateway i j hne hsecurity := by
    rintro ⟨hi, hj⟩
    rcases h.exclusive i j hne hsecurity ((h.logged i).reached hi).1 ((h.logged j).reached hj).1 with
      hharmless | hharmless
    · exact hharmless.2 hi
    · exact hharmless.2 hj
  fills i j hne hsecurity := by
    rintro ⟨hi, hj⟩
    obtain ⟨hri, p, hp, hpopen, hpid, hpsecurity⟩ := h.position_of_fill hi
    obtain ⟨hrj, q, hq, hqopen, hqid, hqsecurity⟩ := h.position_of_fill hj
    have hpq : p ≠ q := fun heq =>
      h.distinct i j hne hri hrj (hpid.symm.trans ((congrArg _ heq).trans hqid))
    have hsymm : Std.Symm fun p q : PositionRow =>
        p.state = .opened → q.state = .opened → p.securityId ≠ q.securityId :=
      ⟨fun _ _ h hp hq => (h hq hp).symm⟩
    exact h.consistent.one_open.forall hp hq hpq hpopen hqopen
      (hpsecurity.trans (hsecurity.trans hqsecurity.symm))
  recorded i acknowledgement hfinished hreceived haccept hpos := by
    obtain ⟨_, hends⟩ := (h.programs i).ends hfinished
    obtain ⟨fills, now, reply, _, hmem⟩ := hends acknowledgement hreceived haccept
    have hlive := ((h.logged i).reached ((h.logged i).acknowledged _ hreceived)).2
    obtain rfl := h.recorded hlive i _ _ _ _ hmem hpos
    obtain ⟨⟨hbalanced, _⟩, _, _⟩ := (h.logged i).executed _ _ _ _ hmem
    obtain ⟨horder, hposition⟩ := h.stored i _ _ _ hmem
    obtain ⟨p, hp⟩ := Ledger.storedPosition_of_pos hbalanced hpos now
    exact ⟨_, horder, rfl, rfl, p, hposition p hp, (Ledger.storedPosition_opens hp).1⟩

end Runs

/-- In every interleaving whose steps meet the condition, each security has one order at most, and what
the gateway has filled is recorded. -/
theorem runSchedule_onePerSecurity {ι : Type} [DecidableEq ι] (c : ExecutionController) {w : World}
    (hw : Reachable w) (plans : ι → TradePlan) (now : ι → Datetime) (schedule : List ι)
    (hserialized : Pool.EveryStep (perform c.live) (Serialized plans) (Submissions.start c plans now w)
      schedule) :
    OnePerSecurity plans
      (Pool.runSchedule (perform c.live) (Submissions.start c plans now w) schedule) := by
  have horderly : Orderly c plans
      (Pool.runSchedule (perform c.live) (Submissions.start c plans now w) schedule) :=
    Pool.runSchedule_invariant (fun _ _ hcondition h => h.step hcondition) hserialized
      (.start hw.consistent now)
  exact horderly.onePerSecurity

/-- Two plans for one security. -/
def rivalPlans : Bool → TradePlan
  | false => .sample "s1" "c1" "101"
  | true => .sample "s2" "c2" "101"

theorem runSchedule_onePerSecurity_turns :
    OnePerSecurity rivalPlans
      (Pool.runSchedule (perform (some (fillingGateway id id)))
        (Submissions.start (liveController (fillingGateway id id)) rivalPlans (fun _ => .utc 0) (.fresh 0))
        (List.replicate 8 false ++ List.replicate 8 true)) :=
  runSchedule_onePerSecurity (liveController (fillingGateway id id)) ⟨0, [], rfl⟩ rivalPlans
    (fun _ => .utc 0) _ (by decide +kernel)

/-- When both submissions check before either records, the gateway fills both orders and the ledger takes
only the first. -/
theorem runSchedule_rivals_both_filled :
    let pool := Pool.runSchedule (perform (some (fillingGateway id id)))
      (Submissions.start (liveController (fillingGateway id id)) rivalPlans (fun _ => .utc 0) (.fresh 0))
      (List.replicate 8 [false, true]).flatten
    ReachedGateway (rivalPlans false) (pool.threads false).log ∧
      ReachedGateway (rivalPlans true) (pool.threads true).log ∧
      (pool.threads false).program.Finished ∧ (pool.threads true).program.Finished ∧
      pool.state.ledger.orders.map (·.orderId) = ["c1"] ∧
      ¬OnePerSecurity rivalPlans pool := by
  have hfirst : ReachedGateway (rivalPlans false) ((Pool.runSchedule (perform (some (fillingGateway id id)))
      (Submissions.start (liveController (fillingGateway id id)) rivalPlans (fun _ => .utc 0) (.fresh 0))
      (List.replicate 8 [false, true]).flatten).threads false).log := by decide +kernel
  have hsecond : ReachedGateway (rivalPlans true) ((Pool.runSchedule (perform (some (fillingGateway id id)))
      (Submissions.start (liveController (fillingGateway id id)) rivalPlans (fun _ => .utc 0) (.fresh 0))
      (List.replicate 8 [false, true]).flatten).threads true).log := by decide +kernel
  exact ⟨hfirst, hsecond, by decide +kernel, by decide +kernel, by decide +kernel,
    fun h => h.gateway false true (by decide) rfl ⟨hfirst, hsecond⟩⟩

end TecoQuant.Execution
