import Mathlib.Tactic.Linarith
import TecoQuant.BaseRun
import TecoQuant.IngestionFocus

/-! The acquisition worker among the threads that request a focus. A request changes the selection under the lock
and sets the reschedule event afterwards; the worker clears the event before it reads the selection, and again
inside the cooldown wait. Between any two of these steps the other threads and the clock may run. Readings of the
monotonic clock are rationals, and a wait that times out has lasted at least its timeout. -/

namespace TecoQuant.Ingestion

structure WorkerSettings where
  pollInterval : ℚ
  maximumBackoff : ℚ

/-- Where the worker is, with the values of its local variables. -/
inductive WorkerPhase where
  | ended
  | top
  | entered
  | cleared
  | started (cycleStarted : ℚ)
  | cycling (cycleStarted : ℚ) (symbols : List String)
  | cycled (cycleStarted : ℚ) (failed : Bool)
  | counted (cycleStarted : ℚ) (failed : Bool) (failures : Nat) (rateLimitBackoff : ℚ)
  | delayed (delay : ℚ) (preserveDelay : Bool)
  | waiting (expiry : ℚ)
  | cooling (deadline : ℚ)
  | measuring (deadline : ℚ)
  | armed (deadline remaining : ℚ)
  | coolingWait (deadline expiry : ℚ)
  | woken (deadline : ℚ)
  | clearing (deadline : ℚ)

/-- The worker has chosen symbols and the normal delay after their cycle has not ended. -/
def WorkerPhase.afterChoice : WorkerPhase → Bool
  | .cycling .. | .cycled .. | .counted .. | .delayed .. | .waiting _ => true
  | _ => false

/-- What the cycle and the counters it shares with other threads answer: whether the cycle raised, and the values
read under the lock afterwards. -/
structure CycleOutcome where
  failed : Bool
  failures : Nat
  rateLimitBackoff : ℚ

/-- The service: the selection behind the lock, the two events, the requests that have yet to set theirs, the
worker, and the clock. -/
structure Acquisition (markets : Markets) where
  rotation : Rotation markets
  rescheduleEvent : Bool
  stopEvent : Bool
  signalling : List Nat
  phase : WorkerPhase
  clock : ℚ

/-- A step of some thread. -/
inductive WorkerTurn where
  | lockFocus (request : Nat) (symbol : String)
  | signal (request : Nat)
  | stop
  | signalStop
  | pass (seconds : ℚ)
  | expire
  | work (outcome : CycleOutcome)

/-- The delay after a cycle. -/
def cycleDelay (settings : WorkerSettings) (elapsed : ℚ) (failed : Bool) (failures : Nat) (rateLimitBackoff : ℚ) : ℚ :=
  let normalDelay := max 0 (settings.pollInterval - elapsed)
  if 0 < rateLimitBackoff then min settings.maximumBackoff (normalDelay + rateLimitBackoff)
  else if failed then min settings.maximumBackoff (settings.pollInterval * 2 ^ min (failures - 1) 6)
  else normalDelay

namespace Acquisition

variable {markets : Markets}

/-- The worker's next step, unless it sleeps or has ended. -/
def work (settings : WorkerSettings) (service : Acquisition markets) (outcome : CycleOutcome) :
    Option (Acquisition markets) :=
  match service.phase with
  | .ended => none
  | .top => some { service with phase := if service.stopEvent then .ended else .entered }
  | .entered => some { service with rescheduleEvent := false, phase := .cleared }
  | .cleared => some { service with phase := .started service.clock }
  | .started cycleStarted =>
      some { service with
        rotation := service.rotation.workerCycleSymbols.2
        phase := .cycling cycleStarted service.rotation.workerCycleSymbols.1 }
  | .cycling cycleStarted _ => some { service with phase := .cycled cycleStarted outcome.failed }
  | .cycled cycleStarted failed =>
      some { service with phase := .counted cycleStarted failed outcome.failures outcome.rateLimitBackoff }
  | .counted cycleStarted failed failures rateLimitBackoff =>
      let elapsed := max 0 (service.clock - cycleStarted)
      some { service with
        phase := .delayed (cycleDelay settings elapsed failed failures rateLimitBackoff) (0 < rateLimitBackoff) }
  | .delayed delay true => some { service with phase := .cooling (service.clock + delay) }
  | .delayed delay false =>
      some { service with phase := if service.rescheduleEvent then .top else .waiting (service.clock + delay) }
  | .waiting _ => if service.rescheduleEvent then some { service with phase := .top } else none
  | .cooling deadline => some { service with phase := if service.stopEvent then .top else .measuring deadline }
  | .measuring deadline =>
      let remaining := max 0 (deadline - service.clock)
      some { service with phase := if remaining = 0 then .top else .armed deadline remaining }
  | .armed deadline remaining =>
      some { service with
        phase := if service.rescheduleEvent then .woken deadline else .coolingWait deadline (service.clock + remaining) }
  | .coolingWait deadline _ =>
      if service.rescheduleEvent then some { service with phase := .woken deadline } else none
  | .woken deadline => some { service with phase := if service.stopEvent then .top else .clearing deadline }
  | .clearing deadline => some { service with rescheduleEvent := false, phase := .cooling deadline }

/-- The end of a wait whose timeout has passed. -/
def expire (service : Acquisition markets) : Option (Acquisition markets) :=
  match service.phase with
  | .waiting expiry | .coolingWait _ expiry =>
      if expiry ≤ service.clock then some { service with phase := .top } else none
  | _ => none

/-- Whether a request returns true at this selection. -/
def Changes (service : Acquisition markets) (symbol : String) : Prop :=
  normalizedSymbol symbol ∈ markets.symbols ∧ service.rotation.focusedSymbol ≠ some (normalizedSymbol symbol)

instance decidableChanges (service : Acquisition markets) (symbol : String) : Decidable (service.Changes symbol) :=
  inferInstanceAs (Decidable (_ ∧ _))

def step (settings : WorkerSettings) (service : Acquisition markets) : WorkerTurn → Option (Acquisition markets)
  | .lockFocus request symbol =>
      if request ∈ service.signalling then none
      else
        some { service with
          rotation := (service.rotation.requestFocus symbol).2
          signalling := if service.Changes symbol then request :: service.signalling else service.signalling }
  | .signal request =>
      if request ∈ service.signalling then
        some { service with rescheduleEvent := true, signalling := service.signalling.erase request }
      else none
  | .stop => some { service with stopEvent := true }
  | .signalStop => if service.stopEvent then some { service with rescheduleEvent := true } else none
  | .pass seconds => if 0 ≤ seconds then some { service with clock := service.clock + seconds } else none
  | .expire => service.expire
  | .work outcome => service.work settings outcome

section Steps

variable {settings : WorkerSettings} {service next : Acquisition markets} {turn : WorkerTurn} {focused symbol : String}

/-- A request returns true exactly when it changes the focus. -/
theorem requestFocus_eq_true : (service.rotation.requestFocus symbol).1 = .ok true ↔ service.Changes symbol := by
  unfold Rotation.requestFocus Changes
  by_cases hmem : normalizedSymbol symbol ∈ markets.symbols
  · simp [hmem]
  · simp [hmem]

/-- The turn is not a request that returns true. -/
def keepsFocus (service : Acquisition markets) : WorkerTurn → Bool
  | .lockFocus _ symbol => !decide (service.Changes symbol)
  | _ => true

/-- The turn is not the choice of a cycle's symbols. -/
def schedulesNone (service : Acquisition markets) : WorkerTurn → Bool
  | .work _ =>
      match service.phase with
      | .started _ => false
      | _ => true
  | _ => true

/-! ### The focus -/

theorem work_focusedSymbol {outcome : CycleOutcome} (h : service.work settings outcome = some next) :
    next.rotation.focusedSymbol = service.rotation.focusedSymbol := by
  unfold work at h
  split at h
  all_goals first
    | (obtain rfl := Option.some.inj h; rfl)
    | (obtain rfl := Option.some.inj h; exact service.rotation.workerCycleSymbols_focusedSymbol)
    | (split at h <;> cases h; rfl)
    | cases h

theorem requestFocus_focusedSymbol (hkeeps : ¬service.Changes symbol) :
    (service.rotation.requestFocus symbol).2.focusedSymbol = service.rotation.focusedSymbol := by
  unfold Rotation.requestFocus
  by_cases hmem : normalizedSymbol symbol ∈ markets.symbols
  · have hsame : service.rotation.focusedSymbol = some (normalizedSymbol symbol) :=
      not_not.mp fun hne => hkeeps ⟨hmem, hne⟩
    simp [hmem, hsame]
  · simp [hmem]

theorem step_focusedSymbol (hkeeps : service.keepsFocus turn = true) (h : service.step settings turn = some next) :
    next.rotation.focusedSymbol = service.rotation.focusedSymbol := by
  cases turn with
  | lockFocus request symbol =>
      simp only [step, keepsFocus, Bool.not_eq_true', decide_eq_false_iff_not] at h hkeeps
      split at h
      · cases h
      · obtain rfl := Option.some.inj h
        exact requestFocus_focusedSymbol hkeeps
  | work outcome => exact work_focusedSymbol h
  | expire =>
      simp only [step, expire] at h
      split at h
      · split at h <;> cases h
        rfl
      · split at h <;> cases h
        rfl
      · cases h
  | signal | stop | signalStop | pass =>
      simp only [step] at h
      first
        | (obtain rfl := Option.some.inj h; rfl)
        | (split at h <;> cases h; rfl)

/-! ### The reschedule event -/

/-- The event is set, or the worker is not between a choice and the end of a normal delay. -/
def Awake (service : Acquisition markets) : Prop :=
  service.rescheduleEvent = true ∨ service.phase.afterChoice = false

/-- Only the choice of symbols leads between a choice and the end of a delay, and there the event is left alone. -/
theorem work_afterChoice {outcome : CycleOutcome} (hnone : service.schedulesNone (.work outcome) = true)
    (h : service.work settings outcome = some next) (hafter : next.phase.afterChoice = true) :
    service.phase.afterChoice = true ∧ next.rescheduleEvent = service.rescheduleEvent := by
  obtain ⟨rotation, event, stopped, signalling, phase, clock⟩ := service
  cases phase <;> simp only [work, schedulesNone] at h hnone <;> grind [WorkerPhase.afterChoice]

theorem Awake.step (hawake : service.Awake) (hnone : service.schedulesNone turn = true)
    (h : service.step settings turn = some next) : next.Awake := by
  cases turn with
  | work outcome =>
      by_cases hafter : next.phase.afterChoice = true
      · obtain ⟨hbefore, hevent⟩ := work_afterChoice hnone h hafter
        exact .inl (hevent.trans (hawake.resolve_right fun hfalse => Bool.noConfusion (hbefore.symm.trans hfalse)))
      · exact .inr (Bool.eq_false_iff.mpr hafter)
  | expire =>
      simp only [Acquisition.step, expire] at h
      split at h
      · split at h <;> cases h
        exact .inr rfl
      · split at h <;> cases h
        exact .inr rfl
      · cases h
  | lockFocus | pass =>
      simp only [Acquisition.step] at h
      split at h <;> cases h
      exact hawake
  | stop =>
      obtain rfl := Option.some.inj h
      exact hawake
  | signal | signalStop =>
      simp only [Acquisition.step] at h
      split at h <;> cases h
      exact .inl rfl

/-! ### The cooldown -/

/-- Until a time has come or the service is stopped, the worker is in a cooldown that lasts to it. -/
def Cooled (finish : ℚ) (service : Acquisition markets) : Prop :=
  finish ≤ service.clock ∨ service.stopEvent = true ∨
    match service.phase with
    | .delayed delay preserve => preserve = true ∧ finish ≤ service.clock + delay
    | .cooling deadline | .measuring deadline | .woken deadline | .clearing deadline => finish ≤ deadline
    | .armed deadline remaining => finish ≤ deadline ∧ finish ≤ service.clock + remaining
    | .coolingWait deadline expiry => finish ≤ deadline ∧ finish ≤ expiry
    | _ => False

variable {finish : ℚ}

theorem Cooled.work {outcome : CycleOutcome} (hcooled : service.Cooled finish)
    (h : service.work settings outcome = some next) : next.Cooled finish := by
  obtain ⟨rotation, event, stopped, signalling, phase, clock⟩ := service
  cases phase <;> simp only [Acquisition.work, Cooled] at h hcooled ⊢ <;> grind

theorem Cooled.step (hcooled : service.Cooled finish) (h : service.step settings turn = some next) :
    next.Cooled finish := by
  cases turn with
  | work outcome => exact hcooled.work h
  | pass seconds =>
      simp only [Acquisition.step] at h
      split at h <;> cases h
      unfold Cooled at hcooled ⊢
      grind
  | expire =>
      simp only [Acquisition.step, expire] at h
      unfold Cooled at hcooled ⊢
      grind
  | lockFocus | signal | signalStop =>
      simp only [Acquisition.step] at h
      split at h <;> cases h
      exact hcooled
  | stop =>
      obtain rfl := Option.some.inj h
      exact .inr (.inl rfl)

end Steps

/-! ### Runs -/

section Runs

variable {settings : WorkerSettings} {service opened reached next : Acquisition markets} {request : Nat} {symbol : String}
  {turns : List WorkerTurn} {finish : ℚ}

theorem lockFocus_focusedSymbol (hchanges : service.Changes symbol)
    (hlock : service.step settings (.lockFocus request symbol) = some opened) :
    opened.rotation.focusedSymbol = some (normalizedSymbol symbol) := by
  simp only [step] at hlock
  split at hlock <;> cases hlock
  simp only [Rotation.requestFocus]
  rw [dif_pos hchanges.1]

/-- The focus of the last request that returns true stays. -/
theorem focus_stays (hchanges : service.Changes symbol)
    (hlock : service.step settings (.lockFocus request symbol) = some opened)
    (hlast : Run.each (step settings) keepsFocus opened turns = true)
    (hrun : Run.attempt (step settings) opened turns = some reached) :
    reached.rotation.focusedSymbol = some (normalizedSymbol symbol) :=
  Run.attempt_invariant_of_each (fun service => service.rotation.focusedSymbol = some (normalizedSymbol symbol))
    (lockFocus_focusedSymbol hchanges hlock)
    (fun _ _ _ hfocus hkeeps hstep => (step_focusedSymbol hkeeps hstep).trans hfocus)
    hlast turns [] reached (List.append_nil _).symm hrun

/-- After a request has set the event, the worker stays awake until it chooses symbols. -/
theorem awake_after_signal {before after : List WorkerTurn}
    (hnone : Run.each (step settings) schedulesNone opened (before ++ .signal request :: after) = true)
    (hrun : Run.attempt (step settings) opened (before ++ .signal request :: after) = some reached) : reached.Awake := by
  have hsplit : before ++ WorkerTurn.signal request :: after = (before ++ [.signal request]) ++ after := by simp
  rw [hsplit, Run.attempt_append] at hrun
  obtain ⟨signalled, hsignalled, hafter⟩ := Option.bind_eq_some_iff.mp hrun
  obtain ⟨locked, -, hsignal⟩ := Run.attempt_concat_eq_some.mp hsignalled
  have hawake : signalled.Awake := by
    simp only [step] at hsignal
    split at hsignal <;> cases hsignal
    exact .inl rfl
  have hrest : Run.each (step settings) schedulesNone signalled after = true := by
    rw [hsplit] at hnone
    exact Run.each_of_append hnone hsignalled
  exact Run.attempt_invariant_of_each Awake hawake (fun _ _ _ hawake hnone hstep => hawake.step hnone hstep) hrest
    after [] reached (List.append_nil _).symm hafter

theorem cooled_after (hcooled : service.Cooled finish)
    (hrun : Run.attempt (step settings) service turns = some reached) : reached.Cooled finish :=
  Run.attempt_invariant_of_forall (Cooled finish) hcooled (fun _ _ _ h hstep => h.step hstep) hrun

end Runs

/-- The worker is in the first steps of a cycle, before its symbols are chosen. -/
def Begins (service : Acquisition markets) : Prop :=
  service.phase = .entered ∨ service.phase = .cleared ∨ ∃ cycleStarted, service.phase = .started cycleStarted

/-- No focus request is lost and none shortens a cooldown, in any interleaving. The last request that returns true,
in the order of the lock, is for the first symbol of what is chosen after it. Once it has set the event and until its
symbol is chosen, a normal delay that begins ends at once, and one under way is awake. A cycle after a computed
cooldown begins when that has passed, unless the service is stopped. -/
theorem focus_and_cooldown_kept (settings : WorkerSettings) (service : Acquisition markets) :
    (∀ request symbol opened turns reached, (service.rotation.requestFocus symbol).1 = .ok true →
      service.step settings (.lockFocus request symbol) = some opened →
      Run.attempt (step settings) opened turns = some reached →
      Run.each (step settings) keepsFocus opened turns = true →
        (∀ cycleStarted outcome next, reached.phase = .started cycleStarted →
          reached.step settings (.work outcome) = some next →
            ∃ symbols, next.phase = .cycling cycleStarted symbols ∧ symbols.head? = some (normalizedSymbol symbol)) ∧
        (∀ before after, turns = before ++ .signal request :: after →
          Run.each (step settings) schedulesNone opened turns = true →
            (∀ delay outcome next, reached.phase = .delayed delay false →
              reached.step settings (.work outcome) = some next → next.phase = .top ∧ next.clock = reached.clock) ∧
            ∀ expiry, reached.phase = .waiting expiry → reached.rescheduleEvent = true)) ∧
      ∀ cycleStarted failed failures rateLimitBackoff outcome delayed turns reached,
        service.phase = .counted cycleStarted failed failures rateLimitBackoff → 0 < rateLimitBackoff →
        service.step settings (.work outcome) = some delayed →
        Run.attempt (step settings) delayed turns = some reached → reached.Begins →
          service.clock + cycleDelay settings (max 0 (service.clock - cycleStarted)) failed failures rateLimitBackoff ≤
            reached.clock ∨ reached.stopEvent = true := by
  refine ⟨fun request symbol opened turns reached htrue hlock hrun hlast => ⟨?_, ?_⟩, ?_⟩
  · intro cycleStarted outcome next hphase hstep
    have hfocus := focus_stays (requestFocus_eq_true.mp htrue) hlock hlast hrun
    have hhead := reached.rotation.head_workerCycleSymbols hfocus
    simp only [step, work, hphase] at hstep
    obtain rfl := Option.some.inj hstep
    exact ⟨_, rfl, hhead⟩
  · rintro before after rfl hnone
    have hawake := awake_after_signal hnone hrun
    have hevent (hafter : reached.phase.afterChoice = true) : reached.rescheduleEvent = true :=
      hawake.resolve_right fun hfalse => Bool.noConfusion (hafter.symm.trans hfalse)
    refine ⟨fun delay outcome next hphase hstep => ?_, fun expiry hphase => hevent (by rw [hphase]; rfl)⟩
    have hset := hevent (by rw [hphase]; rfl)
    simp only [step, work, hphase, hset] at hstep
    obtain rfl := Option.some.inj hstep
    exact ⟨rfl, rfl⟩
  · intro cycleStarted failed failures rateLimitBackoff outcome delayed turns reached hphase hpositive hstep hrun hbegins
    have hcooled : delayed.Cooled (service.clock +
        cycleDelay settings (max 0 (service.clock - cycleStarted)) failed failures rateLimitBackoff) := by
      simp only [step, work, hphase] at hstep
      obtain rfl := Option.some.inj hstep
      exact .inr (.inr ⟨decide_eq_true hpositive, le_rfl⟩)
    obtain hclock | hstopped | hcooling := cooled_after hcooled hrun
    · exact .inl hclock
    · exact .inr hstopped
    · obtain hphase | hphase | ⟨_, hphase⟩ := hbegins
      all_goals
        rw [hphase] at hcooling
        exact hcooling.elim

/-- The worker refreshes the first of two markets, which is focused. -/
def refreshing : Acquisition ⟨["NIFTY", "GOLD"], by decide, by decide⟩ where
  rotation := ⟨some "NIFTY", false, 0, by decide⟩
  rescheduleEvent := false
  stopEvent := false
  signalling := []
  phase := .cycling 0 ["NIFTY", "GOLD"]
  clock := 4

/-- A request during the cycle: the normal delay after it ends at once. -/
theorem focus_and_cooldown_kept_refreshing :
    ∃ opened reached next, refreshing.step ⟨10, 60⟩ (.lockFocus 0 "gold") = some opened ∧
      Run.attempt (step ⟨10, 60⟩) opened [.signal 0, .work ⟨false, 0, 0⟩, .work ⟨false, 0, 0⟩, .work ⟨false, 0, 0⟩] =
        some reached ∧
      reached.step ⟨10, 60⟩ (.work ⟨false, 0, 0⟩) = some next ∧ next.phase = .top ∧ next.clock = reached.clock := by
  refine ⟨_, _, _, rfl, rfl, rfl, ?_⟩
  have h := (focus_and_cooldown_kept ⟨10, 60⟩ refreshing).1 0 "gold" _
    [.signal 0, .work ⟨false, 0, 0⟩, .work ⟨false, 0, 0⟩, .work ⟨false, 0, 0⟩] _ (by decide) rfl rfl (by decide)
  exact (h.2 [] _ rfl (by decide)).1 _ ⟨false, 0, 0⟩ _ rfl rfl

end Acquisition

end TecoQuant.Ingestion
