import Mathlib.Algebra.BigOperators.Group.List.Basic
import TecoQuant.BacktestRuns

/-! Accounts of a replay. An account weighs what is pending, open, closed and journaled; when every exit
attempt and every pending signal conserves it, the whole run does. Three accounts follow: the outcome of a
signal, its entries, and its contracts. -/

namespace TecoQuant.Backtest

/-- Weights of everything a replay holds and reports. -/
structure Account where
  pending : BacktestSignal → ℤ
  position : OpenPositionSummary → ℤ
  trade : Trade → ℤ
  entry : JournalEntry → ℤ

namespace Account

variable (a : Account)

def ofPositions (positions : List OpenPosition) : ℤ := (positions.map fun p => a.position p.summary).sum

def ofTrades (trades : List Trade) : ℤ := (trades.map a.trade).sum

def ofPending (pending : List BacktestSignal) : ℤ := (pending.map a.pending).sum

def ofJournal (journal : List JournalEntry) : ℤ := (journal.map a.entry).sum

variable {a}

@[simp] theorem ofPositions_append (p q : List OpenPosition) :
    a.ofPositions (p ++ q) = a.ofPositions p + a.ofPositions q := by simp [ofPositions]

@[simp] theorem ofTrades_append (t u : List Trade) :
    a.ofTrades (t ++ u) = a.ofTrades t + a.ofTrades u := by simp [ofTrades]

@[simp] theorem ofPending_append (p q : List BacktestSignal) :
    a.ofPending (p ++ q) = a.ofPending p + a.ofPending q := by simp [ofPending]

@[simp] theorem ofJournal_append (j k : List JournalEntry) :
    a.ofJournal (j ++ k) = a.ofJournal j + a.ofJournal k := by simp [ofJournal]

@[simp] theorem ofPositions_nil : a.ofPositions [] = 0 := rfl

@[simp] theorem ofTrades_nil : a.ofTrades [] = 0 := rfl

@[simp] theorem ofPending_nil : a.ofPending [] = 0 := rfl

@[simp] theorem ofJournal_nil : a.ofJournal [] = 0 := rfl

@[simp] theorem ofPositions_cons (p : OpenPosition) (positions : List OpenPosition) :
    a.ofPositions (p :: positions) = a.position p.summary + a.ofPositions positions := by simp [ofPositions]

@[simp] theorem ofTrades_cons (t : Trade) (trades : List Trade) :
    a.ofTrades (t :: trades) = a.trade t + a.ofTrades trades := by simp [ofTrades]

@[simp] theorem ofPending_cons (signal : BacktestSignal) (pending : List BacktestSignal) :
    a.ofPending (signal :: pending) = a.pending signal + a.ofPending pending := by simp [ofPending]

@[simp] theorem ofJournal_cons (e : JournalEntry) (journal : List JournalEntry) :
    a.ofJournal (e :: journal) = a.entry e + a.ofJournal journal := by simp [ofJournal]

@[simp] theorem ofPositions_insert (p : OpenPosition) (positions : List OpenPosition) :
    a.ofPositions (insertPosition p positions) = a.position p.summary + a.ofPositions positions := by
  rw [← ofPositions_cons, ofPositions, ofPositions]
  exact ((insertPosition_perm _ _).map _).sum_eq

/-- No exit attempt, no entry and no queued signal changes the account. -/
structure Conserved (ctx : DecimalContext) (config : BacktestConfig) (a : Account) : Prop where
  exits : ∀ {position bar reason pass}, ExitStep ctx config position bar reason pass →
    a.ofPositions pass.positions + a.ofTrades pass.trades + a.ofJournal pass.journal =
      a.position position.summary
  entries : ∀ {frame signal positions pass}, EntryStep ctx config frame signal positions pass →
    a.ofPending pass.stillPending + a.ofPositions pass.positions + a.ofJournal pass.journal =
      a.pending signal + a.ofPositions positions
  queued : ∀ (signal : BacktestSignal) (timestamp : Datetime), a.pending signal + a.entry
    (signal.note timestamp .signal "signal queued for the first strictly later quote") = 0

section

variable {ctx : DecimalContext} {config : BacktestConfig} {s s' : ReplayState} {frame : ReplayFrame}
  {frames : List ReplayFrame}

theorem Conserved.of_exitPass (h : a.Conserved ctx config) {bar? : String → Option OptionBar}
    {trigger : OpenPosition → OptionBar → Option ExitReason}
    {attempt : OpenPosition → Except Fault ExitPass} {positions : List OpenPosition} {pass : ExitPass}
    (hattempt : ∀ p first, attempt p = .ok first → AttemptStep ctx config bar? trigger p first)
    (hpass : exitPass attempt positions = .ok pass) :
    a.ofPositions pass.positions + a.ofTrades pass.trades + a.ofJournal pass.journal =
      a.ofPositions positions := by
  induction positions generalizing pass with
  | nil =>
      cases hpass
      rfl
  | cons position positions ih =>
      obtain ⟨first, rest, hfirst, hrest, rfl⟩ := exitPass_cons_eq_ok.mp hpass
      have hone : a.ofPositions first.positions + a.ofTrades first.trades + a.ofJournal first.journal =
          a.position position.summary := by
        cases hattempt position first hfirst with
        | kept => simp
        | exits _ _ hstep => exact h.exits hstep
      have hothers := ih hrest
      simp only [ofPositions_append, ofTrades_append, ofJournal_append, ofPositions_cons]
      omega

theorem Conserved.of_pending (h : a.Conserved ctx config) {pending : List BacktestSignal}
    {positions : List OpenPosition} {pass : PendingPass}
    (hpass : executePending ctx config frame pending positions = .ok pass) :
    a.ofPending pass.stillPending + a.ofPositions pass.positions + a.ofJournal pass.journal =
      a.ofPending pending + a.ofPositions positions := by
  induction pending generalizing positions pass with
  | nil =>
      cases hpass
      simp
  | cons signal pending ih =>
      obtain ⟨first, rest, hfirst, hrest, rfl⟩ := executePending_cons_eq_ok.mp hpass
      have hone := h.entries (executeSignal_step hfirst)
      have hothers := ih hrest
      simp only [ofPending_append, ofJournal_append, ofPending_cons]
      omega

theorem Conserved.of_queue (h : a.Conserved ctx config) (timestamp : Datetime) (signals : List BacktestSignal) :
    a.ofPending signals + a.ofJournal (signals.map fun signal =>
      signal.note timestamp .signal "signal queued for the first strictly later quote") = 0 := by
  induction signals with
  | nil => simp
  | cons signal signals ih =>
      have hone := h.queued signal timestamp
      simp only [List.map_cons, ofPending_cons, ofJournal_cons]
      omega

/-- The account of a state of the loop. -/
def ofState (a : Account) (s : ReplayState) : ℤ :=
  a.ofPending s.pending + a.ofPositions s.positions + a.ofTrades s.trades + a.ofJournal s.journal

theorem Conserved.of_frame (h : a.Conserved ctx config)
    (hframe : replayFrame ctx config s frame = .ok s') : a.ofState s' = a.ofState s := by
  obtain ⟨exits, entries, hexits, hentries, rfl⟩ := replayFrame_eq_ok.mp hframe
  have hclosed := h.of_exitPass (fun _ _ => attemptExit_step) hexits
  have hentered := h.of_pending hentries
  have hqueued := h.of_queue frame.timestamp frame.signals
  simp only [ofState, ofPending_append, ofTrades_append, ofJournal_append]
  omega

theorem Conserved.of_loop (h : a.Conserved ctx config) (hloop : replayLoop ctx config frames = .ok s) :
    a.ofState s = 0 :=
  replayLoop_invariant (fun _ s => a.ofState s = 0) rfl
    (fun _ _ _ _ _ hs hframe => (h.of_frame hframe).trans hs) hloop

/-- The account of a report balances, when a signal that stays pending weighs as much as its last
journal entry. -/
theorem Conserved.of_report (h : a.Conserved ctx config)
    (hunfilled : ∀ (signal : BacktestSignal) (timestamp : Datetime), a.entry (signal.note timestamp .unfilled
      "no later executable quote before the replay ended") = a.pending signal)
    (hloop : replayLoop ctx config frames = .ok s) {report : BacktestReport} {exits : ExitPass}
    (hends : Ends ctx config s report exits) :
    (report.openPositions.map a.position).sum + a.ofTrades report.trades + a.ofJournal report.journal = 0 := by
  have hstate := h.of_loop hloop
  have hclosed := h.of_exitPass (fun _ _ => liquidate_step) hends.liquidated
  have hopen : (report.openPositions.map a.position).sum = a.ofPositions exits.positions := by
    rw [hends.openPositions, List.map_map]
    exact ((List.perm_insertionSort _ _).map _).sum_eq
  have hpending : a.ofJournal (s.pending.map fun signal => signal.note report.endedAt .unfilled
      "no later executable quote before the replay ended") = a.ofPending s.pending := by
    simp only [ofJournal, ofPending, List.map_map]
    exact congrArg List.sum (List.map_congr_left fun signal _ => hunfilled signal report.endedAt)
  rw [hopen, hends.trades, hends.journal]
  simp only [ofState, ofTrades_append, ofJournal_append] at hstate ⊢
  omega

end

end Account

/-! ### Three accounts -/

/-- An entry of a kind about a signal. -/
def JournalEntry.Of (e : JournalEntry) (event : JournalEvent) (signalId : String) : Prop :=
  e.event = event ∧ e.signalId = signalId

instance (e : JournalEntry) (event : JournalEvent) (signalId : String) : Decidable (e.Of event signalId) :=
  inferInstanceAs (Decidable (_ ∧ _))

/-- The entry of a signal that is still pending when the replay ends. -/
def JournalEntry.Final (e : JournalEntry) (signalId : String) : Prop :=
  e.Of .unfilled signalId ∧ e.message = "no later executable quote before the replay ended"

instance (e : JournalEntry) (signalId : String) : Decidable (e.Final signalId) :=
  inferInstanceAs (Decidable (_ ∧ _))

def indicator (P : Prop) [Decidable P] : ℤ := if P then 1 else 0

theorem sum_indicator {α : Type} (P : α → Prop) [DecidablePred P] (l : List α) :
    (l.map fun x => indicator (P x)).sum = l.countP P := by
  induction l with
  | nil => rfl
  | cons x l ih =>
      rw [List.map_cons, List.sum_cons, ih, List.countP_cons, indicator]
      by_cases hx : P x <;> simp [hx, add_comm]

theorem sum_weights {α : Type} (P : α → Prop) [DecidablePred P] (weight : α → Nat) (l : List α) :
    (l.map fun x => if P x then (weight x : ℤ) else 0).sum = ((l.filter P).map weight).sum := by
  induction l with
  | nil => rfl
  | cons x l ih =>
      rw [List.map_cons, List.sum_cons, ih, List.filter_cons]
      by_cases hx : P x <;> simp [hx]

theorem sum_difference {α : Type} (f g : α → ℤ) (l : List α) :
    (l.map fun x => f x - g x).sum = (l.map f).sum - (l.map g).sum := by
  induction l with
  | nil => rfl
  | cons x l ih =>
      simp only [List.map_cons, List.sum_cons, ih]
      omega

/-- What becomes of a signal: it is queued once, and pending, open, closed, skipped or left unfilled. -/
def Account.outcome (signalId : String) : Account where
  pending signal := indicator (signal.signalId = signalId)
  position p := indicator (p.signalId = signalId)
  trade t := indicator (t.signalId = signalId)
  entry e := indicator (e.Of .skipped signalId) + indicator (e.Final signalId) -
    indicator (e.Of .signal signalId)

/-- The entries of a signal, against its position and its trade. -/
def Account.entrance (signalId : String) : Account where
  pending _ := 0
  position p := indicator (p.signalId = signalId)
  trade t := indicator (t.signalId = signalId)
  entry e := 0 - indicator (e.Of .entry signalId)

/-- The contracts of a signal that are open or sold, against those bought. -/
def Account.contracts (signalId : String) : Account where
  pending _ := 0
  position p := if p.signalId = signalId then p.remainingQuantity else 0
  trade _ := 0
  entry e := (if e.Of .exitFill signalId then (e.quantity : ℤ) else 0) -
    if e.Of .entry signalId then (e.quantity : ℤ) else 0

section

variable (ctx : DecimalContext) (config : BacktestConfig) (signalId : String)

theorem Account.outcome_conserved : (Account.outcome signalId).Conserved ctx config where
  exits {position _ _ _} hstep := by
    by_cases hsame : position.signal.signalId = signalId
    all_goals
      cases hstep with
      | held =>
          simp [outcome, indicator, OpenPosition.summary, OpenPosition.attempted, BacktestSignal.note,
            JournalEntry.Of, JournalEntry.Final, hsame]
      | reduced =>
          simp [outcome, indicator, OpenPosition.summary, OpenPosition.attempted, OpenPosition.filled,
            exitFillEntry, JournalEntry.Of, JournalEntry.Final, hsame]
      | closed _ _ _ htrade =>
          have hsignal := (closeTrade_eq_ok htrade).1
          simp [outcome, indicator, OpenPosition.summary, OpenPosition.attempted, OpenPosition.filled,
            exitFillEntry, exitEntry, JournalEntry.Of, JournalEntry.Final, hsignal, hsame]
  entries {_ signal _ _} hstep := by
    by_cases hsame : signal.signalId = signalId
    all_goals
      cases hstep with
      | waits => simp
      | unfilled =>
          simp [outcome, indicator, BacktestSignal.note, JournalEntry.Of, JournalEntry.Final]
      | skipped =>
          simp [outcome, indicator, skip, BacktestSignal.note, JournalEntry.Of, JournalEntry.Final, hsame,
            add_comm]
      | entered =>
          simp [outcome, indicator, OpenPosition.summary, openPosition, entryEntry, JournalEntry.Of,
            JournalEntry.Final, hsame]
  queued signal timestamp := by
    simp [outcome, indicator, BacktestSignal.note, JournalEntry.Of, JournalEntry.Final]

theorem Account.entrance_conserved : (Account.entrance signalId).Conserved ctx config where
  exits {position _ _ _} hstep := by
    by_cases hsame : position.signal.signalId = signalId
    all_goals
      cases hstep with
      | held =>
          simp [entrance, indicator, OpenPosition.summary, OpenPosition.attempted, BacktestSignal.note,
            JournalEntry.Of, hsame]
      | reduced =>
          simp [entrance, indicator, OpenPosition.summary, OpenPosition.attempted, OpenPosition.filled,
            exitFillEntry, JournalEntry.Of, hsame]
      | closed _ _ _ htrade =>
          have hsignal := (closeTrade_eq_ok htrade).1
          simp [entrance, indicator, OpenPosition.summary, OpenPosition.attempted, OpenPosition.filled,
            exitFillEntry, exitEntry, JournalEntry.Of, hsignal, hsame]
  entries {_ signal _ _} hstep := by
    by_cases hsame : signal.signalId = signalId
    all_goals
      cases hstep with
      | waits => simp [entrance]
      | unfilled => simp [entrance, indicator, BacktestSignal.note, JournalEntry.Of]
      | skipped => simp [entrance, indicator, skip, BacktestSignal.note, JournalEntry.Of]
      | entered =>
          simp [entrance, indicator, OpenPosition.summary, openPosition, entryEntry, JournalEntry.Of, hsame]
  queued signal timestamp := by
    simp [entrance, indicator, BacktestSignal.note, JournalEntry.Of]

theorem Account.contracts_conserved : (Account.contracts signalId).Conserved ctx config where
  exits {position _ _ _} hstep := by
    by_cases hsame : position.signal.signalId = signalId
    all_goals
      cases hstep with
      | held =>
          simp [contracts, OpenPosition.summary, OpenPosition.attempted, BacktestSignal.note,
            JournalEntry.Of, hsame]
      | reduced _ _ hless =>
          simp [contracts, OpenPosition.summary, OpenPosition.attempted, OpenPosition.filled,
            exitFillEntry, JournalEntry.Of, hsame, hless.le]
      | closed _ _ hall =>
          simp [contracts, OpenPosition.summary, exitFillEntry, exitEntry, JournalEntry.Of, hall, hsame]
  entries {_ signal _ _} hstep := by
    by_cases hsame : signal.signalId = signalId
    all_goals
      cases hstep with
      | waits => simp [contracts]
      | unfilled => simp [contracts, BacktestSignal.note, JournalEntry.Of]
      | skipped => simp [contracts, skip, BacktestSignal.note, JournalEntry.Of]
      | entered =>
          simp [contracts, OpenPosition.summary, openPosition, entryEntry, JournalEntry.Of, hsame]
  queued signal timestamp := by
    simp [contracts, BacktestSignal.note, JournalEntry.Of]

end

end TecoQuant.Backtest
