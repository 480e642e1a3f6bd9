import TecoQuant.BaseDatetimeOrder
import TecoQuant.BaseStableOrder
import TecoQuant.ExecutionTransactions

/-! The ledger's timestamps as the texts that SQLite stores and compares. In UTC and within the years 1 to 9999 the
texts sort like the moments, so the reads that order rows by them order the rows by time. -/

namespace TecoQuant.Execution

open Atomic ExecutionController

/-- The column that holds a moment. -/
def timeText (instant : Int) : String := (Datetime.utc instant).isoformat

/-- `_timestamp`, as the text that it is. -/
def timestampText (t : Datetime) : Except Fault String := (timestamp t).map timeText

/-- A moment whose reading in UTC the calendar holds. -/
def InYears (instant : Int) : Prop := (Datetime.utc instant).InCalendar

theorem timestampText_eq_ok {t : Datetime} {text : String} :
    timestampText t = .ok text ↔ t.Aware ∧ InYears t.instant ∧ text = timeText t.instant := by
  rw [timestampText, Except.map_eq_ok]
  simp only [Ledger.timestamp_eq_ok]
  constructor
  · rintro ⟨_, ⟨⟨haware, hyears⟩, rfl⟩, rfl⟩
    exact ⟨haware, hyears, rfl⟩
  · rintro ⟨haware, hyears, rfl⟩
    exact ⟨_, ⟨⟨haware, hyears⟩, rfl⟩, rfl⟩

/-! ### Reads in the order of the texts -/

namespace Ledger

/-- `latest_signal`: `ORDER BY received_at DESC, rowid DESC LIMIT 1`. -/
def latestSignal (L : Ledger) : Option SignalRow :=
  (L.signals.reverse.insertionSort fun left right => ¬timeText left.receivedAt < timeText right.receivedAt).head?

/-- `positions`: `ORDER BY opened_at, position_id`. -/
def orderedPositions (L : Ledger) (openOnly : Bool) : List PositionRow :=
  (L.positions.filter fun p => !openOnly || decide (p.state = .opened)).insertionSort fun left right =>
    timeText left.openedAt < timeText right.openedAt ∨
      timeText left.openedAt = timeText right.openedAt ∧ ¬right.positionId < left.positionId

/-- The `closed_at` column; NULL comes before every text. -/
def closedText (p : PositionRow) : String := (p.closedAt.map timeText).getD ""

/-- The rows that `consecutive_losses` reads: `ORDER BY closed_at DESC, rowid DESC`. -/
def closedByText (L : Ledger) : List PositionRow :=
  (L.positions.filter fun p => p.state = .closed).reverse.insertionSort fun left right =>
    ¬closedText left < closedText right

/-- The timestamps of the rows are such as `_timestamp` writes, and a closed position has the time of its close. -/
structure Timed (L : Ledger) : Prop where
  received : ∀ s ∈ L.signals, InYears s.receivedAt
  opened : ∀ p ∈ L.positions, InYears p.openedAt
  closed : ∀ p ∈ L.positions, p.state = .closed → ∃ instant, p.closedAt = some instant ∧ InYears instant

variable {L : Ledger}

theorem latestSignal_eq (h : L.Timed) :
    L.latestSignal = (L.signals.reverse.insertionSort fun left right => right.receivedAt ≤ left.receivedAt).head? := by
  refine congrArg List.head? (StableOrder.insertionSort_congr fun left hleft right hright => ?_)
  have hl := h.received left (List.mem_reverse.mp hleft)
  have hr := h.received right (List.mem_reverse.mp hright)
  rw [timeText, timeText, Datetime.isoformat_utc_lt_iff hl hr, not_lt]

theorem orderedPositions_eq (h : L.Timed) (openOnly : Bool) :
    L.orderedPositions openOnly =
      (L.positions.filter fun p => !openOnly || decide (p.state = .opened)).insertionSort fun left right =>
        left.openedAt < right.openedAt ∨ left.openedAt = right.openedAt ∧ ¬right.positionId < left.positionId := by
  refine StableOrder.insertionSort_congr fun left hleft right hright => ?_
  have hl := h.opened left (List.mem_of_mem_filter hleft)
  have hr := h.opened right (List.mem_of_mem_filter hright)
  rw [timeText, timeText, Datetime.isoformat_utc_lt_iff hl hr, Datetime.isoformat_utc_eq_iff hl hr]

theorem closedByText_eq (h : L.Timed) : L.closedByText = L.closedNewestFirst := by
  refine StableOrder.insertionSort_congr fun left hleft right hright => ?_
  obtain ⟨hl, hlclosed⟩ := List.mem_filter.mp (List.mem_reverse.mp hleft)
  obtain ⟨hr, hrclosed⟩ := List.mem_filter.mp (List.mem_reverse.mp hright)
  obtain ⟨t, ht, hyears⟩ := h.closed left hl (of_decide_eq_true hlclosed)
  obtain ⟨u, hu, hyears'⟩ := h.closed right hr (of_decide_eq_true hrclosed)
  rw [closedText, closedText, ht, hu]
  simp only [Option.map_some, Option.getD_some]
  rw [timeText, timeText, Datetime.isoformat_utc_lt_iff hyears hyears', not_lt]

end Ledger

/-! ### Runs -/

/-- Every timestamp column holds a moment whose reading in UTC the calendar holds, and a closed position has one. -/
structure Ledger.Dated (L : Ledger) : Prop where
  signals : ∀ s ∈ L.signals, InYears s.receivedAt ∧ InYears s.updatedAt
  approvals : ∀ a ∈ L.approvals, InYears a.approvedAt
  orders : ∀ o ∈ L.orders, InYears o.submittedAt
  fills : ∀ f ∈ L.fills, InYears f.filledAt
  positions : ∀ p ∈ L.positions, InYears p.openedAt ∧ ∀ closedAt ∈ p.closedAt, InYears closedAt
  closed : ∀ p ∈ L.positions, p.state = .closed → p.closedAt.isSome
  journal : ∀ j ∈ L.journal, InYears j.occurredAt
  events : ∀ e ∈ L.events, InYears e.occurredAt
  killSwitch : InYears L.killSwitch.changedAt

/-- A row more, with its property. -/
theorem forall_mem_concat {α : Type} {P : α → Prop} {l : List α} {a : α} (h : ∀ b ∈ l, P b) (ha : P a) :
    ∀ b ∈ l ++ [a], P b := by
  intro b hb
  rcases List.mem_append.mp hb with hb | hb
  · exact h b hb
  · exact List.mem_singleton.mp hb ▸ ha

namespace Ledger.Dated

variable {L L' : Ledger}

theorem fresh {createdAt : Int} (h : InYears createdAt) : (Ledger.fresh createdAt).Dated where
  signals _ hmem := absurd hmem List.not_mem_nil
  approvals _ hmem := absurd hmem List.not_mem_nil
  orders _ hmem := absurd hmem List.not_mem_nil
  fills _ hmem := absurd hmem List.not_mem_nil
  positions _ hmem := absurd hmem List.not_mem_nil
  closed _ hmem := absurd hmem List.not_mem_nil
  journal _ hmem := absurd hmem List.not_mem_nil
  events _ hmem := absurd hmem List.not_mem_nil
  killSwitch := h

theorem timed (h : L.Dated) : L.Timed where
  received s hs := (h.signals s hs).1
  opened p hp := (h.positions p hp).1
  closed p hp hclosed := by
    obtain ⟨instant, hinstant⟩ := Option.isSome_iff_exists.mp (h.closed p hp hclosed)
    exact ⟨instant, hinstant, (h.positions p hp).2 instant hinstant⟩

theorem event (h : L.Dated) {eventType aggregateId : String} {occurredAt : Datetime} {payload : Payload}
    (hevent : L.event eventType aggregateId occurredAt payload = .ok L') : L'.Dated := by
  obtain ⟨hutc, rfl⟩ := event_eq_ok.mp hevent
  exact { h with events := forall_mem_concat h.events hutc.2 }

theorem setSignalState (h : L.Dated) (signalId : String) (state : SignalExecutionState) {instant : Int}
    (hyears : InYears instant) : (L.setSignalState signalId state instant).Dated := by
  refine { h with signals := fun s hs => ?_ }
  obtain ⟨t, ht, rfl⟩ := List.mem_map.mp hs
  split
  · exact ⟨(h.signals t ht).1, hyears⟩
  · exact h.signals t ht

theorem setPositionClosed (h : L.Dated) (positionId : String) (day : Int) (pnl : Decimal) {instant : Int}
    (hyears : InYears instant) : (L.setPositionClosed positionId instant day pnl).Dated := by
  refine { h with positions := fun p hp => ?_, closed := fun p hp => ?_ }
  · obtain ⟨q, hq, rfl⟩ := List.mem_map.mp hp
    split
    · refine ⟨(h.positions q hq).1, fun closedAt hclosed => ?_⟩
      rw [← Option.some.inj hclosed]
      exact hyears
    · exact h.positions q hq
  · obtain ⟨q, hq, rfl⟩ := List.mem_map.mp hp
    split
    · exact fun _ => rfl
    · exact h.closed q hq

theorem appendJournal (h : L.Dated) {row : JournalRow} (hyears : InYears row.occurredAt) :
    (L.appendJournal row).Dated :=
  { h with journal := forall_mem_concat h.journal hyears }

/-! What each transaction writes was written by `_timestamp`. -/

theorem recordSignal (h : L.Dated) {plan : TradePlan} {state : SignalExecutionState} {recordedAt : Datetime}
    (hrecord : Ledger.recordSignal plan state recordedAt L = (.ok (), L')) : L'.Dated := by
  simp only [Ledger.recordSignal, transaction_eq_ok, Except.bind_eq_ok, timestamp_eq_ok, onIntegrityError_eq_ok,
    insertSignal, Except.ite_ok_eq_ok, pure, Except.pure, Except.ok.injEq, Prod.mk.injEq, true_and] at hrecord
  obtain ⟨_, ⟨hutc, rfl⟩, _, ⟨-, rfl⟩, _, hevent, rfl⟩ := hrecord
  refine event ?_ hevent
  exact { h with signals := forall_mem_concat h.signals ⟨hutc.2, hutc.2⟩ }

theorem updateSignalState (h : L.Dated) {signalId : String} {state : SignalExecutionState} {now : Datetime}
    (hupdate : Ledger.updateSignalState signalId state now L = (.ok (), L')) : L'.Dated := by
  simp only [Ledger.updateSignalState, transaction_eq_ok, Except.bind_eq_ok, timestamp_eq_ok] at hupdate
  obtain ⟨_, ⟨hutc, rfl⟩, hupdate⟩ := hupdate
  split at hupdate
  · simp only [Except.bind_eq_ok, pure, Except.pure, Except.ok.injEq, Prod.mk.injEq, true_and] at hupdate
    obtain ⟨_, hevent, rfl⟩ := hupdate
    exact (h.setSignalState signalId state hutc.2).event hevent
  · cases hupdate

theorem recordApproval (h : L.Dated) {approval : Approval}
    (hrecord : Ledger.recordApproval approval L = (.ok (), L')) : L'.Dated := by
  simp only [Ledger.recordApproval, transaction_eq_ok, Except.ite_error_eq_ok, Except.bind_eq_ok, timestamp_eq_ok,
    onIntegrityError_eq_ok, insertApproval, Except.ite_ok_eq_ok, pure, Except.pure, Except.ok.injEq, Prod.mk.injEq,
    true_and] at hrecord
  obtain ⟨-, _, ⟨hutc, rfl⟩, _, ⟨-, rfl⟩, _, hevent, rfl⟩ := hrecord
  refine event ?_ hevent
  exact { h with approvals := forall_mem_concat h.approvals hutc.2 }

theorem updateKillSwitch (h : L.Dated) {active : Bool} {reason actor : String} {changedAt : Datetime}
    (hupdate : Ledger.updateKillSwitch active reason actor changedAt L = (.ok (), L')) : L'.Dated := by
  simp only [Ledger.updateKillSwitch, transaction_eq_ok, Except.ite_error_eq_ok, Except.bind_eq_ok, timestamp_eq_ok,
    pure, Except.pure, Except.ok.injEq, Prod.mk.injEq, true_and] at hupdate
  obtain ⟨-, _, ⟨hutc, rfl⟩, _, hevent, rfl⟩ := hupdate
  refine event ?_ hevent
  exact { h with killSwitch := hutc.2 }

theorem insertFills (h : L.Dated) {fills : List BrokerFill} (hfills : Ledger.insertFills fills L = .ok L') :
    L'.Dated := by
  induction fills generalizing L with
  | nil =>
      cases hfills
      exact h
  | cons fill fills ih =>
      obtain ⟨⟨-, hutc, -⟩, -, hrest⟩ := insertFills_cons_eq_ok.mp hfills
      refine ih ?_ hrest
      exact { h with fills := forall_mem_concat h.fills hutc.2 }

theorem insertOrderPosition (h : L.Dated) {order : BrokerOrder} {now : Datetime}
    (hposition : Ledger.insertOrderPosition order now L = .ok L') (hutc : now.HasUtc) : L'.Dated := by
  obtain ⟨-, rfl⟩ := insertOrderPosition_eq_ok.mp hposition
  -- The order opens no position, or one at this time.
  have hopened : ∀ p ∈ (storedPosition order now).toList, p.openedAt = now.instant ∧ p.closedAt = none ∧
      p.state = .opened := by
    intro p hp
    unfold storedPosition at hp
    split at hp
    · split at hp
      · rw [List.mem_singleton.mp hp]
        exact ⟨rfl, rfl, rfl⟩
      · cases hp
    · cases hp
  refine { h with positions := fun p hp => ?_, closed := fun p hp hclosed => ?_ }
  · rcases List.mem_append.mp hp with hp | hp
    · exact h.positions p hp
    · obtain ⟨htime, hnone, -⟩ := hopened p hp
      rw [htime, hnone]
      exact ⟨hutc.2, nofun⟩
  · rcases List.mem_append.mp hp with hp | hp
    · exact h.closed p hp hclosed
    · rw [(hopened p hp).2.2] at hclosed
      cases hclosed

theorem recordExecution (h : L.Dated) {order : BrokerOrder} {fills : List BrokerFill} {now : Datetime}
    (hrecord : Ledger.recordExecution order fills now L = (.ok (), L')) : L'.Dated := by
  obtain ⟨⟨-, -, hsubmitted, -⟩, -, L₁, hfills, L₂, hposition, hutc, rfl⟩ := recordExecution_eq_ok.mp hrecord
  have horder : ({ L with orders := L.orders ++ [storedOrder order] } : Ledger).Dated :=
    { h with orders := forall_mem_concat h.orders hsubmitted.2 }
  have hrows := ((horder.insertFills hfills).insertOrderPosition hposition hutc).setSignalState order.signalId
    (executionState order) hutc.2
  exact { hrows with
    journal := forall_mem_concat hrows.journal hutc.2
    events := forall_mem_concat hrows.events hutc.2 }

theorem closePosition (h : L.Dated) {positionId : String} {exitPrice pnl : Decimal} {closedAt : Datetime}
    (hclose : Ledger.closePosition positionId exitPrice closedAt L = (.ok pnl, L')) : L'.Dated := by
  simp only [Ledger.closePosition, transaction_eq_ok, Except.ite_error_eq_ok] at hclose
  obtain ⟨-, hclose⟩ := hclose
  split at hclose
  · cases hclose
  · simp only [Except.bind_eq_ok, timestamp_eq_ok, pure, Except.pure, Except.ok.injEq, Prod.mk.injEq] at hclose
    obtain ⟨_, ⟨hutc, rfl⟩, _, -, _, hevent, -, rfl⟩ := hclose
    refine event (appendJournal (h.setPositionClosed positionId _ _ hutc.2) ?_) hevent
    exact hutc.2

end Ledger.Dated

section Calls

variable {w : World}

/-- A transaction that raises has rolled back, so only the returning ones matter. -/
theorem dated_commit {α : Type} {body : Ledger → Except Fault (α × Ledger)} (h : w.ledger.Dated)
    (hok : ∀ value L', Ledger.transaction body w.ledger = (.ok value, L') → L'.Dated) :
    (w.commit (Ledger.transaction body w.ledger)).2.ledger.Dated := by
  rcases hrun : Ledger.transaction body w.ledger with ⟨fault | value, L'⟩
  · rw [Ledger.transaction_of_error hrun]
    exact h
  · exact hok value L' hrun

theorem perform_dated (live : Option LiveBrokerGateway) (cmd : Command) (h : w.ledger.Dated) :
    (perform live cmd w).2.ledger.Dated := by
  cases cmd with
  | setKillSwitch active reason actor changedAt => exact dated_commit h fun _ _ hrun => h.updateKillSwitch hrun
  | recordSignal plan state recordedAt => exact dated_commit h fun _ _ hrun => h.recordSignal hrun
  | updateSignalState signalId state now => exact dated_commit h fun _ _ hrun => h.updateSignalState hrun
  | recordApproval approval => exact dated_commit h fun _ _ hrun => h.recordApproval hrun
  | recordExecution order fills now => exact dated_commit h fun _ _ hrun => h.recordExecution hrun
  | closePosition positionId exitPrice closedAt => exact dated_commit h fun _ _ hrun => h.closePosition hrun
  | _ => exact h

theorem run_dated {α : Type} (live : Option LiveBrokerGateway) (p : Action α) (h : w.ledger.Dated) :
    (run (perform live) p w).2.ledger.Dated := by
  have hstep : ∀ (cmd : Command) (w : World), w.ledger.Dated → (perform live cmd w).2.ledger.Dated :=
    fun cmd w => perform_dated live cmd
  exact run_invariant (perform live) hstep p h

theorem after_dated (c : ExecutionController) (call : Call) (w : World) (h : w.ledger.Dated) :
    (c.after w call).ledger.Dated := by
  cases call with
  | submit plan now => exact run_dated c.live _ h
  | approve signalId actor reason approvedAt now => exact run_dated c.live _ h
  | setKillSwitch active actor reason changedAt => exact run_dated c.live _ h
  | closePosition positionId exitPrice closedAt => exact perform_dated c.live _ h

/-- Every timestamp of a ledger that the calls reach was written by one of them. -/
theorem runCalls_dated {createdAt : Int} (hcreated : InYears createdAt) (calls : List (ExecutionController × Call)) :
    ((World.fresh createdAt).runCalls calls).ledger.Dated := by
  have hfresh : (World.fresh createdAt).ledger.Dated := .fresh hcreated
  exact World.runCalls_invariant after_dated hfresh calls

end Calls

/-- After every run each timestamp column holds a moment of the calendar, and the reads that order rows by their
timestamps order them by time. -/
theorem run_reads_by_time {createdAt : Int} (hcreated : InYears createdAt)
    (calls : List (ExecutionController × Call)) :
    let L := ((World.fresh createdAt).runCalls calls).ledger
    L.Dated ∧
      L.latestSignal =
        (L.signals.reverse.insertionSort fun left right => right.receivedAt ≤ left.receivedAt).head? ∧
      (∀ openOnly, L.orderedPositions openOnly =
        (L.positions.filter fun p => !openOnly || decide (p.state = .opened)).insertionSort fun left right =>
          left.openedAt < right.openedAt ∨ left.openedAt = right.openedAt ∧ ¬right.positionId < left.positionId) ∧
      L.closedByText = L.closedNewestFirst := by
  intro L
  have hdated : L.Dated := runCalls_dated hcreated calls
  have htimed := hdated.timed
  exact ⟨hdated, L.latestSignal_eq htimed, L.orderedPositions_eq htimed, L.closedByText_eq htimed⟩

/-- Two orders of one security, the first of which is closed before the second, and a halt. -/
def tradingCalls : List (ExecutionController × Call) :=
  let c := liveController (fillingGateway id id)
  [(c, .submit (.sample "s1" "c1" "101") (.utc 0)), (c, .closePosition "position-c1" 110 (.utc 10000000)),
    (c, .submit (.sample "s2" "c2" "101") (.utc 20000000)), (c, .setKillSwitch true "desk" "halt" (.utc 30000000))]

theorem run_reads_by_time_trading :
    let L := ((World.fresh 0).runCalls tradingCalls).ledger
    (L.signals.map (·.receivedAt), L.positions.map fun p => (p.openedAt, p.closedAt), L.killSwitch.changedAt) =
        ([0, 20000000], [(0, some 10000000), (20000000, none)], 30000000) ∧
      L.latestSignal =
        (L.signals.reverse.insertionSort fun left right => right.receivedAt ≤ left.receivedAt).head? := by
  have hcreated : InYears 0 := by
    show (Datetime.utc 0).InCalendar
    decide
  exact ⟨by decide +kernel, (run_reads_by_time hcreated tradingCalls).2.1⟩

/-- Timestamps sort like time, as texts and in the reads that order by them. -/
theorem timestamps_sort_like_time :
    (∀ a b : Datetime, a.Aware → b.Aware → a.toUtc.InCalendar → b.toUtc.InCalendar →
      ∃ left right, timestampText a = .ok left ∧ timestampText b = .ok right ∧
        (left < right ↔ a.instant < b.instant) ∧ (left = right ↔ a.instant = b.instant)) ∧
    ∀ L : Ledger, L.Timed →
      L.latestSignal =
          (L.signals.reverse.insertionSort fun left right => right.receivedAt ≤ left.receivedAt).head? ∧
        (∀ openOnly, L.orderedPositions openOnly =
          (L.positions.filter fun p => !openOnly || decide (p.state = .opened)).insertionSort fun left right =>
            left.openedAt < right.openedAt ∨ left.openedAt = right.openedAt ∧ ¬right.positionId < left.positionId) ∧
        L.closedByText = L.closedNewestFirst ∧
        ((L.closedByText.filterMap (·.realizedPnl)).takeWhile fun pnl => pnl < 0).length = L.consecutiveLosses := by
  refine ⟨fun a b ha hb hyears hyears' => ?_, fun L h => ⟨L.latestSignal_eq h, L.orderedPositions_eq h, ?_⟩⟩
  · refine ⟨_, _, timestampText_eq_ok.mpr ⟨ha, hyears, rfl⟩, timestampText_eq_ok.mpr ⟨hb, hyears', rfl⟩, ?_, ?_⟩
    · exact Datetime.isoformat_utc_lt_iff hyears hyears'
    · exact Datetime.isoformat_utc_eq_iff hyears hyears'
  · rw [Ledger.closedByText_eq h]
    exact ⟨rfl, rfl⟩

end TecoQuant.Execution
