import Mathlib.Algebra.BigOperators.Finprod
import TecoQuant.BaseDecimalValue
import TecoQuant.BaseStableOrder
import TecoQuant.ExecutionTransactions

/-! The closes of a run, kept beside the ledger, and what the ledger's rows make of them: every closed row is
the row of one close, and the journal has one amount for each close in the order of the closes. -/

namespace TecoQuant.Execution

namespace Ledger

/-! ### Closing in an arithmetic context -/

/-- The open position of an id. -/
def openPosition (L : Ledger) (positionId : String) : Option PositionRow :=
  L.positions.find? fun p => p.positionId = positionId ∧ p.state = .opened

/-- `(exit_price - entry) * Decimal(row["quantity"]) * direction` in a context. -/
def positionPnlIn (ctx : Decimal.Context) (row : PositionRow) (exitPrice : Decimal) : Decimal :=
  let direction : Decimal := if row.side = .buy then 1 else .finite true 1 0
  let move := Decimal.sub ctx exitPrice row.averageEntryPrice
  Decimal.mul ctx (Decimal.mul ctx move (.ofInt row.quantity)) direction

/-- `close_position` in a context. -/
def closePositionIn (ctx : Decimal.Context) (positionId : String) (exitPrice : Decimal) (closedAt : Datetime) :
    Ledger → Except Fault Decimal × Ledger :=
  transaction fun L =>
    if ¬(exitPrice.IsFinite ∧ 0 < exitPrice) then
      .error ⟨.executionError, "exit price must be positive and finite"⟩
    else
      match L.openPosition positionId with
      | none => .error ⟨.executionError, "open position does not exist"⟩
      | some row => do
          let pnl := positionPnlIn ctx row exitPrice
          let instant ← timestamp closedAt
          let stored ← decimalColumn pnl
          let L := L.setPositionClosed positionId instant closedAt.utcDay stored
          let L := L.appendJournal ⟨some row.signalId, "POSITION_CLOSED", some stored, instant,
            [("position_id", .text positionId), ("exit_price", .decimal exitPrice)]⟩
          let L ← L.event "POSITION_CLOSED" positionId closedAt [("realized_pnl", .decimal pnl)]
          return (pnl, L)

/-- The ledger computes in the default context. -/
theorem closePositionIn_default : closePositionIn .default = closePosition := rfl

/-- `daily_realized_pnl` in a context. -/
def dailyRealizedPnlIn (ctx : Decimal.Context) (L : Ledger) (day : Int) : Decimal :=
  Decimal.sum ctx
    ((L.positions.filter fun p => p.state = .closed ∧ p.closedDay = some day).filterMap (·.realizedPnl))

theorem dailyRealizedPnlIn_default (L : Ledger) : L.dailyRealizedPnlIn .default = L.dailyRealizedPnl := rfl

structure JournalSummary where
  journalEntries : Nat
  orders : Nat
  closedPositions : Nat
  realizedPnl : Decimal

/-- `journal_summary` in a context. -/
def journalSummary (ctx : Decimal.Context) (L : Ledger) : JournalSummary :=
  let realized := L.positions.filter fun p => p.state = .closed
  ⟨L.journal.length, L.orders.length, realized.length, Decimal.sum ctx (realized.filterMap (·.realizedPnl))⟩

/-- The amounts of the journal's entries of a type. -/
def journalAmounts (L : Ledger) (entryType : String) : List (Option Decimal) :=
  (L.journal.filter fun entry => entry.entryType = entryType).map (·.amount)

/-- The row id of a position: positions are never deleted, so row ids follow the order of insertion. -/
def rowid (L : Ledger) (positionId : String) : Nat := (L.positions.map (·.positionId)).idxOf positionId

end Ledger

/-! ### Closes -/

/-- A successful close: the row it found open, the exit price and the time. -/
structure Close where
  row : PositionRow
  exitPrice : Decimal
  closedAt : Datetime

namespace Close

/-- What `close_position` returns. -/
def pnl (ctx : Decimal.Context) (close : Close) : Decimal := Ledger.positionPnlIn ctx close.row close.exitPrice

/-- The row it leaves. -/
def closedRow (ctx : Decimal.Context) (close : Close) : PositionRow :=
  { close.row with
    state := .closed
    closedAt := some close.closedAt.instant
    closedDay := some close.closedAt.utcDay
    realizedPnl := some (close.pnl ctx).plain }

end Close

/-! ### Runs of the ledger's bookkeeping -/

/-- A call that records a signal or an execution, or closes a position. -/
inductive Bookkeeping where
  | recordSignal (plan : TradePlan) (state : SignalExecutionState) (recordedAt : Datetime)
  | recordExecution (order : BrokerOrder) (fills : List BrokerFill) (now : Datetime)
  | closePosition (positionId : String) (exitPrice : Decimal) (closedAt : Datetime)

/-- The ledger, and the closes made so far, in order. -/
structure Books where
  ledger : Ledger
  closes : List Close

namespace Books

def fresh (createdAt : Int) : Books := ⟨.fresh createdAt, []⟩

/-- What a call leaves, whether it returns or raises. -/
def after (ctx : Decimal.Context) (b : Books) : Bookkeeping → Books
  | .recordSignal plan state recordedAt => { b with ledger := (b.ledger.recordSignal plan state recordedAt).2 }
  | .recordExecution order fills now => { b with ledger := (b.ledger.recordExecution order fills now).2 }
  | .closePosition positionId exitPrice closedAt =>
      match Ledger.closePositionIn ctx positionId exitPrice closedAt b.ledger with
      | (.ok _, L) =>
          ⟨L, b.closes ++ ((b.ledger.openPosition positionId).map fun row => ⟨row, exitPrice, closedAt⟩).toList⟩
      | (.error _, L) => ⟨L, b.closes⟩

def run (ctx : Decimal.Context) (b : Books) (calls : List Bookkeeping) : Books := calls.foldl (after ctx) b

/-- A condition on every call of a run and the books before it. -/
def Each (ctx : Decimal.Context) (P : Books → Bookkeeping → Prop) : Books → List Bookkeeping → Prop
  | _, [] => True
  | b, call :: calls => P b call ∧ Each ctx P (b.after ctx call) calls

end Books

/-! ### What the calls do -/

namespace Ledger

variable {L L' : Ledger}

theorem closePositionIn_ok {ctx : Decimal.Context} {positionId : String} {exitPrice pnl : Decimal}
    {closedAt : Datetime} (h : closePositionIn ctx positionId exitPrice closedAt L = (.ok pnl, L')) :
    ∃ row events, L.openPosition positionId = some row ∧ exitPrice.IsFinite ∧
      (positionPnlIn ctx row exitPrice).IsFinite ∧ pnl = positionPnlIn ctx row exitPrice ∧
      L' = { L.setPositionClosed positionId closedAt.instant closedAt.utcDay (positionPnlIn ctx row exitPrice).plain with
        journal := L.journal ++ [⟨some row.signalId, "POSITION_CLOSED",
          some (positionPnlIn ctx row exitPrice).plain, closedAt.instant,
          [("position_id", .text positionId), ("exit_price", .decimal exitPrice)]⟩]
        events := events } := by
  simp only [closePositionIn, transaction_eq_ok, Except.ite_error_eq_ok] at h
  obtain ⟨hprice, h⟩ := h
  split at h
  · cases h
  · rename_i row hrow
    simp only [Except.bind_eq_ok, timestamp_eq_ok, decimalColumn_eq_ok, event_eq_ok, pure, Except.pure,
      Except.ok.injEq, Prod.mk.injEq] at h
    obtain ⟨_, ⟨_, rfl⟩, _, ⟨hfinite, rfl⟩, _, ⟨_, rfl⟩, rfl, rfl⟩ := h
    exact ⟨row, _, hrow, (not_not.mp hprice).1, hfinite, rfl, rfl⟩

/-- A close that raises has rolled back. -/
theorem closePositionIn_error {ctx : Decimal.Context} {positionId : String} {exitPrice : Decimal}
    {closedAt : Datetime} {fault : Fault}
    (h : closePositionIn ctx positionId exitPrice closedAt L = (.error fault, L')) : L' = L :=
  transaction_of_error h

theorem recordSignal_positions (plan : TradePlan) (state : SignalExecutionState) (recordedAt : Datetime) :
    (recordSignal plan state recordedAt L).2.positions = L.positions ∧
      (recordSignal plan state recordedAt L).2.journal = L.journal := by
  rcases h : recordSignal plan state recordedAt L with ⟨fault | value, L'⟩
  · rw [transaction_of_error h]
    exact ⟨rfl, rfl⟩
  · obtain ⟨-, events, rfl⟩ := recordSignal_ok h
    exact ⟨rfl, rfl⟩

/-- An execution appends at most one position, open and priced, and a journal entry of its own type. -/
theorem recordExecution_positions (order : BrokerOrder) (fills : List BrokerFill) (now : Datetime) :
    ∃ opened : Option PositionRow, (recordExecution order fills now L).2.positions = L.positions ++ opened.toList ∧
      (∀ row ∈ opened, L.PositionConstraints row ∧ row.state = .opened) ∧
      (recordExecution order fills now L).2.journalAmounts "POSITION_CLOSED" =
        L.journalAmounts "POSITION_CLOSED" := by
  rcases h : recordExecution order fills now L with ⟨fault | value, L'⟩
  · rw [transaction_of_error h]
    exact ⟨none, by simp, by simp, rfl⟩
  · obtain ⟨-, -, L₁, hfills, L₂, hposition, -, rfl⟩ := recordExecution_eq_ok.mp h
    obtain ⟨hrow, rfl⟩ := insertOrderPosition_eq_ok.mp hposition
    obtain rfl := insertFills_ok hfills
    refine ⟨storedPosition order now, rfl, fun row hmem => ⟨(hrow row hmem).2.2.2, ?_⟩, ?_⟩
    · revert hmem
      unfold storedPosition
      split
      · split
        · rintro ⟨⟩
          rfl
        · rintro ⟨⟩
      · rintro ⟨⟩
    · simp [journalAmounts]

/-- Closing a position keeps the ids. -/
theorem setPositionClosed_ids (L : Ledger) (positionId : String) (closedAt closedDay : Int) (pnl : Decimal) :
    (L.setPositionClosed positionId closedAt closedDay pnl).positions.map (·.positionId) =
      L.positions.map (·.positionId) := by
  simp only [setPositionClosed, List.map_map]
  refine List.map_congr_left fun p _ => ?_
  simp only [Function.comp]
  split <;> rfl

theorem openPosition_eq_some {positionId : String} {row : PositionRow} (h : L.openPosition positionId = some row) :
    row ∈ L.positions ∧ row.positionId = positionId ∧ row.state = .opened := by
  have hfound := List.find?_some h
  simp only [decide_eq_true_eq] at hfound
  exact ⟨List.mem_of_find?_eq_some h, hfound⟩

end Ledger

/-! ### The books agree -/

/-- The ledger's rows and the closes of a run. -/
structure Books.Agree (ctx : Decimal.Context) (b : Books) : Prop where
  ids : (b.ledger.positions.map (·.positionId)).Nodup
  prices : ∀ p ∈ b.ledger.positions, p.averageEntryPrice.IsFinite
  closed_once : (b.closes.map (·.row.positionId)).Nodup
  closed_rows : ∀ close ∈ b.closes, close.closedRow ctx ∈ b.ledger.positions
  of_close : ∀ p ∈ b.ledger.positions, p.state = .closed → ∃ close ∈ b.closes, p = close.closedRow ctx
  journal : b.ledger.journalAmounts "POSITION_CLOSED" = b.closes.map fun close => some (close.pnl ctx).plain
  finite : ∀ close ∈ b.closes, close.exitPrice.IsFinite ∧ (close.pnl ctx).IsFinite

namespace Books.Agree

variable {ctx : Decimal.Context} {b : Books}

theorem fresh (ctx : Decimal.Context) (createdAt : Int) : (Books.fresh createdAt).Agree ctx where
  ids := .nil
  prices _ h := absurd h List.not_mem_nil
  closed_once := .nil
  closed_rows _ h := absurd h List.not_mem_nil
  of_close _ h := absurd h List.not_mem_nil
  journal := rfl
  finite _ h := absurd h List.not_mem_nil

/-- Rows with the same id are the same. -/
theorem eq_of_id (h : b.Agree ctx) {p q : PositionRow} (hp : p ∈ b.ledger.positions) (hq : q ∈ b.ledger.positions)
    (hid : p.positionId = q.positionId) : p = q :=
  List.inj_on_of_nodup_map h.ids hp hq hid

/-- An execution adds an open position, or none. -/
theorem recordExecution (h : b.Agree ctx) (order : BrokerOrder) (fills : List BrokerFill) (now : Datetime) :
    (b.after ctx (.recordExecution order fills now)).Agree ctx := by
  obtain ⟨opened, hpositions, hopened, hjournal⟩ :=
    Ledger.recordExecution_positions (L := b.ledger) order fills now
  have hmem : ∀ p, p ∈ (b.ledger.recordExecution order fills now).2.positions ↔
      p ∈ b.ledger.positions ∨ p ∈ opened := by
    intro p
    rw [hpositions, List.mem_append, Option.mem_toList, Option.mem_def]
  refine ⟨?_, fun p hp => ?_, h.closed_once, fun close hclose => (hmem _).mpr (.inl (h.closed_rows close hclose)),
    fun p hp hclosed => ?_, hjournal.trans h.journal, h.finite⟩
  · show ((b.ledger.recordExecution order fills now).2.positions.map (·.positionId)).Nodup
    rw [hpositions, List.map_append, List.nodup_append]
    refine ⟨h.ids, ?_, ?_⟩
    · cases opened <;> simp
    · intro id hid id' hid' heq
      obtain ⟨p, hp, rfl⟩ := List.mem_map.mp hid
      obtain ⟨q, hq, rfl⟩ := List.mem_map.mp hid'
      exact ((hopened q (Option.mem_toList.mp hq)).1.1 p hp).1 heq
  · rcases (hmem p).mp hp with hp | hp
    · exact h.prices p hp
    · -- A price that is not a number casts to zero.
      have hcast := (hopened p hp).1.2.2.2.1
      exact Decimal.isFinite_of_pos (lt_trans (by positivity) hcast)
  · rcases (hmem p).mp hp with hp | hp
    · exact h.of_close p hp hclosed
    · exact absurd hclosed (by simp [(hopened p hp).2])

/-- A close moves one row from the open ones to the closed ones. -/
theorem closePosition (h : b.Agree ctx) (positionId : String) (exitPrice : Decimal) (closedAt : Datetime) :
    (b.after ctx (.closePosition positionId exitPrice closedAt)).Agree ctx := by
  simp only [after]
  split
  · rename_i pnl L hclose
    obtain ⟨row, events, hrow, hexit, hfinite, -, rfl⟩ := Ledger.closePositionIn_ok hclose
    obtain ⟨hmem, hid, hopen⟩ := Ledger.openPosition_eq_some hrow
    have hother : ∀ close ∈ b.closes, close.row.positionId ≠ positionId := by
      intro close hclose heq
      have hsame := h.eq_of_id (h.closed_rows close hclose) hmem (heq.trans hid.symm)
      rw [← hsame] at hopen
      cases hopen
    rw [hrow, Option.map_some, Option.toList_some]
    refine ⟨?_, fun p hp => ?_, ?_, fun close hclose => ?_, fun p hp hclosed => ?_, ?_, fun close hclose => ?_⟩
    · exact Ledger.setPositionClosed_ids b.ledger positionId _ _ _ ▸ h.ids
    · obtain ⟨q, hq, rfl⟩ := List.mem_map.mp hp
      have hprice := h.prices q hq
      split <;> exact hprice
    · rw [List.map_append, List.map_singleton, List.nodup_append]
      refine ⟨h.closed_once, List.nodup_singleton _, ?_⟩
      intro id hmemId id' hid' heq
      obtain ⟨close, hclose, rfl⟩ := List.mem_map.mp hmemId
      rw [List.mem_singleton.mp hid'] at heq
      exact hother close hclose (heq.trans hid)
    · rcases List.mem_append.mp hclose with hclose | hclose
      · refine List.mem_map.mpr ⟨_, h.closed_rows close hclose, if_neg (hother close hclose)⟩
      · rw [List.mem_singleton.mp hclose]
        exact List.mem_map.mpr ⟨row, hmem, if_pos hid⟩
    · obtain ⟨q, hq, rfl⟩ := List.mem_map.mp hp
      by_cases hqid : q.positionId = positionId
      · obtain rfl := h.eq_of_id hq hmem (hqid.trans hid.symm)
        exact ⟨_, List.mem_append_right _ (List.mem_singleton_self _), if_pos hqid⟩
      · rw [if_neg hqid] at hclosed ⊢
        obtain ⟨close, hclose, heq⟩ := h.of_close q hq hclosed
        exact ⟨close, List.mem_append_left _ hclose, heq⟩
    · have hjournal := h.journal
      simp only [Ledger.journalAmounts] at hjournal ⊢
      rw [List.filter_append, List.map_append, hjournal, List.map_append]
      rfl
    · rcases List.mem_append.mp hclose with hclose | hclose
      · exact h.finite close hclose
      · rw [List.mem_singleton.mp hclose]
        exact ⟨hexit, hfinite⟩
  · rename_i fault L hclose
    rw [Ledger.closePositionIn_error hclose]
    exact h

theorem after (h : b.Agree ctx) (call : Bookkeeping) : (b.after ctx call).Agree ctx := by
  cases call with
  | recordSignal plan state recordedAt =>
      obtain ⟨hpositions, hjournal⟩ := Ledger.recordSignal_positions (L := b.ledger) plan state recordedAt
      refine ⟨?_, ?_, h.closed_once, ?_, ?_, ?_, h.finite⟩
      · simpa only [Books.after, hpositions] using h.ids
      · simpa only [Books.after, hpositions] using h.prices
      · simpa only [Books.after, hpositions] using h.closed_rows
      · simpa only [Books.after, hpositions] using h.of_close
      · simpa only [Books.after, Ledger.journalAmounts, hjournal] using h.journal
  | recordExecution order fills now => exact h.recordExecution order fills now
  | closePosition positionId exitPrice closedAt => exact h.closePosition positionId exitPrice closedAt

theorem run (h : b.Agree ctx) (calls : List Bookkeeping) : (b.run ctx calls).Agree ctx := by
  induction calls generalizing b with
  | nil => exact h
  | cons call calls ih => exact ih (h.after call)

/-- The closed rows are those of the closes, each once. -/
theorem closed_perm (h : b.Agree ctx) :
    (b.ledger.positions.filter fun p => p.state = .closed).Perm (b.closes.map (Close.closedRow ctx)) := by
  refine (List.perm_ext_iff_of_nodup (h.ids.of_map _ |>.filter _) (List.Nodup.of_map (·.positionId) ?_)).mpr fun p => ?_
  · rw [List.map_map]
    exact h.closed_once
  · rw [List.mem_filter, decide_eq_true_eq, List.mem_map]
    constructor
    · rintro ⟨hp, hclosed⟩
      obtain ⟨close, hclose, heq⟩ := h.of_close p hp hclosed
      exact ⟨close, hclose, heq.symm⟩
    · rintro ⟨close, hclose, rfl⟩
      exact ⟨h.closed_rows close hclose, rfl⟩

end Books.Agree

/-! ### Exact accounts -/

namespace Close

/-- The move of the price times the quantity, negated for a sale. -/
def gain (close : Close) : ℚ :=
  (close.exitPrice.value - close.row.averageEntryPrice.value) * close.row.quantity *
    if close.row.side = .buy then 1 else -1

theorem pnl_exact {close : Close} (hexit : close.exitPrice.IsFinite)
    (hentry : close.row.averageEntryPrice.IsFinite) : (close.pnl .exact).value = close.gain := by
  obtain ⟨hmove, hmoveValue⟩ := Decimal.sub_exact hexit hentry
  obtain ⟨hsize, hsizeValue⟩ := Decimal.mul_exact hmove (show (Decimal.ofInt close.row.quantity).IsFinite by trivial)
  have hdirection : (if close.row.side = .buy then 1 else .finite true 1 0 : Decimal).IsFinite ∧
      (if close.row.side = .buy then 1 else .finite true 1 0 : Decimal).value = if close.row.side = .buy then 1 else -1 := by
    split
    · exact ⟨trivial, (Decimal.ofInt_value 1).trans Int.cast_one⟩
    · exact ⟨trivial, by simp [Decimal.value]⟩
  rw [pnl, Ledger.positionPnlIn, (Decimal.mul_exact hsize hdirection.1).2, hsizeValue, hmoveValue,
    Decimal.ofInt_value, hdirection.2, gain]

end Close

/-- Sums by day add up to the whole sum. -/
theorem sum_gain_by_day (closes : List Close) (days : Finset Int) (h : ∀ close ∈ closes, close.closedAt.utcDay ∈ days) :
    ∑ day ∈ days, ((closes.filter fun close => close.closedAt.utcDay = day).map Close.gain).sum =
      (closes.map Close.gain).sum := by
  induction closes with
  | nil => simp
  | cons close closes ih =>
      have hsplit : ∀ day, (((close :: closes).filter fun close => close.closedAt.utcDay = day).map Close.gain).sum =
          (if close.closedAt.utcDay = day then close.gain else 0) +
            ((closes.filter fun close => close.closedAt.utcDay = day).map Close.gain).sum := by
        intro day
        by_cases hday : close.closedAt.utcDay = day <;> simp [hday]
      rw [Finset.sum_congr rfl fun day _ => hsplit day, Finset.sum_add_distrib, Finset.sum_ite_eq,
        if_pos (h close List.mem_cons_self), ih fun c hc => h c (List.mem_cons_of_mem _ hc), List.map_cons, List.sum_cons]

namespace Books.Agree

variable {b : Books}

theorem pnl_value (h : b.Agree .exact) {close : Close} (hclose : close ∈ b.closes) :
    (close.pnl .exact).plain.value = close.gain := by
  rw [Decimal.plain_value]
  have hentry := h.prices _ (h.closed_rows close hclose)
  exact Close.pnl_exact (h.finite close hclose).1 hentry

/-- The rows of some of the closes sum up to what these gained. -/
theorem sum_rows (h : b.Agree .exact) {rows : List PositionRow} {closes : List Close} (hsubset : closes ⊆ b.closes)
    (hperm : rows.Perm (closes.map (Close.closedRow .exact))) :
    (Decimal.sum .exact (rows.filterMap (·.realizedPnl))).value = (closes.map Close.gain).sum := by
  have hamounts : (closes.map (Close.closedRow .exact)).filterMap (·.realizedPnl) =
      closes.map fun close => (close.pnl .exact).plain := by
    rw [List.filterMap_map]
    exact List.filterMap_eq_map_iff_forall_eq_some.mpr fun close _ => rfl
  have hvalues := hperm.filterMap (·.realizedPnl)
  rw [hamounts] at hvalues
  rw [Decimal.sum_exact, (hvalues.map Decimal.value).sum_eq, List.map_map]
  · exact congrArg List.sum (List.map_congr_left fun close hclose => h.pnl_value (hsubset hclose))
  · intro d hd
    obtain ⟨close, hclose, rfl⟩ := List.mem_map.mp (hvalues.mem_iff.mp hd)
    exact Decimal.plain_isFinite.mpr (h.finite close (hsubset hclose)).2

theorem daily (h : b.Agree .exact) (day : Int) : (b.ledger.dailyRealizedPnlIn .exact day).value =
    ((b.closes.filter fun close => close.closedAt.utcDay = day).map Close.gain).sum := by
  refine h.sum_rows (List.filter_subset_self _) ?_
  have hperm := h.closed_perm.filter fun p => p.closedDay = some day
  rw [List.filter_filter, List.filter_map] at hperm
  refine (List.Perm.of_eq (List.filter_congr fun p _ => ?_)).trans (hperm.trans (List.Perm.of_eq ?_))
  · rw [Bool.decide_and, Bool.and_comm]
  · exact congrArg _ (List.filter_congr fun close _ => by simp [Close.closedRow])

end Books.Agree

/-- Realized profit and loss is conserved: by day, in the summary, in the journal and over the closed positions. -/
theorem Books.bookkeeping_conserves (createdAt : Int) (calls : List Bookkeeping) :
    let b := (Books.fresh createdAt).run .exact calls
    let realized := (b.closes.map Close.gain).sum
    ∑ᶠ day, (b.ledger.dailyRealizedPnlIn .exact day).value = realized ∧
      (b.ledger.journalSummary .exact).realizedPnl.value = realized ∧
      ((b.ledger.journalAmounts "POSITION_CLOSED").map fun amount => (amount.getD 0).value).sum = realized ∧
      (b.ledger.positions.filter fun p => p.state = .closed).Perm (b.closes.map (Close.closedRow .exact)) ∧
      (b.closes.map (·.row.positionId)).Nodup ∧
      ∀ p ∈ b.ledger.positions, p.state = .closed →
        ∃ instant, p.closedAt = some instant ∧ p.closedDay = some (instant / 86400000000) := by
  intro b realized
  have h : b.Agree .exact := (Books.Agree.fresh .exact createdAt).run calls
  refine ⟨?_, h.sum_rows (fun _ hc => hc) h.closed_perm, ?_, h.closed_perm, h.closed_once, fun p hp hclosed => ?_⟩
  · have hday : ∀ close ∈ b.closes, close.closedAt.utcDay ∈ (b.closes.map (·.closedAt.utcDay)).toFinset :=
      fun close hclose => List.mem_toFinset.mpr (List.mem_map_of_mem hclose)
    rw [finsum_congr h.daily, finsum_eq_sum_of_support_subset (s := (b.closes.map (·.closedAt.utcDay)).toFinset) _ ?_,
      sum_gain_by_day _ _ hday]
    intro day hne
    by_contra hnone
    refine hne ?_
    dsimp only
    rw [List.filter_eq_nil_iff.mpr fun close hclose => ?_, List.map_nil, List.sum_nil]
    rw [decide_eq_true_eq]
    rintro rfl
    exact hnone (hday close hclose)
  · rw [h.journal, List.map_map]
    exact congrArg List.sum (List.map_congr_left fun close hclose => h.pnl_value hclose)
  · obtain ⟨close, -, rfl⟩ := h.of_close p hp hclosed
    exact ⟨_, rfl, rfl⟩

end TecoQuant.Execution
