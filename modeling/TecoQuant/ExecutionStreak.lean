import TecoQuant.ExecutionAccounts

/-! The losing streak. The ledger sorts the closed rows by the time of the close and breaks ties by the row id,
which is the order of opening; the streak is about the order of closing. -/

namespace TecoQuant.Execution

open StableOrder

/-- A close with a negative profit. -/
def Close.Loss (close : Close) : Prop := close.pnl .default < 0

instance (close : Close) : Decidable close.Loss := inferInstanceAs (Decidable (_ < _))

namespace Books

/-- The closes with a loss since the last one without. -/
def losingStreak (b : Books) : Nat := (b.closes.reverse.takeWhile fun close => close.Loss).length

/-- Of a loss and a close without loss at one instant, the first to close was the first to open. -/
def ClosesInOrder (b : Books) : Bookkeeping → Prop
  | .closePosition positionId exitPrice closedAt =>
      ∀ row ∈ b.ledger.openPosition positionId, ∀ p ∈ b.ledger.positions, p.closedAt = some closedAt.instant →
        (∀ pnl ∈ p.realizedPnl, pnl < 0 ↔ ¬Ledger.positionPnl row exitPrice < 0) →
          b.ledger.rowid p.positionId < b.ledger.rowid positionId
  | _ => True

instance (b : Books) (call : Bookkeeping) : Decidable (b.ClosesInOrder call) :=
  match call with
  | .closePosition positionId exitPrice closedAt =>
      inferInstanceAs (Decidable (∀ row ∈ b.ledger.openPosition positionId, ∀ p ∈ b.ledger.positions,
        p.closedAt = some closedAt.instant →
          (∀ pnl ∈ p.realizedPnl, pnl < 0 ↔ ¬Ledger.positionPnl row exitPrice < 0) →
            b.ledger.rowid p.positionId < b.ledger.rowid positionId))
  | .recordSignal .. | .recordExecution .. => .isTrue trivial

/-- Two closes at one instant of which exactly one is a loss were of positions opened in that order. -/
def Ordered (b : Books) : Prop :=
  b.closes.Pairwise fun first second => first.closedAt.instant = second.closedAt.instant →
    (first.Loss ↔ ¬second.Loss) → b.ledger.rowid first.row.positionId < b.ledger.rowid second.row.positionId

end Books

/-! ### Row ids -/

namespace Ledger

/-- Appending positions keeps the row ids of the ones there. -/
theorem rowid_append {L L' : Ledger} {added : List PositionRow} {positionId : String}
    (h : L'.positions.map (·.positionId) = L.positions.map (·.positionId) ++ added.map (·.positionId))
    (hmem : positionId ∈ L.positions.map (·.positionId)) : L'.rowid positionId = L.rowid positionId := by
  rw [rowid, rowid, h, List.idxOf_append_of_mem hmem]

end Ledger

/-- Under distinct keys, the elements of a list stand in the order of their first index. -/
theorem pairwise_idxOf {α κ : Type} [DecidableEq κ] {key : α → κ} {l : List α} (h : (l.map key).Nodup) :
    l.Pairwise fun a b => (l.map key).idxOf (key a) < (l.map key).idxOf (key b) := by
  rw [List.pairwise_iff_getElem]
  intro i j hi hj hij
  have hindex : ∀ k (hk : k < l.length), (l.map key).idxOf (key l[k]) = k := by
    intro k hk
    have hget := h.idxOf_getElem k (by simpa using hk)
    rwa [List.getElem_map] at hget
  rw [hindex i hi, hindex j hj]
  exact hij

namespace Books.Agree

variable {b : Books}

theorem mem_ids (h : b.Agree .default) {close : Close} (hclose : close ∈ b.closes) :
    close.row.positionId ∈ b.ledger.positions.map (·.positionId) :=
  List.mem_map.mpr ⟨_, h.closed_rows close hclose, rfl⟩

/-- A call that appends positions and makes no close keeps the order. -/
theorem ordered_append (h : b.Agree .default) (hb : b.Ordered) {L : Ledger} {added : List PositionRow}
    (hL : L.positions = b.ledger.positions ++ added) : Books.Ordered ⟨L, b.closes⟩ := by
  have hids : L.positions.map (·.positionId) =
      b.ledger.positions.map (·.positionId) ++ added.map (·.positionId) := by rw [hL, List.map_append]
  refine List.Pairwise.imp_of_mem (fun {first second} hfirst hsecond hordered => ?_) hb
  show first.closedAt.instant = second.closedAt.instant → (first.Loss ↔ ¬second.Loss) →
    L.rowid first.row.positionId < L.rowid second.row.positionId
  rw [Ledger.rowid_append hids (h.mem_ids hfirst), Ledger.rowid_append hids (h.mem_ids hsecond)]
  exact hordered

theorem ordered_after (h : b.Agree .default) (hb : b.Ordered) {call : Bookkeeping} (hcall : b.ClosesInOrder call) :
    (b.after .default call).Ordered := by
  cases call with
  | recordSignal plan state recordedAt =>
      have hsame := (Ledger.recordSignal_positions (L := b.ledger) plan state recordedAt).1
      exact h.ordered_append hb (hsame.trans (List.append_nil _).symm)
  | recordExecution order fills now =>
      obtain ⟨opened, hpositions, -⟩ := Ledger.recordExecution_positions (L := b.ledger) order fills now
      exact h.ordered_append hb hpositions
  | closePosition positionId exitPrice closedAt =>
      simp only [Books.after]
      split
      · rename_i pnl L hclose
        obtain ⟨row, events, hrow, -, -, -, rfl⟩ := Ledger.closePositionIn_ok hclose
        obtain ⟨-, hid, -⟩ := Ledger.openPosition_eq_some hrow
        have hids := Ledger.setPositionClosed_ids b.ledger positionId closedAt.instant closedAt.utcDay
          (Ledger.positionPnlIn .default row exitPrice).plain
        rw [hrow, Option.map_some, Option.toList_some]
        refine List.pairwise_append.mpr ⟨?_, List.pairwise_singleton _ _, ?_⟩
        · simpa only [Books.Ordered, Ledger.rowid, hids] using hb
        · intro close hmem last hlast
          obtain rfl := List.mem_singleton.mp hlast
          intro hinstant hopposite
          simp only [Ledger.rowid, hids, hid]
          have hrows := h.closed_rows close hmem
          refine hcall row hrow (close.closedRow .default) hrows (congrArg some hinstant) fun amount hamount => ?_
          obtain rfl := Option.some.inj hamount
          have hplain : (close.pnl .default).plain < 0 ↔ close.Loss := by
            rw [Close.Loss, Decimal.lt_iff, Decimal.lt_iff, Decimal.plain_value]
          exact hplain.trans hopposite
      · rename_i fault L hclose
        rw [Ledger.closePositionIn_error hclose]
        exact hb

theorem ordered_run (h : b.Agree .default) (hb : b.Ordered) {calls : List Bookkeeping}
    (hcalls : b.Each .default ClosesInOrder calls) : (b.run .default calls).Ordered := by
  induction calls generalizing b with
  | nil => exact hb
  | cons call calls ih => exact ih (h.after call) (h.ordered_after hb hcalls.1) hcalls.2

end Books.Agree

/-! ### The streak -/

namespace Books

/-- A row was opened after another. -/
def OpenedAfter (b : Books) (p q : PositionRow) : Prop := b.ledger.rowid q.positionId < b.ledger.rowid p.positionId

/-- A row was closed after another. -/
def ClosedAfter (b : Books) (p q : PositionRow) : Prop :=
  (b.closes.map (·.row.positionId)).idxOf q.positionId < (b.closes.map (·.row.positionId)).idxOf p.positionId

end Books

def PositionRow.Lost (p : PositionRow) : Bool := decide (p.realizedPnl.getD 0 < 0)

theorem Close.lost_closedRow (close : Close) : (close.closedRow .default).Lost = decide close.Loss := by
  have hplain : (close.pnl .default).plain < 0 ↔ close.Loss := by
    rw [Close.Loss, Decimal.lt_iff, Decimal.lt_iff, Decimal.plain_value]
  exact decide_eq_decide.mpr hplain

namespace Books.Agree

variable {b : Books}

/-- The ledger counts the rows of losses that come first when sorted by time and row id. -/
theorem consecutiveLosses_eq (h : b.Agree .default) :
    b.ledger.consecutiveLosses = (b.ledger.closedNewestFirst.takeWhile PositionRow.Lost).length := by
  have hrows : ∀ p ∈ b.ledger.closedNewestFirst, p.realizedPnl = some (p.realizedPnl.getD 0) := by
    intro p hp
    rw [Ledger.closedNewestFirst, List.mem_insertionSort, List.mem_reverse] at hp
    obtain ⟨close, -, rfl⟩ := List.mem_map.mp (h.closed_perm.mem_iff.mp hp)
    rfl
  have hamounts : b.ledger.closedNewestFirst.filterMap (·.realizedPnl) =
      b.ledger.closedNewestFirst.map fun p => p.realizedPnl.getD 0 :=
    List.filterMap_eq_map_iff_forall_eq_some.mpr hrows
  rw [Ledger.consecutiveLosses, hamounts, List.takeWhile_map, List.length_map]
  rfl

theorem closed_pairwise (h : b.Agree .default) :
    b.ledger.closedNewestFirst.Pairwise (Ahead (fun p => p.closedAt.getD 0) b.OpenedAfter) :=
  pairwise_insertionSort (List.pairwise_reverse.mpr ((pairwise_idxOf h.ids).sublist List.filter_sublist))

theorem closes_pairwise (h : b.Agree .default) :
    (b.closes.reverse.map (Close.closedRow .default)).Pairwise b.ClosedAfter :=
  List.pairwise_map.mpr (List.pairwise_reverse.mpr (pairwise_idxOf h.closed_once))

/-- Of a loss and a close without loss, the one that was made later comes first in the ledger's order. -/
theorem ahead_of_closedAfter (h : b.Agree .default) (hb : b.Ordered)
    (hmono : b.closes.Pairwise fun first second => first.closedAt.instant ≤ second.closedAt.instant)
    {first second : Close} (hfirst : first ∈ b.closes) (hsecond : second ∈ b.closes)
    (hopposite : first.Loss ↔ ¬second.Loss)
    (hafter : b.ClosedAfter (second.closedRow .default) (first.closedRow .default)) :
    Ahead (fun p => p.closedAt.getD 0) b.OpenedAfter (second.closedRow .default) (first.closedRow .default) := by
  obtain ⟨i, hi, rfl⟩ := List.mem_iff_getElem.mp hfirst
  obtain ⟨j, hj, rfl⟩ := List.mem_iff_getElem.mp hsecond
  have hindex : ∀ k (hk : k < b.closes.length),
      (b.closes.map (·.row.positionId)).idxOf (b.closes[k].closedRow .default).positionId = k := by
    intro k hk
    have hget := h.closed_once.idxOf_getElem k (by simpa using hk)
    rwa [List.getElem_map] at hget
  rw [ClosedAfter, hindex i hi, hindex j hj] at hafter
  have htime := List.pairwise_iff_getElem.mp hmono i j hi hj hafter
  rcases htime.lt_or_eq with hlt | heq
  · exact .inl hlt
  · exact .inr ⟨heq.symm, List.pairwise_iff_getElem.mp hb i j hi hj hafter heq hopposite⟩

theorem losingStreak_eq (h : b.Agree .default) (hb : b.Ordered)
    (hmono : b.closes.Pairwise fun first second => first.closedAt.instant ≤ second.closedAt.instant) :
    b.ledger.consecutiveLosses = b.losingStreak := by
  have hperm : b.ledger.closedNewestFirst.Perm (b.closes.reverse.map (Close.closedRow .default)) :=
    (List.perm_insertionSort _ _).trans ((List.reverse_perm _).trans
      (h.closed_perm.trans (b.closes.reverse_perm.symm.map _)))
  have hstreak : b.losingStreak =
      ((b.closes.reverse.map (Close.closedRow .default)).takeWhile PositionRow.Lost).length := by
    rw [losingStreak, List.takeWhile_map, List.length_map]
    exact congrArg (fun p => (b.closes.reverse.takeWhile p).length) (funext fun close => close.lost_closedRow.symm)
  rw [h.consecutiveLosses_eq, hstreak]
  have hasymm : ∀ p q, Ahead (fun p => p.closedAt.getD 0) b.OpenedAfter p q →
      ¬Ahead (fun p => p.closedAt.getD 0) b.OpenedAfter q p := by
    rintro p q (hlt | ⟨heq, hlt⟩) (hlt' | ⟨heq', hlt'⟩)
    · exact lt_asymm hlt hlt'
    · exact hlt.ne heq'
    · exact hlt'.ne heq
    · exact Nat.lt_asymm hlt hlt'
  refine length_takeWhile_congr h.closed_pairwise h.closes_pairwise hperm hasymm
    (fun p q hlt hlt' => Nat.lt_asymm hlt hlt') fun p hp q hq hlost hkept => ?_
  obtain ⟨second, hsecond, rfl⟩ := List.mem_map.mp (hperm.mem_iff.mp hp)
  obtain ⟨first, hfirst, rfl⟩ := List.mem_map.mp (hperm.mem_iff.mp hq)
  rw [List.mem_reverse] at hsecond hfirst
  rw [Close.lost_closedRow, decide_eq_true_eq] at hlost
  rw [Close.lost_closedRow, decide_eq_false_iff_not] at hkept
  have hopposite : first.Loss ↔ ¬second.Loss := ⟨fun hloss => absurd hloss hkept, fun hno => absurd hlost hno⟩
  have hopposite' : second.Loss ↔ ¬first.Loss := ⟨fun _ => hkept, fun _ => hlost⟩
  refine ⟨fun hahead => ?_, h.ahead_of_closedAfter hb hmono hfirst hsecond hopposite⟩
  -- Otherwise the other one was closed later, and comes first too.
  by_contra hnot
  have hne : first.row.positionId ≠ second.row.positionId := fun heq =>
    hkept ((List.inj_on_of_nodup_map h.closed_once hfirst hsecond heq) ▸ hlost)
  have hids : ∀ {close : Close}, close ∈ b.closes → close.row.positionId ∈ b.closes.map (·.row.positionId) :=
    fun hmem => List.mem_map_of_mem hmem
  have hindex : (b.closes.map (·.row.positionId)).idxOf first.row.positionId ≠
      (b.closes.map (·.row.positionId)).idxOf second.row.positionId :=
    fun heq => hne ((List.idxOf_inj (hids hfirst)).mp heq)
  have hlater : b.ClosedAfter (first.closedRow .default) (second.closedRow .default) :=
    lt_of_le_of_ne (not_lt.mp hnot) (Ne.symm hindex)
  exact hasymm _ _ hahead (h.ahead_of_closedAfter hb hmono hsecond hfirst hopposite' hlater)

end Books.Agree

/-- Where the closes go forward in time and a loss and a close without loss at one instant close in the order
of their opening, the ledger counts the losing streak. -/
theorem Books.run_consecutiveLosses (createdAt : Int) (calls : List Bookkeeping)
    (horder : (Books.fresh createdAt).Each .default Books.ClosesInOrder calls)
    (hmono : (((Books.fresh createdAt).run .default calls).closes.map (·.closedAt.instant)).IsChain (· ≤ ·)) :
    ((Books.fresh createdAt).run .default calls).ledger.consecutiveLosses =
      ((Books.fresh createdAt).run .default calls).losingStreak := by
  have hfresh := Books.Agree.fresh .default createdAt
  exact (hfresh.run calls).losingStreak_eq (hfresh.ordered_run .nil horder)
    (List.pairwise_map.mp (List.isChain_iff_pairwise.mp hmono))

/-- An order for the sample plan, filled at its limit price. -/
def BrokerOrder.sample (orderId : String) (plan : TradePlan) : BrokerOrder :=
  ⟨orderId, plan.correlationId, plan.signalId, plan.symbol, plan.securityId, plan.side, plan.quantity,
    plan.quantity, plan.limitPrice, some plan.limitPrice, .filled, .utc 0⟩

/-- Two positions bought at 100, and then closes. -/
def Bookkeeping.sample (closes : List Bookkeeping) : List Bookkeeping :=
  ([.recordSignal (.sample "s1" "c1" "101") .submitted (.utc 0),
    .recordSignal (.sample "s2" "c2" "102") .submitted (.utc 0),
    .recordExecution (.sample "o1" (.sample "s1" "c1" "101")) [] (.utc 0),
    .recordExecution (.sample "o2" (.sample "s2" "c2" "102")) [] (.utc 0)] : List Bookkeeping) ++ closes

theorem Books.run_consecutiveLosses_tie :
    let calls := Bookkeeping.sample
      [.closePosition "position-o1" 110 (.utc 1), .closePosition "position-o2" 90 (.utc 1)]
    (Books.fresh 0).Each .default Books.ClosesInOrder calls ∧
      ((Books.fresh 0).run .default calls).losingStreak = 1 ∧
      ((Books.fresh 0).run .default calls).ledger.consecutiveLosses =
        ((Books.fresh 0).run .default calls).losingStreak := by
  have horder : (Books.fresh 0).Each .default Books.ClosesInOrder (Bookkeeping.sample
      [.closePosition "position-o1" 110 (.utc 1), .closePosition "position-o2" 90 (.utc 1)]) := by
    simp only [Bookkeeping.sample, List.cons_append, List.nil_append, Books.Each]
    decide +kernel
  exact ⟨horder, by decide +kernel, Books.run_consecutiveLosses 0 _ horder (by decide +kernel)⟩

/-- The second position is closed with a profit, then the first with a loss, at the same instant. -/
theorem Books.run_consecutiveLosses_opening_order :
    let b := (Books.fresh 0).run .default (Bookkeeping.sample
      [.closePosition "position-o2" 110 (.utc 1), .closePosition "position-o1" 90 (.utc 1)])
    b.closes.map (fun close => (close.row.positionId, close.closedAt.instant, decide close.Loss)) =
        [("position-o2", 1, false), ("position-o1", 1, true)] ∧
      b.losingStreak = 1 ∧ b.ledger.consecutiveLosses = 0 := by
  refine ⟨by decide +kernel, by decide +kernel, by decide +kernel⟩

end TecoQuant.Execution
