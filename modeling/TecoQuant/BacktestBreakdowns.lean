import Mathlib.Data.List.Dedup
import TecoQuant.BacktestMetrics
import TecoQuant.BaseGrouping

/-! The breakdowns of a report partition its trades: along each dimension every trade is in one group, no group is
empty, and the groups together have the totals of the metrics. -/

namespace TecoQuant.Backtest

/-! ### The grouping loop -/

/-- `sorted(groups.items())`. -/
def sortedGroups (selector : Trade → String) (trades : List Trade) : List (String × List Trade) :=
  (Grouping.group selector trades).insertionSort fun left right => left.1 ≤ right.1

section

variable {selector : Trade → String} {trades : List Trade}

theorem sortedGroups_partitions (selector : Trade → String) (trades : List Trade) :
    Grouping.Partitions selector trades (sortedGroups selector trades) :=
  (Grouping.group_partitions selector trades).perm (List.perm_insertionSort _ _)

instance stringTotal : Std.Total (α := String) (· ≤ ·) := ⟨String.le_total⟩

instance stringTrans : IsTrans String (· ≤ ·) := ⟨fun _ _ _ => String.le_trans⟩

/-- The labels in the order of the rows. -/
theorem labels_sortedGroups (selector : Trade → String) (trades : List Trade) :
    (sortedGroups selector trades).map Prod.fst = (trades.map selector).dedup.insertionSort (· ≤ ·) := by
  rw [sortedGroups, List.map_insertionSort _ (· ≤ ·) _ _ fun _ _ _ _ => Iff.rfl]
  have hperm : ((Grouping.group selector trades).map Prod.fst).Perm (trades.map selector).dedup := by
    refine (List.perm_ext_iff_of_nodup (Grouping.labels_nodup selector trades) (List.nodup_dedup _)).mpr fun label => ?_
    rw [Grouping.mem_labels, List.mem_dedup]
  refine List.Perm.eq_of_pairwise ?_ (List.pairwise_insertionSort _ _) (List.pairwise_insertionSort _ _) ?_
  · exact fun _ _ _ _ => String.le_antisymm
  · exact (List.perm_insertionSort _ _).trans (hperm.trans (List.perm_insertionSort _ _).symm)

/-- The rows of a dimension are the breakdowns of the groups. -/
theorem buildBreakdown_eq (ctx : DecimalContext) (selector : Trade → String) (trades : List Trade) :
    buildBreakdown ctx selector trades = (sortedGroups selector trades).mapM fun (label, group) => do
      return (label, ← tradeBreakdown ctx group) := by
  rw [buildBreakdown, ← labels_sortedGroups, List.mapM_map]
  refine Except.mapM_congr fun entry hentry => ?_
  have hmem := (List.mem_insertionSort _).mp hentry
  dsimp only [Function.comp_apply]
  rw [← Grouping.eq_filter_of_mem hmem]

/-! ### Totals -/

theorem mean_exact (total : ℚ) (count : Nat) : mean .exact total count = .ok (total / count) := by
  unfold mean
  split_ifs with hcount
  · rw [hcount, Nat.cast_zero, div_zero]
  · exact divide_eq_ok .exact (Nat.cast_pos.mpr (Nat.pos_of_ne_zero hcount))

/-- A mean times its count is the total. -/
theorem mean_mul_count (weight : Trade → ℚ) (trades : List Trade) :
    (trades.map weight).sum / trades.length * trades.length = (trades.map weight).sum := by
  cases trades with
  | nil => simp
  | cons trade trades => exact div_mul_cancel₀ _ (Nat.cast_ne_zero.mpr (Nat.succ_ne_zero _))

/-- The breakdown of a group in exact arithmetic. -/
def exactBreakdown (trades : List Trade) : BreakdownMetrics where
  trades := trades.length
  wins := trades.countP (0 < ·.netPnl)
  winRate := if trades.length = 0 then 0 else trades.countP (0 < ·.netPnl) / trades.length
  grossPnl := (trades.map (·.grossPnl)).sum
  netPnl := (trades.map (·.netPnl)).sum
  expectancy := (trades.map (·.netPnl)).sum / trades.length
  averageR := (trades.map (·.rMultiple)).sum / trades.length

theorem tradeBreakdown_exact (trades : List Trade) : tradeBreakdown .exact trades = .ok (exactBreakdown trades) := by
  rw [tradeBreakdown, mean_exact, mean_exact]
  simp only [DecimalContext.exact_sum]
  rfl

theorem buildBreakdown_exact (selector : Trade → String) (trades : List Trade) :
    buildBreakdown .exact selector trades =
      .ok ((sortedGroups selector trades).map fun entry => (entry.1, exactBreakdown entry.2)) := by
  rw [buildBreakdown_eq]
  refine Except.mapM_ok fun entry _ => ?_
  dsimp only
  rw [tradeBreakdown_exact]
  rfl

/-- The rows of a dimension together have the totals of the metrics. -/
structure Totals (rows : List BreakdownMetrics) (metrics : BacktestMetrics) : Prop where
  trades : (rows.map (·.trades)).sum = metrics.trades
  wins : (rows.map (·.wins)).sum = metrics.wins
  grossPnl : (rows.map (·.grossPnl)).sum = metrics.grossPnl
  netPnl : (rows.map (·.netPnl)).sum = metrics.netPnl
  expectancy : (rows.map fun row => row.expectancy * (row.trades : ℚ)).sum = metrics.expectancy * metrics.trades
  averageR : (rows.map fun row => row.averageR * (row.trades : ℚ)).sum = metrics.averageR * metrics.trades

/-- The groups of a partition have the totals of the metrics of all trades. -/
theorem totals_of_partitions {groups : List (String × List Trade)} (h : Grouping.Partitions selector trades groups)
    {capital : ℚ} {startedAt endedAt : Datetime} {metrics : BacktestMetrics}
    (hmetrics : calculateMetrics .exact capital startedAt endedAt trades = .ok metrics) :
    Totals (groups.map fun entry => exactBreakdown entry.2) metrics := by
  obtain ⟨_, expectancy, averageR, _, _, -, hexpectancy, haverageR, rfl⟩ := calculateMetrics_eq_ok hmetrics
  rw [mean_exact, DecimalContext.exact_sum] at hexpectancy haverageR
  cases hexpectancy
  cases haverageR
  simp only [DecimalContext.exact_sum]
  have hmeans : ∀ weight : Trade → ℚ,
      (groups.map fun entry => (entry.2.map weight).sum / (entry.2.length : ℚ) * (entry.2.length : ℚ)).sum =
        (trades.map weight).sum / trades.length * trades.length := by
    intro weight
    simp only [mean_mul_count]
    exact h.sum_eq weight
  constructor
  case trades =>
    rw [List.map_map, ← h.members.length_eq, List.length_flatMap]
    rfl
  case wins =>
    rw [List.map_map, ← h.members.countP_eq, List.countP_flatMap]
    rfl
  case grossPnl =>
    rw [List.map_map]
    exact h.sum_eq (·.grossPnl)
  case netPnl =>
    rw [List.map_map]
    exact h.sum_eq (·.netPnl)
  case expectancy =>
    rw [List.map_map]
    exact hmeans (·.netPnl)
  case averageR =>
    rw [List.map_map]
    exact hmeans (·.rMultiple)

end

/-! ### All dimensions -/

/-- The rows of a dimension: its groups partition the trades, each with the breakdown of its trades, and they have
the totals of the metrics. -/
structure BreaksDown (selector : Trade → String) (trades : List Trade) (rows : List (String × BreakdownMetrics)) :
    Prop where
  groups : ∃ groups, Grouping.Partitions selector trades groups ∧
    (groups.mapM fun entry => do return (entry.1, ← tradeBreakdown .exact entry.2)) = .ok rows
  counted : ∀ row ∈ rows, 0 < row.2.trades
  totals : ∀ capital startedAt endedAt metrics,
    calculateMetrics .exact capital startedAt endedAt trades = .ok metrics → Totals (rows.map (·.2)) metrics

theorem buildBreakdown_breaksDown {selector : Trade → String} {trades : List Trade}
    {rows : List (String × BreakdownMetrics)} (h : buildBreakdown .exact selector trades = .ok rows) :
    BreaksDown selector trades rows := by
  have hpartitions := sortedGroups_partitions selector trades
  have hrows := h
  rw [buildBreakdown_exact] at h
  cases h
  refine ⟨⟨_, hpartitions, (buildBreakdown_eq .exact selector trades).symm.trans hrows⟩, fun row hrow => ?_, ?_⟩
  · obtain ⟨entry, hentry, rfl⟩ := List.mem_map.mp hrow
    exact List.length_pos_iff.mpr (hpartitions.nonempty entry hentry)
  · intro capital startedAt endedAt metrics hmetrics
    rw [List.map_map]
    exact totals_of_partitions hpartitions hmetrics

/-- **The breakdowns partition the trades**: there is one for each dimension, and along each the groups hold every
trade once and have the totals of the metrics. -/
theorem buildBreakdowns_partition (trades : List Trade) :
    ∃ breakdowns, buildBreakdowns .exact trades = .ok breakdowns ∧
      breakdowns.map (·.1) = dimensions.map (·.1) ∧
      ∀ name selector, (name, selector) ∈ dimensions →
        ∃ rows, (name, rows) ∈ breakdowns ∧ BreaksDown selector trades rows := by
  obtain ⟨breakdowns, hbreakdowns⟩ := buildBreakdowns_succeeds .exact trades
  refine ⟨breakdowns, hbreakdowns, ?_, fun name selector hdimension => ?_⟩
  · have hrows : buildBreakdowns .exact trades = .ok (dimensions.map fun dimension =>
        (dimension.1, (sortedGroups dimension.2 trades).map fun entry => (entry.1, exactBreakdown entry.2))) := by
      refine Except.mapM_ok fun dimension _ => ?_
      dsimp only
      rw [buildBreakdown_exact]
      rfl
    cases hbreakdowns.symm.trans hrows
    rw [List.map_map]
    rfl
  · obtain ⟨_, hmem, hrow⟩ := Except.mapM_all hbreakdowns hdimension
    obtain ⟨rows, hrows, hrow⟩ := Except.bind_eq_ok.mp hrow
    cases hrow
    exact ⟨rows, hmem, buildBreakdown_breaksDown hrows⟩

end TecoQuant.Backtest
