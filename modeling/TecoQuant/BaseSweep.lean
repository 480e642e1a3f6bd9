import Mathlib.MeasureTheory.Measure.Lebesgue.Basic

/-! Two sweeps over a list. The largest drop of a path is found with its running peak, and the measure of a
union of intervals by merging the intervals in the order of their starts. -/

namespace Sweep

open MeasureTheory

/-! ### Running peaks -/

section

variable {α β : Type*} {drop : α → α → β} {path : List α} {value : α}

/-- The drops of a path from a value to itself or to a later one. -/
def drops (drop : α → α → β) (path : List α) : Set β :=
  {d | ∃ (i j : Nat) (a b : α), i ≤ j ∧ path[i]? = some a ∧ path[j]? = some b ∧ d = drop a b}

theorem mem_drops_concat {d : β} :
    d ∈ drops drop (path ++ [value]) ↔ d ∈ drops drop path ∨ ∃ a ∈ path ++ [value], d = drop a value := by
  constructor
  · rintro ⟨i, j, a, b, hij, ha, hb, rfl⟩
    by_cases hj : j < path.length
    · rw [List.getElem?_append_left hj] at hb
      rw [List.getElem?_append_left (hij.trans_lt hj)] at ha
      exact .inl ⟨i, j, a, b, hij, ha, hb, rfl⟩
    · obtain ⟨hlt, hb⟩ := List.getElem?_eq_some_iff.mp hb
      obtain rfl : j = path.length := by
        rw [List.length_append, List.length_singleton] at hlt
        omega
      obtain rfl : value = b := by simpa using hb
      exact .inr ⟨a, List.mem_of_getElem? ha, rfl⟩
  · rintro (⟨i, j, a, b, hij, ha, hb, rfl⟩ | ⟨a, ha, rfl⟩)
    · have hj := (List.getElem?_eq_some_iff.mp hb).1
      refine ⟨i, j, a, b, hij, ?_, ?_, rfl⟩
      · rwa [List.getElem?_append_left (hij.trans_lt hj)]
      · rwa [List.getElem?_append_left hj]
    · obtain ⟨i, hi⟩ := List.mem_iff_getElem?.mp ha
      have hlt := (List.getElem?_eq_some_iff.mp hi).1
      rw [List.length_append, List.length_singleton] at hlt
      exact ⟨i, path.length, a, value, by omega, hi, by simp, rfl⟩

variable [LinearOrder α] [LinearOrder β] {peak : α} {largest : β}

theorem isGreatest_concat (h : IsGreatest {a | a ∈ path} peak) :
    IsGreatest {a | a ∈ path ++ [value]} (max peak value) := by
  constructor
  · rcases max_choice peak value with hmax | hmax
    · rw [hmax]
      exact List.mem_append_left _ h.1
    · rw [hmax]
      exact List.mem_append_right _ (List.mem_singleton_self _)
  · intro a ha
    rcases List.mem_append.mp ha with ha | ha
    · exact (h.2 ha).trans (le_max_left _ _)
    · exact (List.mem_singleton.mp ha).le.trans (le_max_right _ _)

/-- A further value drops the most from the running peak. -/
theorem isGreatest_drops_concat (hdrop : ∀ b, Monotone (drop · b)) (hpeak : IsGreatest {a | a ∈ path} peak)
    (hlargest : IsGreatest (drops drop path) largest) :
    IsGreatest (drops drop (path ++ [value])) (max largest (drop (max peak value) value)) := by
  have hpeak : IsGreatest {a | a ∈ path ++ [value]} (max peak value) := isGreatest_concat hpeak
  constructor
  · rcases max_choice largest (drop (max peak value) value) with hmax | hmax
    · rw [hmax]
      exact mem_drops_concat.mpr (.inl hlargest.1)
    · rw [hmax]
      exact mem_drops_concat.mpr (.inr ⟨_, hpeak.1, rfl⟩)
  · intro d hd
    rcases mem_drops_concat.mp hd with hd | ⟨a, ha, rfl⟩
    · exact (hlargest.2 hd).trans (le_max_left _ _)
    · exact (hdrop value (hpeak.2 ha)).trans (le_max_right _ _)

end

/-! ### Unions of intervals -/

/-- The union of closed intervals. -/
def union (intervals : List (ℝ × ℝ)) : Set ℝ := {x | ∃ interval ∈ intervals, interval.1 ≤ x ∧ x ≤ interval.2}

/-- The intervals seen so far: a part of measure `covered` before the interval being extended. -/
structure Covers (seen : List (ℝ × ℝ)) (covered start finish : ℝ) : Prop where
  ordered : start ≤ finish
  split : ∃ before : Set ℝ, union seen = before ∪ Set.Icc start finish ∧ before ⊆ Set.Iio start ∧
    volume before = ENNReal.ofReal covered ∧ 0 ≤ covered

variable {seen : List (ℝ × ℝ)} {covered start finish left right : ℝ}

theorem union_concat : union (seen ++ [(left, right)]) = union seen ∪ Set.Icc left right := by
  ext x
  simp only [union, List.mem_append, List.mem_singleton, Set.mem_ofPred_eq, Set.mem_union, Set.mem_Icc]
  constructor
  · rintro ⟨interval, hmem | rfl, hx⟩
    · exact .inl ⟨interval, hmem, hx⟩
    · exact .inr hx
  · rintro (⟨interval, hmem, hx⟩ | hx)
    · exact ⟨interval, .inl hmem, hx⟩
    · exact ⟨(left, right), .inr rfl, hx⟩

theorem Covers.singleton (h : start ≤ finish) : Covers [(start, finish)] 0 start finish := by
  refine ⟨h, ∅, ?_, Set.empty_subset _, by simp, le_rfl⟩
  rw [Set.empty_union]
  simpa [union] using @union_concat [] start finish

theorem Covers.nonneg (h : Covers seen covered start finish) : 0 ≤ covered + (finish - start) := by
  obtain ⟨hordered, _, -, -, -, hnonneg⟩ := h
  exact add_nonneg hnonneg (sub_nonneg.mpr hordered)

/-- The seen intervals measure what is covered and what is being extended. -/
theorem Covers.volume_eq (h : Covers seen covered start finish) :
    volume (union seen) = ENNReal.ofReal (covered + (finish - start)) := by
  obtain ⟨hordered, before, hunion, hbefore, hvolume, hnonneg⟩ := h
  have hdisjoint : Disjoint before (Set.Icc start finish) :=
    Set.disjoint_left.mpr fun x hx hin => (hbefore hx).not_ge hin.1
  rw [hunion, measure_union hdisjoint measurableSet_Icc, hvolume, Real.volume_Icc,
    ENNReal.ofReal_add hnonneg (sub_nonneg.mpr hordered)]

/-- An interval that starts in the one being extended extends it. -/
theorem Covers.extend (h : Covers seen covered start finish) (hstart : start ≤ left) (hmeets : left ≤ finish)
    (hordered : left ≤ right) : Covers (seen ++ [(left, right)]) covered start (max finish right) := by
  obtain ⟨hle, before, hunion, hrest⟩ := h
  refine ⟨hle.trans (le_max_left _ _), before, ?_, hrest⟩
  rw [union_concat, hunion, Set.union_assoc, Set.Icc_union_Icc' hmeets (hstart.trans hordered), min_eq_left hstart]

/-- An interval that starts later closes the one being extended. -/
theorem Covers.close (h : Covers seen covered start finish) (hafter : finish < left) (hordered : left ≤ right) :
    Covers (seen ++ [(left, right)]) (covered + (finish - start)) left right := by
  have hvolume := h.volume_eq
  obtain ⟨hle, before, hunion, hbefore, -, hnonneg⟩ := h
  refine ⟨hordered, union seen, union_concat, ?_, hvolume, add_nonneg hnonneg (sub_nonneg.mpr hle)⟩
  rw [hunion]
  rintro x (hx | hx)
  · exact (hbefore hx).trans_le (hle.trans hafter.le)
  · exact hx.2.trans_lt hafter

end Sweep
