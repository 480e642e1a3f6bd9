import Mathlib.Data.List.Basic
import Mathlib.Order.Lattice
import Mathlib.Order.Monotone.Basic

/-! Items that occupy spans of an ordered line, in order and apart. A window holds the items that start in a span; it
covers the span when they follow one another without a gap from its one end to the other. Covering a span is the same
as covering each part of it, at points that no item crosses. -/

namespace Tiling

variable {α T : Type} [LinearOrder T] {start ending : α → T} {items left right : List α} {low mid high : T}

/-! ### Tilings -/

/-- The items follow one another from a point to another. -/
def Tiles (start ending : α → T) : T → T → List α → Prop
  | low, high, [] => low = high
  | low, high, item :: rest => start item = low ∧ Tiles start ending (ending item) high rest

omit [LinearOrder T] in
theorem tiles_append : Tiles start ending low high (left ++ right) ↔
    ∃ mid, Tiles start ending low mid left ∧ Tiles start ending mid high right := by
  induction left generalizing low with
  | nil =>
      constructor
      · exact fun h => ⟨low, rfl, h⟩
      · rintro ⟨mid, rfl, h⟩
        exact h
  | cons item rest ih =>
      rw [List.cons_append, Tiles, ih]
      constructor
      · rintro ⟨hstart, mid, hleft, hright⟩
        exact ⟨mid, ⟨hstart, hleft⟩, hright⟩
      · rintro ⟨mid, ⟨hstart, hleft⟩, hright⟩
        exact ⟨hstart, mid, hleft, hright⟩

omit [LinearOrder T] in
/-- A tiling by its first item, its last item and its neighbours. -/
theorem tiles_cons_iff {first : α} {rest : List α} : Tiles start ending low high (first :: rest) ↔
    start first = low ∧ ending (rest.getLastD first) = high ∧
      (first :: rest).IsChain fun before after => ending before = start after := by
  induction rest generalizing first low with
  | nil => simp [Tiles]
  | cons next rest ih =>
      rw [Tiles, ih, List.isChain_cons_cons, List.getLastD_cons]
      constructor
      · rintro ⟨hlow, hnext, hlast, hchain⟩
        exact ⟨hlow, hlast, hnext.symm, hchain⟩
      · rintro ⟨hlow, hlast, hnext, hchain⟩
        exact ⟨hlow, hnext.symm, hlast, hchain⟩

/-! ### Windows -/

/-- Items in order, each after the one before it has ended. -/
structure Ordered (start ending : α → T) (items : List α) : Prop where
  lasts : ∀ item ∈ items, start item < ending item
  apart : items.Pairwise fun before after => ending before ≤ start after

/-- The items that start from a point on, before another. -/
def window (start : α → T) (low high : T) (items : List α) : List α :=
  items.filter fun item => decide (low ≤ start item ∧ start item < high)

/-- The window follows on from its one end to the other. -/
def Covered (start ending : α → T) (items : List α) (low high : T) : Prop :=
  Tiles start ending low high (window start low high items)

/-- No item reaches over the point. -/
def Uncrossed (start ending : α → T) (items : List α) (point : T) : Prop :=
  ∀ item ∈ items, start item < point → ending item ≤ point

theorem mem_window {item : α} :
    item ∈ window start low high items ↔ item ∈ items ∧ low ≤ start item ∧ start item < high := by
  simp [window]

/-- A filter in two parts, when everything of the first part comes first. -/
theorem filter_append_filter {p q r : α → Bool} (hor : ∀ item ∈ items, p item = (q item || r item))
    (hnot : ∀ item ∈ items, q item = true → r item = false)
    (hfirst : items.Pairwise fun before after => r before = true → q after = false) :
    items.filter p = items.filter q ++ items.filter r := by
  induction items with
  | nil => rfl
  | cons item rest ih =>
      obtain ⟨hitem, hrest⟩ := List.pairwise_cons.mp hfirst
      have ih := ih (fun other hother => hor other (List.mem_cons_of_mem _ hother))
        (fun other hother => hnot other (List.mem_cons_of_mem _ hother)) hrest
      have hor := hor item List.mem_cons_self
      have hnot := hnot item List.mem_cons_self
      cases hq : q item with
      | true =>
          have hr := hnot hq
          rw [hq, Bool.true_or] at hor
          rw [List.filter_cons_of_pos hor, List.filter_cons_of_pos hq, List.filter_cons_of_neg (by simp [hr]), ih,
            List.cons_append]
      | false =>
          cases hr : r item with
          | true =>
              have hnone : rest.filter q = [] := by
                rw [List.filter_eq_nil_iff]
                intro other hother
                rw [hitem other hother hr]
                exact Bool.false_ne_true
              rw [hr, Bool.or_true] at hor
              rw [List.filter_cons_of_pos hor, List.filter_cons_of_neg (by simp [hq]), List.filter_cons_of_pos hr, ih,
                hnone, List.nil_append, List.nil_append]
          | false =>
              rw [hq, hr, Bool.or_false] at hor
              rw [List.filter_cons_of_neg (by simp [hor]), List.filter_cons_of_neg (by simp [hq]),
                List.filter_cons_of_neg (by simp [hr]), ih]

theorem Ordered.starts (h : Ordered start ending items) :
    items.Pairwise fun before after => start before < start after :=
  h.apart.imp_of_mem fun hbefore _ happart => (h.lasts _ hbefore).trans_le happart

theorem window_append (h : Ordered start ending items) (hlow : low ≤ mid) (hhigh : mid ≤ high) :
    window start low high items = window start low mid items ++ window start mid high items := by
  refine filter_append_filter (fun item _ => ?_) (fun item _ hbefore => ?_) (h.starts.imp fun hlt hafter => ?_)
  · rw [← Bool.decide_or, decide_eq_decide]
    constructor
    · rintro ⟨hle, hlt⟩
      rcases lt_or_ge (start item) mid with hmid | hmid
      · exact .inl ⟨hle, hmid⟩
      · exact .inr ⟨hmid, hlt⟩
    · rintro (⟨hle, hlt⟩ | ⟨hle, hlt⟩)
      · exact ⟨hle, hlt.trans_le hhigh⟩
      · exact ⟨hlow.trans hle, hlt⟩
  · rw [decide_eq_true_eq] at hbefore
    exact decide_eq_false fun hafter => absurd hafter.1 (not_le.mpr hbefore.2)
  · rw [decide_eq_true_eq] at hafter
    exact decide_eq_false fun hbefore => absurd (hafter.1.trans_lt hlt) (not_lt.mpr hbefore.2.le)

theorem window_self (point : T) : window start point point items = [] := by
  rw [window, List.filter_eq_nil_iff]
  intro item _ hitem
  rw [decide_eq_true_eq] at hitem
  exact absurd hitem.2 (not_lt.mpr hitem.1)

/-- A window is its parts, one after the other. -/
theorem window_grid (h : Ordered start ending items) {grid : ℕ → T} (hgrid : Monotone grid) (count : ℕ) :
    window start (grid 0) (grid count) items =
      (List.range count).flatMap fun i => window start (grid i) (grid (i + 1)) items := by
  induction count with
  | zero => exact window_self _
  | succ count ih =>
      rw [window_append h (hgrid (Nat.zero_le count)) (hgrid (Nat.le_succ count)), ih, List.range_succ,
        List.flatMap_append, List.flatMap_singleton]

/-! ### Covering in parts -/

/-- Covering a span is covering it up to a point and from there on. -/
theorem covered_split (h : Ordered start ending items) (hlow : low ≤ mid) (hhigh : mid ≤ high)
    (huncrossed : Uncrossed start ending items mid) : Covered start ending items low high ↔
      Covered start ending items low mid ∧ Covered start ending items mid high := by
  unfold Covered
  rw [window_append h hlow hhigh, tiles_append]
  constructor
  · rintro ⟨point, hleft, hright⟩
    suffices hpoint : point = mid by
      subst hpoint
      exact ⟨hleft, hright⟩
    apply le_antisymm
    · cases hwindow : window start low mid items with
      | nil =>
          rw [hwindow] at hleft
          exact hleft ▸ hlow
      | cons first rest =>
          rw [hwindow, tiles_cons_iff] at hleft
          have hlast : rest.getLastD first ∈ window start low mid items := by
            rw [hwindow, List.getLastD_eq_getLast?]
            cases hrest : rest.getLast? with
            | none => exact List.mem_cons_self
            | some last => exact List.mem_cons_of_mem _ (List.mem_of_getLast? hrest)
          rw [mem_window] at hlast
          rw [← hleft.2.1]
          exact huncrossed _ hlast.1 hlast.2.2
    · cases hwindow : window start mid high items with
      | nil =>
          rw [hwindow] at hright
          exact hright ▸ hhigh
      | cons first rest =>
          have hfirst : first ∈ window start mid high items := by
            rw [hwindow]
            exact List.mem_cons_self
          rw [hwindow] at hright
          rw [← hright.1]
          exact (mem_window.mp hfirst).2.1
  · rintro ⟨hleft, hright⟩
    exact ⟨mid, hleft, hright⟩

theorem covered_self (point : T) : Covered start ending items point point := by
  rw [Covered, window_self]
  rfl

/-- Covering a span is covering each part of it. -/
theorem covered_grid (h : Ordered start ending items) {grid : ℕ → T} (hgrid : Monotone grid)
    (huncrossed : ∀ i, Uncrossed start ending items (grid i)) (count : ℕ) :
    Covered start ending items (grid 0) (grid count) ↔
      ∀ i < count, Covered start ending items (grid i) (grid (i + 1)) := by
  induction count with
  | zero => exact ⟨fun _ _ hi => absurd hi (Nat.not_lt_zero _), fun _ => covered_self _⟩
  | succ count ih =>
      rw [covered_split h (hgrid (Nat.zero_le count)) (hgrid (Nat.le_succ count)) (huncrossed count), ih]
      constructor
      · rintro ⟨hbefore, hlast⟩ i hi
        rcases Nat.lt_succ_iff_lt_or_eq.mp hi with hi | rfl
        · exact hbefore i hi
        · exact hlast
      · exact fun hall => ⟨fun i hi => hall i (Nat.lt_succ_of_lt hi), hall count (Nat.lt_succ_self count)⟩

end Tiling
