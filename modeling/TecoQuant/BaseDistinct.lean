import Mathlib.Data.List.MinMax
import Mathlib.Data.List.Sort

/-! Lists without repetitions by a key: dropping later elements with a known key, sorting by the key, and the
first element at which a function is least. -/

namespace Distinct

variable {α β : Type} {l : List α}

theorem mem_of_mem_eraseDupsBy {r : α → α → Bool} {a : α} (h : a ∈ l.eraseDupsBy r) : a ∈ l := by
  induction hn : l.length using Nat.strong_induction_on generalizing l with
  | _ n ih =>
      cases l with
      | nil => exact h
      | cons first l =>
          rw [List.eraseDupsBy_cons] at h
          rcases List.mem_cons.mp h with rfl | h
          · exact List.mem_cons_self
          · have hlength : (l.filter fun b => r b first = false).length < n := by
              have := List.length_filter_le (fun b => decide (r b first = false)) l
              simp only [List.length_cons] at hn
              omega
            exact List.mem_cons_of_mem _ (List.mem_of_mem_filter (ih _ hlength h rfl))

section Key

variable [DecidableEq β] (key : α → β)

/-- Every key stays. -/
theorem exists_mem_eraseDupsBy {a : α} (h : a ∈ l) :
    ∃ b ∈ l.eraseDupsBy fun left right => key left == key right, key b = key a := by
  induction hn : l.length using Nat.strong_induction_on generalizing l with
  | _ n ih =>
      cases l with
      | nil => cases h
      | cons first l =>
          rw [List.eraseDupsBy_cons]
          by_cases hkey : key first = key a
          · exact ⟨first, List.mem_cons_self, hkey⟩
          · have hmem : a ∈ l.filter fun b => (key b == key first) = false := by
              refine List.mem_filter.mpr ⟨(List.mem_cons.mp h).resolve_left fun hsame => hkey (hsame ▸ rfl), ?_⟩
              simpa using Ne.symm hkey
            have hlength : (l.filter fun b => (key b == key first) = false).length < n := by
              have := List.length_filter_le (fun b => decide ((key b == key first) = false)) l
              simp only [List.length_cons] at hn
              omega
            obtain ⟨b, hb, hsame⟩ := ih _ hlength hmem rfl
            exact ⟨b, List.mem_cons_of_mem _ hb, hsame⟩

/-- No key stays twice. -/
theorem pairwise_eraseDupsBy (l : List α) :
    (l.eraseDupsBy fun left right => key left == key right).Pairwise fun left right => key left ≠ key right := by
  induction hn : l.length using Nat.strong_induction_on generalizing l with
  | _ n ih =>
      cases l with
      | nil => exact List.Pairwise.nil
      | cons first l =>
          rw [List.eraseDupsBy_cons]
          have hlength : (l.filter fun b => (key b == key first) = false).length < n := by
            have := List.length_filter_le (fun b => decide ((key b == key first) = false)) l
            simp only [List.length_cons] at hn
            omega
          refine List.Pairwise.cons (fun b hb => ?_) (ih _ hlength _ rfl)
          have hfilter := List.of_mem_filter (mem_of_mem_eraseDupsBy hb)
          exact fun hsame => by simp [hsame] at hfilter

end Key

section Order

variable [LinearOrder β] {key : α → β}

/-- Sorted by a key that no two elements share, a list is strictly increasing. -/
theorem increasing_insertionSort (h : l.Pairwise fun left right => key left ≠ key right) (le : α → α → Prop)
    [DecidableRel le] (hle : ∀ left right, le left right ↔ key left ≤ key right) :
    (l.insertionSort le).Pairwise fun left right => key left < key right := by
  have htotal : Std.Total le := ⟨fun left right => by simpa only [hle] using le_total (key left) (key right)⟩
  have htrans : IsTrans α le := ⟨fun a b c => by simpa only [hle] using fun hab hbc => le_trans hab hbc⟩
  have hsorted := List.pairwise_insertionSort le l
  have hdistinct : (l.insertionSort le).Pairwise fun left right => key left ≠ key right :=
    (List.perm_insertionSort le l).symm.pairwise h fun hne => Ne.symm hne
  exact (hsorted.and hdistinct).imp fun ⟨hless, hne⟩ => lt_of_le_of_ne ((hle _ _).mp hless) hne

/-- In a strictly increasing list a key occurs once. -/
theorem eq_of_increasing (h : l.Pairwise fun left right => key left < key right) {a b : α} (ha : a ∈ l) (hb : b ∈ l)
    (hkey : key a = key b) : a = b := by
  have hnodup : (l.map key).Nodup := List.pairwise_map.mpr (h.imp ne_of_lt)
  exact List.inj_on_of_nodup_map hnodup ha hb hkey

/-- Of the elements at which a function is least, the first has the least key. -/
theorem argmin_key_le {γ : Type} [LinearOrder γ] {f : α → γ} [DecidableEq α]
    (h : l.Pairwise fun left right => key left < key right) {m a : α}
    (hm : m ∈ l.argmin f) (ha : a ∈ l) (hle : f a ≤ f m) : key m ≤ key a := by
  rcases (List.index_of_argmin hm ha hle).eq_or_lt with hsame | hbefore
  · exact (congrArg key ((List.idxOf_inj (List.argmin_mem hm)).mp hsame)).le
  · have hlt := List.pairwise_iff_getElem.mp h _ _ (hbefore.trans (List.idxOf_lt_length_iff.mpr ha))
      (List.idxOf_lt_length_iff.mpr ha) hbefore
    rw [List.getElem_idxOf, List.getElem_idxOf] at hlt
    exact hlt.le

/-- Adjacent elements of a strictly increasing list have nothing between them. -/
theorem adjacent_of_mem_zip (h : l.Pairwise fun left right => key left < key right) {a b : α}
    (hadjacent : (a, b) ∈ l.zip l.tail) :
    a ∈ l ∧ b ∈ l ∧ key a < key b ∧ ∀ c ∈ l, key c ≤ key a ∨ key b ≤ key c := by
  induction l with
  | nil => cases hadjacent
  | cons first l ih =>
      cases l with
      | nil => cases hadjacent
      | cons second l =>
          obtain ⟨hfirst, hrest⟩ := List.pairwise_cons.mp h
          rcases List.mem_cons.mp hadjacent with hhead | htail
          · obtain ⟨rfl, rfl⟩ := Prod.mk.inj hhead
            refine ⟨List.mem_cons_self, by simp, hfirst _ List.mem_cons_self, fun c hc => ?_⟩
            rcases List.mem_cons.mp hc with rfl | hc
            · exact .inl le_rfl
            · rcases List.mem_cons.mp hc with rfl | hc
              · exact .inr le_rfl
              · exact .inr ((List.pairwise_cons.mp hrest).1 c hc).le
          · obtain ⟨ha, hb, hlt, hbetween⟩ := ih hrest htail
            refine ⟨List.mem_cons_of_mem _ ha, List.mem_cons_of_mem _ hb, hlt, fun c hc => ?_⟩
            rcases List.mem_cons.mp hc with rfl | hc
            · exact .inl (hfirst a ha).le
            · exact hbetween c hc

/-- Elements with nothing between them are adjacent in a strictly increasing list. -/
theorem mem_zip_of_adjacent (h : l.Pairwise fun left right => key left < key right) {a b : α} (ha : a ∈ l) (hb : b ∈ l)
    (hlt : key a < key b) (hbetween : ∀ c ∈ l, key c ≤ key a ∨ key b ≤ key c) : (a, b) ∈ l.zip l.tail := by
  induction l with
  | nil => cases ha
  | cons first l ih =>
      obtain ⟨hfirst, hrest⟩ := List.pairwise_cons.mp h
      cases l with
      | nil =>
          obtain rfl := List.mem_singleton.mp ha
          obtain rfl := List.mem_singleton.mp hb
          exact absurd hlt (lt_irrefl _)
      | cons second l =>
          have hmem : b ∈ second :: l := by
            refine (List.mem_cons.mp hb).resolve_left fun hsame => ?_
            subst hsame
            rcases List.mem_cons.mp ha with rfl | ha
            · exact lt_irrefl _ hlt
            · exact lt_asymm hlt (hfirst a ha)
          rcases List.mem_cons.mp ha with rfl | ha
          · have hsecond : b = second := by
              refine eq_of_increasing hrest hmem List.mem_cons_self (le_antisymm ?_ ?_)
              · exact (hbetween second (by simp)).resolve_left (not_le.mpr (hfirst _ List.mem_cons_self))
              · rcases List.mem_cons.mp hmem with rfl | hmem
                · exact le_rfl
                · exact ((List.pairwise_cons.mp hrest).1 b hmem).le
            rw [hsecond]
            exact List.mem_cons_self
          · exact List.mem_cons_of_mem _ (ih hrest ha hmem fun c hc => hbetween c (List.mem_cons_of_mem _ hc))

/-- The first success along a strictly increasing list: all smaller elements fail. -/
theorem findSome?_least {δ : Type} (h : l.Pairwise fun left right => key left < key right) {g : α → Option δ}
    {result : δ}
    (hfound : l.findSome? g = some result) : ∃ a ∈ l, g a = some result ∧ ∀ b ∈ l, key b < key a → g b = none := by
  induction l with
  | nil => cases hfound
  | cons first l ih =>
      obtain ⟨hfirst, hrest⟩ := List.pairwise_cons.mp h
      rw [List.findSome?_cons] at hfound
      cases hg : g first with
      | some value =>
          rw [hg] at hfound
          cases hfound
          refine ⟨first, List.mem_cons_self, hg, fun b hb hlt => ?_⟩
          rcases List.mem_cons.mp hb with rfl | hb
          · exact absurd hlt (lt_irrefl _)
          · exact absurd hlt (lt_asymm (hfirst b hb))
      | none =>
          rw [hg] at hfound
          obtain ⟨a, ha, hresult, hless⟩ := ih hrest hfound
          refine ⟨a, List.mem_cons_of_mem _ ha, hresult, fun b hb hlt => ?_⟩
          rcases List.mem_cons.mp hb with rfl | hb
          · exact hg
          · exact hless b hb hlt

end Order
end Distinct
