import Mathlib.Data.List.Sort
import Mathlib.Order.Lattice

/-! Lists that a relation orders strictly. Insertion sort is stable: elements of equal rank keep the order
they had. How many elements a list starts with before the first that fails a test depends on the order of
passing and failing elements only, so two orders that agree on these give the same number. -/

namespace StableOrder

variable {α β : Type} [LinearOrder β] {rank : α → β} {Before : α → α → Prop} {l : List α}

/-- Higher ranks first; of equal ranks, the one that was before. -/
def Ahead (rank : α → β) (Before : α → α → Prop) (a b : α) : Prop :=
  rank b < rank a ∨ rank a = rank b ∧ Before a b

theorem pairwise_orderedInsert {a : α} (hl : l.Pairwise (Ahead rank Before)) (ha : ∀ b ∈ l, Before a b) :
    (l.orderedInsert (fun left right => rank right ≤ rank left) a).Pairwise (Ahead rank Before) := by
  induction l with
  | nil => exact List.pairwise_singleton _ _
  | cons b l ih =>
      obtain ⟨hb, hrest⟩ := List.pairwise_cons.mp hl
      rw [List.orderedInsert]
      split
      · rename_i hle
        refine List.pairwise_cons.mpr ⟨fun c hc => ?_, hl⟩
        have hbefore := ha c hc
        have hrank : rank c ≤ rank a := by
          rcases List.mem_cons.mp hc with rfl | hc
          · exact hle
          · rcases hb c hc with hlt | ⟨heq, -⟩
            · exact hlt.le.trans hle
            · exact heq ▸ hle
        rcases hrank.lt_or_eq with hlt | heq
        · exact .inl hlt
        · exact .inr ⟨heq.symm, hbefore⟩
      · rename_i hlt
        refine List.pairwise_cons.mpr ⟨fun c hc => ?_, ih hrest fun c hc => ha c (List.mem_cons_of_mem _ hc)⟩
        rcases (List.mem_orderedInsert _).mp hc with rfl | hc
        · exact .inl (not_le.mp hlt)
        · exact hb c hc

/-- Sorting by falling rank keeps the order of equal ranks. -/
theorem pairwise_insertionSort (hl : l.Pairwise Before) :
    (l.insertionSort fun left right => rank right ≤ rank left).Pairwise (Ahead rank Before) := by
  induction l with
  | nil => exact .nil
  | cons a l ih =>
      obtain ⟨ha, hrest⟩ := List.pairwise_cons.mp hl
      exact pairwise_orderedInsert (ih hrest) fun b hb => ha b ((List.mem_insertionSort _).mp hb)

open Classical in
/-- The elements before the first that fails are the passing ones before all that fail. -/
theorem length_takeWhile {p : α → Bool} (hl : l.Pairwise Before) (hasymm : ∀ a b, Before a b → ¬Before b a) :
    (l.takeWhile p).length = l.countP fun a => p a = true ∧ ∀ b ∈ l, p b = false → Before a b := by
  induction l with
  | nil => rfl
  | cons a l ih =>
      obtain ⟨ha, hrest⟩ := List.pairwise_cons.mp hl
      cases hp : p a with
      | true =>
          have hfirst : ∀ b ∈ a :: l, p b = false → Before a b := by
            intro b hb hfails
            rcases List.mem_cons.mp hb with rfl | hb
            · exact absurd (hp.symm.trans hfails) Bool.false_ne_true.symm
            · exact ha b hb
          rw [List.takeWhile_cons_of_pos hp, List.length_cons, ih hrest,
            List.countP_cons_of_pos (by simpa [hp] using hfirst)]
          simp [hp]
      | false =>
          rw [List.takeWhile_cons_of_neg (by simp [hp]), List.length_nil, eq_comm, List.countP_eq_zero]
          intro b hb hpasses
          obtain ⟨hpb, hbefore⟩ := of_decide_eq_true hpasses
          have hba := hbefore a List.mem_cons_self hp
          rcases List.mem_cons.mp hb with rfl | hb
          · exact Bool.false_ne_true (hp.symm.trans hpb)
          · exact hasymm a b (ha b hb) hba

/-- Two orders of the same elements that agree on each passing against each failing element. -/
theorem length_takeWhile_congr {p : α → Bool} {Before' : α → α → Prop} {l' : List α} (hl : l.Pairwise Before)
    (hl' : l'.Pairwise Before') (hperm : l.Perm l') (hasymm : ∀ a b, Before a b → ¬Before b a)
    (hasymm' : ∀ a b, Before' a b → ¬Before' b a)
    (hagree : ∀ a ∈ l, ∀ b ∈ l, p a = true → p b = false → (Before a b ↔ Before' a b)) :
    (l.takeWhile p).length = (l'.takeWhile p).length := by
  classical
  rw [length_takeWhile hl hasymm, length_takeWhile hl' hasymm', ← hperm.countP_eq]
  refine List.countP_congr fun a ha => ?_
  simp only [decide_eq_true_eq, and_congr_right_iff]
  intro hp
  refine ⟨fun h b hb hfails => ?_, fun h b hb hfails => ?_⟩
  · have hb := hperm.mem_iff.mpr hb
    exact (hagree a ha b hb hp hfails).mp (h b hb hfails)
  · exact (hagree a ha b hb hp hfails).mpr (h b (hperm.mem_iff.mp hb) hfails)

/-! ### Related lists -/

section Related

variable {α' : Type} {S : α → α' → Prop} {r : α → α → Prop} {r' : α' → α' → Prop} [DecidableRel r] [DecidableRel r']

theorem forall₂_orderedInsert (hagrees : ∀ a a' b b', S a a' → S b b' → (r a b ↔ r' a' b')) {a : α} {a' : α'}
    (ha : S a a') {l : List α} {l' : List α'} (h : List.Forall₂ S l l') :
    List.Forall₂ S (l.orderedInsert r a) (l'.orderedInsert r' a') := by
  induction h with
  | nil => exact .cons ha .nil
  | @cons b b' _ _ hb htail ih =>
      by_cases hbefore : r a b
      · rw [List.orderedInsert_cons_of_le _ _ hbefore,
          List.orderedInsert_cons_of_le _ _ ((hagrees a a' b b' ha hb).mp hbefore)]
        exact .cons ha (.cons hb htail)
      · rw [List.orderedInsert_of_not_le _ _ hbefore,
          List.orderedInsert_of_not_le _ _ fun hle => hbefore ((hagrees a a' b b' ha hb).mpr hle)]
        exact .cons hb ih

/-- An element of a list is related to one of the other. -/
theorem exists_of_forall₂ {l : List α} {l' : List α'} (h : List.Forall₂ S l l') {a : α} (ha : a ∈ l) :
    ∃ a' ∈ l', S a a' := by
  induction h with
  | nil => cases ha
  | @cons b b' _ _ hb htail ih =>
      rcases List.mem_cons.mp ha with rfl | hmem
      · exact ⟨b', List.mem_cons_self, hb⟩
      · obtain ⟨a', ha', hrelated⟩ := ih hmem
        exact ⟨a', List.mem_cons_of_mem _ ha', hrelated⟩

/-- Sorting keeps lists related whose elements the two orders compare alike. -/
theorem forall₂_insertionSort (hagrees : ∀ a a' b b', S a a' → S b b' → (r a b ↔ r' a' b')) {l : List α}
    {l' : List α'} (h : List.Forall₂ S l l') : List.Forall₂ S (l.insertionSort r) (l'.insertionSort r') := by
  induction h with
  | nil => exact .nil
  | cons hhead htail ih => exact forall₂_orderedInsert hagrees hhead ih

/-- Two orders that agree on the elements of a list sort it alike. -/
theorem insertionSort_congr {s : α → α → Prop} [DecidableRel s] {l : List α}
    (hagrees : ∀ a ∈ l, ∀ b ∈ l, (r a b ↔ s a b)) : l.insertionSort r = l.insertionSort s := by
  have hself : List.Forall₂ (fun a b => a = b ∧ a ∈ l) l l :=
    List.forall₂_same.mpr fun a ha => ⟨rfl, ha⟩
  have hsorted : List.Forall₂ (fun a b => a = b ∧ a ∈ l) (l.insertionSort r) (l.insertionSort s) :=
    forall₂_insertionSort (fun a _ b _ ⟨hsame, ha⟩ ⟨hsame', hb⟩ => hsame ▸ hsame' ▸ hagrees a ha b hb) hself
  exact List.forall₂_eq_eq_eq ▸ hsorted.imp fun _ _ h => h.1

end Related

end StableOrder
