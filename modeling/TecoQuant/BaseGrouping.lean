import Mathlib.Algebra.BigOperators.Group.List.Basic
import Mathlib.Data.List.Induction
import Mathlib.Data.List.Sort

/-! Grouping a list by a label: the groups in order of first occurrence, each with its items in order. -/

namespace Grouping

variable {κ α β : Type}

/-! ### Partitions -/

/-- A partition of a list into groups, none empty, each of the items with its label. -/
structure Partitions (f : α → κ) (items : List α) (groups : List (κ × List α)) : Prop where
  labels : (groups.map Prod.fst).Nodup
  nonempty : ∀ entry ∈ groups, entry.2 ≠ []
  labelled : ∀ entry ∈ groups, ∀ item ∈ entry.2, f item = entry.1
  members : (groups.flatMap Prod.snd).Perm items

variable {f : α → κ} {items : List α} {groups groups' : List (κ × List α)}

theorem Partitions.perm (h : Partitions f items groups) (hperm : groups'.Perm groups) :
    Partitions f items groups' where
  labels := (hperm.map Prod.fst).nodup_iff.mpr h.labels
  nonempty entry hentry := h.nonempty entry (hperm.mem_iff.mp hentry)
  labelled entry hentry := h.labelled entry (hperm.mem_iff.mp hentry)
  members := (hperm.flatMap_right _).trans h.members

/-- What is added up over each group adds up to what is added up over the items. -/
theorem Partitions.sum_eq [AddCommMonoid β] (h : Partitions f items groups) (weight : α → β) :
    (groups.map fun entry => (entry.2.map weight).sum).sum = (items.map weight).sum := by
  rw [← (h.members.map weight).sum_eq, List.map_flatMap, List.flatMap, List.sum_flatten, List.map_map]
  rfl

/-! ### Grouping -/

variable [DecidableEq κ]

/-- `groups.setdefault(label, []).append(item)`. -/
def add (label : κ) (item : α) : List (κ × List α) → List (κ × List α)
  | [] => [(label, [item])]
  | (known, members) :: rest =>
      if known = label then (known, members ++ [item]) :: rest else (known, members) :: add label item rest

/-- The items of each label. -/
def group (f : α → κ) (items : List α) : List (κ × List α) :=
  items.foldl (fun groups item => add (f item) item groups) []

variable {label : κ} {item : α}

/-- An item joins its group, or opens one at the end. -/
theorem labels_add : (add label item groups).map Prod.fst =
    if label ∈ groups.map Prod.fst then groups.map Prod.fst else groups.map Prod.fst ++ [label] := by
  induction groups with
  | nil => rfl
  | cons first rest ih =>
      obtain ⟨known, members⟩ := first
      rw [add]
      by_cases h : known = label
      · simp [h]
      · rw [if_neg h, List.map_cons, ih]
        by_cases hmem : label ∈ rest.map Prod.fst
        · simp [hmem]
        · simp [hmem, Ne.symm h]

/-- Adding an item adds it to what the groups hold together. -/
theorem members_add : ((add label item groups).flatMap Prod.snd).Perm (groups.flatMap Prod.snd ++ [item]) := by
  induction groups with
  | nil => rfl
  | cons first rest ih =>
      obtain ⟨known, members⟩ := first
      rw [add]
      split
      · rw [List.flatMap_cons, List.flatMap_cons, List.append_assoc, List.append_assoc]
        exact List.perm_append_comm.append_left members
      · rw [List.flatMap_cons, List.flatMap_cons, List.append_assoc]
        exact ih.append_left members

/-- A group after an item is added: one of another label, or the item's own with the item at its end. -/
theorem mem_add (hnodup : (groups.map Prod.fst).Nodup) {entry : κ × List α} (h : entry ∈ add label item groups) :
    entry ∈ groups ∧ entry.1 ≠ label ∨ entry.1 = label ∧ ∃ members, entry.2 = members ++ [item] ∧
      (members = [] ∧ label ∉ groups.map Prod.fst ∨ (label, members) ∈ groups) := by
  induction groups with
  | nil =>
      rw [add, List.mem_singleton] at h
      exact .inr ⟨congrArg Prod.fst h, [], congrArg Prod.snd h, .inl ⟨rfl, List.not_mem_nil⟩⟩
  | cons first rest ih =>
      obtain ⟨known, members⟩ := first
      rw [List.map_cons, List.nodup_cons] at hnodup
      rw [add] at h
      split at h
      · rename_i hsame
        rcases List.mem_cons.mp h with rfl | h
        · exact .inr ⟨hsame, members, rfl, .inr (hsame ▸ List.mem_cons_self)⟩
        · refine .inl ⟨List.mem_cons_of_mem _ h, fun heq => hnodup.1 ?_⟩
          exact List.mem_map.mpr ⟨entry, h, heq.trans hsame.symm⟩
      · rename_i hother
        rcases List.mem_cons.mp h with rfl | h
        · exact .inl ⟨List.mem_cons_self, hother⟩
        · rcases ih hnodup.2 h with ⟨h, hne⟩ | ⟨hlabel, old, hmembers, hold⟩
          · exact .inl ⟨List.mem_cons_of_mem _ h, hne⟩
          · refine .inr ⟨hlabel, old, hmembers, hold.imp ?_ (List.mem_cons_of_mem _)⟩
            rintro ⟨rfl, hnew⟩
            refine ⟨rfl, fun hmem => ?_⟩
            rcases List.mem_cons.mp hmem with heq | hmem
            · exact hother heq.symm
            · exact hnew hmem

theorem group_concat (f : α → κ) (items : List α) (item : α) :
    group f (items ++ [item]) = add (f item) item (group f items) := by
  simp [group]

theorem labels_nodup (f : α → κ) (items : List α) : ((group f items).map Prod.fst).Nodup := by
  induction items using List.reverseRecOn with
  | nil => exact List.nodup_nil
  | append_singleton items item ih =>
      rw [group_concat, labels_add]
      split
      · exact ih
      · rename_i hnew
        refine List.nodup_append.mpr ⟨ih, List.nodup_singleton _, fun a ha b hb heq => hnew ?_⟩
        rwa [← List.mem_singleton.mp hb, ← heq]

theorem mem_labels : label ∈ (group f items).map Prod.fst ↔ label ∈ items.map f := by
  induction items using List.reverseRecOn with
  | nil => rfl
  | append_singleton items item ih =>
      rw [group_concat, labels_add, List.map_append, List.mem_append, ← ih, List.map_singleton, List.mem_singleton]
      split
      · rename_i hknown
        constructor
        · exact .inl
        · rintro (h | rfl)
          · exact h
          · exact hknown
      · rw [List.mem_append, List.mem_singleton]

/-- The groups hold every item once. -/
theorem members_perm (f : α → κ) (items : List α) : ((group f items).flatMap Prod.snd).Perm items := by
  induction items using List.reverseRecOn with
  | nil => rfl
  | append_singleton items item ih =>
      rw [group_concat]
      exact members_add.trans (ih.append_right [item])

/-- A group holds the items of its label in their order. -/
theorem eq_filter_of_mem {entry : κ × List α} (h : entry ∈ group f items) :
    entry.2 = items.filter (f · = entry.1) := by
  induction items using List.reverseRecOn generalizing entry with
  | nil => cases h
  | append_singleton items last ih =>
      rw [group_concat] at h
      rw [List.filter_append]
      rcases mem_add (labels_nodup f items) h with ⟨h, hne⟩ | ⟨hlabel, members, hmembers, hold⟩
      · rw [ih h, List.filter_singleton, decide_eq_false (Ne.symm hne), cond_false, List.append_nil]
      · rw [hmembers, hlabel, List.filter_singleton, decide_eq_true rfl, cond_true]
        rcases hold with ⟨rfl, hnew⟩ | hold
        · -- No item had the label before.
          rw [List.filter_eq_nil_iff.mpr]
          intro item hitem hsame
          exact hnew (mem_labels.mpr (List.mem_map.mpr ⟨item, hitem, of_decide_eq_true hsame⟩))
        · rw [← ih hold]

theorem group_partitions (f : α → κ) (items : List α) : Partitions f items (group f items) where
  labels := labels_nodup f items
  nonempty entry h hempty := by
    obtain ⟨item, hitem, hlabel⟩ := List.mem_map.mp (mem_labels.mp (List.mem_map_of_mem h))
    have hmem : item ∈ items.filter (f · = entry.1) := List.mem_filter.mpr ⟨hitem, decide_eq_true hlabel⟩
    rw [← eq_filter_of_mem h, hempty] at hmem
    cases hmem
  labelled entry h item hitem := by
    rw [eq_filter_of_mem h] at hitem
    exact of_decide_eq_true (List.mem_filter.mp hitem).2
  members := members_perm f items

end Grouping
