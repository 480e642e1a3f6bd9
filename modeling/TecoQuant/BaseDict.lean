import Mathlib.Data.List.Basic
import Mathlib.Data.List.Induction

/-! Dictionaries as lists of their items in insertion order. -/

namespace Dict

variable {κ α : Type} [DecidableEq κ]

/-- `items[key] = value`: a known key keeps its place, a new one comes last. -/
def assign (key : κ) (value : α) : List (κ × α) → List (κ × α)
  | [] => [(key, value)]
  | (known, old) :: rest =>
      if known = key then (key, value) :: rest else (known, old) :: assign key value rest

variable {key other : κ} {value : α} {items : List (κ × α)}

@[simp] theorem lookup_assign_self : (assign key value items).lookup key = some value := by
  induction items with
  | nil => simp [assign]
  | cons item rest ih =>
      obtain ⟨known, old⟩ := item
      rw [assign]
      split
      · simp
      · rename_i hne
        rw [List.lookup_cons, beq_false_of_ne (Ne.symm hne)]
        exact ih

theorem lookup_assign_ne (h : other ≠ key) : (assign key value items).lookup other = items.lookup other := by
  induction items with
  | nil => simp [assign, h]
  | cons item rest ih =>
      obtain ⟨known, old⟩ := item
      rw [assign]
      split
      · rename_i hsame
        simp [List.lookup_cons, hsame, beq_false_of_ne h]
      · simp [List.lookup_cons, ih]

theorem mem_assign {item : κ × α} (h : item ∈ assign key value items) : item = (key, value) ∨ item ∈ items := by
  induction items with
  | nil => exact .inl (List.mem_singleton.mp h)
  | cons first rest ih =>
      obtain ⟨known, old⟩ := first
      rw [assign] at h
      split at h
      · rcases List.mem_cons.mp h with rfl | h
        · exact .inl rfl
        · exact .inr (List.mem_cons_of_mem _ h)
      · rcases List.mem_cons.mp h with rfl | h
        · exact .inr List.mem_cons_self
        · exact (ih h).imp_right (List.mem_cons_of_mem _)

/-- Assignment keeps the keys distinct. -/
theorem assign_nodup (h : (items.map Prod.fst).Nodup) : ((assign key value items).map Prod.fst).Nodup := by
  induction items with
  | nil => simp [assign]
  | cons first rest ih =>
      obtain ⟨known, old⟩ := first
      obtain ⟨hfirst, hrest⟩ := List.nodup_cons.mp h
      rw [assign]
      split
      · rename_i hsame
        exact List.nodup_cons.mpr ⟨hsame ▸ hfirst, hrest⟩
      · rename_i hne
        refine List.nodup_cons.mpr ⟨fun hmem => ?_, ih hrest⟩
        obtain ⟨item, hitem, hkey⟩ := List.mem_map.mp hmem
        rcases mem_assign hitem with rfl | hitem
        · exact hne hkey.symm
        · exact hfirst (List.mem_map.mpr ⟨item, hitem, hkey⟩)

/-- With distinct keys an item is what its key looks up. -/
theorem lookup_of_mem (hnodup : (items.map Prod.fst).Nodup) (h : (key, value) ∈ items) :
    items.lookup key = some value := by
  induction items with
  | nil => cases h
  | cons first rest ih =>
      obtain ⟨known, old⟩ := first
      obtain ⟨hfirst, hrest⟩ := List.nodup_cons.mp hnodup
      rcases List.mem_cons.mp h with hsame | h
      · cases hsame
        simp
      · have hne : key ≠ known := by
          intro hsame
          exact hfirst (List.mem_map.mpr ⟨(key, value), h, hsame⟩)
        rw [List.lookup_cons, beq_false_of_ne hne]
        exact ih hrest h

theorem mem_of_lookup (h : items.lookup key = some value) : (key, value) ∈ items := by
  induction items with
  | nil => cases h
  | cons first rest ih =>
      obtain ⟨known, old⟩ := first
      rw [List.lookup_cons] at h
      split at h
      · rename_i hsame
        obtain rfl : key = known := by simpa using hsame
        obtain rfl := Option.some.inj h
        exact List.mem_cons_self
      · exact List.mem_cons_of_mem _ (ih h)

/-- An assignment replaces what its key had. -/
theorem mem_assign_of_nodup (hnodup : (items.map Prod.fst).Nodup) {item : κ × α} (h : item ∈ assign key value items) :
    item = (key, value) ∨ item ∈ items ∧ item.1 ≠ key := by
  rcases mem_assign h with hsame | hmem
  · exact .inl hsame
  · by_cases hkey : item.1 = key
    · have hdistinct : ((assign key value items).map Prod.fst).Nodup := assign_nodup hnodup
      have hvalue := lookup_of_mem hdistinct (show (item.1, item.2) ∈ _ from h)
      rw [hkey, lookup_assign_self] at hvalue
      exact .inl (Prod.ext hkey (Option.some.inj hvalue).symm)
    · exact .inr ⟨hmem, hkey⟩

variable {updates : List (κ × α)}

theorem update_nodup (h : (items.map Prod.fst).Nodup) :
    ((updates.foldl (fun items (key, value) => assign key value items) items).map Prod.fst).Nodup := by
  induction updates generalizing items with
  | nil => exact h
  | cons update updates ih => exact ih (assign_nodup h)

/-- After `items.update(updates)` an item is one of the updates, or an old one under none of their keys. -/
theorem mem_update (hnodup : (items.map Prod.fst).Nodup) {item : κ × α}
    (h : item ∈ updates.foldl (fun items (key, value) => assign key value items) items) :
    item ∈ updates ∨ item ∈ items ∧ ∀ update ∈ updates, item.1 ≠ update.1 := by
  induction updates generalizing items with
  | nil => exact .inr ⟨h, fun _ hmem => nomatch hmem⟩
  | cons update updates ih =>
      rcases ih (assign_nodup hnodup) h with hmem | ⟨hmem, hlater⟩
      · exact .inl (List.mem_cons_of_mem _ hmem)
      · rcases mem_assign_of_nodup hnodup hmem with rfl | ⟨hold, hkey⟩
        · exact .inl List.mem_cons_self
        · refine .inr ⟨hold, fun other hother => ?_⟩
          rcases List.mem_cons.mp hother with rfl | hother
          · exact hkey
          · exact hlater other hother

/-- After `items.update(updates)` the last update of a key counts. -/
theorem lookup_update (key : κ) (items : List (κ × α)) :
    (updates.foldl (fun items (key, value) => assign key value items) items).lookup key =
      (updates.reverse.lookup key).or (items.lookup key) := by
  induction updates using List.reverseRecOn with
  | nil => simp
  | append_singleton updates update ih =>
      obtain ⟨known, value⟩ := update
      rw [List.foldl_append, List.reverse_append, List.reverse_singleton, List.singleton_append, List.lookup_cons]
      by_cases hkey : key = known
      · subst hkey
        simp
      · rw [beq_false_of_ne hkey]
        exact (lookup_assign_ne hkey).trans ih

/-! ### Items of which no two disagree -/

/-- One key has one value. -/
def Functional (items : List (κ × α)) : Prop :=
  ∀ left ∈ items, ∀ right ∈ items, left.1 = right.1 → left.2 = right.2

/-- `items[key] = value`, refused where the key has another value. -/
def collect {ε : Type} [DecidableEq α] (error : ε) (items : List (κ × α)) (item : κ × α) : Except ε (List (κ × α)) :=
  if ∃ known ∈ items.lookup item.1, known ≠ item.2 then .error error else .ok (assign item.1 item.2 items)

theorem mem_assign_iff (hnodup : (items.map Prod.fst).Nodup) (h : ∀ known ∈ items.lookup key, known = value)
    {item : κ × α} : item ∈ assign key value items ↔ item = (key, value) ∨ item ∈ items := by
  refine ⟨mem_assign, fun hmem => ?_⟩
  have hself : (key, value) ∈ assign key value items := mem_of_lookup lookup_assign_self
  rcases hmem with rfl | hmem
  · exact hself
  · by_cases hkey : item.1 = key
    · obtain rfl : item.2 = value := h item.2 (hkey ▸ lookup_of_mem hnodup (show (item.1, item.2) ∈ items from hmem))
      subst hkey
      exact hself
    · exact mem_of_lookup ((lookup_assign_ne hkey).trans (lookup_of_mem hnodup (show (item.1, item.2) ∈ items from hmem)))

/-- Items are collected exactly when no two of them disagree. -/
theorem foldlM_collect {ε : Type} [DecidableEq α] (error : ε) (added items : List (κ × α))
    (hnodup : (items.map Prod.fst).Nodup) (hitems : Functional items) :
    match added.foldlM (collect error) items with
    | .ok result => Functional (items ++ added) ∧ (result.map Prod.fst).Nodup ∧
        ∀ item, item ∈ result ↔ item ∈ items ++ added
    | .error raised => raised = error ∧ ¬Functional (items ++ added) := by
  induction added generalizing items with
  | nil => simpa [pure, Except.pure] using And.intro hitems hnodup
  | cons item added ih =>
      rw [List.foldlM_cons]
      by_cases hconflict : ∃ known ∈ items.lookup item.1, known ≠ item.2
      · rw [collect, if_pos hconflict]
        obtain ⟨known, hknown, hne⟩ := hconflict
        refine ⟨rfl, fun hfunctional => hne ?_⟩
        exact hfunctional (item.1, known) (List.mem_append_left _ (mem_of_lookup hknown)) item (by simp) rfl
      · rw [collect, if_neg hconflict]
        have hagree : ∀ known ∈ items.lookup item.1, known = item.2 := fun known hknown =>
          by_contra fun hne => hconflict ⟨known, hknown, hne⟩
        have hmem : ∀ other, other ∈ assign item.1 item.2 items ++ added ↔ other ∈ items ++ item :: added := by
          intro other
          rw [List.mem_append, mem_assign_iff hnodup hagree, List.mem_append, List.mem_cons]
          tauto
        have hsame : Functional (assign item.1 item.2 items ++ added) ↔ Functional (items ++ item :: added) := by
          simp only [Functional, hmem]
        have hassigned : Functional (assign item.1 item.2 items) := by
          intro left hleft right hright hkey
          have hdistinct : ((assign item.1 item.2 items).map Prod.fst).Nodup := assign_nodup hnodup
          have hleft := lookup_of_mem hdistinct (show (left.1, left.2) ∈ _ from hleft)
          have hright := lookup_of_mem hdistinct (show (right.1, right.2) ∈ _ from hright)
          rw [hkey, hright] at hleft
          exact (Option.some.inj hleft).symm
        have hrest := ih (assign item.1 item.2 items) (assign_nodup hnodup) hassigned
        simp only [hsame, hmem] at hrest
        exact hrest

end Dict
