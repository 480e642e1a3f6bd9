import Mathlib.Data.List.Forall2
import Mathlib.Logic.Basic

/-! Reading a computation that may fail backwards: what had to succeed for the whole to succeed. -/

namespace Except

variable {ε α β : Type}

theorem pure_eq (a : α) : (pure a : Except ε α) = .ok a := rfl

theorem bind_eq_ok {x : Except ε α} {f : α → Except ε β} {value : β} :
    (x >>= f) = .ok value ↔ ∃ a, x = .ok a ∧ f a = .ok value := by
  cases x with
  | error error => simp [bind, Except.bind]
  | ok a => simp [bind, Except.bind]

theorem ite_error_eq_ok {condition : Prop} [Decidable condition] {error : ε} {x : Except ε α}
    {value : α} :
    (if condition then .error error else x) = .ok value ↔ ¬condition ∧ x = .ok value := by
  by_cases h : condition <;> simp [h]

theorem ite_ok_eq_ok {condition : Prop} [Decidable condition] {error : ε} {a value : α} :
    (if condition then .ok a else .error error) = Except.ok (ε := ε) value ↔ condition ∧ a = value := by
  by_cases h : condition <;> simp [h]

theorem mapM_ite_eq_ok {condition : α → Prop} [DecidablePred condition] {error : ε} {f : α → β} {l : List α}
    {bs : List β} : (l.mapM fun a => if condition a then Except.ok (f a) else .error error) = .ok bs ↔
      (∀ a ∈ l, condition a) ∧ bs = l.map f := by
  induction l generalizing bs with
  | nil => simp [pure_eq, eq_comm]
  | cons a l ih =>
      rw [List.mapM_cons, bind_eq_ok]
      simp only [bind_eq_ok, pure_eq, ite_ok_eq_ok, ih, List.forall_mem_cons, List.map_cons]
      grind

theorem map_eq_ok {x : Except ε α} {f : α → β} {value : β} :
    x.map f = .ok value ↔ ∃ a, x = .ok a ∧ f a = value := by
  cases x <;> simp [Except.map]

theorem mapError_eq_ok {δ : Type} {x : Except ε α} {f : ε → δ} {value : α} :
    x.mapError f = .ok value ↔ x = .ok value := by
  cases x <;> simp [Except.mapError]

theorem toOption_eq_some {x : Except ε α} {value : α} : x.toOption = some value ↔ x = .ok value := by
  cases x <;> simp [Except.toOption]

theorem exists_of_isSome {x : Except ε α} (h : x.toOption.isSome) : ∃ value, x = .ok value := by
  obtain ⟨value, hvalue⟩ := Option.isSome_iff_exists.mp h
  exact ⟨value, toOption_eq_some.mp hvalue⟩

/-- A list is mapped when each of its elements is. -/
theorem mapM_succeeds {f : α → Except ε β} {l : List α}
    (h : ∀ a ∈ l, ∃ b, f a = .ok b) : ∃ bs, l.mapM f = .ok bs := by
  induction l with
  | nil => exact ⟨[], rfl⟩
  | cons a l ih =>
      obtain ⟨b, hb⟩ := h a List.mem_cons_self
      obtain ⟨bs, hbs⟩ := ih fun a ha => h a (List.mem_cons_of_mem _ ha)
      exact ⟨b :: bs, by rw [List.mapM_cons, hb, hbs]; rfl⟩

theorem mapM_congr {f g : α → Except ε β} {l : List α} (h : ∀ a ∈ l, f a = g a) : l.mapM f = l.mapM g := by
  induction l with
  | nil => rfl
  | cons a l ih =>
      rw [List.mapM_cons, List.mapM_cons, h a List.mem_cons_self, ih fun a ha => h a (List.mem_cons_of_mem _ ha)]

theorem mapM_ok {f : α → Except ε β} {g : α → β} {l : List α} (h : ∀ a ∈ l, f a = .ok (g a)) :
    l.mapM f = .ok (l.map g) := by
  induction l with
  | nil => rfl
  | cons a l ih =>
      rw [List.mapM_cons, h a List.mem_cons_self, ih fun a ha => h a (List.mem_cons_of_mem _ ha)]
      rfl

/-- A loop that returns has returned in every round. -/
theorem forM_eq_ok {f : α → Except ε Unit} {l : List α} {u : Unit} :
    l.forM f = .ok u ↔ ∀ a ∈ l, f a = .ok () := by
  induction l with
  | nil => exact ⟨fun _ => nofun, fun _ => rfl⟩
  | cons a l ih =>
      rw [List.forall_mem_cons, ← ih]
      show (f a >>= fun _ => l.forM f) = .ok u ↔ _
      rw [bind_eq_ok]
      constructor
      · rintro ⟨v, hfirst, hrest⟩
        exact ⟨hfirst, hrest⟩
      · rintro ⟨hfirst, hrest⟩
        exact ⟨(), hfirst, hrest⟩

/-- Every element of a mapped list comes from one of the list. -/
theorem mapM_mem {f : α → Except ε β} {l : List α} {bs : List β} (h : l.mapM f = .ok bs) {b : β}
    (hb : b ∈ bs) : ∃ a ∈ l, f a = .ok b := by
  induction l generalizing bs with
  | nil =>
      cases h
      cases hb
  | cons a l ih =>
      rw [List.mapM_cons] at h
      obtain ⟨b', hb', h⟩ := bind_eq_ok.mp h
      obtain ⟨bs', hbs', h⟩ := bind_eq_ok.mp h
      cases h
      rcases List.mem_cons.mp hb with rfl | hmem
      · exact ⟨a, List.mem_cons_self, hb'⟩
      · obtain ⟨a', ha', hf⟩ := ih hbs' hmem
        exact ⟨a', List.mem_cons_of_mem _ ha', hf⟩

/-- A mapped list has the results of the list in order. -/
theorem mapM_forall₂ {f : α → Except ε β} {l : List α} {bs : List β} (h : l.mapM f = .ok bs) :
    List.Forall₂ (fun a b => f a = .ok b) l bs := by
  induction l generalizing bs with
  | nil =>
      cases h
      exact .nil
  | cons a l ih =>
      rw [List.mapM_cons] at h
      obtain ⟨b, hb, h⟩ := bind_eq_ok.mp h
      obtain ⟨rest, hrest, h⟩ := bind_eq_ok.mp h
      cases h
      exact .cons hb (ih hrest)

/-- When a list is mapped, each of its elements is. -/
theorem mapM_all {f : α → Except ε β} {l : List α} {bs : List β} (h : l.mapM f = .ok bs) {a : α} (ha : a ∈ l) :
    ∃ b ∈ bs, f a = .ok b := by
  induction l generalizing bs with
  | nil => cases ha
  | cons first l ih =>
      rw [List.mapM_cons] at h
      obtain ⟨b, hb, h⟩ := bind_eq_ok.mp h
      obtain ⟨bs', hbs', h⟩ := bind_eq_ok.mp h
      cases h
      rcases List.mem_cons.mp ha with rfl | hmem
      · exact ⟨b, List.mem_cons_self, hb⟩
      · obtain ⟨b', hb', hf⟩ := ih hbs' hmem
        exact ⟨b', List.mem_cons_of_mem _ hb', hf⟩

end Except

namespace Option

variable {α β : Type} {f : α → Option β} {l : List α}

theorem mapM_succeeds (h : ∀ a ∈ l, (f a).isSome) : ∃ bs, l.mapM f = some bs := by
  induction l with
  | nil => exact ⟨[], rfl⟩
  | cons a l ih =>
      obtain ⟨b, hb⟩ := Option.isSome_iff_exists.mp (h a List.mem_cons_self)
      obtain ⟨bs, hbs⟩ := ih fun a ha => h a (List.mem_cons_of_mem _ ha)
      exact ⟨b :: bs, by rw [List.mapM_cons, hb, hbs]; rfl⟩

/-- A mapped list has the results of all elements and no others. -/
theorem mem_mapM {bs : List β} (h : l.mapM f = some bs) :
    (∀ a ∈ l, ∃ b ∈ bs, f a = some b) ∧ ∀ b ∈ bs, ∃ a ∈ l, f a = some b := by
  induction l generalizing bs with
  | nil =>
      cases h
      simp
  | cons first l ih =>
      rw [List.mapM_cons] at h
      obtain ⟨b, hb, h⟩ := Option.bind_eq_some_iff.mp h
      obtain ⟨bs', hbs', h⟩ := Option.bind_eq_some_iff.mp h
      cases h
      obtain ⟨hall, hmem⟩ := ih hbs'
      constructor
      · intro a ha
        rcases List.mem_cons.mp ha with rfl | ha
        · exact ⟨b, List.mem_cons_self, hb⟩
        · obtain ⟨b', hb', hf⟩ := hall a ha
          exact ⟨b', List.mem_cons_of_mem _ hb', hf⟩
      · intro b' hb'
        rcases List.mem_cons.mp hb' with rfl | hb'
        · exact ⟨first, List.mem_cons_self, hb⟩
        · obtain ⟨a, ha, hf⟩ := hmem b' hb'
          exact ⟨a, List.mem_cons_of_mem _ ha, hf⟩

end Option
