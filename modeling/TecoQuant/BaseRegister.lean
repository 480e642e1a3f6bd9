import Mathlib.Data.Set.Basic
import Mathlib.Logic.Function.Basic

/-! Write-once registers. A content is published under a key at most once; publishing it again leaves the
register as it is, and nothing else can be published under that key. -/

namespace WriteOnce

variable {κ γ : Type}

/-- The content published under each key. -/
abbrev Register (κ γ : Type) : Type := κ → Option γ

/-- `content` is published under `key`, for the first time or again. -/
inductive Publishes [DecidableEq κ] (r : Register κ γ) (key : κ) (content : γ) : Register κ γ → Prop
  | first (new : r key = none) : Publishes r key content (Function.update r key (some content))
  | again (stored : r key = some content) : Publishes r key content r

/-- Nothing published has been lost or replaced. -/
def Extends (r r' : Register κ γ) : Prop := ∀ key content, r key = some content → r' key = some content

theorem extends_refl (r : Register κ γ) : Extends r r := fun _ _ h => h

theorem Extends.trans {r₁ r₂ r₃ : Register κ γ} (h : Extends r₁ r₂) (h' : Extends r₂ r₃) : Extends r₁ r₃ :=
  fun key content hstored => h' key content (h key content hstored)

section Publishes

variable [DecidableEq κ] {r r₁ r₂ r₃ : Register κ γ} {key : κ} {content other : γ}

theorem Publishes.stored (h : Publishes r key content r₁) : r₁ key = some content := by
  cases h with
  | first new => exact Function.update_self key _ r
  | again stored => exact stored

theorem Publishes.extends (h : Publishes r key content r₁) : Extends r r₁ := by
  cases h with
  | again stored => exact extends_refl r
  | first new =>
      intro k c hstored
      have hkey : k ≠ key := by
        intro heq
        rw [heq, new] at hstored
        cases hstored
      rw [Function.update_of_ne hkey]
      exact hstored

/-- Under a published key only the published content is accepted, and it changes nothing. -/
theorem Publishes.agrees (h : Publishes r key content r₁) (hstored : r key = some other) :
    content = other ∧ r₁ = r := by
  cases h with
  | first new =>
      rw [new] at hstored
      cases hstored
  | again stored => exact ⟨Option.some.inj (stored.symm.trans hstored), rfl⟩

end Publishes

/-- A run whose steps each extend the register of a store extends it. -/
theorem extends_foldl {σ α : Type} (read : σ → Register κ γ) (Inv : σ → Prop) {step : σ → α → σ}
    (hstep : ∀ s a, Inv s → Inv (step s a) ∧ Extends (read s) (read (step s a))) (l : List α) {s : σ}
    (h : Inv s) : Inv (l.foldl step s) ∧ Extends (read s) (read (l.foldl step s)) := by
  induction l generalizing s with
  | nil => exact ⟨h, extends_refl _⟩
  | cons a l ih =>
      obtain ⟨hinv, hfirst⟩ := hstep s a h
      obtain ⟨hlast, hrest⟩ := ih hinv
      exact ⟨hlast, hfirst.trans hrest⟩

end WriteOnce
