import Mathlib.Data.List.Induction
import Mathlib.Order.Lattice

/-! Registers that keep, for each key, the greatest value offered so far. A value is taken when it is
strictly above everything offered before it under its key, and what is kept in the end does not depend
on the order of the offers. -/

namespace RunningMax

variable {α κ β : Type} [LinearOrder β]

/-- Strictly above every value of a list that has its key. -/
def Leads (key : α → κ) (rank : α → β) (offers : List α) (a : α) : Prop :=
  ∀ b ∈ offers, key b = key a → rank b < rank a

/-- The registers hold a greatest value of each key offered, and nothing else. -/
structure Holds (key : α → κ) (rank : α → β) (offers : List α) (held : κ → Option α) : Prop where
  offered : ∀ {k a}, held k = some a → a ∈ offers ∧ key a = k
  greatest : ∀ {k a}, held k = some a → ∀ b ∈ offers, key b = k → rank b ≤ rank a
  covers : ∀ a ∈ offers, ∃ b, held (key a) = some b

section

variable {key : α → κ} {rank : α → β} {offers : List α} {held held' : κ → Option α} {a : α} {k : κ}

theorem Holds.nil : Holds key rank [] fun _ => none := by
  constructor <;> simp

/-- An offer leads when it is above what is held under its key. -/
theorem Holds.leads_iff (h : Holds key rank offers held) :
    Leads key rank offers a ↔ ∀ b ∈ held (key a), rank b < rank a := by
  constructor
  · intro hleads b hb
    obtain ⟨hmem, hkey⟩ := h.offered hb
    exact hleads b hmem hkey
  · intro habove b hb hkey
    obtain ⟨c, hc⟩ := h.covers b hb
    rw [hkey] at hc
    exact (h.greatest hc b hb hkey).trans_lt (habove c hc)

/-- A leading offer is taken. -/
theorem Holds.take (h : Holds key rank offers held) (hleads : Leads key rank offers a)
    (hsame : held' (key a) = some a) (hothers : ∀ k, k ≠ key a → held' k = held k) :
    Holds key rank (offers ++ [a]) held' := by
  refine ⟨fun {k c} hc => ?_, fun {k c} hc b hb hkey => ?_, fun b hb => ?_⟩
  · by_cases hk : k = key a
    · subst hk
      obtain rfl := Option.some.inj (hsame.symm.trans hc)
      exact ⟨by simp, rfl⟩
    · obtain ⟨hmem, hkey⟩ := h.offered ((hothers k hk).symm.trans hc)
      exact ⟨List.mem_append_left _ hmem, hkey⟩
  · by_cases hk : k = key a
    · subst hk
      obtain rfl := Option.some.inj (hsame.symm.trans hc)
      rcases List.mem_append.mp hb with hb | hb
      · exact (hleads b hb hkey).le
      · rw [List.mem_singleton.mp hb]
    · rcases List.mem_append.mp hb with hb | hb
      · exact h.greatest ((hothers k hk).symm.trans hc) b hb hkey
      · exact absurd (List.mem_singleton.mp hb ▸ hkey.symm) hk
  · by_cases hk : key b = key a
    · exact ⟨a, hk ▸ hsame⟩
    · rcases List.mem_append.mp hb with hb | hb
      · rw [hothers _ hk]
        exact h.covers b hb
      · exact absurd (congrArg key (List.mem_singleton.mp hb)) hk

/-- An offer that does not lead is passed over. -/
theorem Holds.pass (h : Holds key rank offers held) (hleads : ¬Leads key rank offers a) :
    Holds key rank (offers ++ [a]) held := by
  rw [h.leads_iff] at hleads
  push Not at hleads
  obtain ⟨c, hc, hle⟩ := hleads
  refine ⟨fun hd => ?_, fun {k d} hd b hb hkey => ?_, fun b hb => ?_⟩
  · obtain ⟨hmem, hkey⟩ := h.offered hd
    exact ⟨List.mem_append_left _ hmem, hkey⟩
  · rcases List.mem_append.mp hb with hb | hb
    · exact h.greatest hd b hb hkey
    · obtain rfl := List.mem_singleton.mp hb
      subst hkey
      obtain rfl := Option.some.inj (Option.mem_def.mp hc |>.symm.trans hd)
      exact hle
  · rcases List.mem_append.mp hb with hb | hb
    · exact h.covers b hb
    · rw [List.mem_singleton.mp hb]
      exact ⟨c, hc⟩

end

end RunningMax
