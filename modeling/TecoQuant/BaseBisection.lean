import Mathlib.Order.Basic
import Mathlib.Tactic.Linarith

/-! Bisection for the last integer that a predicate accepts. It is right when what is accepted is closed
downwards. -/

namespace Bisection

section Search

variable (accept : Int → Prop) [DecidablePred accept]

/-- The loop: the bounds still open, and the best candidate accepted so far. -/
def search (lower upper best : Int) : Int :=
  if lower ≤ upper then
    let candidate := lower + (upper - lower) / 2
    if accept candidate then search (candidate + 1) upper candidate else search lower (candidate - 1) best
  else best
termination_by (upper + 1 - lower).toNat

end Search

section Correct

variable {accept : Int → Prop} {first top lower upper best : Int}

/-- What holds of the bounds at every turn of the loop. -/
structure Bounds (accept : Int → Prop) (first top lower upper best : Int) : Prop where
  first_le_lower : first ≤ lower
  first_le_best : first ≤ best
  lower_le : lower ≤ best + 1
  accepted : accept best
  rejected : ∀ i, upper < i → i ≤ top → ¬accept i

theorem Bounds.raise (h : Bounds accept first top lower upper best) {candidate : Int} (hlower : lower ≤ candidate)
    (haccept : accept candidate) : Bounds accept first top (candidate + 1) upper candidate where
  first_le_lower := by
    have := h.first_le_lower
    omega
  first_le_best := h.first_le_lower.trans hlower
  lower_le := le_refl _
  accepted := haccept
  rejected := h.rejected

theorem Bounds.reduce (hclosed : ∀ i j, first ≤ i → i ≤ j → accept j → accept i)
    (h : Bounds accept first top lower upper best) {candidate : Int} (hlower : lower ≤ candidate)
    (hreject : ¬accept candidate) : Bounds accept first top lower (candidate - 1) best where
  first_le_lower := h.first_le_lower
  first_le_best := h.first_le_best
  lower_le := h.lower_le
  accepted := h.accepted
  rejected i hi _ haccept := hreject (hclosed candidate i (h.first_le_lower.trans hlower) (by omega) haccept)

/-- The loop ends with the last accepted index. -/
theorem search_last [DecidablePred accept] (hclosed : ∀ i j, first ≤ i → i ≤ j → accept j → accept i)
    (h : Bounds accept first top lower upper best) :
    first ≤ search accept lower upper best ∧ accept (search accept lower upper best) ∧
      ∀ i, search accept lower upper best < i → i ≤ top → ¬accept i := by
  fun_induction search accept lower upper best with
  | case1 lower upper best hle candidate haccept ih =>
      have hcandidate : lower ≤ candidate := by
        show lower ≤ lower + (upper - lower) / 2
        omega
      exact ih (h.raise hcandidate haccept)
  | case2 lower upper best hle candidate hreject ih =>
      have hcandidate : lower ≤ candidate := by
        show lower ≤ lower + (upper - lower) / 2
        omega
      exact ih (h.reduce hclosed hcandidate hreject)
  | case3 lower upper best hgt =>
      refine ⟨h.first_le_best, h.accepted, fun i hi htop => h.rejected i ?_ htop⟩
      have hlower := h.lower_le
      omega

end Correct

end Bisection
