import TecoQuant.BaseExcept

/-! Which errors a computation can end with, through the loops and branches that it is made of. -/

namespace Except

variable {ε δ α β : Type} {P : ε → Prop} {x : Except ε α}

/-- The computation raises only errors with the property. -/
def RaisesOnly (P : ε → Prop) (x : Except ε α) : Prop := ∀ error, x = .error error → P error

theorem raisesOnly_ok (a : α) : RaisesOnly P (.ok a : Except ε α) := fun _ h => nomatch h

theorem raisesOnly_error {error : ε} : RaisesOnly P (.error error : Except ε α) ↔ P error := by
  simp [RaisesOnly]

theorem raisesOnly_ite {condition : Prop} [Decidable condition] {y : Except ε α} (hx : RaisesOnly P x)
    (hy : RaisesOnly P y) : RaisesOnly P (if condition then x else y) := by
  split
  · exact hx
  · exact hy

theorem RaisesOnly.bind {f : α → Except ε β} (h : RaisesOnly P x) (hnext : ∀ a, x = .ok a → RaisesOnly P (f a)) :
    RaisesOnly P (x >>= f) := by
  cases x with
  | error error => exact raisesOnly_error.mpr (h error rfl)
  | ok a => exact hnext a rfl

theorem raisesOnly_mapError {P : δ → Prop} (f : ε → δ) (h : ∀ error, P (f error)) : RaisesOnly P (x.mapError f) := by
  cases x with
  | error error => exact raisesOnly_error.mpr (h error)
  | ok a => exact raisesOnly_ok a

theorem raisesOnly_mapM {f : α → Except ε β} {l : List α} (h : ∀ a ∈ l, RaisesOnly P (f a)) :
    RaisesOnly P (l.mapM f) := by
  induction l with
  | nil => exact raisesOnly_ok []
  | cons a l ih =>
      rw [List.mapM_cons]
      refine (h a List.mem_cons_self).bind fun b _ => ?_
      exact (ih fun a ha => h a (List.mem_cons_of_mem _ ha)).bind fun bs _ => raisesOnly_ok (b :: bs)

theorem raisesOnly_foldlM {f : β → α → Except ε β} {l : List α} (h : ∀ b, ∀ a ∈ l, RaisesOnly P (f b a)) (start : β) :
    RaisesOnly P (l.foldlM f start) := by
  induction l generalizing start with
  | nil => exact raisesOnly_ok start
  | cons a l ih =>
      rw [List.foldlM_cons]
      exact (h start a List.mem_cons_self).bind fun b _ => ih (fun b a ha => h b a (List.mem_cons_of_mem _ ha)) b

end Except
