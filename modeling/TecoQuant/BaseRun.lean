import Mathlib.Data.List.Induction

/-! Runs of a step function over a list of turns. -/

namespace TecoQuant.Run

variable {σ τ : Type*} {step : σ → τ → σ} {s : σ} {turns : List τ}

/-- What every turn of a run keeps holds after each of its beginnings. -/
theorem invariant (Inv : σ → Prop) (hstart : Inv s)
    (hstep : ∀ (before : List τ) (turn : τ) (rest : List τ), turns = before ++ turn :: rest →
      Inv (before.foldl step s) → Inv (step (before.foldl step s) turn)) :
    ∀ before rest, turns = before ++ rest → Inv (before.foldl step s) := by
  intro before
  induction before using List.reverseRecOn with
  | nil => exact fun _ _ => hstart
  | append_singleton before turn ih =>
      intro rest hsplit
      have hsplit : turns = before ++ turn :: rest := by simpa using hsplit
      rw [List.foldl_append]
      exact hstep before turn rest hsplit (ih _ hsplit)

/-- What every turn keeps holds after a run. -/
theorem invariant_of_forall (Inv : σ → Prop) (hstart : Inv s) (hstep : ∀ s turn, Inv s → Inv (step s turn)) :
    Inv (turns.foldl step s) :=
  invariant Inv hstart (fun _ turn _ _ h => hstep _ turn h) turns [] (List.append_nil _).symm

/-! ### Steps that may be disabled -/

section

variable {step? : σ → τ → Option σ} {t : σ}

/-- A run in which every turn is enabled when it comes. -/
def attempt (step? : σ → τ → Option σ) (s : σ) (turns : List τ) : Option σ := turns.foldlM step? s

theorem attempt_append (before after : List τ) :
    attempt step? s (before ++ after) = (attempt step? s before).bind (attempt step? · after) := by
  rw [attempt, List.foldlM_append]
  rfl

theorem attempt_concat_eq_some {turn : τ} :
    attempt step? s (turns ++ [turn]) = some t ↔ ∃ before, attempt step? s turns = some before ∧
      step? before turn = some t := by
  rw [attempt_append, Option.bind_eq_some_iff]
  simp [attempt]

/-- What every enabled turn of a run keeps holds after each of its beginnings. -/
theorem attempt_invariant (Inv : σ → Prop) (hstart : Inv s)
    (hstep : ∀ before turn rest t t', turns = before ++ turn :: rest → attempt step? s before = some t →
      Inv t → step? t turn = some t' → Inv t') :
    ∀ before rest t, turns = before ++ rest → attempt step? s before = some t → Inv t := by
  intro before
  induction before using List.reverseRecOn with
  | nil =>
      intro rest t _ ht
      cases ht
      exact hstart
  | append_singleton before turn ih =>
      intro rest t hsplit ht
      have hsplit : turns = before ++ turn :: rest := by simpa using hsplit
      obtain ⟨u, hu, hturn⟩ := attempt_concat_eq_some.mp ht
      exact hstep before turn rest u t hsplit hu (ih _ u hsplit hu) hturn

/-- What every enabled turn keeps holds after a run. -/
theorem attempt_invariant_of_forall (Inv : σ → Prop) (hstart : Inv s)
    (hstep : ∀ s turn s', Inv s → step? s turn = some s' → Inv s') (h : attempt step? s turns = some t) :
    Inv t :=
  attempt_invariant Inv hstart (fun _ turn _ t t' _ _ ht hturn => hstep t turn t' ht hturn) turns [] t
    (List.append_nil _).symm h

/-- Every turn of a run is good where it comes. -/
def each (step? : σ → τ → Option σ) (good : σ → τ → Bool) : σ → List τ → Bool
  | _, [] => true
  | s, turn :: rest => good s turn && (step? s turn).all (each step? good · rest)

variable {good : σ → τ → Bool}

theorem each_of_append {before rest : List τ} (h : each step? good s (before ++ rest) = true)
    (hbefore : attempt step? s before = some t) : each step? good t rest = true := by
  induction before generalizing s with
  | nil =>
      cases hbefore
      exact h
  | cons first before ih =>
      rw [attempt, List.foldlM_cons] at hbefore
      obtain ⟨s', hs', hbefore⟩ := Option.bind_eq_some_iff.mp hbefore
      have hrest := (Bool.and_eq_true_iff.mp h).2
      rw [hs'] at hrest
      exact ih hrest hbefore

theorem good_of_each {before rest : List τ} {turn : τ} (h : each step? good s (before ++ turn :: rest) = true)
    (hbefore : attempt step? s before = some t) : good t turn = true :=
  (Bool.and_eq_true_iff.mp (each_of_append h hbefore)).1

/-- What every good turn keeps holds after each beginning of a run of good turns. -/
theorem attempt_invariant_of_each (Inv : σ → Prop) (hstart : Inv s)
    (hstep : ∀ s turn s', Inv s → good s turn = true → step? s turn = some s' → Inv s')
    (heach : each step? good s turns = true) :
    ∀ before rest t, turns = before ++ rest → attempt step? s before = some t → Inv t :=
  attempt_invariant Inv hstart fun _ turn _ t t' hsplit hbefore ht hturn =>
    hstep t turn t' ht (good_of_each (hsplit ▸ heach) hbefore) hturn

end

end TecoQuant.Run
