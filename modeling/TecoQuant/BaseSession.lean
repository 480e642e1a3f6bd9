import TecoQuant.BaseExcept

/-! Sessions on a store. A statement reads and writes the store of an open connection and may be refused
from outside; a transaction keeps what its statements wrote only if all of them and its commit succeed. -/

namespace Transactional

/-- A computation on a store that may raise. What it has written stays. -/
def Session (σ ε α : Type) : Type := σ → Except ε α × σ

/-- A store with the number of statements executed since the transaction began. -/
structure Connection (σ : Type) where
  store : σ
  executed : Nat

namespace Session

variable {σ ε α β : Type}

instance : Monad (Session σ ε) where
  pure value := fun s => (.ok value, s)
  bind x next := fun s =>
    match x s with
    | (.ok value, s') => next value s'
    | (.error error, s') => (.error error, s')

def raise (error : ε) : Session σ ε α := fun s => (.error error, s)

/-- A pure computation that may fail. -/
def ofExcept (result : Except ε α) : Session σ ε α := fun s => (result, s)

/-- A statement on an open connection. `refused` says which statements fail on their own. -/
def statement (refused : Nat → Option ε) (effect : σ → Except ε (α × σ)) : Session (Connection σ) ε α := fun c =>
  match refused c.executed with
  | some error => (.error error, { c with executed := c.executed + 1 })
  | none =>
      match effect c.store with
      | .ok (value, store) => (.ok value, ⟨store, c.executed + 1⟩)
      | .error error => (.error error, { c with executed := c.executed + 1 })

/-- A statement that only reads. -/
def query (refused : Nat → Option ε) (read : σ → α) : Session (Connection σ) ε α :=
  statement refused fun store => .ok (read store, store)

/-- `BEGIN`, the body, `COMMIT`; a failure rolls back. -/
def transaction (refused : Nat → Option ε) (body : Session (Connection σ) ε α) : Session σ ε α := fun s =>
  match refused 0 with
  | some error => (.error error, s)
  | none =>
      match body ⟨s, 1⟩ with
      | (.error error, _) => (.error error, s)
      | (.ok value, c) =>
          match refused c.executed with
          | some error => (.error error, s)
          | none => (.ok value, c.store)

/-- From `s` the computation returns `value` and leaves `s'`. -/
def Returns (x : Session σ ε α) (s : σ) (value : α) (s' : σ) : Prop := x s = (.ok value, s')

/-! ### What has returned -/

section Rules

variable {s s' : σ} {c c' : Connection σ} {value : α} {refused : Nat → Option ε}

@[simp] theorem returns_pure {a : α} : (pure a : Session σ ε α).Returns s value s' ↔ a = value ∧ s = s' := by
  show ((Except.ok a, s) : Except ε α × σ) = (.ok value, s') ↔ _
  rw [Prod.mk.injEq, Except.ok.injEq]

theorem returns_bind {x : Session σ ε α} {next : α → Session σ ε β} {b : β} :
    (x >>= next).Returns s b s' ↔ ∃ a t, x.Returns s a t ∧ (next a).Returns t b s' := by
  show (match x s with
    | (.ok value, t) => next value t
    | (.error error, t) => (.error error, t)) = (.ok b, s') ↔ _
  unfold Returns
  rcases hx : x s with ⟨result, t⟩
  cases result with
  | error error => simp
  | ok a =>
      constructor
      · intro h
        exact ⟨a, t, rfl, h⟩
      · rintro ⟨a', t', heq, h⟩
        obtain ⟨ha, ht⟩ := Prod.mk.inj heq
        cases ha
        cases ht
        exact h

@[simp] theorem not_returns_raise {error : ε} : ¬(raise error : Session σ ε α).Returns s value s' := by
  intro h
  cases (Prod.mk.inj h).1

@[simp] theorem returns_ofExcept {result : Except ε α} :
    (ofExcept result : Session σ ε α).Returns s value s' ↔ result = .ok value ∧ s = s' := by
  show (result, s) = (Except.ok value, s') ↔ _
  rw [Prod.mk.injEq]

/-- A check that has passed. -/
theorem returns_check {condition : Prop} [Decidable condition] {error : ε} {x : Session σ ε α} :
    (if condition then raise error else x).Returns s value s' ↔ ¬condition ∧ x.Returns s value s' := by
  by_cases h : condition <;> simp [h]

/-- A statement that returned was not refused and had its effect. -/
theorem returns_statement {effect : σ → Except ε (α × σ)}
    (h : (statement refused effect).Returns c value c') : effect c.store = .ok (value, c'.store) := by
  unfold Returns statement at h
  cases hrefused : refused c.executed with
  | some error => simp [hrefused] at h
  | none =>
      rw [hrefused] at h
      cases heffect : effect c.store with
      | error error => simp [heffect] at h
      | ok result =>
          rw [heffect] at h
          obtain ⟨hvalue, hc⟩ := Prod.mk.inj h
          cases hvalue
          rw [← hc]

theorem returns_query {read : σ → α} (h : (query refused read).Returns c value c') :
    read c.store = value ∧ c'.store = c.store := by
  have heffect := Except.ok.inj (returns_statement h)
  exact ⟨congrArg Prod.fst heffect, (congrArg Prod.snd heffect).symm⟩

/-- A transaction that returned has committed what its body left. -/
theorem returns_transaction {body : Session (Connection σ) ε α}
    (h : (transaction refused body).Returns s value s') :
    ∃ c', body.Returns ⟨s, 1⟩ value c' ∧ c'.store = s' := by
  unfold Returns transaction at h
  cases hbegin : refused 0 with
  | some error => simp [hbegin] at h
  | none =>
      rw [hbegin] at h
      rcases hbody : body ⟨s, 1⟩ with ⟨result, c'⟩
      rw [hbody] at h
      cases result with
      | error error => simp at h
      | ok a =>
          cases hcommit : refused c'.executed with
          | some error => simp [hcommit] at h
          | none =>
              simp only [hcommit, Prod.mk.injEq, Except.ok.injEq] at h
              obtain ⟨rfl, rfl⟩ := h
              exact ⟨c', hbody, rfl⟩

theorem bind_returns {x : Session σ ε α} {next : α → Session σ ε β} {a : α} {t : σ} {b : β} (hx : x.Returns s a t)
    (hnext : (next a).Returns t b s') : (x >>= next).Returns s b s' :=
  returns_bind.mpr ⟨a, t, hx, hnext⟩

theorem ofExcept_returns {result : Except ε α} {a : α} (h : result = .ok a) :
    (ofExcept result : Session σ ε α).Returns s a s :=
  returns_ofExcept.mpr ⟨h, rfl⟩

/-- A query that is not refused returns what it reads. -/
theorem query_returns {n : Nat} (hrefused : refused n = none) (read : σ → α) :
    (query refused read).Returns ⟨s, n⟩ (read s) ⟨s, n + 1⟩ := by
  unfold Returns query statement
  rw [hrefused]

/-- A transaction of which nothing is refused commits what its body leaves. -/
theorem transaction_returns (hrefused : ∀ n, refused n = none) {body : Session (Connection σ) ε α}
    (h : body.Returns ⟨s, 1⟩ value c) : (transaction refused body).Returns s value c.store := by
  unfold Returns at h
  unfold Returns transaction
  rw [hrefused 0, h]
  simp only [hrefused]

/-! ### Loops -/

/-- A loop whose every round only reads. -/
theorem returns_forM_reads {f : α → Session (Connection σ) ε PUnit} (Checked : α → σ → Prop)
    (hround : ∀ a c u c', (f a).Returns c u c' → c'.store = c.store ∧ Checked a c.store) {l : List α} {u : PUnit}
    (h : (l.forM f).Returns c u c') : c'.store = c.store ∧ ∀ a ∈ l, Checked a c.store := by
  induction l generalizing c with
  | nil =>
      obtain ⟨-, hc⟩ := returns_pure.mp h
      rw [hc]
      exact ⟨rfl, nofun⟩
  | cons a l ih =>
      obtain ⟨u', d, hfirst, hrest⟩ := returns_bind.mp h
      obtain ⟨hd, hchecked⟩ := hround a c u' d hfirst
      obtain ⟨hkeep, hall⟩ := ih hrest
      rw [hd] at hkeep hall
      exact ⟨hkeep, List.forall_mem_cons.mpr ⟨hchecked, hall⟩⟩

/-- A loop whose every round appends a row to the same table. -/
theorem returns_forM_appends {f : α → Session (Connection σ) ε PUnit} (row : α → Except ε β)
    (add : σ → List β → σ) (hnil : ∀ s, add s [] = s)
    (happend : ∀ s first rest, add (add s first) rest = add s (first ++ rest))
    (hround : ∀ a c u c', (f a).Returns c u c' → ∃ b, row a = .ok b ∧ c'.store = add c.store [b])
    {l : List α} {u : PUnit} (h : (l.forM f).Returns c u c') :
    ∃ rows, l.mapM row = .ok rows ∧ c'.store = add c.store rows := by
  induction l generalizing c with
  | nil =>
      obtain ⟨-, hc⟩ := returns_pure.mp h
      rw [hc]
      exact ⟨[], rfl, (hnil _).symm⟩
  | cons a l ih =>
      obtain ⟨u', d, hfirst, hrest⟩ := returns_bind.mp h
      obtain ⟨b, hb, hd⟩ := hround a c u' d hfirst
      obtain ⟨rows, hrows, hstore⟩ := ih hrest
      refine ⟨b :: rows, ?_, ?_⟩
      · rw [List.mapM_cons, hb, hrows]
        rfl
      · rw [hstore, hd, happend]
        rfl

end Rules

/-! ### Reading -/

/-- On returning, the computation has left the store alone. -/
def Reads (x : Session (Connection σ) ε α) : Prop := ∀ c value c', x.Returns c value c' → c'.store = c.store

theorem reads_pure (a : α) : (pure a : Session (Connection σ) ε α).Reads := by
  intro c value c' h
  rw [(returns_pure.mp h).2]

theorem reads_ofExcept (result : Except ε α) : (ofExcept result : Session (Connection σ) ε α).Reads := by
  intro c value c' h
  rw [(returns_ofExcept.mp h).2]

theorem reads_query (refused : Nat → Option ε) (read : σ → α) : (query refused read).Reads :=
  fun _ _ _ h => (returns_query h).2

theorem reads_bind {x : Session (Connection σ) ε α} {next : α → Session (Connection σ) ε β} (hx : x.Reads)
    (hnext : ∀ a, (next a).Reads) : (x >>= next).Reads := by
  intro c b c' h
  obtain ⟨a, c₁, hfirst, hrest⟩ := returns_bind.mp h
  exact (hnext a c₁ b c' hrest).trans (hx c a c₁ hfirst)

/-! ### Keeping a property -/

/-- On returning, the computation has kept a property of the store. -/
def Keeps (P : σ → Prop) (x : Session (Connection σ) ε α) : Prop :=
  ∀ c value c', x.Returns c value c' → P c.store → P c'.store

theorem keeps_of_reads {P : σ → Prop} {x : Session (Connection σ) ε α} (h : x.Reads) : Keeps P x := by
  intro c value c' hx hkept
  rw [h c value c' hx]
  exact hkept

theorem keeps_bind {P : σ → Prop} {x : Session (Connection σ) ε α} {next : α → Session (Connection σ) ε β}
    (hx : Keeps P x) (hnext : ∀ a, Keeps P (next a)) : Keeps P (x >>= next) := by
  intro c b c' h hkept
  obtain ⟨a, c₁, hfirst, hrest⟩ := returns_bind.mp h
  exact hnext a c₁ b c' hrest (hx c a c₁ hfirst hkept)

theorem keeps_forM {P : σ → Prop} {f : α → Session (Connection σ) ε PUnit} (h : ∀ a, Keeps P (f a)) (l : List α) :
    Keeps P (l.forM f) := by
  induction l with
  | nil => exact keeps_of_reads (reads_pure _)
  | cons a l ih => exact keeps_bind (h a) fun _ => ih

/-! ### What has raised -/

/-- The computation keeps the store whenever it raises. -/
def RollsBack (x : Session σ ε α) : Prop := ∀ s error s', x s = (.error error, s') → s' = s

/-- A transaction that raises has rolled back, wherever it failed. -/
theorem rollsBack_transaction (refused : Nat → Option ε) (body : Session (Connection σ) ε α) :
    (transaction refused body).RollsBack := by
  intro s error s' h
  unfold transaction at h
  cases hbegin : refused 0 with
  | some _ => rw [hbegin] at h; exact (Prod.mk.inj h).2.symm
  | none =>
      rw [hbegin] at h
      rcases hbody : body ⟨s, 1⟩ with ⟨result, c'⟩
      rw [hbody] at h
      cases result with
      | error _ => exact (Prod.mk.inj h).2.symm
      | ok a =>
          cases hcommit : refused c'.executed with
          | some _ => simp only [hcommit] at h; exact (Prod.mk.inj h).2.symm
          | none => simp [hcommit] at h

/-- A computation that reads its inputs and then runs one that rolls back. -/
theorem rollsBack_bind_ofExcept (result : Except ε α) {next : α → Session σ ε β}
    (h : ∀ a, (next a).RollsBack) : (ofExcept result >>= next).RollsBack := by
  intro s error s' hraise
  cases result with
  | error raised => exact (Prod.mk.inj hraise).2.symm
  | ok a => exact h a s error s' hraise

/-- A result computed from what a transaction returned. -/
theorem rollsBack_bind_pure {x : Session σ ε α} (h : x.RollsBack) (f : α → β) :
    (x >>= fun a => pure (f a)).RollsBack := by
  intro s error s' hraise
  change (match x s with
    | (.ok value, t) => (Except.ok (f value), t)
    | (.error error, t) => (.error error, t)) = _ at hraise
  rcases hx : x s with ⟨result, t⟩
  rw [hx] at hraise
  cases result with
  | ok a => simp at hraise
  | error raised =>
      obtain ⟨-, ht⟩ := Prod.mk.inj hraise
      exact ht.symm.trans (h s raised t hx)

end Session
end Transactional
