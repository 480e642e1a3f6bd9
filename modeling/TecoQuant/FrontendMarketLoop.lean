import TecoQuant.ApiUpdates

/-! The browser's market loop against a backend that may restart. Each cycle reads the status, the catalog
and the selected workspace and then polls for updates past the greatest revision it was ever told; a restart
gives the backend a new store, whose revision counts up from 0 again. -/

namespace TecoQuant.Frontend

open Api

/-! ### The loop -/

/-- Where a cycle stands; a poll in the phase `idle` is still to be sent. -/
inductive Stage where
  | status
  | catalog
  | workspace
  | updates (phase : Phase)

/-- A workspace in the browser's state: which backend it was read from, at which revision of its store. -/
structure Shown where
  generation : Nat
  revision : Nat
  workspace : PublishedSnapshot

/-- The loop of one selection and the backend that runs. -/
structure MarketLoop where
  store : MarketReadModelStore
  generation : Nat
  stage : Stage
  revision : Nat
  shown : Option Shown

/-- The publications of a market and symbol that the catalog lists: those not yet expired. -/
def listed (store : MarketReadModelStore) (selection : SelectionKey) (now : Datetime) : List PublishedSnapshot :=
  (store.latest.map Prod.snd).filter fun item => now.instant < item.snapshot.contract.optionExpiry.instant ∧
    item.key.marketId = selection.marketId ∧ item.key.symbol = selection.symbol

/-- The catalog has the market and the symbol, and no longer the expiry. -/
def Rolled (store : MarketReadModelStore) (selection : SelectionKey) (now : Datetime) : Prop :=
  listed store selection now ≠ [] ∧
    selection.expiry ∉ (listed store selection now).map fun item => item.key.expiry

instance (store : MarketReadModelStore) (selection : SelectionKey) (now : Datetime) :
    Decidable (Rolled store selection now) :=
  inferInstanceAs (Decidable (_ ∧ _))

/-- The catalog compares every expiry with an aware clock, and the ordering keys of what is not yet expired. -/
def Comparable (store : MarketReadModelStore) (now : Datetime) : Prop :=
  ∀ item ∈ store.latest, item.2.snapshot.contract.optionExpiry.Aware ∧
    (now.instant < item.2.snapshot.contract.optionExpiry.instant → item.2.Dated)

instance (store : MarketReadModelStore) (now : Datetime) : Decidable (Comparable store now) :=
  inferInstanceAs (Decidable (∀ item ∈ store.latest, _ ∧ (_ → _)))

/-- The selected workspace; a workspace of another selection is an invalid response. -/
def loadWorkspace (store : MarketReadModelStore) (selection : SelectionKey) : Option PublishedSnapshot :=
  (store.resolve selection.marketId selection.symbol (some selection.expiry)).toOption.join.filter (·.key = selection)

inductive Turn where
  | write (call : Call)
  | close
  | restart (maximum : Nat)
  | handler
  | client (configRequired : Bool) (now : Datetime)
  | fail

namespace MarketLoop

variable (selection : SelectionKey)

/-- The next request of the loop, from the store's answer to what the loop makes of it. -/
def advance (configRequired : Bool) (now : Datetime) (l : MarketLoop) : MarketLoop :=
  match l.stage with
  | .status => { l with
      revision := max l.revision l.store.revision
      stage := if configRequired then .status else .catalog }
  | .catalog => { l with
      stage := if Comparable l.store now ∧ ¬Rolled l.store selection now then .workspace else .status }
  | .workspace =>
      match loadWorkspace l.store selection with
      | none => { l with stage := .status }
      | some workspace => { l with
          stage := .updates .idle
          shown := some ⟨l.generation, l.store.revision, workspace⟩ }
  | .updates .idle => { l with stage := .updates .reading }
  | .updates (.answered response) => { l with
      stage := .status
      revision := max l.revision response.revision }
  | .updates _ => l

/-- The handler of the poll in flight takes its next step. -/
def serve (l : MarketLoop) : MarketLoop :=
  match l.stage with
  | .updates phase => { l with stage := .updates (handle l.revision l.store phase) }
  | _ => l

/-- A restart loses the poll the old backend holds; one still on its way reaches the new backend. -/
def restart (maximum : Nat) (l : MarketLoop) : MarketLoop :=
  { l with
    store := .new maximum
    generation := l.generation + 1
    stage := match l.stage with
      | .updates .waiting => .status
      | .updates (.waited _) => .status
      | stage => stage }

/-- Any request may fail at any time; the loop starts its cycle again with the revision it has. -/
def turn (tables : CharTables) (l : MarketLoop) : Turn → MarketLoop
  | .write call => { l with store := (perform tables l.store call).2 }
  | .close => { l with store := l.store.close }
  | .restart maximum => l.restart maximum
  | .handler => l.serve
  | .client configRequired now => l.advance selection configRequired now
  | .fail => { l with stage := .status }

def run (tables : CharTables) (l : MarketLoop) (turns : List Turn) : MarketLoop :=
  turns.foldl (turn selection tables) l

/-- A new loop and a new backend. -/
def start (maximum : Nat) : MarketLoop := ⟨.new maximum, 0, .status, 0, none⟩

/-! ### What the loop waits for -/

/-- The workspace shown was read from the running backend at the revision polled for, or a later one. -/
def Covers (l : MarketLoop) : Prop :=
  ∃ shown ∈ l.shown, shown.generation = l.generation ∧ l.revision ≤ shown.revision

/-- The poll is held by the backend until the next publication or the timeout. -/
def Blocked (l : MarketLoop) : Prop :=
  l.stage = .updates .waiting ∧ l.store.closed = false ∧ l.store.revision ≤ l.revision

/-- The workspace shown is the one the running backend has. -/
def Current (l : MarketLoop) : Prop :=
  ∃ shown ∈ l.shown, shown.generation = l.generation ∧ shown.revision = l.store.revision ∧
    loadWorkspace l.store selection = some shown.workspace

/-- The workspace is read, and its poll has not reached the backend. -/
def Window (l : MarketLoop) : Prop := l.stage = .updates .idle ∨ l.stage = .updates .reading

/-- A restart or a publication between the reading of the workspace and the arrival of its poll does not
leave the backend at the very revision that is polled for. -/
def Clear (tables : CharTables) (l : MarketLoop) (t : Turn) : Prop :=
  l.Window → (l.turn selection tables t).store.revision = l.revision →
    (l.turn selection tables t).generation = l.generation ∧
      (l.turn selection tables t).store.revision = l.store.revision

/-! ### The invariant -/

/-- A writer leaves the workspaces and the revision as they are, or counts. -/
def Moves (store store' : MarketReadModelStore) : Prop :=
  store'.latest = store.latest ∧ store'.revision = store.revision ∨ store'.revision = store.revision + 1

theorem moves_perform (tables : CharTables) (store : MarketReadModelStore) (call : Call) :
    Moves store (perform tables store call).2 := by
  rcases perform_counted tables store call with ⟨-, hsame⟩ | ⟨-, hcounted⟩
  · exact .inl (by rw [hsame]; exact ⟨rfl, rfl⟩)
  · exact .inr hcounted.revision

theorem moves_close (store : MarketReadModelStore) : Moves store store.close := .inl ⟨rfl, rfl⟩

theorem Moves.revision_le {store store' : MarketReadModelStore} (h : Moves store store') :
    store.revision ≤ store'.revision := by
  rcases h with ⟨-, h⟩ | h <;> omega

/-- What holds of the loop at every moment, restarts or not. -/
structure Told (l : MarketLoop) : Prop where
  announced : Announced l.store
  generation : ∀ shown ∈ l.shown, shown.generation ≤ l.generation
  revision : ∀ shown ∈ l.shown, shown.generation = l.generation → shown.revision ≤ l.store.revision
  workspace : ∀ shown ∈ l.shown, shown.generation = l.generation → shown.revision = l.store.revision →
    loadWorkspace l.store selection = some shown.workspace
  waiting : l.stage = .updates .waiting → l.revision ≤ l.store.revision

section

variable {selection} {tables : CharTables} {l : MarketLoop}

theorem announced_new (maximum : Nat) : Announced (.new maximum) := fun h => absurd h (lt_irrefl 0)

theorem Told.start (maximum : Nat) : Told selection (.start maximum) where
  announced := announced_new maximum
  generation _ h := nomatch h
  revision _ h := nomatch h
  workspace _ h := nomatch h
  waiting h := nomatch h

theorem Told.moves (h : Told selection l) {store' : MarketReadModelStore} (hmoves : Moves l.store store')
    (hannounced : Announced store') : Told selection { l with store := store' } where
  announced := hannounced
  generation := h.generation
  revision shown hshown hsame := (h.revision shown hshown hsame).trans hmoves.revision_le
  workspace shown hshown hsame hrevision := by
    have hle := h.revision shown hshown hsame
    rcases hmoves with ⟨hlatest, hkept⟩ | hcounted
    · rw [← h.workspace shown hshown hsame (hrevision.trans hkept)]
      simp only [loadWorkspace, MarketReadModelStore.resolve, MarketReadModelStore.candidates, hlatest]
    · exact absurd (hrevision.trans hcounted) (by omega)
  waiting hstage := (h.waiting hstage).trans hmoves.revision_le

/-- A stage other than the wait keeps what was told. -/
theorem Told.stage (h : Told selection l) {stage : Stage} (hstage : stage ≠ .updates .waiting) (revision : Nat) :
    Told selection { l with stage := stage, revision := revision } where
  announced := h.announced
  generation := h.generation
  revision := h.revision
  workspace := h.workspace
  waiting hwaiting := absurd hwaiting hstage

theorem Told.advance (h : Told selection l) (configRequired : Bool) (now : Datetime) :
    Told selection (l.advance selection configRequired now) := by
  unfold MarketLoop.advance
  split
  · exact h.stage (by split <;> simp) _
  · exact h.stage (by split <;> simp) _
  · split
    · exact h.stage (by simp) _
    · rename_i workspace hworkspace
      refine ⟨h.announced, ?_, ?_, ?_, fun h => nomatch h⟩
      all_goals
        rintro shown hshown
        obtain rfl := Option.some.inj hshown
      · exact le_rfl
      · exact fun _ => le_rfl
      · exact fun _ _ => hworkspace
  · exact h.stage (by simp) _
  · exact h.stage (by simp) _
  · exact h

theorem handle_waiting {after : Nat} {store : MarketReadModelStore} {phase : Phase}
    (h : handle after store phase = .waiting) : phase = .reading ∧ after ≤ store.revision := by
  cases phase with
  | reading =>
      unfold handle at h
      dsimp only at h
      split at h
      · cases h
      · exact ⟨rfl, by omega⟩
  | _ => cases h

/-- A handler's step leaves no poll unsent that was sent, and none unread. -/
theorem handle_window {after : Nat} {store : MarketReadModelStore} {phase : Phase}
    (h : handle after store phase = .idle ∨ handle after store phase = .reading) : phase = .idle := by
  cases phase with
  | idle => rfl
  | reading =>
      unfold handle at h
      dsimp only at h
      split at h
      · rcases h with h | h <;> cases h
      · rcases h with h | h <;> cases h
  | _ => rcases h with h | h <;> cases h

theorem Told.serve (h : Told selection l) : Told selection l.serve := by
  unfold MarketLoop.serve
  split
  · refine ⟨h.announced, h.generation, h.revision, h.workspace, fun hwaiting => ?_⟩
    exact (handle_waiting (Stage.updates.inj hwaiting)).2
  · exact h

theorem Told.restart (h : Told selection l) (maximum : Nat) : Told selection (l.restart maximum) where
  announced := announced_new maximum
  generation shown hshown := (h.generation shown hshown).trans (Nat.le_succ _)
  revision shown hshown hsame := by
    have := h.generation shown hshown
    simp only [MarketLoop.restart] at hsame
    omega
  workspace shown hshown hsame := by
    have := h.generation shown hshown
    simp only [MarketLoop.restart] at hsame
    omega
  waiting hstage := by
    simp only [MarketLoop.restart] at hstage
    split at hstage
    · cases hstage
    · cases hstage
    · rename_i hne _
      exact absurd hstage hne

theorem Told.turn (h : Told selection l) (t : Turn) : Told selection (l.turn selection tables t) := by
  cases t with
  | write call => exact h.moves (moves_perform tables l.store call) (h.announced.perform call)
  | close => exact h.moves (moves_close l.store) h.announced
  | restart maximum => exact h.restart maximum
  | handler => exact h.serve
  | client configRequired now => exact h.advance configRequired now
  | fail => exact h.stage (by simp) _

theorem Told.run (h : Told selection l) (turns : List Turn) : Told selection (l.run selection tables turns) :=
  Run.invariant_of_forall (Told selection) h fun _ t h => h.turn t

/-! ### Runs without a blind wait -/

variable (selection) in
/-- A poll read or held at the store's own revision polls past a workspace that is current. -/
structure Faithful (l : MarketLoop) : Prop where
  window : l.Window → l.store.revision = l.revision → l.Current selection
  blocked : l.Blocked → l.Current selection

theorem Faithful.start (maximum : Nat) : Faithful selection (.start maximum) where
  window h := by rcases h with h | h <;> cases h
  blocked h := nomatch h.1

/-- Nothing is claimed of the stages before the poll and after the wait. -/
theorem Faithful.stage {l : MarketLoop} (hwindow : ¬l.Window) (hwaiting : l.stage ≠ .updates .waiting) :
    Faithful selection l where
  window h := absurd h hwindow
  blocked h := absurd h.1 hwaiting

theorem Current.moves (h : l.Current selection) {store' : MarketReadModelStore} (hmoves : Moves l.store store')
    (hrevision : store'.revision = l.store.revision) : Current selection { l with store := store' } := by
  obtain ⟨shown, hshown, hsame, hread, hworkspace⟩ := h
  refine ⟨shown, hshown, hsame, hread.trans hrevision.symm, ?_⟩
  rcases hmoves with ⟨hlatest, -⟩ | hcounted
  · rw [← hworkspace]
    simp only [loadWorkspace, MarketReadModelStore.resolve, MarketReadModelStore.candidates, hlatest]
  · omega

theorem Faithful.moves (h : Faithful selection l) (htold : Told selection l)
    {store' : MarketReadModelStore} (hmoves : Moves l.store store') (hclosed : l.store.closed = true → store'.closed = true)
    (hclear : l.Window → store'.revision = l.revision → store'.revision = l.store.revision) :
    Faithful selection { l with store := store' } where
  window hwindow hrevision := by
    have hsame := hclear hwindow hrevision
    exact (h.window hwindow (hsame.symm.trans hrevision)).moves hmoves hsame
  blocked := by
    rintro ⟨hstage, hopen, hle⟩
    have hwaiting := htold.waiting hstage
    have hle : store'.revision ≤ l.revision := hle
    have hsame : store'.revision = l.store.revision := le_antisymm (hle.trans hwaiting) hmoves.revision_le
    have hopen : l.store.closed = false := by
      by_contra hclosed'
      rw [hclosed (by simpa using hclosed')] at hopen
      cases hopen
    exact (h.blocked ⟨hstage, hopen, hsame ▸ hle⟩).moves hmoves hsame

theorem closed_perform (call : Call) {store : MarketReadModelStore} (h : store.closed = true) :
    (perform tables store call).2.closed = true := by
  rcases perform_counted tables store call with ⟨-, hsame⟩ | ⟨-, hcounted⟩
  · rwa [hsame]
  · exact hcounted.closed.trans h

theorem Faithful.advance (h : Faithful selection l) (htold : Told selection l) (configRequired : Bool)
    (now : Datetime) : Faithful selection (l.advance selection configRequired now) := by
  have htold' := htold.advance configRequired now
  unfold MarketLoop.advance at htold' ⊢
  split at htold'
  · exact .stage (by rintro (h | h) <;> dsimp only at h <;> split at h <;> cases h)
      (by dsimp only; split <;> simp)
  · exact .stage (by rintro (h | h) <;> dsimp only at h <;> split at h <;> cases h)
      (by dsimp only; split <;> simp)
  · split at htold'
    · exact .stage (by rintro (h | h) <;> cases h) (by simp)
    · rename_i workspace hworkspace
      exact ⟨fun _ _ => ⟨_, rfl, rfl, rfl, hworkspace⟩, fun h => nomatch h.1⟩
  · rename_i hstage
    exact ⟨fun _ => h.window (.inl hstage), fun h => nomatch h.1⟩
  · exact .stage (by rintro (h | h) <;> cases h) (by simp)
  · exact h

theorem Faithful.serve (h : Faithful selection l) : Faithful selection l.serve := by
  unfold MarketLoop.serve
  split
  · rename_i phase hstage
    constructor
    · intro hwindow hrevision
      obtain rfl := handle_window (hwindow.imp Stage.updates.inj Stage.updates.inj)
      exact h.window (.inl hstage) hrevision
    · rintro ⟨hwaiting, hopen, hle⟩
      obtain ⟨rfl, hwaits⟩ := handle_waiting (Stage.updates.inj hwaiting)
      exact h.window (.inr hstage) (le_antisymm hle hwaits)
  · exact h

theorem Faithful.restart (maximum : Nat)
    (hclear : l.Window → l.revision ≠ 0) : Faithful selection (l.restart maximum) where
  window hwindow hrevision := by
    have hbefore : l.Window := by
      rcases hwindow with hstage | hstage
      all_goals
        simp only [MarketLoop.restart] at hstage
        split at hstage
        · cases hstage
        · cases hstage
      · exact .inl hstage
      · exact .inr hstage
    exact absurd hrevision.symm (hclear hbefore)
  blocked := by
    rintro ⟨hstage, -, -⟩
    simp only [MarketLoop.restart] at hstage
    split at hstage
    · cases hstage
    · cases hstage
    · rename_i hne _
      exact absurd hstage hne

theorem Faithful.turn (h : Faithful selection l) (htold : Told selection l) (t : Turn)
    (hclear : l.Clear selection tables t) : Faithful selection (l.turn selection tables t) := by
  cases t with
  | write call =>
      exact h.moves htold (moves_perform tables l.store call) (closed_perform call)
        fun hwindow hrevision => (hclear hwindow hrevision).2
  | close => exact h.moves htold (moves_close l.store) (fun _ => rfl) fun _ _ => rfl
  | restart maximum =>
      refine .restart maximum fun hwindow hzero => ?_
      have := (hclear hwindow hzero.symm).1
      simp [MarketLoop.turn, MarketLoop.restart] at this
  | handler => exact h.serve
  | client configRequired now => exact h.advance htold configRequired now
  | fail => exact .stage (by rintro (h | h) <;> cases h) (by simp [MarketLoop.turn])

/-! ### Runs without a restart -/

/-- The loop asks for no revision its backend has not reached. -/
structure Behind (l : MarketLoop) : Prop where
  revision : l.revision ≤ l.store.revision
  answered : ∀ response, l.stage = .updates (.answered response) → response.revision ≤ l.store.revision

theorem Behind.moves (h : l.Behind) {store' : MarketReadModelStore} (hmoves : Moves l.store store') :
    Behind { l with store := store' } where
  revision := h.revision.trans hmoves.revision_le
  answered response hstage := (h.answered response hstage).trans hmoves.revision_le

theorem handle_answered {after : Nat} {store : MarketReadModelStore} {phase : Phase} {response : UpdateResponse}
    (h : handle after store phase = .answered response) :
    phase = .answered response ∨ response.revision = store.revision := by
  cases phase with
  | reading =>
      unfold handle at h
      dsimp only at h
      split at h
      · cases h
        exact .inr rfl
      · cases h
  | waited event =>
      cases h
      exact .inr rfl
  | answered => exact .inl h
  | _ => cases h

theorem Behind.serve (h : l.Behind) : l.serve.Behind := by
  unfold MarketLoop.serve
  split
  · rename_i phase hstage
    refine ⟨h.revision, fun response hanswered => ?_⟩
    rcases handle_answered (Stage.updates.inj hanswered) with rfl | hrevision
    · exact h.answered response hstage
    · exact hrevision.le
  · exact h

theorem Behind.advance (h : l.Behind) (configRequired : Bool) (now : Datetime) :
    (l.advance selection configRequired now).Behind := by
  unfold MarketLoop.advance
  split
  · exact ⟨max_le h.revision le_rfl, by dsimp only; split <;> simp⟩
  · exact ⟨h.revision, by dsimp only; split <;> simp⟩
  · split
    · exact ⟨h.revision, fun _ h => nomatch h⟩
    · exact ⟨h.revision, fun _ h => nomatch h⟩
  · exact ⟨h.revision, fun _ h => nomatch h⟩
  · rename_i response hstage
    exact ⟨max_le h.revision (h.answered response hstage), fun _ h => nomatch h⟩
  · exact h

theorem Behind.turn (h : l.Behind) {t : Turn} (hstays : ∀ maximum, t ≠ .restart maximum) :
    (l.turn selection tables t).Behind := by
  cases t with
  | write call => exact h.moves (moves_perform tables l.store call)
  | close => exact h.moves (moves_close l.store)
  | restart maximum => exact absurd rfl (hstays maximum)
  | handler => exact h.serve
  | client configRequired now => exact h.advance configRequired now
  | fail => exact ⟨h.revision, fun _ h => nomatch h⟩

theorem Behind.clear (h : l.Behind) {t : Turn} (hstays : ∀ maximum, t ≠ .restart maximum) :
    l.Clear selection tables t := by
  intro hwindow hrevision
  cases t with
  | write call =>
      refine ⟨rfl, ?_⟩
      rcases moves_perform tables l.store call with ⟨-, hkept⟩ | hcounted
      · exact hkept
      · have hrevision : (perform tables l.store call).2.revision = l.revision := hrevision
        have := h.revision
        omega
  | close => exact ⟨rfl, rfl⟩
  | restart maximum => exact absurd rfl (hstays maximum)
  | handler =>
      simp only [MarketLoop.turn, MarketLoop.serve]
      split <;> exact ⟨rfl, rfl⟩
  | client configRequired now =>
      rcases hwindow with hstage | hstage <;> simp [MarketLoop.turn, MarketLoop.advance, hstage]
  | fail => exact ⟨rfl, rfl⟩

/-! ### The wait and what follows it -/

/-- A publication ends the wait of a blocked poll. -/
theorem Told.woken (htold : Told selection l) (h : l.Blocked) {call : Call}
    (htaken : l.store.revision < (perform tables l.store call).2.revision) :
    ∃ event, (perform tables l.store call).2.waitResult l.revision = some event := by
  obtain ⟨hstage, hopen, hle⟩ := h
  rcases perform_counted tables l.store call with ⟨-, hsame⟩ | ⟨-, hcounted⟩
  · exact absurd htaken (by rw [hsame]; exact lt_irrefl _)
  · obtain ⟨event, hevent, -⟩ := hcounted.event
    have hwaiting := htold.waiting hstage
    have hopen' := hcounted.closed.trans hopen
    refine ⟨event, ?_⟩
    rw [MarketReadModelStore.waitResult, if_neg, hevent]
    rintro (hclosed | hpast)
    · exact absurd (hopen'.symm.trans hclosed) (by decide)
    · omega

end

/-- Every restart or publication of a run is clear of the polls under way. -/
def Steady (tables : CharTables) (l : MarketLoop) (turns : List Turn) : Prop :=
  ∀ before t rest, turns = before ++ t :: rest → (l.run selection tables before).Clear selection tables t

end MarketLoop

section

variable {store : MarketReadModelStore} {p : PublishedSnapshot}

end

end TecoQuant.Frontend
