import TecoQuant.ApiConvergence
import TecoQuant.BaseRun

/-! The long poll. One request reads the revision, waits, and reads the revision again, each under its own
hold of the lock; writers act between any two of these steps, and between the requests of a client that
sends the returned revision next and reads the workspace again only when told of a change. -/

namespace TecoQuant.Api

/-! ### A request -/

/-- The answer to `GET /market/updates?after=`. -/
structure UpdateResponse where
  after : Nat
  revision : Nat
  changed : Bool
  resetRequired : Bool
  event : Option MarketReadModelEvent
  deriving DecidableEq

/-- How far a request has come. -/
inductive Phase where
  | idle
  | reading
  | waiting
  | waited (event : Option MarketReadModelEvent)
  | answered (response : UpdateResponse)

/-- The next step of the handler. The wait ends when the store is closed or past the revision, and may end
at any moment by its timeout. -/
def handle (after : Nat) (store : MarketReadModelStore) : Phase → Phase
  | .reading =>
      if store.revision < after then .answered ⟨after, store.revision, true, true, none⟩ else .waiting
  | .waiting => .waited (store.waitResult after)
  | .waited event => .answered ⟨after, store.revision, event.isSome, false, event⟩
  | phase => phase

/-! ### A client -/

/-- A client with the store it polls: the revision it sends, the store's revision at its last read of the
workspace, and whether another read is due. -/
structure Poll where
  store : MarketReadModelStore
  phase : Phase
  after : Nat
  shown : Nat
  due : Bool

inductive Turn where
  | write (call : Call)
  | close
  | handler
  | client

/-- The client takes an answer in, reads the workspace when that is due, or sends the next request. -/
def Poll.advance (p : Poll) : Poll :=
  match p.phase with
  | .answered response => { p with phase := .idle, after := response.revision, due := response.changed }
  | .idle => if p.due then { p with shown := p.store.revision, due := false } else { p with phase := .reading }
  | _ => p

def Poll.turn (tables : CharTables) (p : Poll) : Turn → Poll
  | .write call => { p with store := (perform tables p.store call).2 }
  | .close => { p with store := p.store.close }
  | .handler => { p with phase := handle p.after p.store p.phase }
  | .client => p.advance

def Poll.run (tables : CharTables) (p : Poll) (turns : List Turn) : Poll := turns.foldl (·.turn tables) p

/-- Before the first request. -/
def Poll.start (maximum after shown : Nat) : Poll := ⟨.new maximum, .idle, after, shown, false⟩

/-- An answer without a change does not pass the revision asked about; an event lies between that and the
answer's revision. -/
structure Consistent (response : UpdateResponse) : Prop where
  unchanged : response.changed = false → response.revision ≤ response.after
  event : ∀ event ∈ response.event, response.changed = true →
    response.after < event.revision ∧ event.revision ≤ response.revision

/-- No write that a store accepts is among these turns. -/
def NoWrite (tables : CharTables) (p : Poll) (turns : List Turn) : Prop :=
  ∀ before call rest, turns = before ++ .write call :: rest →
    (perform tables (p.run tables before).store call).1 ≠ .ok true

/-- From the end of a wait to the second reading: a store that was closed had not gone past the revision asked
about, and one that had not gone past it accepts no write. -/
structure Undisturbed (tables : CharTables) (p : Poll) (between : List Turn) : Prop where
  closed : p.store.closed = true → p.store.revision ≤ p.after
  quiet : p.store.revision ≤ p.after → NoWrite tables p (.handler :: between)

/-- No wait of a run is disturbed before its second reading. -/
def UndisturbedRun (tables : CharTables) (p : Poll) (turns : List Turn) : Prop :=
  ∀ before between rest, turns = before ++ .handler :: (between ++ .handler :: rest) →
    (p.run tables before).phase = .waiting → .handler ∉ between → Undisturbed tables (p.run tables before) between

/-! ### The invariant -/

/-- The latest event carries the revision. -/
def Announced (store : MarketReadModelStore) : Prop :=
  0 < store.revision → ∃ event, store.latestEvent = some event ∧ event.revision = store.revision

section

variable {tables : CharTables} {store : MarketReadModelStore}

theorem Announced.perform (h : Announced store) (call : Call) : Announced (perform tables store call).2 := by
  rcases perform_counted tables store call with ⟨-, hsame⟩ | ⟨-, hcounted⟩
  · rwa [hsame]
  · exact fun _ => hcounted.event

theorem perform_revision (call : Call) : store.revision ≤ (perform tables store call).2.revision := by
  rcases perform_counted tables store call with ⟨-, hsame⟩ | ⟨-, hcounted⟩
  · rw [hsame]
  · rw [hcounted.revision]
    exact Nat.le_succ _

/-- An event a wait returns is past the revision asked about, and the latest. -/
theorem waitResult_spec (h : Announced store) {after : Nat} {event : MarketReadModelEvent}
    (hevent : store.waitResult after = some event) : after < event.revision ∧ event.revision = store.revision := by
  unfold MarketReadModelStore.waitResult at hevent
  split at hevent
  · cases hevent
  · rename_i hpast
    obtain ⟨-, hpast⟩ := not_or.mp hpast
    obtain ⟨latest, hlatest, hrevision⟩ := h (Nat.zero_lt_of_lt (not_le.mp hpast))
    obtain rfl := Option.some.inj (hlatest.symm.trans hevent)
    exact ⟨hrevision ▸ not_le.mp hpast, hrevision⟩

/-- What holds of a poll at every moment. -/
structure Polling (p : Poll) : Prop where
  announced : Announced p.store
  waiting : p.phase = .waiting → p.after ≤ p.store.revision
  waited : ∀ event, p.phase = .waited (some event) →
    p.after < event.revision ∧ event.revision ≤ p.store.revision
  answered : ∀ response, p.phase = .answered response → response.after = p.after ∧
    response.revision ≤ p.store.revision
  flight : p.phase ≠ .idle → p.due = false

theorem Polling.start (maximum after shown : Nat) : Polling (.start maximum after shown) where
  announced hpos := absurd hpos (lt_irrefl 0)
  waiting h := by cases h
  waited _ h := by cases h
  answered _ h := by cases h
  flight h := absurd rfl h

variable {p : Poll}

/-- Writers only move the store on. -/
theorem Polling.write (h : Polling p) {store' : MarketReadModelStore} (hannounced : Announced store')
    (hrevision : p.store.revision ≤ store'.revision) : Polling { p with store := store' } where
  announced := hannounced
  waiting hphase := (h.waiting hphase).trans hrevision
  waited event hphase := ⟨(h.waited event hphase).1, (h.waited event hphase).2.trans hrevision⟩
  answered response hphase := ⟨(h.answered response hphase).1, (h.answered response hphase).2.trans hrevision⟩
  flight := h.flight

theorem Polling.handler (h : Polling p) : Polling { p with phase := handle p.after p.store p.phase } := by
  have hkeep (hsame : handle p.after p.store p.phase = p.phase) :
      Polling { p with phase := handle p.after p.store p.phase } := by
    rw [hsame]
    exact h
  cases hphase : p.phase with
  | idle => exact hphase ▸ hkeep (by rw [hphase]; rfl)
  | answered response => exact hphase ▸ hkeep (by rw [hphase]; rfl)
  | reading =>
      have hdue := h.flight (by simp [hphase])
      unfold handle
      dsimp only
      split
      · refine ⟨h.announced, (fun h => nomatch h), (fun _ h => nomatch h), fun response hresponse => ?_,
          fun _ => hdue⟩
        cases hresponse
        exact ⟨rfl, le_rfl⟩
      · rename_i hreached
        exact ⟨h.announced, fun _ => not_lt.mp hreached, (fun _ h => nomatch h), (fun _ h => nomatch h),
          fun _ => hdue⟩
  | waiting =>
      have hdue := h.flight (by simp [hphase])
      refine ⟨h.announced, (fun h => nomatch h), fun event hevent => ?_, (fun _ h => nomatch h), fun _ => hdue⟩
      obtain ⟨hpast, hlatest⟩ := waitResult_spec h.announced (Phase.waited.inj hevent)
      exact ⟨hpast, hlatest.le⟩
  | waited event =>
      have hdue := h.flight (by simp [hphase])
      refine ⟨h.announced, (fun h => nomatch h), (fun _ h => nomatch h), fun response hresponse => ?_,
        fun _ => hdue⟩
      cases hresponse
      exact ⟨rfl, le_rfl⟩

theorem Polling.client (h : Polling p) : Polling p.advance := by
  unfold Poll.advance
  split
  · exact ⟨h.announced, (fun h => nomatch h), (fun _ h => nomatch h), (fun _ h => nomatch h),
      fun h => absurd rfl h⟩
  · rename_i hphase
    split
    · exact ⟨h.announced, h.waiting, h.waited, h.answered, fun hne => absurd hphase hne⟩
    · rename_i hdue
      exact ⟨h.announced, (fun h => nomatch h), (fun _ h => nomatch h), (fun _ h => nomatch h),
        fun _ => by simpa using hdue⟩
  · exact h

theorem Polling.turn (h : Polling p) (turn : Turn) : Polling (p.turn tables turn) := by
  cases turn with
  | write call => exact h.write (h.announced.perform call) (perform_revision call)
  | close => exact h.write h.announced le_rfl
  | handler => exact h.handler
  | client => exact h.client

variable {turns : List Turn}

theorem Poll.run_polling (h : Polling p) : Polling (p.run tables turns) :=
  Run.invariant_of_forall Polling h fun _ turn h => h.turn turn

/-! ### Consistent answers -/

/-- The answers so far are consistent, and the client has read what it asks past. -/
structure Sound (p : Poll) : Prop where
  consistent : ∀ response, p.phase = .answered response → Consistent response
  shown : p.due = false → p.after ≤ p.shown
  due : p.due = true → p.after ≤ p.store.revision

/-- A handler that is not disturbed answers consistently. -/
theorem Polling.consistent (h : Polling p) (hconsistent : ∀ response, p.phase = .answered response →
    Consistent response) (hquiet : p.phase = .waited none → p.store.revision ≤ p.after)
    {response : UpdateResponse} (hresponse : handle p.after p.store p.phase = .answered response) :
    Consistent response := by
  cases hphase : p.phase with
  | idle => simp [handle, hphase] at hresponse
  | waiting => simp [handle, hphase] at hresponse
  | reading =>
      rw [hphase] at hresponse
      unfold handle at hresponse
      dsimp only at hresponse
      split at hresponse
      · cases hresponse
        exact ⟨by simp, by simp⟩
      · cases hresponse
  | answered response' =>
      rw [hphase] at hresponse
      exact hconsistent response (hphase.trans hresponse)
  | waited event =>
      rw [hphase] at hresponse
      cases hresponse
      cases event with
      | none => exact ⟨fun _ => hquiet hphase, by simp⟩
      | some event =>
          refine ⟨by simp, fun other hother _ => ?_⟩
          obtain rfl := Option.some.inj hother
          exact h.waited event hphase

theorem Polling.answers (hp : Polling p) (hconsistent : ∀ response, p.phase = .answered response →
    Consistent response) {turn : Turn}
    (hquiet : turn = .handler → p.phase = .waited none → p.store.revision ≤ p.after) :
    ∀ response, (p.turn tables turn).phase = .answered response → Consistent response := by
  intro response hresponse
  cases turn with
  | write call => exact hconsistent response hresponse
  | close => exact hconsistent response hresponse
  | handler => exact hp.consistent hconsistent (hquiet rfl) hresponse
  | client =>
      cases hphase : p.phase with
      | idle => cases hdue : p.due <;> simp [Poll.turn, Poll.advance, hphase, hdue] at hresponse
      | answered other => simp [Poll.turn, Poll.advance, hphase] at hresponse
      | _ => simp [Poll.turn, Poll.advance, hphase] at hresponse

theorem Sound.turn (h : Sound p) (hp : Polling p) {turn : Turn}
    (hquiet : turn = .handler → p.phase = .waited none → p.store.revision ≤ p.after) :
    Sound (p.turn tables turn) := by
  refine ⟨hp.answers h.consistent hquiet, ?_, ?_⟩
  all_goals
    cases turn with
    | handler => first | exact h.shown | exact h.due
    | close => first | exact h.shown | exact h.due
    | write call => first | exact h.shown | exact fun hdue => (h.due hdue).trans (perform_revision call)
    | client => ?_
  · show p.advance.due = false → p.advance.after ≤ p.advance.shown
    cases hphase : p.phase with
    | idle =>
        cases hdue : p.due with
        | true => simpa [Poll.advance, hphase, hdue] using h.due hdue
        | false => simpa [Poll.advance, hphase, hdue] using h.shown hdue
    | answered response =>
        intro hsame
        have hshown := h.shown (hp.flight (by simp [hphase]))
        simp only [Poll.advance, hphase] at hsame ⊢
        exact ((h.consistent response hphase).unchanged hsame).trans ((hp.answered response hphase).1 ▸ hshown)
    | _ => simpa [Poll.advance, hphase] using h.shown
  · show p.advance.due = true → p.advance.after ≤ p.advance.store.revision
    cases hphase : p.phase with
    | idle => cases hdue : p.due <;> simp [Poll.advance, hphase, hdue]
    | answered response => simpa [Poll.advance, hphase] using fun _ => (hp.answered response hphase).2
    | _ => simpa [Poll.advance, hphase] using h.due

end

/-! ### Between the wait and the second reading -/

section

variable {tables : CharTables} {p : Poll}

theorem Poll.run_append (before after : List Turn) :
    p.run tables (before ++ after) = (p.run tables before).run tables after := List.foldl_append

/-- A poll whose wait has ended keeps its phase and its revision until its handler goes on. -/
theorem Poll.run_waited {event : Option MarketReadModelEvent} (hphase : p.phase = .waited event)
    {turns : List Turn} (hturns : .handler ∉ turns) :
    (p.run tables turns).phase = .waited event ∧ (p.run tables turns).after = p.after := by
  induction turns generalizing p with
  | nil => exact ⟨hphase, rfl⟩
  | cons turn turns ih =>
      obtain ⟨hfirst, hturns⟩ := not_or.mp (List.mem_cons.not.mp hturns)
      have hturn : (p.turn tables turn).phase = .waited event ∧ (p.turn tables turn).after = p.after := by
        cases turn with
        | write => exact ⟨hphase, rfl⟩
        | close => exact ⟨hphase, rfl⟩
        | handler => exact absurd rfl hfirst
        | client => simp [Poll.turn, Poll.advance, hphase]
      obtain ⟨hphase', hafter⟩ := ih hturn.1 hturns
      exact ⟨hphase', hafter.trans hturn.2⟩

theorem Poll.run_wait {event : Option MarketReadModelEvent} (hphase : p.phase = .waiting)
    (hresult : p.store.waitResult p.after = event) {turns : List Turn} (hturns : .handler ∉ turns) :
    (p.run tables (.handler :: turns)).phase = .waited event ∧ (p.run tables (.handler :: turns)).after = p.after := by
  have hwaited : (p.turn tables .handler).phase = .waited event := by
    show handle p.after p.store p.phase = _
    rw [hphase, ← hresult]
    rfl
  exact Poll.run_waited hwaited hturns

theorem Poll.turn_revision (tables : CharTables) (p : Poll) (turn : Turn) :
    p.store.revision ≤ (p.turn tables turn).store.revision := by
  cases turn with
  | write call => exact perform_revision call
  | close => exact le_rfl
  | handler => exact le_rfl
  | client =>
      show _ ≤ p.advance.store.revision
      unfold Poll.advance
      split
      · exact le_rfl
      · split <;> exact le_rfl
      · exact le_rfl

theorem Poll.run_revision (tables : CharTables) (p : Poll) (turns : List Turn) :
    p.store.revision ≤ (p.run tables turns).store.revision := by
  induction turns generalizing p with
  | nil => exact le_rfl
  | cons turn turns ih => exact (p.turn_revision tables turn).trans (ih _)

/-- The revision stays as it is exactly when no write is accepted. -/
theorem Poll.run_revision_iff (p : Poll) (turns : List Turn) :
    (p.run tables turns).store.revision = p.store.revision ↔ NoWrite tables p turns := by
  constructor
  · rintro hsame before call rest rfl htaken
    have hbefore := p.run_revision tables before
    have hrest := ((p.run tables before).turn tables (.write call)).run_revision tables rest
    have hrun : p.run tables (before ++ .write call :: rest) =
        ((p.run tables before).turn tables (.write call)).run tables rest := Poll.run_append before _
    rw [hrun] at hsame
    rcases perform_counted tables (p.run tables before).store call with ⟨hrefused, -⟩ | ⟨-, hcounted⟩
    · exact hrefused htaken
    · have hwritten : ((p.run tables before).turn tables (.write call)).store.revision =
          (p.run tables before).store.revision + 1 := hcounted.revision
      omega
  · intro hquiet
    induction turns generalizing p with
    | nil => rfl
    | cons turn turns ih =>
        have hturn : (p.turn tables turn).store.revision = p.store.revision := by
          cases turn with
          | write call =>
              rcases perform_counted tables p.store call with ⟨-, hsame⟩ | ⟨htaken, -⟩
              · exact congrArg MarketReadModelStore.revision hsame
              · exact absurd htaken (hquiet [] call turns rfl)
          | close => rfl
          | handler => rfl
          | client =>
              show p.advance.store.revision = _
              unfold Poll.advance
              split
              · rfl
              · split <;> rfl
              · rfl
        exact (ih (p.turn tables turn) fun before call rest hsplit => hquiet (turn :: before) call rest (by
          rw [hsplit, List.cons_append])).trans hturn

/-- A wait that has ended ended at some step of the handler, and the handler has not gone on since. -/
theorem Poll.run_ended {maximum after shown : Nat} {turns : List Turn} {event : Option MarketReadModelEvent}
    (hphase : ((Poll.start maximum after shown).run tables turns).phase = .waited event) :
    ∃ before between, turns = before ++ .handler :: between ∧ .handler ∉ between ∧
      ((Poll.start maximum after shown).run tables before).phase = .waiting ∧
        ((Poll.start maximum after shown).run tables before).store.waitResult
          ((Poll.start maximum after shown).run tables before).after = event := by
  induction turns using List.reverseRecOn with
  | nil => cases hphase
  | append_singleton turns turn ih =>
      rw [Poll.run_append] at hphase
      generalize hpoll : (Poll.start maximum after shown).run tables turns = q at hphase ih
      have hkept (hsame : q.phase = .waited event) (hturn : turn ≠ .handler) : ∃ before between,
          turns ++ [turn] = before ++ .handler :: between ∧ .handler ∉ between ∧
            ((Poll.start maximum after shown).run tables before).phase = .waiting ∧
              ((Poll.start maximum after shown).run tables before).store.waitResult
                ((Poll.start maximum after shown).run tables before).after = event := by
        obtain ⟨before, between, rfl, hbetween, hwaiting⟩ := ih hsame
        refine ⟨before, between ++ [turn], by simp, ?_, hwaiting⟩
        simp [hbetween, hturn.symm]
      cases turn with
      | write call => exact hkept hphase (by simp)
      | close => exact hkept hphase (by simp)
      | client =>
          refine hkept ?_ (by simp)
          have hadvanced : q.advance.phase = .waited event := hphase
          unfold Poll.advance at hadvanced
          split at hadvanced
          · cases hadvanced
          · rename_i hidle
            split at hadvanced
            · cases hidle.symm.trans hadvanced
            · cases hadvanced
          · exact hadvanced
      | handler =>
          have hhandled : handle q.after q.store q.phase = .waited event := hphase
          refine ⟨turns, [], by simp, by simp, ?_⟩
          rw [hpoll]
          cases hwas : q.phase with
          | waiting =>
              rw [hwas] at hhandled
              exact ⟨rfl, Phase.waited.inj hhandled⟩
          | reading =>
              rw [hwas] at hhandled
              unfold handle at hhandled
              dsimp only at hhandled
              split at hhandled <;> cases hhandled
          | idle => rw [hwas] at hhandled; cases hhandled
          | waited => rw [hwas] at hhandled; cases hhandled
          | answered => rw [hwas] at hhandled; cases hhandled

/-- A wait ends without an event when the store is closed or not past the revision asked about. -/
theorem waitResult_eq_none {store : MarketReadModelStore} (h : Announced store) {after : Nat} :
    store.waitResult after = none ↔ store.closed = true ∨ store.revision ≤ after := by
  unfold MarketReadModelStore.waitResult
  split
  · rename_i hended
    exact ⟨fun _ => hended, fun _ => rfl⟩
  · rename_i hpast
    obtain ⟨-, hafter⟩ := not_or.mp hpast
    obtain ⟨event, hevent, -⟩ := h (Nat.zero_lt_of_lt (not_le.mp hafter))
    exact ⟨fun hnone => absurd (hnone.symm.trans hevent) (by simp), fun hended => absurd hended hpast⟩

/-- What the second reading finds after a wait without an event. -/
theorem Polling.second_reading (hp : Polling p) (hphase : p.phase = .waiting)
    (hended : p.store.closed = true ∨ p.store.revision ≤ p.after) (between : List Turn) :
    (p.run tables (.handler :: between)).store.revision ≤ p.after ↔ Undisturbed tables p between := by
  have hgrows := p.run_revision tables (.handler :: between)
  have hreached := hp.waiting hphase
  constructor
  · intro hle
    refine ⟨fun _ => hgrows.trans hle, fun hnotPast => ?_⟩
    exact (p.run_revision_iff _).mp (by omega)
  · intro hquiet
    have hnotPast : p.store.revision ≤ p.after := by
      rcases hended with hclosed | hnotPast
      · exact hquiet.closed hclosed
      · exact hnotPast
    exact ((p.run_revision_iff _).mpr (hquiet.quiet hnotPast)).trans_le hnotPast

end

/-- The answers of a run are consistent exactly when none of its waits is disturbed before the second reading of
the revision. Then the client never asks past what it has read. -/
theorem longPoll_consistent_iff (tables : CharTables) (maximum after shown : Nat) (turns : List Turn) :
    ((∀ before rest response, turns = before ++ rest →
        ((Poll.start maximum after shown).run tables before).phase = .answered response →
          Consistent response) ↔ UndisturbedRun tables (.start maximum after shown) turns) ∧
    (after ≤ shown → UndisturbedRun tables (.start maximum after shown) turns →
      ∀ before rest, turns = before ++ rest →
        ((Poll.start maximum after shown).run tables before).due = false →
          ((Poll.start maximum after shown).run tables before).after ≤
            ((Poll.start maximum after shown).run tables before).shown) := by
  have hpolling (before : List Turn) : Polling ((Poll.start maximum after shown).run tables before) :=
    Poll.run_polling (.start maximum after shown)
  have hquiet (hrun : UndisturbedRun tables (.start maximum after shown) turns) (before rest : List Turn)
      (hsplit : turns = before ++ .handler :: rest)
      (hphase : ((Poll.start maximum after shown).run tables before).phase = .waited none) :
      ((Poll.start maximum after shown).run tables before).store.revision ≤
        ((Poll.start maximum after shown).run tables before).after := by
    obtain ⟨start, between, rfl, hbetween, hwaiting, hresult⟩ := Poll.run_ended hphase
    have hundisturbed := hrun start between rest (by simp [hsplit]) hwaiting hbetween
    have hended := (waitResult_eq_none (hpolling start).announced).mp hresult
    have hle := ((hpolling start).second_reading hwaiting hended between).mpr hundisturbed
    rw [Poll.run_append, (Poll.run_wait hwaiting hresult hbetween).2]
    exact hle
  refine ⟨⟨fun hconsistent before between rest hsplit hwaiting hbetween => ?_,
    fun hrun before rest response hsplit => ?_⟩, fun hle hrun before rest hsplit => ?_⟩
  · rcases hresult : ((Poll.start maximum after shown).run tables before).store.waitResult
        ((Poll.start maximum after shown).run tables before).after with _ | event
    · -- The answer to the second reading says that nothing changed.
      have hended := (waitResult_eq_none (hpolling before).announced).mp hresult
      refine ((hpolling before).second_reading hwaiting hended between).mp ?_
      obtain ⟨hphase, hafter⟩ := Poll.run_wait hwaiting hresult hbetween
      have hanswered : ((Poll.start maximum after shown).run tables
          ((before ++ .handler :: between) ++ [.handler])).phase =
            .answered ⟨((Poll.start maximum after shown).run tables before).after,
              (((Poll.start maximum after shown).run tables before).run tables (.handler :: between)).store.revision,
              false, false, none⟩ := by
        rw [Poll.run_append, Poll.run_append]
        show handle _ _ (Poll.run tables _ (.handler :: between)).phase = _
        rw [hphase, hafter]
        rfl
      exact (hconsistent _ rest _ (by simp [hsplit]) hanswered).unchanged rfl
    · -- With an event the store was open and past the revision asked about.
      have hgone := mt (waitResult_eq_none (hpolling before).announced).mpr (by rw [hresult]; simp)
      obtain ⟨hopen, hpast⟩ := not_or.mp hgone
      exact ⟨fun hclosed => absurd hclosed hopen, fun hle => absurd hle hpast⟩
  · refine Run.invariant (fun p : Poll => ∀ response, p.phase = .answered response → Consistent response)
      ?_ (fun before turn rest hsplit h => ?_) before rest hsplit response
    · simp [Poll.start]
    · exact (hpolling before).answers h fun hturn => hquiet hrun before rest (hturn ▸ hsplit)
  · have hsound : Sound ((Poll.start maximum after shown).run tables before) := by
      refine Run.invariant Sound ⟨?_, fun _ => hle, ?_⟩ (fun before turn rest hsplit h => ?_) before rest hsplit
      · simp [Poll.start]
      · simp [Poll.start]
      · exact h.turn (hpolling before) fun hturn => hquiet hrun before rest (hturn ▸ hsplit)
    exact hsound.shown

/-- A call that comes after the wait has timed out and before the second reading. -/
def disturbedTurns (call : Call) : List Turn := [.client, .handler, .handler, .write call, .handler]

/-- When the call publishes, the answer says that nothing changed and passes its revision. -/
theorem run_disturbed (tables : CharTables) (maximum shown : Nat) {call : Call} {p : PublishedSnapshot}
    (h : p ∈ offer tables call) (hdated : p.Dated) :
    ((Poll.start maximum 0 shown).run tables (disturbedTurns call)).phase = .answered ⟨0, 1, false, false, none⟩ := by
  have hrevision := perform_first tables maximum h hdated
  have hwaited : handle 0 (.new maximum) (handle 0 (.new maximum) .reading) = .waited none := rfl
  have hanswered : handle 0 (perform tables (.new maximum) call).2 (.waited none) =
      .answered ⟨0, 1, false, false, none⟩ := by
    rw [handle, hrevision]
    rfl
  rw [← hanswered, ← hwaited]
  rfl

theorem longPoll_disturbed :
    ((Poll.start 500 0 0).run asciiTables (disturbedTurns sampleCall)).phase = .answered ⟨0, 1, false, false, none⟩ ∧
      ¬Consistent ⟨0, 1, false, false, none⟩ :=
  ⟨run_disturbed asciiTables 500 0 offer_sample samplePublication_dated, fun h => absurd (h.unchanged rfl) (by decide)⟩

end TecoQuant.Api
