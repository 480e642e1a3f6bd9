import Mathlib.Data.List.Chain
import TecoQuant.PersistenceCalls

/-! The audit chain. Every call that writes closes its transaction with one event, and every event can be
recomputed from its own row and is linked to the one before. -/

namespace TecoQuant.Domain.Serialization

mutual

/-- Only floats change on their way to canonical JSON. -/
theorem jsonable_plain : ∀ {v : Json}, v.Plain → jsonable v = v
  | .null, _ | .bool _, _ | .int _, _ | .string _, _ => rfl
  | .float _, h => h.elim
  | .array _, h => congrArg Json.array (jsonableItems_plain h)
  | .object _, h => congrArg Json.object (jsonableFields_plain h.2)

theorem jsonableItems_plain : ∀ {items : List Json}, Json.PlainItems items → jsonableItems items = items
  | [], _ => rfl
  | _ :: _, h => congrArg₂ List.cons (jsonable_plain h.1) (jsonableItems_plain h.2)

theorem jsonableFields_plain :
    ∀ {fields : List (String × Json)}, Json.PlainFields fields → jsonableFields fields = fields
  | [], _ => rfl
  | (key, _) :: _, h =>
      congrArg₂ List.cons (congrArg (Prod.mk key) (jsonable_plain h.1)) (jsonableFields_plain h.2)

end

end TecoQuant.Domain.Serialization

namespace TecoQuant.Persistence

open Domain Ingestion Strategy Transactional Session

/-! ### Closing events -/

section Calls

variable {env : Environment} {db db' : Database}

/-- A stored identifier refuses the attempt of a snapshot. -/
theorem attempt_new {snapshot : AtomicSnapshot} {report : ValidationReport} {status : SnapshotStatus}
    {attempt : IngestionAttemptRow}
    (hrow : ∃ stamps recordedAt, attemptRow snapshot report status stamps recordedAt = .ok attempt)
    (hadmits : db.AdmitsIngestionAttempt attempt) : ¬(Call.saveIngestion snapshot report).Repeats db := by
  obtain ⟨stamps, recordedAt, hrow⟩ := hrow
  obtain ⟨sequence, -, hrow⟩ := Except.bind_eq_ok.mp hrow
  cases hrow
  intro ⟨row, hmem, hid⟩
  exact (hadmits row hmem).1 hid

/-- A call that returns has changed nothing, or has closed its changes with its event. -/
theorem Writes.closes {call : Call} (h : Writes env db call db') :
    (db' = db ∧ call.Repeats db) ∨ ¬call.Repeats db ∧ ∃ (written : Database) (occurred : Timestamp),
      written.auditEvents = db.auditEvents ∧
      db' = written.close occurred (call.event env).1 (call.event env).2.1 (call.event env).2.2.1
        (call.event env).2.2.2 := by
  cases h with
  | repeats call hstored => exact .inl ⟨rfl, hstored⟩
  | published config publishedAt row occurred hnew =>
      exact .inr ⟨hnew, db.addStrategyConfig row, occurred, rfl, rfl⟩
  | recorded provenance records batch rows occurred hnew =>
      exact .inr ⟨hnew, db.addMaster [batch] rows, occurred, rfl, rfl⟩
  | overridden baseSnapshotId manual row occurred => exact .inr ⟨id, db.addOverride row, occurred, rfl, rfl⟩
  | saved snapshot report status db' outcome effect =>
      have hevent : (Call.saveIngestion snapshot report).event env = ("SNAPSHOT_INGESTED", "snapshot",
          snapshot.snapshotId, .object [("contract_key", .string snapshot.contract.contractKey),
            ("snapshot_hash", .string (contentHash snapshot)), ("status", .string status.value)]) := by
        rw [outcome]
        rfl
      right
      rw [hevent]
      cases effect with
      | rejected attempt issues occurred row admits =>
          exact ⟨attempt_new row admits, db.addAttempt attempt issues, occurred, rfl, rfl⟩
      | accepted source revisions mappings attempt issues market technicals legs occurred stamped advances row admits =>
          refine ⟨attempt_new row admits, (((db.addContracts revisions mappings).addAttempt attempt
            issues).addComponents (acceptedRow snapshot source) market technicals
              (contextRow snapshot.snapshotId snapshot.context) legs).setHead (headRow snapshot source),
            occurred, ?_, ?_⟩
          · rfl
          · rfl

end Calls

/-! ### The chain -/

/-- The hash of an event, recomputed from its own row. -/
def AuditEventRow.recomputedHash (row : AuditEventRow) : Option String :=
  (Json.loads row.payloadJson).map fun payload =>
    Persistence.eventHash row.occurredAt row.eventType row.aggregateType row.aggregateId payload row.previousHash

/-- Events in the order of their identifiers, each linked to the one before and recomputable. -/
structure AuditChain (events : List AuditEventRow) : Prop where
  ordered : events.Pairwise fun earlier later => earlier.eventId < later.eventId
  first : ∀ event ∈ events.head?, event.previousHash = none
  linked : events.IsChain fun earlier later => later.previousHash = some earlier.eventHash
  recomputable : ∀ event ∈ events, event.recomputedHash = some event.eventHash

section Chain

variable {db : Database}

/-- The greatest element of an increasing list is its last one. -/
theorem argmax_eq_getLast? {α β : Type} [LinearOrder β] {key : α → β} {l : List α}
    (h : l.Pairwise fun earlier later => key earlier < key later) : l.argmax key = l.getLast? := by
  induction l using List.reverseRecOn with
  | nil => rfl
  | append_singleton l a ih =>
      obtain ⟨hl, -, hlast⟩ := List.pairwise_append.mp h
      rw [List.argmax_concat, ih hl, List.getLast?_concat]
      cases hprevious : l.getLast? with
      | none => rfl
      | some c =>
          have hless := hlast c (List.mem_of_getLast? hprevious) a List.mem_cons_self
          exact if_pos hless

theorem le_foldl_max {l : List Nat} {n start : Nat} (h : n ∈ l ∨ n ≤ start) : n ≤ l.foldl max start := by
  induction l generalizing start with
  | nil => exact h.resolve_left List.not_mem_nil
  | cons m l ih =>
      rw [List.foldl_cons]
      rcases h with hmem | hstart
      · rcases List.mem_cons.mp hmem with rfl | hmem
        · exact ih (.inr (le_max_right _ _))
        · exact ih (.inl hmem)
      · exact ih (.inr (hstart.trans (le_max_left _ _)))

theorem lt_nextEventId {event : AuditEventRow} (h : event ∈ db.auditEvents) : event.eventId < db.nextEventId :=
  Nat.lt_succ_of_le (le_foldl_max (.inl (List.mem_map_of_mem h)))

/-- The order of the keys in a payload does not show in the hash of its event. -/
theorem eventHash_sortKeys {payload : Json} (h : payload.Plain) (occurredAt : Timestamp)
    (eventType aggregateType aggregateId : String) (previousHash : Option String) :
    eventHash occurredAt eventType aggregateType aggregateId payload.sortKeys previousHash =
      eventHash occurredAt eventType aggregateType aggregateId payload previousHash := by
  unfold eventHash contentHash Serialization.contentHash Serialization.canonicalJson
  refine congrArg sha256 ?_
  have hsorted := Serialization.jsonable_plain (Json.plain_sortKeys h)
  have hplain := Serialization.jsonable_plain h
  simp only [toJson, id_eq, Serialization.jsonable, Serialization.jsonableFields, hsorted, hplain, Json.dumps,
    Json.sortKeys, Json.sortFields, Json.sortKeys_sortKeys]

/-- A new event can be recomputed from its row. -/
theorem closingEvent_recomputable (db : Database) (occurredAt : Timestamp)
    (eventType aggregateType aggregateId : String) {payload : Json} (h : payload.Plain) :
    (db.closingEvent occurredAt eventType aggregateType aggregateId payload).recomputedHash =
      some (db.closingEvent occurredAt eventType aggregateType aggregateId payload).eventHash := by
  have htext : canonicalJson payload = payload.dumps false := by
    show (Serialization.jsonable payload).dumps false = _
    rw [Serialization.jsonable_plain h]
  unfold AuditEventRow.recomputedHash Database.closingEvent
  dsimp only
  rw [htext, Json.loads_dumps h, Option.map_some, eventHash_sortKeys h]

/-- One more event extends the chain. -/
theorem AuditChain.close (h : AuditChain db.auditEvents) (occurredAt : Timestamp)
    (eventType aggregateType aggregateId : String) {payload : Json} (hpayload : payload.Plain) :
    AuditChain (db.close occurredAt eventType aggregateType aggregateId payload).auditEvents := by
  obtain ⟨hordered, hfirst, hlinked, hrecomputable⟩ := h
  have hlatest : db.latestEvent = db.auditEvents.getLast? := argmax_eq_getLast? hordered
  refine {
    ordered := List.pairwise_append.mpr ⟨hordered, List.pairwise_singleton _ _, fun event hevent later hlater => ?_⟩
    first := fun event hevent => ?_
    linked := List.isChain_append.mpr ⟨hlinked, List.isChain_singleton _, fun last hlast later hlater => ?_⟩
    recomputable := fun event hevent => ?_ }
  · rw [List.mem_singleton.mp hlater]
    exact lt_nextEventId hevent
  · -- The first event of a non-empty chain stays; the first of all has nothing before it.
    change event ∈ (db.auditEvents ++ [_]).head? at hevent
    rw [List.head?_append] at hevent
    cases hhead : db.auditEvents.head? with
    | some old =>
        rw [hhead] at hevent
        exact hfirst event (by rw [hhead]; exact hevent)
    | none =>
        rw [hhead] at hevent
        cases hevent
        have hnil := List.head?_eq_none_iff.mp hhead
        show db.latestEvent.map _ = none
        rw [hlatest, hnil]
        rfl
  · cases hlater
    show db.latestEvent.map AuditEventRow.eventHash = some last.eventHash
    rw [hlatest, Option.mem_def.mp hlast]
    rfl
  · rcases List.mem_append.mp hevent with hold | hnew
    · exact hrecomputable event hold
    · rw [List.mem_singleton.mp hnew]
      exact closingEvent_recomputable db occurredAt eventType aggregateType aggregateId hpayload

/-- The payloads of the events have distinct keys and no floats. -/
theorem plain_event (env : Environment) (call : Call) : (call.event env).2.2.2.Plain := by
  cases call <;> exact ⟨by simp, by simp [Json.PlainFields, Json.Plain]⟩

/-- A call leaves the chain, or extends it by its event. -/
theorem session_auditChain (env : Environment) (call : Call) (h : AuditChain db.auditEvents) :
    AuditChain (call.session env db).2.auditEvents := by
  rcases hrun : call.session env db with ⟨result, db'⟩
  cases result with
  | error fault =>
      rw [rollsBack_session env call db fault db' hrun]
      exact h
  | ok value =>
      rcases (session_writes hrun).closes with ⟨hsame, -⟩ | ⟨-, written, occurred, hevents, hclosed⟩
      · rw [hsame]
        exact h
      · rw [hclosed]
        rw [← hevents] at h
        exact h.close occurred _ _ _ (plain_event env call)

/-- Every reachable database has an audit chain. -/
theorem runs_auditChain (calls : List (Environment × Call)) (h : AuditChain db.auditEvents) :
    AuditChain (runs calls db).auditEvents := by
  induction calls generalizing db with
  | nil => exact h
  | cons call calls ih => exact ih (session_auditChain call.1 call.2 h)

end Chain

/-- An event speaks for a call. -/
def AuditEventRow.Describes (event : AuditEventRow) (env : Environment) (call : Call) : Prop :=
  (event.eventType, event.aggregateType, event.aggregateId) =
      ((call.event env).1, (call.event env).2.1, (call.event env).2.2.1) ∧
    event.payloadJson = canonicalJson (call.event env).2.2.2

/-- In every reachable state the events form one chain; a call that raises or repeats changes nothing, and
every other one appends exactly its event. -/
theorem audit_chain (calls : List (Environment × Call)) :
    AuditChain (runs calls .empty).auditEvents ∧ ∀ (env : Environment) (call : Call),
      let before := runs calls .empty
      let outcome := call.session env before
      (∀ fault, outcome.1 = .error fault → outcome.2 = before) ∧
        (call.Repeats before → outcome.2 = before) ∧
        (outcome.2 ≠ before → outcome.1 = .ok () ∧ ∃ event : AuditEventRow,
          outcome.2.auditEvents = before.auditEvents ++ [event] ∧ event.Describes env call) := by
  refine ⟨runs_auditChain calls ⟨List.Pairwise.nil, nofun, List.IsChain.nil, nofun⟩, fun env call => ?_⟩
  intro before outcome
  rcases hrun : outcome with ⟨result, after⟩
  cases result with
  | error fault =>
      have hsame := rollsBack_session env call before fault after hrun
      exact ⟨fun _ _ => hsame, fun _ => hsame, fun hchange => absurd hsame hchange⟩
  | ok value =>
      rcases (session_writes hrun).closes with ⟨hsame, -⟩ | ⟨hnew, written, occurred, hevents, hclosed⟩
      · exact ⟨nofun, fun _ => hsame, fun hchange => absurd hsame hchange⟩
      · refine ⟨nofun, fun hrepeat => absurd hrepeat hnew, fun _ => ⟨rfl, written.closingEvent occurred
          (call.event env).1 (call.event env).2.1 (call.event env).2.2.1 (call.event env).2.2.2, ?_, rfl, rfl⟩⟩
        show after.auditEvents = before.auditEvents ++ [_]
        rw [hclosed, ← hevents]
        rfl

end TecoQuant.Persistence
