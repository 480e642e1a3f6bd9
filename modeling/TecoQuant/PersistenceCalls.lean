import TecoQuant.PersistenceIngestion

/-! What each call writes when it returns: the rows its statements appended, and the event that closes its
transaction. -/

namespace TecoQuant.Persistence

open Domain Ingestion Strategy Transactional Session

section Statements

variable {env : Environment} {c c' : Connection Database} {u : Unit}

@[simp] theorem returns_rejectIf {condition : Prop} [Decidable condition] {fault : Fault} :
    (rejectIf condition fault).Returns c u c' ↔ ¬condition ∧ c = c' := by
  unfold rejectIf
  rw [returns_check, returns_pure]
  exact ⟨fun h => ⟨h.1, h.2.2⟩, fun h => ⟨h.1, rfl, h.2⟩⟩

theorem rejectIf_returns {condition : Prop} [Decidable condition] {fault : Fault} (h : ¬condition) :
    (rejectIf condition fault).Returns c () c :=
  returns_rejectIf.mpr ⟨h, rfl⟩

/-- A SELECT leaves the tables alone. -/
theorem returns_select {α : Type} {read : Database → α} {value : α}
    (h : (select env read).Returns c value c') : value = read c.store ∧ c'.store = c.store :=
  ⟨(returns_query h).1.symm, (returns_query h).2⟩

/-! ### The closing event -/

/-- The event `_append_audit` stores after those of a database. -/
def Database.closingEvent (db : Database) (occurredAt : Timestamp) (eventType aggregateType aggregateId : String)
    (payload : Json) : AuditEventRow where
  eventId := db.nextEventId
  occurredAt := occurredAt
  eventType := eventType
  aggregateType := aggregateType
  aggregateId := aggregateId
  payloadJson := canonicalJson payload
  previousHash := db.latestEvent.map AuditEventRow.eventHash
  eventHash := eventHash occurredAt eventType aggregateType aggregateId payload
    (db.latestEvent.map AuditEventRow.eventHash)

/-- The tables with the closing event. -/
def Database.close (db : Database) (occurredAt : Timestamp) (eventType aggregateType aggregateId : String)
    (payload : Json) : Database :=
  { db with auditEvents := db.auditEvents ++
      [db.closingEvent occurredAt eventType aggregateType aggregateId payload] }

theorem appendAudit_returns {eventType aggregateType aggregateId : String} {payload : Json} {occurredAt : Datetime}
    (h : (appendAudit env eventType aggregateType aggregateId payload occurredAt).Returns c u c') :
    ∃ occurred, timestamp occurredAt "audit.occurred_at" = .ok occurred ∧
      c.store.AdmitsAuditEvent (c.store.closingEvent occurred eventType aggregateType aggregateId payload) ∧
      c'.store = c.store.close occurred eventType aggregateType aggregateId payload := by
  obtain ⟨occurred, c₁, hoccurred, h⟩ := returns_bind.mp h
  obtain ⟨hstamp, hc₁⟩ := returns_ofExcept.mp hoccurred
  obtain ⟨previous, c₂, hprevious, h⟩ := returns_bind.mp h
  obtain ⟨hlatest, hc₂⟩ := returns_select hprevious
  obtain ⟨hadmits, hstore⟩ := returns_insert h
  subst hc₁ hlatest
  rw [hc₂] at hadmits hstore
  exact ⟨occurred, hstamp, hadmits, hstore⟩

/-! ### Strategy configurations and the instrument master -/

/-- The tables with a further configuration. -/
def Database.addStrategyConfig (db : Database) (row : StrategyConfigRow) : Database :=
  { db with strategyConfigs := db.strategyConfigs ++ [row] }

theorem insertStrategyConfig_returns {config : StrategyConfig} {occurredAt : Datetime} {published : Timestamp}
    (h : (insertStrategyConfig env config occurredAt published).Returns c u c') :
    ∃ occurred, c'.store = (c.store.addStrategyConfig ⟨config.version, contentHash config, canonicalJson config,
      published⟩).close occurred "STRATEGY_CONFIG_PUBLISHED" "strategy_config" config.version
        (.object [("config_hash", .string (contentHash config))]) := by
  obtain ⟨_, c₁, hrow, haudit⟩ := returns_bind.mp h
  obtain ⟨-, hc₁⟩ := returns_insert hrow
  obtain ⟨occurred, -, -, hc'⟩ := appendAudit_returns haudit
  refine ⟨occurred, ?_⟩
  rw [hc', hc₁]
  rfl

/-- A publication agrees with the stored version, or adds it and its event. -/
theorem publishTransaction_cases {config : StrategyConfig} {occurredAt : Datetime} {published : Timestamp}
    {hash : String} (h : (publishTransaction env config occurredAt published).Returns c hash c') :
    hash = contentHash config ∧
      ((c'.store = c.store ∧ ∃ row, (c.store.strategyConfigs.find? fun row => row.version == config.version) = some row ∧
          row.configHash = contentHash config ∧ row.configJson = canonicalJson config) ∨
        (c.store.strategyConfigs.find? fun row => row.version == config.version) = none ∧
        ∃ occurred, c'.store = (c.store.addStrategyConfig ⟨config.version, contentHash config, canonicalJson config,
          published⟩).close occurred "STRATEGY_CONFIG_PUBLISHED" "strategy_config" config.version
            (.object [("config_hash", .string (contentHash config))])) := by
  obtain ⟨existing, c₁, hexisting, h⟩ := returns_bind.mp h
  obtain ⟨hfind, hc₁⟩ := returns_select hexisting
  cases existing with
  | some row =>
      obtain ⟨_, c₂, hreject, h⟩ := returns_bind.mp h
      obtain ⟨hagrees, hc₂⟩ := returns_rejectIf.mp hreject
      obtain ⟨hhash, hc'⟩ := returns_pure.mp h
      rw [not_or, not_not, not_not] at hagrees
      exact ⟨hhash.symm, .inl ⟨by rw [← hc', ← hc₂, hc₁], row, hfind.symm, hagrees⟩⟩
  | none =>
      obtain ⟨_, c₂, hinsert, h⟩ := returns_bind.mp h
      obtain ⟨hhash, hc'⟩ := returns_pure.mp h
      obtain ⟨occurred, hc₂⟩ := insertStrategyConfig_returns hinsert
      exact ⟨hhash.symm, .inr ⟨hfind.symm, occurred, by rw [← hc', hc₂, hc₁]⟩⟩

/-- A publication repeats a stored version, or adds it and its event. -/
theorem publishTransaction_returns {config : StrategyConfig} {occurredAt : Datetime} {published : Timestamp}
    {hash : String} (h : (publishTransaction env config occurredAt published).Returns c hash c') :
    (c'.store = c.store ∧ ∃ row ∈ c.store.strategyConfigs, row.version = config.version) ∨
      (∀ row ∈ c.store.strategyConfigs, row.version ≠ config.version) ∧
      ∃ row occurred, c'.store = (c.store.addStrategyConfig row).close occurred "STRATEGY_CONFIG_PUBLISHED"
        "strategy_config" config.version (.object [("config_hash", .string (contentHash config))]) := by
  obtain ⟨-, ⟨hsame, row, hfind, -⟩ | ⟨hfind, occurred, hstore⟩⟩ := publishTransaction_cases h
  · have hversion := List.find?_some hfind
    exact .inl ⟨hsame, row, List.mem_of_find?_eq_some hfind, beq_iff_eq.mp hversion⟩
  · refine .inr ⟨fun row hrow hversion => ?_, _, occurred, hstore⟩
    exact absurd (beq_iff_eq.mpr hversion) (List.find?_eq_none.mp hfind row hrow)

/-- The tables with further master batches and records. -/
def Database.addMaster (db : Database) (batches : List MasterBatchRow) (rows : List MasterRecordRow) : Database :=
  { db with masterBatches := db.masterBatches ++ batches, masterRecords := db.masterRecords ++ rows }

theorem insertMasterRecord_returns {batchId : String} {record : InstrumentMasterRecord}
    (h : (insertMasterRecord env batchId record).Returns c u c') :
    ∃ row, masterRecordRow batchId record = .ok row ∧
      c'.store = c.store.addMaster [] [row] := by
  obtain ⟨row, c₁, hrow, h⟩ := returns_bind.mp h
  obtain ⟨hok, hc₁⟩ := returns_ofExcept.mp hrow
  subst hc₁
  refine ⟨row, hok, ?_⟩
  rw [(returns_insert h).2]
  simp [Database.addMaster]

theorem insertMasterRecords_returns {batchId : String} {records : List InstrumentMasterRecord} {v : PUnit}
    (h : (records.forM (insertMasterRecord env batchId)).Returns c v c') :
    ∃ rows, records.mapM (masterRecordRow batchId) = .ok rows ∧ c'.store = c.store.addMaster [] rows :=
  returns_forM_appends _ (fun db rows => Database.addMaster db [] rows) (fun s => by simp [Database.addMaster])
    (fun s first rest => by simp [Database.addMaster]) (fun _ _ _ _ h => insertMasterRecord_returns h) h

/-- The columns of a master batch. -/
def masterBatchRow (provenance : InstrumentMasterProvenance) (fetchedAt : Timestamp) (rowCount : Int) :
    MasterBatchRow :=
  ⟨provenance.batchId, provenance.provider, provenance.sourceUrl, provenance.contentHash,
    provenance.schemaVersion, fetchedAt, rowCount, canonicalJson provenance⟩

theorem insertMasterBatch_returns {provenance : InstrumentMasterProvenance} {records : List InstrumentMasterRecord}
    {fetchedAt : Timestamp} (h : (insertMasterBatch env provenance records fetchedAt).Returns c u c') :
    ∃ rowCount rows occurred, records.mapM (masterRecordRow provenance.batchId) = .ok rows ∧
      c'.store = (c.store.addMaster [masterBatchRow provenance fetchedAt rowCount] rows).close occurred
        "INSTRUMENT_MASTER_RECORDED" "instrument_master" provenance.batchId
        (.object [("content_hash", .string provenance.contentHash), ("row_count", .int provenance.rowCount)]) := by
  obtain ⟨rowCount, c₁, hcount, h⟩ := returns_bind.mp h
  obtain ⟨-, hc₁⟩ := returns_ofExcept.mp hcount
  obtain ⟨_, c₂, hbatch, h⟩ := returns_bind.mp h
  obtain ⟨-, hc₂⟩ := returns_insert hbatch
  obtain ⟨_, c₃, hrecords, haudit⟩ := returns_bind.mp h
  obtain ⟨rows, hrows, hc₃⟩ := insertMasterRecords_returns hrecords
  obtain ⟨occurred, -, -, hc'⟩ := appendAudit_returns haudit
  refine ⟨rowCount, rows, occurred, hrows, ?_⟩
  rw [hc', hc₃, hc₂, ← hc₁]
  simp [Database.addMaster, masterBatchRow]

/-- A recording agrees with the stored batch, or adds it with its records and its event. -/
theorem recordTransaction_cases {provenance : InstrumentMasterProvenance} {records : List InstrumentMasterRecord}
    {fetchedAt : Timestamp} {batchId : String}
    (h : (recordTransaction env provenance records fetchedAt).Returns c batchId c') :
    batchId = provenance.batchId ∧
      ((c'.store = c.store ∧ ∃ batch,
          (c.store.masterBatches.find? fun row => row.batchId == provenance.batchId) = some batch ∧
          batch.provenanceJson = canonicalJson provenance ∧
          SameRecords (c.store.masterRecords.filter fun row => row.batchId == provenance.batchId) records) ∨
        (c.store.masterBatches.find? fun row => row.batchId == provenance.batchId) = none ∧
        ∃ rowCount rows occurred, records.mapM (masterRecordRow provenance.batchId) = .ok rows ∧
          c'.store = (c.store.addMaster [masterBatchRow provenance fetchedAt rowCount] rows).close occurred
            "INSTRUMENT_MASTER_RECORDED" "instrument_master" provenance.batchId
            (.object [("content_hash", .string provenance.contentHash), ("row_count", .int provenance.rowCount)])) := by
  obtain ⟨existing, c₁, hexisting, h⟩ := returns_bind.mp h
  obtain ⟨hfind, hc₁⟩ := returns_select hexisting
  cases existing with
  | some batch =>
      obtain ⟨persisted, c₂, hpersisted, h⟩ := returns_bind.mp h
      obtain ⟨hrows, hc₂⟩ := returns_select hpersisted
      obtain ⟨_, c₃, hreject, h⟩ := returns_bind.mp h
      obtain ⟨hagrees, hc₃⟩ := returns_rejectIf.mp hreject
      obtain ⟨hid, hc'⟩ := returns_pure.mp h
      rw [not_or, not_not, not_not, hrows, hc₁] at hagrees
      exact ⟨hid.symm, .inl ⟨by rw [← hc', ← hc₃, hc₂, hc₁], batch, hfind.symm, hagrees⟩⟩
  | none =>
      obtain ⟨_, c₂, hinsert, h⟩ := returns_bind.mp h
      obtain ⟨hid, hc'⟩ := returns_pure.mp h
      obtain ⟨rowCount, rows, occurred, hrows, hc₂⟩ := insertMasterBatch_returns hinsert
      exact ⟨hid.symm, .inr ⟨hfind.symm, rowCount, rows, occurred, hrows, by rw [← hc', hc₂, hc₁]⟩⟩

theorem recordTransaction_returns {provenance : InstrumentMasterProvenance} {records : List InstrumentMasterRecord}
    {fetchedAt : Timestamp} {batchId : String}
    (h : (recordTransaction env provenance records fetchedAt).Returns c batchId c') :
    (c'.store = c.store ∧ ∃ row ∈ c.store.masterBatches, row.batchId = provenance.batchId) ∨
      (∀ row ∈ c.store.masterBatches, row.batchId ≠ provenance.batchId) ∧
      ∃ batch rows occurred, c'.store = (c.store.addMaster [batch] rows).close occurred
        "INSTRUMENT_MASTER_RECORDED" "instrument_master" provenance.batchId
        (.object [("content_hash", .string provenance.contentHash), ("row_count", .int provenance.rowCount)]) := by
  obtain ⟨-, ⟨hsame, batch, hfind, -⟩ | ⟨hfind, rowCount, rows, occurred, -, hstore⟩⟩ := recordTransaction_cases h
  · have hbatch := List.find?_some hfind
    exact .inl ⟨hsame, batch, List.mem_of_find?_eq_some hfind, beq_iff_eq.mp hbatch⟩
  · refine .inr ⟨fun row hrow hbatch => ?_, _, rows, occurred, hstore⟩
    exact absurd (beq_iff_eq.mpr hbatch) (List.find?_eq_none.mp hfind row hrow)

/-! ### Gates -/

theorem reads_rejectIf (condition : Prop) [Decidable condition] (fault : Fault) :
    (rejectIf condition fault).Reads := by
  intro c u c' h
  rw [(returns_rejectIf.mp h).2]

theorem reads_requireMasterInstrument (batchId : String) (instrument : InstrumentId) :
    (requireMasterInstrument env batchId instrument).Reads :=
  reads_bind (reads_query _ _) fun _ => reads_rejectIf _ _

theorem reads_requireExactMasterRecord (batchId : String) (record : InstrumentMasterRecord) :
    (requireExactMasterRecord env batchId record).Reads :=
  reads_bind (reads_query _ _) fun _ => reads_rejectIf _ _

theorem reads_checkMapping (contract : ContractSpec) (seen : List InstrumentMasterRecord)
    (record : InstrumentMasterRecord) : (checkMapping env contract seen record).Reads := by
  refine reads_bind (reads_rejectIf _ _) fun _ => ?_
  refine reads_bind (reads_rejectIf _ _) fun _ => ?_
  refine reads_bind (reads_rejectIf _ _) fun _ => ?_
  refine reads_bind (reads_rejectIf _ _) fun _ => ?_
  exact reads_requireExactMasterRecord _ _

theorem reads_checkMappings (contract : ContractSpec) (records seen : List InstrumentMasterRecord) :
    (checkMappings env contract seen records).Reads := by
  induction records generalizing seen with
  | nil => exact reads_pure _
  | cons record rest ih => exact reads_bind (reads_checkMapping contract seen record) fun _ => ih _

theorem reads_checkContract (contract : ContractSpec) : (checkContract env contract).Reads := by
  refine reads_bind (reads_query _ _) fun batch => ?_
  refine reads_bind (reads_rejectIf _ _) fun _ => ?_
  refine reads_bind (reads_rejectIf _ _) fun _ => ?_
  refine reads_bind (reads_query _ _) fun count => ?_
  refine reads_bind (reads_rejectIf _ _) fun _ => ?_
  refine reads_bind (reads_requireMasterInstrument _ _) fun _ => ?_
  refine reads_bind ?_ fun _ => ?_
  · cases contract.futures with
    | none => exact reads_pure _
    | some future => exact reads_requireExactMasterRecord _ _
  · exact reads_bind (reads_rejectIf _ _) fun _ => reads_checkMappings _ _ _

/-- The tables with further contract revisions and mappings. -/
def Database.addContracts (db : Database) (revisions : List ContractRevisionRow)
    (mappings : List ContractOptionMappingRow) : Database :=
  { db with
    contractRevisions := db.contractRevisions ++ revisions
    contractOptionMappings := db.contractOptionMappings ++ mappings }

theorem addContracts_nil (db : Database) : db.addContracts [] [] = db := by
  simp [Database.addContracts]

theorem insertMapping_returns {contract : ContractSpec} {record : InstrumentMasterRecord}
    (h : (insertMapping env contract record).Returns c u c') :
    ∃ row, mappingRow contract record = .ok row ∧ c'.store = c.store.addContracts [] [row] := by
  obtain ⟨row, c₁, hrow, h⟩ := returns_bind.mp h
  obtain ⟨hok, hc₁⟩ := returns_ofExcept.mp hrow
  subst hc₁
  refine ⟨row, hok, ?_⟩
  rw [(returns_insert h).2]
  simp [Database.addContracts]

theorem insertContract_returns {contract : ContractSpec} {createdAt : Datetime}
    (h : (insertContract env contract createdAt).Returns c u c') :
    ∃ row mappings, revisionRow contract createdAt = .ok row ∧ c'.store = c.store.addContracts [row] mappings := by
  obtain ⟨_, c₁, hcheck, h⟩ := returns_bind.mp h
  have hc₁ := reads_checkContract contract c _ c₁ hcheck
  obtain ⟨row, c₂, hrow, h⟩ := returns_bind.mp h
  obtain ⟨hok, hc₂⟩ := returns_ofExcept.mp hrow
  obtain ⟨_, c₃, hinsert, h⟩ := returns_bind.mp h
  obtain ⟨-, hc₃⟩ := returns_insert hinsert
  obtain ⟨mappings, -, hc'⟩ := returns_forM_appends _ (fun db rows => Database.addContracts db [] rows)
    addContracts_nil (fun s first rest => by simp [Database.addContracts])
    (fun _ _ _ _ h => insertMapping_returns h) h
  refine ⟨row, mappings, hok, ?_⟩
  rw [hc', hc₃, ← hc₂, hc₁]
  simp [Database.addContracts]

/-- The contract is known afterwards, and at most new rows of it were added. -/
theorem ensureContract_returns {contract : ContractSpec} {createdAt : Datetime}
    (h : (ensureContract env contract createdAt).Returns c u c') :
    ∃ revisions mappings, c'.store = c.store.addContracts revisions mappings := by
  obtain ⟨existing, c₁, hexisting, h⟩ := returns_bind.mp h
  obtain ⟨-, hc₁⟩ := returns_select hexisting
  cases existing with
  | some row =>
      obtain ⟨-, hc'⟩ := returns_rejectIf.mp h
      exact ⟨[], [], by rw [← hc', hc₁, addContracts_nil]⟩
  | none =>
      obtain ⟨row, mappings, -, hc'⟩ := insertContract_returns h
      exact ⟨[row], mappings, by rw [hc', hc₁]⟩

theorem reads_ensureStrategyExists (version : String) : (ensureStrategyExists env version).Reads :=
  reads_bind (reads_query _ _) fun _ => reads_rejectIf _ _

/-- A snapshot is in order when it advances beyond the head of its stream. -/
def Database.Advances (db : Database) (contractKey : String) (source : DataSource) (sequence us : Int) : Prop :=
  ∀ head ∈ db.head contractKey source, head.lastSequence < sequence ∧ head.lastSourceTimestamp.us < us

theorem enforceOrder_returns {contractKey : String} {source : DataSource} {sequence us : Int}
    (h : (enforceOrder env contractKey source sequence us).Returns c u c') :
    c'.store = c.store ∧ c.store.Advances contractKey source sequence us := by
  obtain ⟨head, c₁, hhead, h⟩ := returns_bind.mp h
  obtain ⟨hvalue, hc₁⟩ := returns_select hhead
  cases head with
  | none =>
      obtain ⟨-, hc'⟩ := returns_pure.mp h
      refine ⟨by rw [← hc', hc₁], fun head hmem => ?_⟩
      rw [← hvalue] at hmem
      cases hmem
  | some head =>
      obtain ⟨_, c₂, hsequence, h⟩ := returns_bind.mp h
      obtain ⟨hlater, hc₂⟩ := returns_rejectIf.mp hsequence
      obtain ⟨hnewer, hc'⟩ := returns_rejectIf.mp h
      refine ⟨by rw [← hc', ← hc₂, hc₁], fun other hmem => ?_⟩
      rw [← hvalue] at hmem
      cases hmem
      exact ⟨not_le.mp hlater, not_le.mp hnewer⟩

theorem reads_verifyChange (snapshot : AtomicSnapshot) (us : Int) (quote : OptionQuote) (change : Int) :
    (verifyChange env snapshot us quote change).Reads := by
  refine reads_bind (reads_ofExcept _) fun _ => ?_
  refine reads_bind (reads_ofExcept _) fun _ => ?_
  refine reads_bind (reads_ofExcept _) fun _ => ?_
  refine reads_bind (reads_ofExcept _) fun _ => ?_
  refine reads_bind (reads_query _ _) fun prior => ?_
  cases prior with
  | none =>
      intro c u c' h
      exact absurd h not_returns_raise
  | some prior => exact reads_ofExcept _

theorem reads_verifyQuoteChange (snapshot : AtomicSnapshot) (us : Int) (quote : OptionQuote) :
    (verifyQuoteChange env snapshot us quote).Reads := by
  unfold verifyQuoteChange
  split
  · exact reads_rejectIf _ _
  · exact reads_verifyChange _ _ _ _

theorem reads_verifyChangeOiProvenance (snapshot : AtomicSnapshot) :
    (verifyChangeOiProvenance env snapshot).Reads := by
  refine reads_bind (reads_ofExcept _) fun current => ?_
  intro c u c' h
  exact (returns_forM_reads (fun _ _ => True)
    (fun quote c u c' h => ⟨reads_verifyQuoteChange snapshot current.us quote c u c' h, trivial⟩) h).1

/-- An admitted snapshot is in order, and at most its contract was added. -/
theorem admitSnapshot_returns {snapshot : AtomicSnapshot} {recordedAt : Datetime} {us : Int}
    (h : (admitSnapshot env snapshot recordedAt us).Returns c u c') :
    (∃ revisions mappings, c'.store = c.store.addContracts revisions mappings) ∧
      c.store.Advances snapshot.contract.contractKey snapshot.source snapshot.sequence us := by
  obtain ⟨_, c₁, hstrategy, h⟩ := returns_bind.mp h
  have hc₁ := reads_ensureStrategyExists _ c _ c₁ hstrategy
  obtain ⟨_, c₂, hcontract, h⟩ := returns_bind.mp h
  obtain ⟨revisions, mappings, hc₂⟩ := ensureContract_returns hcontract
  obtain ⟨_, c₃, horder, h⟩ := returns_bind.mp h
  obtain ⟨hc₃, hadvances⟩ := enforceOrder_returns horder
  have hc' := reads_verifyChangeOiProvenance snapshot c₃ _ c' h
  rw [hc₁] at hc₂
  rw [hc₂] at hadvances
  exact ⟨⟨revisions, mappings, by rw [hc', hc₃, hc₂]⟩, hadvances⟩

/-! ### Snapshots -/

/-- The tables with a further attempt and its issues. -/
def Database.addAttempt (db : Database) (row : IngestionAttemptRow) (issues : List ValidationIssueRow) : Database :=
  { db with
    ingestionAttempts := db.ingestionAttempts ++ [row]
    validationIssues := db.validationIssues ++ issues }

/-- The tables with further issues. -/
def Database.addIssues (db : Database) (issues : List ValidationIssueRow) : Database :=
  { db with validationIssues := db.validationIssues ++ issues }

theorem insertValidationIssues_returns {snapshotId : String} {issues : List ValidationIssue}
    (h : (insertValidationIssues env snapshotId issues).Returns c u c') :
    ∃ rows, c'.store = c.store.addIssues rows := by
  obtain ⟨rows, -, hc'⟩ := returns_forM_appends
    (fun item => .ok (⟨snapshotId, item.2, item.1.code, item.1.severity, item.1.path, item.1.message,
      item.1.observed.map canonicalJson, item.1.expected.map canonicalJson, canonicalJson item.1⟩ :
        ValidationIssueRow))
    Database.addIssues
    (fun s => by simp [Database.addIssues]) (fun s first rest => by simp [Database.addIssues])
    (fun _ _ _ _ h => ⟨_, rfl, (returns_insert h).2⟩) h
  exact ⟨rows, hc'⟩

theorem storeAttempt_returns {snapshot : AtomicSnapshot} {report : ValidationReport} {status : SnapshotStatus}
    {stamps : Stamps} {recordedAt : Timestamp}
    (h : (storeAttempt env snapshot report status stamps recordedAt).Returns c u c') :
    ∃ row issues, attemptRow snapshot report status stamps recordedAt = .ok row ∧
      c.store.AdmitsIngestionAttempt row ∧ c'.store = c.store.addAttempt row issues := by
  obtain ⟨row, c₁, hrow, h⟩ := returns_bind.mp h
  obtain ⟨hok, hc₁⟩ := returns_ofExcept.mp hrow
  subst hc₁
  obtain ⟨_, c₂, hinsert, h⟩ := returns_bind.mp h
  obtain ⟨hadmits, hc₂⟩ := returns_insert hinsert
  obtain ⟨issues, hc'⟩ := insertValidationIssues_returns h
  refine ⟨row, issues, hok, hadmits, ?_⟩
  rw [hc', hc₂]
  rfl

/-- The tables with an accepted snapshot, its states and its legs. -/
def Database.addComponents (db : Database) (accepted : AcceptedSnapshotRow) (market : MarketSnapshotRow)
    (technicals : TechnicalSnapshotRow) (context : StrategyContextRow) (legs : List OptionSnapshotRow) : Database :=
  { db with
    acceptedSnapshots := db.acceptedSnapshots ++ [accepted]
    marketSnapshots := db.marketSnapshots ++ [market]
    technicalSnapshots := db.technicalSnapshots ++ [technicals]
    strategyContextSnapshots := db.strategyContextSnapshots ++ [context]
    optionSnapshots := db.optionSnapshots ++ legs }

/-- The tables with further legs. -/
def Database.addLegs (db : Database) (legs : List OptionSnapshotRow) : Database :=
  { db with optionSnapshots := db.optionSnapshots ++ legs }

theorem insertOption_returns {snapshot : AtomicSnapshot} {quote : OptionQuote}
    (h : (insertOption env snapshot quote).Returns c u c') :
    ∃ row, optionRow snapshot quote = .ok row ∧ c'.store = c.store.addLegs [row] := by
  obtain ⟨row, c₁, hrow, h⟩ := returns_bind.mp h
  obtain ⟨hok, hc₁⟩ := returns_ofExcept.mp hrow
  subst hc₁
  exact ⟨row, hok, (returns_insert h).2⟩

/-- The row of an accepted snapshot. -/
def acceptedRow (snapshot : AtomicSnapshot) (source : Timestamp) : AcceptedSnapshotRow :=
  ⟨snapshot.snapshotId, snapshot.contract.contractKey, snapshot.source, snapshot.sequence, source⟩

theorem integer_eq_ok {n stored : Int} : integer n = .ok stored ↔ (-2 ^ 63 ≤ n ∧ n < 2 ^ 63) ∧ n = stored :=
  Except.ite_ok_eq_ok

theorem insertAcceptedComponents_returns {snapshot : AtomicSnapshot} {source : Timestamp}
    (h : (insertAcceptedComponents env snapshot source).Returns c u c') :
    c.store.AdmitsAcceptedSnapshot (acceptedRow snapshot source) ∧
      ∃ market technicals legs, marketRow snapshot.snapshotId snapshot.market = .ok market ∧
        technicalRow snapshot.snapshotId snapshot.technicals = .ok technicals ∧
        snapshot.optionChain.mapM (optionRow snapshot) = .ok legs ∧
        c'.store = c.store.addComponents (acceptedRow snapshot source) market technicals
          (contextRow snapshot.snapshotId snapshot.context) legs := by
  obtain ⟨sequence, c₁, hsequence, h⟩ := returns_bind.mp h
  obtain ⟨hinteger, hc₁⟩ := returns_ofExcept.mp hsequence
  obtain ⟨-, hsame⟩ := integer_eq_ok.mp hinteger
  subst hc₁ hsame
  obtain ⟨_, c₂, haccepted, h⟩ := returns_bind.mp h
  obtain ⟨hadmits, hc₂⟩ := returns_insert haccepted
  obtain ⟨_, c₃, hmarket, h⟩ := returns_bind.mp h
  obtain ⟨market, d₃, hmarketRow, hmarket⟩ := returns_bind.mp hmarket
  obtain ⟨hmarketOk, hd₃⟩ := returns_ofExcept.mp hmarketRow
  obtain ⟨-, hc₃⟩ := returns_insert hmarket
  obtain ⟨_, c₄, htechnical, h⟩ := returns_bind.mp h
  obtain ⟨technicals, d₄, htechnicalRow, htechnical⟩ := returns_bind.mp htechnical
  obtain ⟨htechnicalOk, hd₄⟩ := returns_ofExcept.mp htechnicalRow
  obtain ⟨-, hc₄⟩ := returns_insert htechnical
  obtain ⟨_, c₅, hcontext, h⟩ := returns_bind.mp h
  obtain ⟨-, hc₅⟩ := returns_insert hcontext
  obtain ⟨legs, hlegs, hc'⟩ := returns_forM_appends _ Database.addLegs
    (fun s => by simp [Database.addLegs]) (fun s first rest => by simp [Database.addLegs])
    (fun _ _ _ _ h => insertOption_returns h) h
  refine ⟨hadmits, market, technicals, legs, hmarketOk, htechnicalOk, hlegs, ?_⟩
  subst hd₃ hd₄
  rw [hc', hc₅, hc₄, hc₃, hc₂]
  rfl

/-- The head a snapshot stores. -/
def headRow (snapshot : AtomicSnapshot) (source : Timestamp) : SourceOrderHeadRow :=
  ⟨snapshot.contract.contractKey, snapshot.source, snapshot.sequence, source, snapshot.snapshotId⟩

/-- The tables with a new head of a stream. -/
def Database.setHead (db : Database) (row : SourceOrderHeadRow) : Database :=
  { db with sourceOrderHeads := upsertHead db.sourceOrderHeads row }

/-- The event of an ingestion. -/
def Database.closeIngestion (db : Database) (occurredAt : Timestamp) (snapshot : AtomicSnapshot)
    (status : SnapshotStatus) : Database :=
  db.close occurredAt "SNAPSHOT_INGESTED" "snapshot" snapshot.snapshotId
    (.object [("contract_key", .string snapshot.contract.contractKey),
      ("snapshot_hash", .string (contentHash snapshot)), ("status", .string status.value)])

/-- What saving a snapshot leaves: its attempt, and the components and the head of an accepted one. -/
inductive Saved (db : Database) (snapshot : AtomicSnapshot) (report : ValidationReport) :
    SnapshotStatus → Database → Prop
  | rejected (attempt : IngestionAttemptRow) (issues : List ValidationIssueRow) (occurred : Timestamp)
      (row : ∃ stamps recordedAt, attemptRow snapshot report .rejected stamps recordedAt = .ok attempt)
      (admits : db.AdmitsIngestionAttempt attempt) :
      Saved db snapshot report .rejected ((db.addAttempt attempt issues).closeIngestion occurred snapshot .rejected)
  | accepted (source : Timestamp) (revisions : List ContractRevisionRow)
      (mappings : List ContractOptionMappingRow) (attempt : IngestionAttemptRow) (issues : List ValidationIssueRow)
      (market : MarketSnapshotRow) (technicals : TechnicalSnapshotRow) (legs : List OptionSnapshotRow)
      (occurred : Timestamp)
      (stamped : timestamp snapshot.sourceTimestamp "source_timestamp" = .ok source)
      (advances : db.Advances snapshot.contract.contractKey snapshot.source snapshot.sequence source.us)
      (row : ∃ stamps recordedAt, attemptRow snapshot report .accepted stamps recordedAt = .ok attempt)
      (admits : db.AdmitsIngestionAttempt attempt)
      (admitsAccepted : ((db.addContracts revisions mappings).addAttempt attempt issues).AdmitsAcceptedSnapshot
        (acceptedRow snapshot source))
      (marketOk : marketRow snapshot.snapshotId snapshot.market = .ok market)
      (technicalsOk : technicalRow snapshot.snapshotId snapshot.technicals = .ok technicals)
      (legsOk : snapshot.optionChain.mapM (optionRow snapshot) = .ok legs) :
      Saved db snapshot report .accepted
        (((((db.addContracts revisions mappings).addAttempt attempt issues).addComponents
          (acceptedRow snapshot source) market technicals (contextRow snapshot.snapshotId snapshot.context)
          legs).setHead (headRow snapshot source)).closeIngestion occurred snapshot .accepted)

theorem stamps_accepted {snapshot : AtomicSnapshot} {recordedAt : Datetime} {stamped : Stamps}
    (h : stamps snapshot .accepted recordedAt = .ok stamped) :
    timestamp snapshot.sourceTimestamp "source_timestamp" = .ok stamped.source := by
  change acceptedStamps snapshot = .ok stamped at h
  unfold acceptedStamps at h
  obtain ⟨_, -, h⟩ := Except.bind_eq_ok.mp h
  obtain ⟨source, hsource, h⟩ := Except.bind_eq_ok.mp h
  obtain ⟨received, -, h⟩ := Except.bind_eq_ok.mp h
  cases h
  exact hsource

theorem storeHead_returns {snapshot : AtomicSnapshot} {source : Timestamp}
    (h : (storeHead env snapshot source).Returns c u c') :
    c'.store = c.store.setHead (headRow snapshot source) :=
  (returns_insert h).2

theorem saveTransaction_returns {snapshot : AtomicSnapshot} {report : ValidationReport} {status saved : SnapshotStatus}
    {stamped : Stamps} {recordedAt : Timestamp} (hstamps : stamps snapshot status (.utc env.now) = .ok stamped)
    (h : (saveTransaction env snapshot report status stamped recordedAt).Returns c saved c') :
    saved = status ∧ Saved c.store snapshot report status c'.store := by
  cases status with
  | rejected =>
      obtain ⟨_, c₁, hattempt, h⟩ := returns_bind.mp h
      obtain ⟨attempt, issues, hrow, hadmits, hc₁⟩ := storeAttempt_returns hattempt
      obtain ⟨_, c₂, haudit, h⟩ := returns_bind.mp h
      obtain ⟨occurred, -, -, hc₂⟩ := appendAudit_returns haudit
      obtain ⟨hsaved, hc'⟩ := returns_pure.mp h
      refine ⟨hsaved.symm, ?_⟩
      rw [← hc', hc₂, hc₁]
      exact .rejected attempt issues occurred ⟨_, _, hrow⟩ hadmits
  | accepted =>
      obtain ⟨_, c₁, hadmit, h⟩ := returns_bind.mp h
      obtain ⟨⟨revisions, mappings, hc₁⟩, hadvances⟩ := admitSnapshot_returns hadmit
      obtain ⟨_, c₂, hattempt, h⟩ := returns_bind.mp h
      obtain ⟨attempt, issues, hrow, hadmits, hc₂⟩ := storeAttempt_returns hattempt
      obtain ⟨_, c₃, hcomponents, h⟩ := returns_bind.mp h
      obtain ⟨hadmitsAccepted, market, technicals, legs, hmarket, htechnicals, hlegs, hc₃⟩ :=
        insertAcceptedComponents_returns hcomponents
      obtain ⟨_, c₄, hhead, h⟩ := returns_bind.mp h
      have hc₄ := storeHead_returns hhead
      obtain ⟨_, c₅, haudit, h⟩ := returns_bind.mp h
      obtain ⟨occurred, -, -, hc₅⟩ := appendAudit_returns haudit
      obtain ⟨hsaved, hc'⟩ := returns_pure.mp h
      refine ⟨hsaved.symm, ?_⟩
      rw [hc₁] at hadmits
      rw [hc₂, hc₁] at hadmitsAccepted
      rw [← hc', hc₅, hc₄, hc₃, hc₂, hc₁]
      exact .accepted stamped.source revisions mappings attempt issues market technicals legs occurred
        (stamps_accepted hstamps) hadvances ⟨_, _, hrow⟩ hadmits hadmitsAccepted hmarket htechnicals hlegs

/-! ### Manual overrides -/

/-- The tables with a further override. -/
def Database.addOverride (db : Database) (row : ManualOverrideRow) : Database :=
  { db with manualOverrides := db.manualOverrides ++ [row] }

theorem overrideTransaction_returns {baseSnapshotId actor reason overrideId : String} {manual : ManualOverride}
    {overriddenAt createdAt : Timestamp} {expiresAt : Option Timestamp}
    (h : (overrideTransaction env baseSnapshotId manual actor reason overriddenAt expiresAt createdAt).Returns
      c overrideId c') :
    ∃ row occurred, c'.store = (c.store.addOverride row).close occurred "MANUAL_OVERRIDE_RECORDED" "snapshot"
      baseSnapshotId (.object [("override_id", .string env.uuid), ("field_name", .string manual.fieldName),
        ("active", .bool manual.isActive)]) := by
  obtain ⟨base, c₁, hbase, h⟩ := returns_bind.mp h
  obtain ⟨-, hc₁⟩ := returns_select hbase
  obtain ⟨imported, c₂, himported, h⟩ := returns_bind.mp h
  obtain ⟨-, hc₂⟩ := returns_ofExcept.mp himported
  obtain ⟨_, c₃, hreject, h⟩ := returns_bind.mp h
  obtain ⟨-, hc₃⟩ := returns_rejectIf.mp hreject
  obtain ⟨_, c₄, hinsert, h⟩ := returns_bind.mp h
  obtain ⟨-, hc₄⟩ := returns_insert hinsert
  obtain ⟨_, c₅, haudit, h⟩ := returns_bind.mp h
  obtain ⟨occurred, -, -, hc₅⟩ := appendAudit_returns haudit
  obtain ⟨-, hc'⟩ := returns_pure.mp h
  rw [← hc', hc₅, hc₄, ← hc₃, ← hc₂, hc₁]
  exact ⟨_, occurred, rfl⟩

end Statements

/-! ### Calls and runs -/

/-- A call of the repository that writes, with its arguments. -/
inductive Call where
  | publishStrategyConfig (config : StrategyConfig) (publishedAt : Option Datetime)
  | recordInstrumentMaster (provenance : InstrumentMasterProvenance) (records : List InstrumentMasterRecord)
  | saveIngestion (snapshot : AtomicSnapshot) (report : ValidationReport)
  | addManualOverride (baseSnapshotId : String) (manual : ManualOverride)

namespace Call

/-- The call, its result set aside. -/
def session (env : Environment) : Call → Session Database Fault Unit
  | .publishStrategyConfig config publishedAt =>
      Persistence.publishStrategyConfig env config publishedAt >>= fun _ => pure ()
  | .recordInstrumentMaster provenance records =>
      Persistence.recordInstrumentMaster env provenance records >>= fun _ => pure ()
  | .saveIngestion snapshot report => Persistence.saveIngestion env snapshot report >>= fun _ => pure ()
  | .addManualOverride baseSnapshotId manual =>
      Persistence.addManualOverride env baseSnapshotId manual >>= fun _ => pure ()

/-- What the call publishes, records or saves is stored already. -/
def Repeats (db : Database) : Call → Prop
  | .publishStrategyConfig config _ => ∃ row ∈ db.strategyConfigs, row.version = config.version
  | .recordInstrumentMaster provenance _ => ∃ row ∈ db.masterBatches, row.batchId = provenance.batchId
  | .saveIngestion snapshot _ => ∃ row ∈ db.ingestionAttempts, row.snapshotId = snapshot.snapshotId
  | .addManualOverride .. => False

/-- The type, the aggregate and the payload of the event of a call. -/
def event (env : Environment) : Call → String × String × String × Json
  | .publishStrategyConfig config _ =>
      ("STRATEGY_CONFIG_PUBLISHED", "strategy_config", config.version,
        .object [("config_hash", .string (contentHash config))])
  | .recordInstrumentMaster provenance _ =>
      ("INSTRUMENT_MASTER_RECORDED", "instrument_master", provenance.batchId,
        .object [("content_hash", .string provenance.contentHash), ("row_count", .int provenance.rowCount)])
  | .saveIngestion snapshot report =>
      ("SNAPSHOT_INGESTED", "snapshot", snapshot.snapshotId,
        .object [("contract_key", .string snapshot.contract.contractKey),
          ("snapshot_hash", .string (contentHash snapshot)),
          ("status", .string (if report.Accepted then SnapshotStatus.accepted else .rejected).value)])
  | .addManualOverride baseSnapshotId manual =>
      ("MANUAL_OVERRIDE_RECORDED", "snapshot", baseSnapshotId,
        .object [("override_id", .string env.uuid), ("field_name", .string manual.fieldName),
          ("active", .bool manual.isActive)])

end Call

/-- The tables after a sequence of calls, whether they return or raise. -/
def runs (calls : List (Environment × Call)) (db : Database) : Database :=
  calls.foldl (fun db call => (call.2.session call.1 db).2) db

section Calls

variable {env : Environment} {db db' : Database}

/-- A call that raises has rolled back. -/
theorem rollsBack_session (env : Environment) (call : Call) : (call.session env).RollsBack := by
  cases call with
  | publishStrategyConfig config publishedAt =>
      exact rollsBack_bind_pure (rollsBack_bind_ofExcept _ fun _ => rollsBack_transaction _ _) _
  | recordInstrumentMaster provenance records =>
      exact rollsBack_bind_pure (rollsBack_bind_ofExcept _ fun _ => rollsBack_bind_ofExcept _ fun _ =>
        rollsBack_transaction _ _) _
  | saveIngestion snapshot report =>
      exact rollsBack_bind_pure (rollsBack_bind_ofExcept _ fun _ => rollsBack_bind_ofExcept _ fun _ =>
        rollsBack_bind_ofExcept _ fun _ => rollsBack_transaction _ _) _
  | addManualOverride baseSnapshotId manual =>
      exact rollsBack_bind_pure (rollsBack_bind_ofExcept _ fun _ => rollsBack_bind_ofExcept _ fun _ =>
        rollsBack_bind_ofExcept _ fun _ => rollsBack_bind_ofExcept _ fun _ => rollsBack_transaction _ _) _

theorem saveIngestion_returns {snapshot : AtomicSnapshot} {report : ValidationReport} {saved : SnapshotStatus}
    (h : (saveIngestion env snapshot report).Returns db saved db') :
    saved = (if report.Accepted then .accepted else .rejected) ∧ Saved db snapshot report saved db' := by
  obtain ⟨_, d₁, hbinding, h⟩ := returns_bind.mp h
  obtain ⟨-, hd₁⟩ := returns_ofExcept.mp hbinding
  obtain ⟨recordedAt, d₂, hrecorded, h⟩ := returns_bind.mp h
  obtain ⟨-, hd₂⟩ := returns_ofExcept.mp hrecorded
  obtain ⟨stamped, d₃, hstamps, h⟩ := returns_bind.mp h
  obtain ⟨hok, hd₃⟩ := returns_ofExcept.mp hstamps
  subst hd₁ hd₂ hd₃
  obtain ⟨c', hbody, hstore⟩ := returns_transaction h
  obtain ⟨hstatus, hsaved⟩ := saveTransaction_returns hok hbody
  subst hstore
  rw [hstatus]
  exact ⟨rfl, hsaved⟩

/-- What a call that returns leaves: nothing new, or its rows and its closing event. -/
inductive Writes (env : Environment) (db : Database) : Call → Database → Prop
  | repeats (call : Call) (stored : call.Repeats db) : Writes env db call db
  | published (config : StrategyConfig) (publishedAt : Option Datetime) (row : StrategyConfigRow)
      (occurred : Timestamp) (new : ¬(Call.publishStrategyConfig config publishedAt).Repeats db) :
      Writes env db (.publishStrategyConfig config publishedAt)
        ((db.addStrategyConfig row).close occurred "STRATEGY_CONFIG_PUBLISHED" "strategy_config" config.version
          (.object [("config_hash", .string (contentHash config))]))
  | recorded (provenance : InstrumentMasterProvenance) (records : List InstrumentMasterRecord)
      (batch : MasterBatchRow) (rows : List MasterRecordRow) (occurred : Timestamp)
      (new : ¬(Call.recordInstrumentMaster provenance records).Repeats db) :
      Writes env db (.recordInstrumentMaster provenance records)
        ((db.addMaster [batch] rows).close occurred "INSTRUMENT_MASTER_RECORDED" "instrument_master"
          provenance.batchId (.object [("content_hash", .string provenance.contentHash),
            ("row_count", .int provenance.rowCount)]))
  | saved (snapshot : AtomicSnapshot) (report : ValidationReport) (status : SnapshotStatus) (db' : Database)
      (outcome : status = if report.Accepted then .accepted else .rejected)
      (effect : Saved db snapshot report status db') : Writes env db (.saveIngestion snapshot report) db'
  | overridden (baseSnapshotId : String) (manual : ManualOverride) (row : ManualOverrideRow)
      (occurred : Timestamp) :
      Writes env db (.addManualOverride baseSnapshotId manual)
        ((db.addOverride row).close occurred "MANUAL_OVERRIDE_RECORDED" "snapshot" baseSnapshotId
          (.object [("override_id", .string env.uuid), ("field_name", .string manual.fieldName),
            ("active", .bool manual.isActive)]))

theorem session_writes {call : Call} (hcall : (call.session env).Returns db () db') : Writes env db call db' := by
  cases call with
  | publishStrategyConfig config publishedAt =>
      dsimp only [Call.session] at hcall
      obtain ⟨hash, d, h, hpure⟩ := returns_bind.mp hcall
      obtain ⟨-, hd⟩ := returns_pure.mp hpure
      subst hd
      obtain ⟨published, d₁, hpublished, h⟩ := returns_bind.mp h
      obtain ⟨-, hd₁⟩ := returns_ofExcept.mp hpublished
      subst hd₁
      obtain ⟨c', hbody, hstore⟩ := returns_transaction h
      subst hstore
      rcases publishTransaction_returns hbody with ⟨hsame, hstored⟩ | ⟨hnew, row, occurred, hclosed⟩
      · rw [hsame]
        exact .repeats _ hstored
      · rw [hclosed]
        exact .published config publishedAt row occurred fun ⟨row, hrow, hversion⟩ => hnew row hrow hversion
  | recordInstrumentMaster provenance records =>
      dsimp only [Call.session] at hcall
      obtain ⟨batchId, d, h, hpure⟩ := returns_bind.mp hcall
      obtain ⟨-, hd⟩ := returns_pure.mp hpure
      subst hd
      obtain ⟨_, d₁, hvalid, h⟩ := returns_bind.mp h
      obtain ⟨-, hd₁⟩ := returns_ofExcept.mp hvalid
      obtain ⟨fetched, d₂, hfetched, h⟩ := returns_bind.mp h
      obtain ⟨-, hd₂⟩ := returns_ofExcept.mp hfetched
      subst hd₁ hd₂
      obtain ⟨c', hbody, hstore⟩ := returns_transaction h
      subst hstore
      rcases recordTransaction_returns hbody with ⟨hsame, hstored⟩ | ⟨hnew, batch, rows, occurred, hclosed⟩
      · rw [hsame]
        exact .repeats _ hstored
      · rw [hclosed]
        exact .recorded provenance records batch rows occurred fun ⟨row, hrow, hbatch⟩ => hnew row hrow hbatch
  | saveIngestion snapshot report =>
      dsimp only [Call.session] at hcall
      obtain ⟨saved, d, h, hpure⟩ := returns_bind.mp hcall
      obtain ⟨-, hd⟩ := returns_pure.mp hpure
      subst hd
      obtain ⟨hstatus, hsaved⟩ := saveIngestion_returns h
      exact .saved snapshot report saved _ hstatus hsaved
  | addManualOverride baseSnapshotId manual =>
      dsimp only [Call.session] at hcall
      obtain ⟨overrideId, d, h, hpure⟩ := returns_bind.mp hcall
      obtain ⟨-, hd⟩ := returns_pure.mp hpure
      subst hd
      obtain ⟨⟨actor, overriddenAt, reason⟩, d₁, hvalid, h⟩ := returns_bind.mp h
      obtain ⟨-, hd₁⟩ := returns_ofExcept.mp hvalid
      obtain ⟨overridden, d₂, hoverridden, h⟩ := returns_bind.mp h
      obtain ⟨-, hd₂⟩ := returns_ofExcept.mp hoverridden
      obtain ⟨expires, d₃, hexpires, h⟩ := returns_bind.mp h
      obtain ⟨-, hd₃⟩ := returns_ofExcept.mp hexpires
      obtain ⟨created, d₄, hcreated, h⟩ := returns_bind.mp h
      obtain ⟨-, hd₄⟩ := returns_ofExcept.mp hcreated
      subst hd₁ hd₂ hd₃ hd₄
      obtain ⟨c', hbody, hstore⟩ := returns_transaction h
      subst hstore
      obtain ⟨row, occurred, hclosed⟩ := overrideTransaction_returns hbody
      rw [hclosed]
      exact .overridden baseSnapshotId manual row occurred

/-- What a call leaves: the tables as they were, or what it writes. -/
theorem session_step (env : Environment) (call : Call) (db : Database) :
    (call.session env db).2 = db ∨ Writes env db call (call.session env db).2 := by
  rcases hrun : call.session env db with ⟨result, db'⟩
  cases result with
  | error fault => exact .inl (rollsBack_session env call db fault db' hrun)
  | ok value => exact .inr (session_writes hrun)

end Calls
end TecoQuant.Persistence
