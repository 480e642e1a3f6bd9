import TecoQuant.BaseRegister
import TecoQuant.PersistenceCalls

/-! Publications. The strategy configurations and the instrument-master batches are write-once registers:
whatever the repository does between two calls, the later one under the same key repeats the content of the
earlier one or raises, and changes nothing. -/

namespace TecoQuant.Persistence

open Domain Ingestion Strategy Transactional Session WriteOnce

/-! ### The registers -/

/-- The hash and the canonical JSON of each version. -/
def Database.configRegister (db : Database) : Register String (String × String) := fun version =>
  (db.strategyConfigs.find? fun row => row.version == version).map fun row => (row.configHash, row.configJson)

/-- The identities of a batch, each with its record. -/
def Database.batchRecords (db : Database) (batchId : String) : Set (String × String) :=
  {entry | ∃ row ∈ db.masterRecords, row.batchId = batchId ∧ (row.canonicalKey, row.recordJson) = entry}

/-- The provenance and the records of each batch. -/
def Database.masterRegister (db : Database) : Register String (String × Set (String × String)) := fun batchId =>
  (db.masterBatches.find? fun row => row.batchId == batchId).map fun row =>
    (row.provenanceJson, db.batchRecords batchId)

def configContent (config : StrategyConfig) : String × String := (contentHash config, canonicalJson config)

/-- The identity of every record, with its canonical JSON. -/
def recordContent (records : List InstrumentMasterRecord) : Set (String × String) :=
  {entry | ∃ record ∈ records, (record.instrument.canonicalKey, canonicalJson record) = entry}

def masterContent (provenance : InstrumentMasterProvenance) (records : List InstrumentMasterRecord) :
    String × Set (String × String) :=
  (canonicalJson provenance, recordContent records)

/-- The foreign key of the master records. -/
def Database.RecordsReferenced (db : Database) : Prop :=
  ∀ row ∈ db.masterRecords, ∃ batch ∈ db.masterBatches, batch.batchId = row.batchId

/-- The hash is that of the canonical JSON. -/
theorem contentHash_canonical {α : Type} [ToJson α] (value : α) :
    contentHash value = sha256 (canonicalJson value) := by
  rw [contentHash, Serialization.contentHash, canonicalJson]

/-- A configuration is its canonical JSON: the hash adds nothing. -/
theorem configContent_inj {config other : StrategyConfig} :
    configContent config = configContent other ↔ canonicalJson config = canonicalJson other := by
  constructor
  · intro h
    rw [configContent, configContent, Prod.mk.injEq] at h
    exact h.2
  · intro h
    rw [configContent, configContent, contentHash_canonical, contentHash_canonical, h]

theorem recordContent_perm {records records' : List InstrumentMasterRecord} (h : records'.Perm records) :
    recordContent records' = recordContent records := by
  ext entry
  constructor
  · rintro ⟨record, hrecord, hentry⟩
    exact ⟨record, h.mem_iff.mp hrecord, hentry⟩
  · rintro ⟨record, hrecord, hentry⟩
    exact ⟨record, h.mem_iff.mpr hrecord, hentry⟩

section Registers

variable {db : Database}

/-- The comparison of a recorded batch is one of contents. -/
theorem sameRecords_iff {batchId : String} {records : List InstrumentMasterRecord} :
    SameRecords (db.masterRecords.filter fun row => row.batchId == batchId) records ↔
      recordContent records = db.batchRecords batchId := by
  constructor
  · rintro ⟨hstored, hgiven⟩
    ext entry
    constructor
    · rintro ⟨record, hrecord, rfl⟩
      obtain ⟨row, hrow, hkey, hjson⟩ := hgiven record hrecord
      obtain ⟨hmem, hbatch⟩ := List.mem_filter.mp hrow
      exact ⟨row, hmem, beq_iff_eq.mp hbatch, Prod.ext hkey hjson⟩
    · rintro ⟨row, hmem, hbatch, rfl⟩
      obtain ⟨record, hrecord, hkey, hjson⟩ := hstored row (List.mem_filter.mpr ⟨hmem, beq_iff_eq.mpr hbatch⟩)
      exact ⟨record, hrecord, Prod.ext hkey hjson⟩
  · intro h
    constructor
    · intro row hrow
      obtain ⟨hmem, hbatch⟩ := List.mem_filter.mp hrow
      have hentry : (row.canonicalKey, row.recordJson) ∈ recordContent records := by
        rw [h]
        exact ⟨row, hmem, beq_iff_eq.mp hbatch, rfl⟩
      obtain ⟨record, hrecord, hentry⟩ := hentry
      obtain ⟨hkey, hjson⟩ := Prod.mk.inj hentry
      exact ⟨record, hrecord, hkey, hjson⟩
    · intro record hrecord
      have hentry : (record.instrument.canonicalKey, canonicalJson record) ∈ recordContent records :=
        ⟨record, hrecord, rfl⟩
      rw [h] at hentry
      obtain ⟨row, hmem, hbatch, hentry⟩ := hentry
      obtain ⟨hkey, hjson⟩ := Prod.mk.inj hentry
      exact ⟨row, List.mem_filter.mpr ⟨hmem, beq_iff_eq.mpr hbatch⟩, hkey, hjson⟩

/-! ### New rows -/

theorem configRegister_add {row : StrategyConfigRow}
    (hnew : (db.strategyConfigs.find? fun other => other.version == row.version) = none) :
    (db.addStrategyConfig row).configRegister =
      Function.update db.configRegister row.version (some (row.configHash, row.configJson)) := by
  funext version
  by_cases hversion : version = row.version
  · rw [hversion, Function.update_self]
    simp [Database.configRegister, Database.addStrategyConfig, List.find?_append, hnew]
  · rw [Function.update_of_ne hversion]
    simp [Database.configRegister, Database.addStrategyConfig, List.find?_append, Ne.symm hversion]

theorem batchRecords_add_other {batches : List MasterBatchRow} {rows : List MasterRecordRow} {batchId other : String}
    (hrows : ∀ row ∈ rows, row.batchId = batchId) (hother : other ≠ batchId) :
    (db.addMaster batches rows).batchRecords other = db.batchRecords other := by
  ext entry
  constructor
  · rintro ⟨row, hrow, hbatch, hentry⟩
    rcases List.mem_append.mp hrow with hold | hnew
    · exact ⟨row, hold, hbatch, hentry⟩
    · exact absurd (hbatch.symm.trans (hrows row hnew)) hother
  · rintro ⟨row, hrow, hbatch, hentry⟩
    exact ⟨row, List.mem_append.mpr (.inl hrow), hbatch, hentry⟩

/-- A batch that was not stored has no records but the new ones. -/
theorem batchRecords_add_new {batches : List MasterBatchRow} {rows : List MasterRecordRow} {batchId : String}
    (href : db.RecordsReferenced) (hrows : ∀ row ∈ rows, row.batchId = batchId)
    (hnew : ∀ batch ∈ db.masterBatches, batch.batchId ≠ batchId) :
    (db.addMaster batches rows).batchRecords batchId =
      {entry | ∃ row ∈ rows, (row.canonicalKey, row.recordJson) = entry} := by
  ext entry
  constructor
  · rintro ⟨row, hrow, hbatch, hentry⟩
    rcases List.mem_append.mp hrow with hold | hadded
    · obtain ⟨batch, hmem, hid⟩ := href row hold
      exact absurd (hid.trans hbatch) (hnew batch hmem)
    · exact ⟨row, hadded, hentry⟩
  · rintro ⟨row, hrow, hentry⟩
    exact ⟨row, List.mem_append.mpr (.inr hrow), hrows row hrow, hentry⟩

theorem masterRegister_add {batch : MasterBatchRow} {rows : List MasterRecordRow} (href : db.RecordsReferenced)
    (hnew : (db.masterBatches.find? fun other => other.batchId == batch.batchId) = none)
    (hrows : ∀ row ∈ rows, row.batchId = batch.batchId) :
    (db.addMaster [batch] rows).masterRegister = Function.update db.masterRegister batch.batchId
      (some (batch.provenanceJson, {entry | ∃ row ∈ rows, (row.canonicalKey, row.recordJson) = entry})) := by
  have hfresh : ∀ other ∈ db.masterBatches, other.batchId ≠ batch.batchId := by
    intro other hmem hid
    exact absurd (beq_iff_eq.mpr hid) (List.find?_eq_none.mp hnew other hmem)
  funext batchId
  by_cases hid : batchId = batch.batchId
  · rw [hid, Function.update_self, Database.masterRegister, batchRecords_add_new href hrows hfresh]
    simp [Database.addMaster, List.find?_append, hnew]
  · rw [Function.update_of_ne hid, Database.masterRegister, batchRecords_add_other hrows hid]
    simp [Database.addMaster, Database.masterRegister, List.find?_append, Ne.symm hid]

/-- The stored records of a batch hold the content of the given ones. -/
theorem masterRecordRow_eq_ok {batchId : String} {record : InstrumentMasterRecord} {row : MasterRecordRow}
    (h : masterRecordRow batchId record = .ok row) :
    row.batchId = batchId ∧ (row.canonicalKey, row.recordJson) =
      (record.instrument.canonicalKey, canonicalJson record) := by
  obtain ⟨expiry, -, h⟩ := Except.bind_eq_ok.mp h
  obtain ⟨strike, -, h⟩ := Except.bind_eq_ok.mp h
  obtain ⟨tickSize, -, h⟩ := Except.bind_eq_ok.mp h
  obtain ⟨lotSize, -, h⟩ := Except.bind_eq_ok.mp h
  cases h
  exact ⟨rfl, rfl⟩

theorem masterRecordRows {batchId : String} {records : List InstrumentMasterRecord} {rows : List MasterRecordRow}
    (h : records.mapM (masterRecordRow batchId) = .ok rows) :
    (∀ row ∈ rows, row.batchId = batchId) ∧
      {entry | ∃ row ∈ rows, (row.canonicalKey, row.recordJson) = entry} = recordContent records := by
  constructor
  · intro row hrow
    obtain ⟨record, -, hok⟩ := Except.mapM_mem h hrow
    exact (masterRecordRow_eq_ok hok).1
  · ext entry
    constructor
    · rintro ⟨row, hrow, rfl⟩
      obtain ⟨record, hrecord, hok⟩ := Except.mapM_mem h hrow
      exact ⟨record, hrecord, (masterRecordRow_eq_ok hok).2.symm⟩
    · rintro ⟨record, hrecord, rfl⟩
      obtain ⟨row, hrow, hok⟩ := Except.mapM_all h hrecord
      exact ⟨row, hrow, (masterRecordRow_eq_ok hok).2⟩

end Registers

/-! ### Validation -/

/-- A validated master has been fetched at a moment with a zone. -/
theorem fetchedAt_of_valid {provenance : InstrumentMasterProvenance} {records : List InstrumentMasterRecord}
    (h : validateMaster provenance records = .ok ()) :
    ∃ fetchedAt, timestamp provenance.fetchedAt "master.fetched_at" = .ok fetchedAt := by
  obtain ⟨-, h⟩ := Except.ite_error_eq_ok.mp h
  obtain ⟨fetchedAt, hfetched, -⟩ := Except.bind_eq_ok.mp h
  exact ⟨fetchedAt, hfetched⟩

/-- The order of the records does not matter to their validation. -/
theorem validateMaster_perm {provenance : InstrumentMasterProvenance} {records records' : List InstrumentMasterRecord}
    (hperm : records'.Perm records) (h : validateMaster provenance records = .ok ()) :
    validateMaster provenance records' = .ok () := by
  obtain ⟨hidentity, h⟩ := Except.ite_error_eq_ok.mp h
  obtain ⟨fetchedAt, hfetched, h⟩ := Except.bind_eq_ok.mp h
  obtain ⟨hcount, h⟩ := Except.ite_error_eq_ok.mp h
  obtain ⟨hnodup, h⟩ := Except.ite_error_eq_ok.mp h
  refine Except.ite_error_eq_ok.mpr ⟨hidentity, Except.bind_eq_ok.mpr ⟨fetchedAt, hfetched, ?_⟩⟩
  refine Except.ite_error_eq_ok.mpr ⟨?_, Except.ite_error_eq_ok.mpr ⟨?_, ?_⟩⟩
  · rw [hperm.length_eq]
    exact hcount
  · rw [(hperm.map _).nodup_iff]
    exact hnodup
  · rw [Except.forM_eq_ok] at h ⊢
    intro record hrecord
    exact h record (hperm.mem_iff.mp hrecord)

/-! ### Calls -/

section Calls

variable {env : Environment} {db db' : Database}

/-- A configuration that returned is published, for the first time or again. -/
theorem publishStrategyConfig_publishes {config : StrategyConfig} {publishedAt : Option Datetime} {hash : String}
    (h : (publishStrategyConfig env config publishedAt).Returns db hash db') :
    hash = contentHash config ∧
      Publishes db.configRegister config.version (configContent config) db'.configRegister ∧
      (db.configRegister config.version ≠ none → db' = db) := by
  obtain ⟨published, d, hpublished, h⟩ := returns_bind.mp h
  obtain ⟨-, hd⟩ := returns_ofExcept.mp hpublished
  subst hd
  obtain ⟨c', hbody, hstore⟩ := returns_transaction h
  subst hstore
  obtain ⟨hhash, ⟨hsame, row, hfind, hrowHash, hrowJson⟩ | ⟨hfind, occurred, hstore⟩⟩ :=
    publishTransaction_cases hbody
  · have hstored : db.configRegister config.version = some (configContent config) := by
      rw [Database.configRegister, hfind, Option.map_some, hrowHash, hrowJson, configContent]
    refine ⟨hhash, ?_, fun _ => hsame⟩
    rw [hsame]
    exact .again hstored
  · have hnew : db.configRegister config.version = none := by
      rw [Database.configRegister, hfind, Option.map_none]
    refine ⟨hhash, ?_, fun hne => absurd hnew hne⟩
    have hregister : c'.store.configRegister =
        Function.update db.configRegister config.version (some (configContent config)) := by
      rw [hstore]
      exact configRegister_add hfind
    rw [hregister]
    exact .first hnew

/-- What is stored is published again with nothing changed. -/
theorem publishStrategyConfig_again {config : StrategyConfig} {publishedAt : Option Datetime}
    (hrefused : ∀ n, env.refused n = none) (htimes : ∀ moment ∈ publishedAt, moment.HasUtc)
    (hstored : db.configRegister config.version = some (configContent config)) :
    (publishStrategyConfig env config publishedAt).Returns db (contentHash config) db := by
  obtain ⟨row, hfind, hrow⟩ := Option.map_eq_some_iff.mp hstored
  rw [configContent, Prod.mk.injEq] at hrow
  have hmoment : (publishedAt.getD (.utc env.now)).HasUtc := by
    cases publishedAt with
    | none => exact Datetime.hasUtc_utc env.clock
    | some moment => exact htimes moment rfl
  refine bind_returns (ofExcept_returns (timestamp_eq_ok.mpr ⟨hmoment, rfl⟩)) ?_
  refine transaction_returns (c := ⟨db, 2⟩) hrefused ?_
  refine bind_returns (query_returns (hrefused 1) _) ?_
  rw [hfind]
  refine bind_returns (rejectIf_returns ?_) (returns_pure.mpr ⟨rfl, rfl⟩)
  rw [not_or, not_not, not_not]
  exact hrow

/-- A publication at a moment without a reading in UTC raises. -/
theorem publishStrategyConfig_raises {config : StrategyConfig} {moment : Datetime} (h : ¬moment.HasUtc) :
    ∃ fault, (publishStrategyConfig env config (some moment) db).1 = .error fault := by
  obtain ⟨fault, hfault⟩ := timestamp_raises h "published_at"
  refine ⟨fault, ?_⟩
  unfold publishStrategyConfig
  rw [Option.getD_some, hfault]
  rfl

/-- A master that returned is recorded, for the first time or again. -/
theorem recordInstrumentMaster_publishes {provenance : InstrumentMasterProvenance}
    {records : List InstrumentMasterRecord} {batchId : String} (href : db.RecordsReferenced)
    (h : (recordInstrumentMaster env provenance records).Returns db batchId db') :
    batchId = provenance.batchId ∧ validateMaster provenance records = .ok () ∧ db'.RecordsReferenced ∧
      Publishes db.masterRegister provenance.batchId (masterContent provenance records) db'.masterRegister ∧
      (db.masterRegister provenance.batchId ≠ none → db' = db) := by
  obtain ⟨_, d₁, hvalid, h⟩ := returns_bind.mp h
  obtain ⟨hvalidated, hd₁⟩ := returns_ofExcept.mp hvalid
  obtain ⟨fetchedAt, d₂, hfetched, h⟩ := returns_bind.mp h
  obtain ⟨-, hd₂⟩ := returns_ofExcept.mp hfetched
  subst hd₁ hd₂
  obtain ⟨c', hbody, hstore⟩ := returns_transaction h
  subst hstore
  obtain ⟨hid, ⟨hsame, batch, hfind, hjson, hrecords⟩ | ⟨hfind, rowCount, rows, occurred, hrows, hstore⟩⟩ :=
    recordTransaction_cases hbody
  · have hstored : db.masterRegister provenance.batchId = some (masterContent provenance records) := by
      rw [Database.masterRegister, hfind, Option.map_some, hjson, masterContent, sameRecords_iff.mp hrecords]
    rw [hsame]
    exact ⟨hid, hvalidated, href, .again hstored, fun _ => rfl⟩
  · have hnew : db.masterRegister provenance.batchId = none := by
      rw [Database.masterRegister, hfind, Option.map_none]
    obtain ⟨hbatch, hentries⟩ := masterRecordRows hrows
    have hregister : c'.store.masterRegister =
        Function.update db.masterRegister provenance.batchId (some (masterContent provenance records)) := by
      rw [hstore, masterContent, ← hentries]
      exact masterRegister_add href hfind hbatch
    refine ⟨hid, hvalidated, ?_, ?_, fun hne => absurd hnew hne⟩
    · rw [hstore]
      intro row hrow
      rcases List.mem_append.mp hrow with hold | hadded
      · obtain ⟨batch, hmem, hbatchId⟩ := href row hold
        exact ⟨batch, List.mem_append.mpr (.inl hmem), hbatchId⟩
      · exact ⟨_, List.mem_append.mpr (.inr (List.mem_singleton_self _)), (hbatch row hadded).symm⟩
    · rw [hregister]
      exact .first hnew

theorem recordInstrumentMaster_again {provenance : InstrumentMasterProvenance}
    {records : List InstrumentMasterRecord} (hrefused : ∀ n, env.refused n = none)
    (hvalid : validateMaster provenance records = .ok ())
    (hstored : db.masterRegister provenance.batchId = some (masterContent provenance records)) :
    (recordInstrumentMaster env provenance records).Returns db provenance.batchId db := by
  obtain ⟨batch, hfind, hbatch⟩ := Option.map_eq_some_iff.mp hstored
  rw [masterContent, Prod.mk.injEq] at hbatch
  obtain ⟨fetchedAt, hfetched⟩ := fetchedAt_of_valid hvalid
  refine bind_returns (ofExcept_returns hvalid) (bind_returns (ofExcept_returns hfetched) ?_)
  refine transaction_returns (c := ⟨db, 3⟩) hrefused ?_
  refine bind_returns (query_returns (hrefused 1) _) ?_
  rw [hfind]
  refine bind_returns (query_returns (hrefused 2) _) ?_
  refine bind_returns (rejectIf_returns ?_) (returns_pure.mpr ⟨rfl, rfl⟩)
  rw [not_or, not_not, not_not]
  exact ⟨hbatch.1, sameRecords_iff.mpr hbatch.2.symm⟩

/-! ### Runs -/

/-- Only publications store configurations. -/
theorem Writes.configs_kept {call : Call} (h : Writes env db call db')
    (hcall : ∀ config publishedAt, call ≠ .publishStrategyConfig config publishedAt) :
    db'.strategyConfigs = db.strategyConfigs := by
  cases h with
  | repeats call stored => rfl
  | published config publishedAt row occurred new => exact absurd rfl (hcall config publishedAt)
  | recorded provenance records batch rows occurred new => rfl
  | saved snapshot report status db' outcome effect =>
      cases effect with
      | rejected => rfl
      | accepted => rfl
  | overridden baseSnapshotId manual row occurred => rfl

/-- Only recordings store batches and records of the master. -/
theorem Writes.master_kept {call : Call} (h : Writes env db call db')
    (hcall : ∀ provenance records, call ≠ .recordInstrumentMaster provenance records) :
    db'.masterBatches = db.masterBatches ∧ db'.masterRecords = db.masterRecords := by
  cases h with
  | repeats call stored => exact ⟨rfl, rfl⟩
  | published config publishedAt row occurred new => exact ⟨rfl, rfl⟩
  | recorded provenance records batch rows occurred new => exact absurd rfl (hcall provenance records)
  | saved snapshot report status db' outcome effect =>
      cases effect with
      | rejected => exact ⟨rfl, rfl⟩
      | accepted => exact ⟨rfl, rfl⟩
  | overridden baseSnapshotId manual row occurred => exact ⟨rfl, rfl⟩

theorem configRegister_congr (h : db'.strategyConfigs = db.strategyConfigs) :
    db'.configRegister = db.configRegister := by
  unfold Database.configRegister
  rw [h]

theorem masterRegister_congr (hbatches : db'.masterBatches = db.masterBatches)
    (hrecords : db'.masterRecords = db.masterRecords) : db'.masterRegister = db.masterRegister := by
  unfold Database.masterRegister Database.batchRecords
  rw [hbatches, hrecords]

/-- A session whose result is set aside has returned what it returned. -/
theorem returns_bind_pure {α : Type} {x : Session Database Fault α} {u : Unit}
    (h : (x >>= fun _ => (pure () : Session Database Fault Unit)).Returns db u db') :
    ∃ value, x.Returns db value db' := by
  obtain ⟨value, d, hx, hpure⟩ := returns_bind.mp h
  obtain ⟨-, hd⟩ := returns_pure.mp hpure
  subst hd
  exact ⟨value, hx⟩

/-- Every call, whether it returns or raises, extends both registers. -/
theorem session_extends (env : Environment) (call : Call) (href : db.RecordsReferenced) :
    (call.session env db).2.RecordsReferenced ∧
      Extends db.configRegister (call.session env db).2.configRegister ∧
      Extends db.masterRegister (call.session env db).2.masterRegister := by
  rcases hrun : call.session env db with ⟨result, db'⟩
  cases result with
  | error fault =>
      have hsame : db' = db := rollsBack_session env call db fault db' hrun
      rw [hsame]
      exact ⟨href, extends_refl _, extends_refl _⟩
  | ok value =>
      have hreturns : (call.session env).Returns db value db' := hrun
      have hwrites : Writes env db call db' := session_writes hreturns
      show db'.RecordsReferenced ∧ Extends db.configRegister db'.configRegister ∧
        Extends db.masterRegister db'.masterRegister
      by_cases hmaster : ∃ provenance records, call = .recordInstrumentMaster provenance records
      · obtain ⟨provenance, records, rfl⟩ := hmaster
        obtain ⟨batchId, hrecord⟩ := returns_bind_pure hreturns
        obtain ⟨-, -, href', hpublishes, -⟩ := recordInstrumentMaster_publishes href hrecord
        refine ⟨href', ?_, hpublishes.extends⟩
        rw [configRegister_congr (hwrites.configs_kept fun _ _ => Call.noConfusion)]
        exact extends_refl _
      · push Not at hmaster
        obtain ⟨hbatches, hrecords⟩ := hwrites.master_kept hmaster
        refine ⟨?_, ?_, ?_⟩
        · unfold Database.RecordsReferenced
          rw [hbatches, hrecords]
          exact href
        · by_cases hconfig : ∃ config publishedAt, call = .publishStrategyConfig config publishedAt
          · obtain ⟨config, publishedAt, rfl⟩ := hconfig
            obtain ⟨hash, hpublish⟩ := returns_bind_pure hreturns
            exact (publishStrategyConfig_publishes hpublish).2.1.extends
          · push Not at hconfig
            rw [configRegister_congr (hwrites.configs_kept hconfig)]
            exact extends_refl _
        · rw [masterRegister_congr hbatches hrecords]
          exact extends_refl _

theorem runs_extends_configs (calls : List (Environment × Call)) (href : db.RecordsReferenced) :
    (runs calls db).RecordsReferenced ∧ Extends db.configRegister (runs calls db).configRegister :=
  extends_foldl Database.configRegister Database.RecordsReferenced
    (fun _ call href => ⟨(session_extends call.1 call.2 href).1, (session_extends call.1 call.2 href).2.1⟩) calls href

theorem runs_extends_masters (calls : List (Environment × Call)) (href : db.RecordsReferenced) :
    Extends db.masterRegister (runs calls db).masterRegister :=
  (extends_foldl Database.masterRegister Database.RecordsReferenced
    (fun _ call href => ⟨(session_extends call.1 call.2 href).1, (session_extends call.1 call.2 href).2.2⟩)
    calls href).2

/-- The records of a database that calls have filled refer to its batches. -/
theorem runs_referenced (calls : List (Environment × Call)) : (runs calls .empty).RecordsReferenced := by
  have hempty : Database.empty.RecordsReferenced := by
    intro row hrow
    cases hrow
  exact (runs_extends_configs calls hempty).1

/-- The records refer to the batches when a configuration has been published, too. -/
theorem publishStrategyConfig_referenced {config : StrategyConfig} {publishedAt : Option Datetime} {hash : String}
    (href : db.RecordsReferenced) (h : (publishStrategyConfig env config publishedAt).Returns db hash db') :
    db'.RecordsReferenced := by
  have hsession : (Call.publishStrategyConfig config publishedAt).session env db = (.ok (), db') :=
    returns_bind.mpr ⟨hash, db', h, returns_pure.mpr ⟨rfl, rfl⟩⟩
  have hextends := session_extends env (.publishStrategyConfig config publishedAt) href
  rw [hsession] at hextends
  exact hextends.1

theorem rollsBack_publishStrategyConfig (env : Environment) (config : StrategyConfig)
    (publishedAt : Option Datetime) : (publishStrategyConfig env config publishedAt).RollsBack :=
  rollsBack_bind_ofExcept _ fun _ => rollsBack_transaction _ _

theorem rollsBack_recordInstrumentMaster (env : Environment) (provenance : InstrumentMasterProvenance)
    (records : List InstrumentMasterRecord) : (recordInstrumentMaster env provenance records).RollsBack :=
  rollsBack_bind_ofExcept _ fun _ => rollsBack_bind_ofExcept _ fun _ => rollsBack_transaction _ _

/-- A call that agrees with what is stored whenever it returns, and then changes nothing. -/
theorem immutable_of_agrees {α : Type} {x : Session Database Fault α} (hrolls : x.RollsBack) (db : Database)
    (Same : Prop) (hreturns : ∀ value db', x.Returns db value db' → Same ∧ db' = db) :
    (x db).2 = db ∧ (¬Same → ∃ fault, (x db).1 = .error fault) := by
  rcases hrun : x db with ⟨result, db'⟩
  cases result with
  | error fault => exact ⟨hrolls db fault db' hrun, fun _ => ⟨fault, rfl⟩⟩
  | ok value =>
      obtain ⟨hsame, hdb⟩ := hreturns value db' hrun
      exact ⟨hdb, fun hdiffers => absurd hsame hdiffers⟩

end Calls

/-- Publications are immutable. In any state the calls have reached, and whatever calls follow, a later
publication of a version or recording of a batch changes no table: it returns the identifier again when its
content is that of the earlier one, the records in any order, and raises when its content differs. A moment of
publication without a reading in UTC raises too. -/
theorem publications_immutable (before between : List (Environment × Call)) (env later : Environment) :
    (∀ config publishedAt hash db,
      (publishStrategyConfig env config publishedAt).Returns (runs before .empty) hash db →
      ∀ other at', other.version = config.version →
        let again := publishStrategyConfig later other at' (runs between db)
        again.2 = runs between db ∧
        (canonicalJson other ≠ canonicalJson config → ∃ fault, again.1 = .error fault) ∧
        (canonicalJson other = canonicalJson config → (∀ n, later.refused n = none) →
          (∀ moment ∈ at', moment.HasUtc) → again.1 = .ok hash) ∧
        ∀ moment ∈ at', ¬moment.HasUtc → ∃ fault, again.1 = .error fault) ∧
    (∀ provenance records batchId db,
      (recordInstrumentMaster env provenance records).Returns (runs before .empty) batchId db →
      ∀ other records', other.batchId = provenance.batchId →
        let again := recordInstrumentMaster later other records' (runs between db)
        let same := canonicalJson other = canonicalJson provenance ∧ recordContent records' = recordContent records
        again.2 = runs between db ∧
        (¬same → ∃ fault, again.1 = .error fault) ∧
        (same → (∀ n, later.refused n = none) → validateMaster other records' = .ok () →
          again.1 = .ok batchId) ∧
        (other = provenance → records'.Perm records → (∀ n, later.refused n = none) → again.1 = .ok batchId)) := by
  have href := runs_referenced before
  constructor
  · intro config publishedAt hash db hfirst other at' hversion
    obtain ⟨hhash, hpublishes, -⟩ := publishStrategyConfig_publishes hfirst
    have hdb := publishStrategyConfig_referenced href hfirst
    have hstored := (runs_extends_configs between hdb).2 _ _ hpublishes.stored
    rw [← hversion] at hstored
    obtain ⟨hkept, hraises⟩ := immutable_of_agrees (rollsBack_publishStrategyConfig later other at')
      (runs between db) (canonicalJson other = canonicalJson config) fun value db' hreturns => by
        obtain ⟨-, hagain, hsame⟩ := publishStrategyConfig_publishes hreturns
        refine ⟨configContent_inj.mp (hagain.agrees hstored).1, hsame ?_⟩
        rw [hstored]
        exact Option.some_ne_none _
    refine ⟨hkept, hraises, fun hjson hrefused htimes => ?_, fun moment hmoment hutc => ?_⟩
    · rw [← configContent_inj.mpr hjson] at hstored
      have hreturns := publishStrategyConfig_again hrefused htimes hstored
      rw [hhash, contentHash_canonical, ← hjson, ← contentHash_canonical]
      exact congrArg Prod.fst hreturns
    · rw [Option.mem_def.mp hmoment]
      exact publishStrategyConfig_raises hutc
  · intro provenance records batchId db hfirst other records' hbatch
    obtain ⟨hid, hvalid, hdb, hpublishes, -⟩ := recordInstrumentMaster_publishes href hfirst
    have hstored := runs_extends_masters between hdb _ _ hpublishes.stored
    rw [← hbatch] at hstored
    have href' := (runs_extends_configs between hdb).1
    obtain ⟨hkept, hraises⟩ := immutable_of_agrees (rollsBack_recordInstrumentMaster later other records')
      (runs between db)
      (canonicalJson other = canonicalJson provenance ∧ recordContent records' = recordContent records)
      fun value db' hreturns => by
        obtain ⟨-, -, -, hagain, hsame⟩ := recordInstrumentMaster_publishes href' hreturns
        refine ⟨Prod.mk.inj (hagain.agrees hstored).1, hsame ?_⟩
        rw [hstored]
        exact Option.some_ne_none _
    have hagain : canonicalJson other = canonicalJson provenance ∧ recordContent records' = recordContent records →
        (∀ n, later.refused n = none) → validateMaster other records' = .ok () →
        (recordInstrumentMaster later other records' (runs between db)).1 = .ok batchId := by
      intro hsame hrefused hvalid'
      have hcontent : masterContent other records' = masterContent provenance records := Prod.ext hsame.1 hsame.2
      rw [← hcontent] at hstored
      rw [hid, ← hbatch]
      exact congrArg Prod.fst (recordInstrumentMaster_again hrefused hvalid' hstored)
    refine ⟨hkept, hraises, hagain, fun hother hperm hrefused => ?_⟩
    subst hother
    exact hagain ⟨rfl, recordContent_perm hperm⟩ hrefused (validateMaster_perm hperm hvalid)
/-! ### A publication and its repetition -/

/-- A surrounding in which no statement fails on its own. -/
def steadyEnvironment : Environment where
  now := 0
  uuid := "override"
  refused := fun _ => none
  castReal := fun _ => 0

def nseProvenance : InstrumentMasterProvenance where
  batchId := "NSE-1"
  provider := "DHAN"
  sourceUrl := ""
  contentHash := "digest"
  schemaVersion := "1"
  fetchedAt := .utc 0
  rowCount := 1

def niftyRecord : InstrumentMasterRecord where
  instrument := { exchange := .nse, segment := "IDX_I", securityId := "13", symbol := "NIFTY" }
  displayName := "NIFTY"
  instrumentType := "INDEX"
  underlyingSecurityId := none
  expiry := none
  strike := none
  optionType := none
  lotSize := none
  tickSize := none

theorem publications_immutable_sample :
    (∃ db, (publishStrategyConfig steadyEnvironment DEFAULT_STRATEGY_CONFIG none).Returns .empty
        (contentHash DEFAULT_STRATEGY_CONFIG) db ∧
      (publishStrategyConfig steadyEnvironment DEFAULT_STRATEGY_CONFIG none db).1 =
        .ok (contentHash DEFAULT_STRATEGY_CONFIG)) ∧
    ∃ db, (recordInstrumentMaster steadyEnvironment nseProvenance [niftyRecord]).Returns .empty "NSE-1" db ∧
      (recordInstrumentMaster steadyEnvironment nseProvenance [niftyRecord] db).1 = .ok "NSE-1" := by
  obtain ⟨hconfigs, hmasters⟩ := publications_immutable [] [] steadyEnvironment steadyEnvironment
  constructor
  · refine ⟨_, rfl, ?_⟩
    exact (hconfigs DEFAULT_STRATEGY_CONFIG none _ _ rfl DEFAULT_STRATEGY_CONFIG none rfl).2.2.1 rfl
      (fun _ => rfl) (fun _ h => nomatch h)
  · refine ⟨_, rfl, ?_⟩
    exact (hmasters nseProvenance [niftyRecord] _ _ rfl nseProvenance [niftyRecord] rfl).2.2.2 rfl
      (List.Perm.refl _) (fun _ => rfl)

/-- Repeating a publication at a naive moment raises. -/
theorem publication_again_raises :
    ∃ db, (publishStrategyConfig steadyEnvironment DEFAULT_STRATEGY_CONFIG none).Returns .empty
        (contentHash DEFAULT_STRATEGY_CONFIG) db ∧
      (publishStrategyConfig steadyEnvironment DEFAULT_STRATEGY_CONFIG (some ⟨0, none⟩) db).1 =
        .error (.persistence "published_at must be timezone-aware") :=
  ⟨_, rfl, rfl⟩

end TecoQuant.Persistence
