import TecoQuant.PersistenceCalls

/-! The accepted streams. The accepted snapshots of a contract and a source advance in sequence and in time
together, their head is the last of them, and each comes with its components; so the lookup of a previous
snapshot, which sorts by time and filters by sequence too, finds the greatest in both. -/

namespace TecoQuant.Persistence

open Domain Ingestion Strategy Transactional Session

/-- The accepted snapshots of a stream, in the order they were stored. -/
def Database.stream (db : Database) (contractKey : String) (source : DataSource) : List AcceptedSnapshotRow :=
  db.acceptedSnapshots.filter fun row => decide (row.contractKey = contractKey ∧ row.source = source)

/-- The heads stored for a stream. -/
def Database.heads (db : Database) (contractKey : String) (source : DataSource) : List SourceOrderHeadRow :=
  db.sourceOrderHeads.filter fun head => decide (head.contractKey = contractKey ∧ head.source = source)

/-- The head an accepted snapshot leaves. -/
def AcceptedSnapshotRow.head (row : AcceptedSnapshotRow) : SourceOrderHeadRow :=
  ⟨row.contractKey, row.source, row.sequence, row.sourceTimestamp, row.snapshotId⟩

/-- One accepted snapshot comes before another in sequence and in time. -/
def Precedes (earlier later : AcceptedSnapshotRow) : Prop :=
  earlier.sequence < later.sequence ∧ earlier.sourceTimestamp.us < later.sourceTimestamp.us

/-- Every stream advances, and its head is its last snapshot. -/
structure Streams (db : Database) : Prop where
  increasing : ∀ contractKey source, (db.stream contractKey source).Pairwise Precedes
  heads : ∀ contractKey source, db.heads contractKey source =
    ((db.stream contractKey source).getLast?.map AcceptedSnapshotRow.head).toList

/-- Attempts are distinct, and the accepted ones are those with components. -/
structure Components (db : Database) : Prop where
  attempts : (db.ingestionAttempts.map IngestionAttemptRow.snapshotId).Nodup
  accepted : db.acceptedSnapshots.map AcceptedSnapshotRow.snapshotId =
    (db.ingestionAttempts.filter fun row => decide (row.status = .accepted)).map IngestionAttemptRow.snapshotId
  markets : db.marketSnapshots.map MarketSnapshotRow.snapshotId =
    db.acceptedSnapshots.map AcceptedSnapshotRow.snapshotId
  technicals : db.technicalSnapshots.map TechnicalSnapshotRow.snapshotId =
    db.acceptedSnapshots.map AcceptedSnapshotRow.snapshotId
  contexts : db.strategyContextSnapshots.map StrategyContextRow.snapshotId =
    db.acceptedSnapshots.map AcceptedSnapshotRow.snapshotId
  legs : ∀ leg ∈ db.optionSnapshots, leg.snapshotId ∈ db.acceptedSnapshots.map AcceptedSnapshotRow.snapshotId

/-- The stored legs of a snapshot. -/
def Database.legs (db : Database) (snapshotId : String) : List OptionSnapshotRow :=
  db.optionSnapshots.filter fun row => row.snapshotId == snapshotId

/-- The snapshot was saved by one of the calls, and its stored legs are its option chain. -/
def SavedWith (calls : List (Environment × Call)) (db : Database) (row : AcceptedSnapshotRow)
    (snapshot : AtomicSnapshot) : Prop :=
  (∃ env report, (env, Call.saveIngestion snapshot report) ∈ calls) ∧ row.snapshotId = snapshot.snapshotId ∧
    snapshot.optionChain.mapM (optionRow snapshot) = .ok (db.legs row.snapshotId)

/-! ### Heads -/

section Heads

variable {heads : List SourceOrderHeadRow} {row : SourceOrderHeadRow} {contractKey : String} {source : DataSource}

/-- Storing a head replaces the one of its stream and leaves the others alone. -/
theorem filter_upsertHead
    (hone : (heads.filter fun head => decide (head.contractKey = row.contractKey ∧ head.source = row.source)).length ≤ 1) :
    (upsertHead heads row).filter (fun head => decide (head.contractKey = contractKey ∧ head.source = source)) =
      if row.contractKey = contractKey ∧ row.source = source then [row]
      else heads.filter fun head => decide (head.contractKey = contractKey ∧ head.source = source) := by
  unfold upsertHead
  by_cases hany : heads.any fun head => decide (head.contractKey = row.contractKey ∧ head.source = row.source)
  · -- The replacement has the key of what it replaces.
    rw [if_pos hany, List.filter_map]
    have hkeys : ((fun head : SourceOrderHeadRow => decide (head.contractKey = contractKey ∧ head.source = source)) ∘
        fun head => if head.contractKey = row.contractKey ∧ head.source = row.source then row else head) =
          fun head => decide (head.contractKey = contractKey ∧ head.source = source) := by
      funext head
      dsimp only [Function.comp]
      split
      · rename_i hsame
        rw [hsame.1, hsame.2]
      · rfl
    rw [hkeys]
    by_cases hrow : row.contractKey = contractKey ∧ row.source = source
    · obtain ⟨rfl, rfl⟩ := hrow
      rw [if_pos ⟨rfl, rfl⟩]
      obtain ⟨head, hmem, hmatch⟩ := List.any_eq_true.mp hany
      have hfilter : head ∈ heads.filter fun head =>
          decide (head.contractKey = row.contractKey ∧ head.source = row.source) := List.mem_filter.mpr ⟨hmem, hmatch⟩
      obtain ⟨only, honly⟩ := List.length_eq_one_iff.mp (le_antisymm hone (List.length_pos_of_mem hfilter))
      have hself : only.contractKey = row.contractKey ∧ only.source = row.source := by
        have hmemOnly : only ∈ heads.filter fun head =>
            decide (head.contractKey = row.contractKey ∧ head.source = row.source) := by
          rw [honly]
          exact List.mem_singleton_self _
        exact of_decide_eq_true (List.mem_filter.mp hmemOnly).2
      rw [honly, List.map_singleton, if_pos hself]
    · rw [if_neg hrow]
      refine (List.map_congr_left fun head hmem => ?_).trans (List.map_id _)
      have hkey := of_decide_eq_true (List.mem_filter.mp hmem).2
      exact if_neg fun hsame => hrow ⟨hsame.1.symm.trans hkey.1, hsame.2.symm.trans hkey.2⟩
  · rw [if_neg hany, List.filter_append]
    by_cases hrow : row.contractKey = contractKey ∧ row.source = source
    · have hnone : heads.filter (fun head => decide (head.contractKey = contractKey ∧ head.source = source)) = [] := by
        obtain ⟨rfl, rfl⟩ := hrow
        refine List.filter_eq_nil_iff.mpr fun head hmem hmatch => hany ?_
        exact List.any_eq_true.mpr ⟨head, hmem, hmatch⟩
      rw [if_pos hrow, hnone]
      simp [hrow]
    · rw [if_neg hrow]
      simp [hrow]

end Heads

/-! ### Steps -/

section Steps

variable {env : Environment} {db db' : Database} {snapshot : AtomicSnapshot} {report : ValidationReport}
  {status : SnapshotStatus}

theorem attemptRow_eq_ok {stamps : Stamps} {recordedAt : Timestamp} {attempt : IngestionAttemptRow}
    (h : attemptRow snapshot report status stamps recordedAt = .ok attempt) :
    attempt.snapshotId = snapshot.snapshotId ∧ attempt.status = status := by
  obtain ⟨sequence, -, h⟩ := Except.bind_eq_ok.mp h
  cases h
  exact ⟨rfl, rfl⟩

theorem marketRow_eq_ok {snapshotId : String} {market : MarketState} {row : MarketSnapshotRow}
    (h : marketRow snapshotId market = .ok row) : row.snapshotId = snapshotId := by
  unfold marketRow at h
  iterate 9 obtain ⟨_, -, h⟩ := Except.bind_eq_ok.mp h
  cases h
  rfl

theorem technicalRow_eq_ok {snapshotId : String} {technicals : TechnicalState} {row : TechnicalSnapshotRow}
    (h : technicalRow snapshotId technicals = .ok row) : row.snapshotId = snapshotId := by
  unfold technicalRow at h
  iterate 6 obtain ⟨_, -, h⟩ := Except.bind_eq_ok.mp h
  cases h
  rfl

theorem optionalInteger_eq_ok {value stored : Option Int} (h : optionalInteger value = .ok stored) :
    stored = value := by
  cases value with
  | none =>
      cases h
      rfl
  | some n =>
      obtain ⟨m, hm, rfl⟩ := Except.map_eq_ok.mp h
      rw [(integer_eq_ok.mp hm).2]

/-- What a stored leg keeps of its quote. -/
structure StoredLeg (snapshot : AtomicSnapshot) (quote : OptionQuote) (row : OptionSnapshotRow) : Prop where
  snapshotId : row.snapshotId = snapshot.snapshotId
  contractKey : row.contractKey = snapshot.contract.contractKey
  securityId : row.instrument.securityId = quote.securityId
  strike : decimal (some quote.strike) = .ok row.strike
  optionType : row.optionType = quote.optionType
  expiry : timestamp quote.expiry "option.expiry" = .ok row.expiry
  observedAt : timestamp quote.observedAt "option.observed_at" = .ok row.observedAt
  openInterest : row.openInterest = quote.openInterest
  changeOpenInterest : row.changeOpenInterest = quote.changeOpenInterest

theorem optionRow_eq_ok {quote : OptionQuote} {row : OptionSnapshotRow} (h : optionRow snapshot quote = .ok row) :
    StoredLeg snapshot quote row := by
  unfold optionRow at h
  obtain ⟨mapped, -, h⟩ := Except.bind_eq_ok.mp h
  obtain ⟨expiry, hexpiry, h⟩ := Except.bind_eq_ok.mp h
  obtain ⟨observedAt, hobserved, h⟩ := Except.bind_eq_ok.mp h
  obtain ⟨strike, hstrike, h⟩ := Except.bind_eq_ok.mp h
  iterate 8 obtain ⟨_, -, h⟩ := Except.bind_eq_ok.mp h
  obtain ⟨openInterest, hopen, h⟩ := Except.bind_eq_ok.mp h
  obtain ⟨_, -, h⟩ := Except.bind_eq_ok.mp h
  obtain ⟨changeOpenInterest, hchange, h⟩ := Except.bind_eq_ok.mp h
  cases h
  exact ⟨rfl, rfl, rfl, hstrike, rfl, hexpiry, hobserved, optionalInteger_eq_ok hopen, optionalInteger_eq_ok hchange⟩

/-- The head of a stream is that of its last snapshot. -/
theorem Streams.head_eq (h : Streams db) (contractKey : String) (source : DataSource) :
    db.head contractKey source = (db.stream contractKey source).getLast?.map AcceptedSnapshotRow.head := by
  have hhead : db.head contractKey source = (db.heads contractKey source).head? := List.head?_filter.symm
  rw [hhead, h.heads]
  cases (db.stream contractKey source).getLast? <;> rfl

/-- An element of a chain is its last one, or comes before it. -/
theorem precedes_last {rows : List AcceptedSnapshotRow} (h : rows.Pairwise Precedes) {row last : AcceptedSnapshotRow}
    (hrow : row ∈ rows) (hlast : rows.getLast? = some last) : row = last ∨ Precedes row last := by
  obtain ⟨init, rfl⟩ := List.getLast?_eq_some_iff.mp hlast
  obtain ⟨-, -, hall⟩ := List.pairwise_append.mp h
  rcases List.mem_append.mp hrow with hinit | hsame
  · exact .inr (hall row hinit last (List.mem_singleton_self _))
  · exact .inl (List.mem_singleton.mp hsame)

/-- A snapshot beyond the head comes after the whole stream. -/
theorem Streams.precedes_new (h : Streams db) {contractKey : String} {source : DataSource} {sequence us : Int}
    (hadvances : db.Advances contractKey source sequence us) {row : AcceptedSnapshotRow}
    (hrow : row ∈ db.stream contractKey source) : row.sequence < sequence ∧ row.sourceTimestamp.us < us := by
  cases hlast : (db.stream contractKey source).getLast? with
  | none =>
      rw [List.getLast?_eq_none_iff.mp hlast] at hrow
      cases hrow
  | some last =>
      have hhead := h.head_eq contractKey source
      rw [hlast] at hhead
      obtain ⟨hsequence, hus⟩ := hadvances last.head hhead
      rcases precedes_last (h.increasing contractKey source) hrow hlast with rfl | hprecedes
      · exact ⟨hsequence, hus⟩
      · exact ⟨hprecedes.1.trans hsequence, hprecedes.2.trans hus⟩

/-- Appending an accepted snapshot appends it to its stream. -/
theorem filter_append_row (rows : List AcceptedSnapshotRow) (row : AcceptedSnapshotRow) (contractKey : String)
    (source : DataSource) :
    (rows ++ [row]).filter (fun row => decide (row.contractKey = contractKey ∧ row.source = source)) =
      rows.filter (fun row => decide (row.contractKey = contractKey ∧ row.source = source)) ++
        if row.contractKey = contractKey ∧ row.source = source then [row] else [] := by
  rw [List.filter_append]
  by_cases hrow : row.contractKey = contractKey ∧ row.source = source <;> simp [hrow]

theorem Saved.streams (hsaved : Saved db snapshot report status db') (h : Streams db) : Streams db' := by
  cases hsaved with
  | rejected attempt issues occurred row admits => exact ⟨h.increasing, h.heads⟩
  | accepted source revisions mappings attempt issues market technicals legs occurred stamped advances =>
      constructor
      · intro contractKey src
        show List.Pairwise Precedes (List.filter _ (db.acceptedSnapshots ++ [acceptedRow snapshot source]))
        rw [filter_append_row]
        refine List.pairwise_append.mpr ⟨h.increasing contractKey src, ?_, fun row hrow new hnew => ?_⟩
        · split
          · exact List.pairwise_singleton _ _
          · exact List.Pairwise.nil
        · split at hnew
          · rename_i hkey
            obtain ⟨rfl, rfl⟩ := hkey
            rw [List.mem_singleton.mp hnew]
            exact h.precedes_new advances hrow
          · cases hnew
      · intro contractKey src
        show List.filter _ (upsertHead db.sourceOrderHeads (headRow snapshot source)) =
          ((List.filter _ (db.acceptedSnapshots ++ [acceptedRow snapshot source])).getLast?.map _).toList
        have hone : (db.heads (headRow snapshot source).contractKey (headRow snapshot source).source).length ≤ 1 := by
          rw [h.heads]
          cases (db.stream _ _).getLast? <;> simp
        rw [filter_upsertHead hone, filter_append_row]
        by_cases hkey : (headRow snapshot source).contractKey = contractKey ∧ (headRow snapshot source).source = src
        · have haccepted : (acceptedRow snapshot source).contractKey = contractKey ∧
              (acceptedRow snapshot source).source = src := hkey
          rw [if_pos hkey, if_pos haccepted, List.getLast?_concat]
          rfl
        · have haccepted : ¬((acceptedRow snapshot source).contractKey = contractKey ∧
              (acceptedRow snapshot source).source = src) := hkey
          rw [if_neg hkey, if_neg haccepted, List.append_nil]
          exact h.heads contractKey src

theorem Saved.components (hsaved : Saved db snapshot report status db') (h : Components db) : Components db' := by
  have hdistinct : ∀ {attempt : IngestionAttemptRow} {id : String}, attempt.snapshotId = id →
      db.AdmitsIngestionAttempt attempt →
        ((db.ingestionAttempts ++ [attempt]).map IngestionAttemptRow.snapshotId).Nodup := by
    intro attempt id hid hadmits
    rw [List.map_append, List.map_singleton]
    refine List.nodup_append.mpr ⟨h.attempts, List.nodup_singleton _, fun old hold new hnew => ?_⟩
    obtain ⟨row, hrow, rfl⟩ := List.mem_map.mp hold
    rw [List.mem_singleton.mp hnew]
    exact (hadmits row hrow).1
  cases hsaved with
  | rejected attempt issues occurred row admits =>
      obtain ⟨stamps, recordedAt, hrow⟩ := row
      obtain ⟨hid, hstatus⟩ := attemptRow_eq_ok hrow
      refine ⟨hdistinct hid admits, ?_, h.markets, h.technicals, h.contexts, h.legs⟩
      show db.acceptedSnapshots.map _ = (List.filter _ (db.ingestionAttempts ++ [attempt])).map _
      rw [List.filter_append, List.filter_singleton, hstatus, h.accepted]
      simp
  | accepted source revisions mappings attempt issues market technicals legs occurred stamped advances row admits
      admitsAccepted marketOk technicalsOk legsOk =>
      obtain ⟨stamps, recordedAt, hrow⟩ := row
      obtain ⟨hid, hstatus⟩ := attemptRow_eq_ok hrow
      have hmarket := marketRow_eq_ok marketOk
      have htechnicals := technicalRow_eq_ok technicalsOk
      refine ⟨hdistinct hid admits, ?_, ?_, ?_, ?_, ?_⟩
      · show (db.acceptedSnapshots ++ [acceptedRow snapshot source]).map _ =
          (List.filter _ (db.ingestionAttempts ++ [attempt])).map _
        rw [List.filter_append, List.filter_singleton, hstatus, List.map_append, h.accepted]
        simp [hid, acceptedRow]
      · show (db.marketSnapshots ++ [market]).map _ = (db.acceptedSnapshots ++ [_]).map _
        rw [List.map_append, List.map_append, h.markets]
        simp [hmarket, acceptedRow]
      · show (db.technicalSnapshots ++ [technicals]).map _ = (db.acceptedSnapshots ++ [_]).map _
        rw [List.map_append, List.map_append, h.technicals]
        simp [htechnicals, acceptedRow]
      · show (db.strategyContextSnapshots ++ [_]).map _ = (db.acceptedSnapshots ++ [_]).map _
        rw [List.map_append, List.map_append, h.contexts]
        rfl
      · intro leg hleg
        show leg.snapshotId ∈ (db.acceptedSnapshots ++ [acceptedRow snapshot source]).map _
        rw [List.map_append]
        rcases List.mem_append.mp hleg with hold | hnew
        · exact List.mem_append_left _ (h.legs leg hold)
        · obtain ⟨quote, -, hquote⟩ := Except.mapM_mem legsOk hnew
          rw [(optionRow_eq_ok hquote).snapshotId]
          exact List.mem_append_right _ (List.mem_singleton_self _)

/-- The identifier of an accepted snapshot has been attempted. -/
theorem Components.attempted (h : Components db) {row : AcceptedSnapshotRow} (hrow : row ∈ db.acceptedSnapshots) :
    ∃ attempt ∈ db.ingestionAttempts, attempt.snapshotId = row.snapshotId ∧ attempt.status = .accepted := by
  have hmem : row.snapshotId ∈ db.acceptedSnapshots.map AcceptedSnapshotRow.snapshotId := List.mem_map_of_mem hrow
  rw [h.accepted] at hmem
  obtain ⟨attempt, hattempt, hid⟩ := List.mem_map.mp hmem
  obtain ⟨hmem, hstatus⟩ := List.mem_filter.mp hattempt
  exact ⟨attempt, hmem, hid, of_decide_eq_true hstatus⟩

/-- Every accepted snapshot was saved by a call, with its chain. -/
def AllSaved (calls : List (Environment × Call)) (db : Database) : Prop :=
  ∀ row ∈ db.acceptedSnapshots, ∃ snapshot, SavedWith calls db row snapshot

theorem SavedWith.later {calls : List (Environment × Call)} {call : Environment × Call} {row : AcceptedSnapshotRow}
    (h : SavedWith calls db row snapshot) (hlegs : db'.legs row.snapshotId = db.legs row.snapshotId) :
    SavedWith (calls ++ [call]) db' row snapshot := by
  obtain ⟨⟨env, report, hcall⟩, hid, hchain⟩ := h
  exact ⟨⟨env, report, List.mem_append_left _ hcall⟩, hid, by rw [hlegs]; exact hchain⟩

/-- A saved snapshot has an identifier that no accepted one has. -/
theorem Saved.identifier_new (hsaved : Saved db snapshot report status db') (hcomponents : Components db) :
    ∀ other ∈ db.acceptedSnapshots, other.snapshotId ≠ snapshot.snapshotId := by
  have hnew : ∀ {attempt : IngestionAttemptRow}, attempt.snapshotId = snapshot.snapshotId →
      db.AdmitsIngestionAttempt attempt → ∀ other ∈ db.acceptedSnapshots, other.snapshotId ≠ snapshot.snapshotId := by
    intro attempt hid hadmits other hother hsame
    obtain ⟨stored, hstored, hstoredId, -⟩ := hcomponents.attempted hother
    exact (hadmits stored hstored).1 (by rw [hstoredId, hsame, hid])
  cases hsaved with
  | rejected attempt issues occurred row admits =>
      obtain ⟨stamps, recordedAt, hattempt⟩ := row
      exact hnew (attemptRow_eq_ok hattempt).1 admits
  | accepted source revisions mappings attempt issues market technicals legs occurred stamped advances row admits
      admitsAccepted marketOk technicalsOk legsOk =>
      obtain ⟨stamps, recordedAt, hattempt⟩ := row
      exact hnew (attemptRow_eq_ok hattempt).1 admits

/-- The stored legs of an accepted snapshot are its chain, and before it there were none of them. -/
theorem Saved.legs_saved (hsaved : Saved db snapshot report .accepted db') (hcomponents : Components db) :
    db.legs snapshot.snapshotId = [] ∧
      snapshot.optionChain.mapM (optionRow snapshot) = .ok (db'.legs snapshot.snapshotId) ∧
      ∃ source, timestamp snapshot.sourceTimestamp "source_timestamp" = .ok source ∧
        db'.acceptedSnapshots = db.acceptedSnapshots ++ [acceptedRow snapshot source] := by
  have hnew := hsaved.identifier_new hcomponents
  have hnone : db.legs snapshot.snapshotId = [] := by
    refine List.filter_eq_nil_iff.mpr fun leg hleg hmatch => ?_
    obtain ⟨other, hother, hid⟩ := List.mem_map.mp (hcomponents.legs leg hleg)
    exact hnew other hother (hid.trans (beq_iff_eq.mp hmatch))
  cases hsaved with
  | accepted source revisions mappings attempt issues market technicals legs occurred stamped advances row admits
      admitsAccepted marketOk technicalsOk legsOk =>
      refine ⟨hnone, ?_, source, stamped, rfl⟩
      have hall : legs.filter (fun leg => leg.snapshotId == snapshot.snapshotId) = legs := by
        refine List.filter_eq_self.mpr fun leg hleg => beq_iff_eq.mpr ?_
        obtain ⟨quote, -, hquote⟩ := Except.mapM_mem legsOk hleg
        exact (optionRow_eq_ok hquote).snapshotId
      show _ = Except.ok (List.filter _ (db.optionSnapshots ++ legs))
      rw [List.filter_append, hall]
      exact legsOk.trans (congrArg Except.ok (by rw [show db.optionSnapshots.filter _ = [] from hnone, List.nil_append]))

/-- The legs of the snapshots accepted before stay as they are. -/
theorem Saved.legs_kept (hsaved : Saved db snapshot report status db') (hcomponents : Components db)
    {row : AcceptedSnapshotRow} (hrow : row ∈ db.acceptedSnapshots) :
    db'.legs row.snapshotId = db.legs row.snapshotId := by
  have hnew := hsaved.identifier_new hcomponents
  cases hsaved with
  | rejected attempt issues occurred attempted admits => rfl
  | accepted source revisions mappings attempt issues market technicals legs occurred stamped advances attempted
      admits admitsAccepted marketOk technicalsOk legsOk =>
      show List.filter _ (db.optionSnapshots ++ legs) = List.filter _ db.optionSnapshots
      have hnone : legs.filter (fun leg => leg.snapshotId == row.snapshotId) = [] := by
        refine List.filter_eq_nil_iff.mpr fun leg hleg hmatch => hnew row hrow ?_
        obtain ⟨quote, -, hquote⟩ := Except.mapM_mem legsOk hleg
        rw [← beq_iff_eq.mp hmatch, (optionRow_eq_ok hquote).snapshotId]
      rw [List.filter_append, hnone, List.append_nil]

theorem Saved.allSaved {calls : List (Environment × Call)} (hsaved : Saved db snapshot report status db')
    (hcomponents : Components db) (h : AllSaved calls db) :
    AllSaved (calls ++ [(env, .saveIngestion snapshot report)]) db' := by
  have hold : ∀ row ∈ db.acceptedSnapshots, ∃ saved,
      SavedWith (calls ++ [(env, .saveIngestion snapshot report)]) db' row saved := by
    intro row hrow
    obtain ⟨saved, hsavedWith⟩ := h row hrow
    exact ⟨saved, hsavedWith.later (hsaved.legs_kept hcomponents hrow)⟩
  cases status with
  | rejected =>
      cases hsaved with
      | rejected attempt issues occurred row admits => exact hold
  | accepted =>
      obtain ⟨-, hchain, source, -, haccepted⟩ := hsaved.legs_saved hcomponents
      intro row hrow
      rw [haccepted] at hrow
      rcases List.mem_append.mp hrow with hbefore | hlast
      · exact hold row hbefore
      · rw [List.mem_singleton.mp hlast]
        exact ⟨snapshot, ⟨env, report, List.mem_append_right _ (List.mem_singleton_self _)⟩, rfl, hchain⟩

/-- What holds of the streams after a sequence of calls. -/
structure Reached (calls : List (Environment × Call)) (db : Database) : Prop where
  streams : Streams db
  components : Components db
  saved : AllSaved calls db

theorem Reached.later {calls : List (Environment × Call)} (h : Reached calls db) (call : Environment × Call) :
    Reached (calls ++ [call]) db :=
  ⟨h.streams, h.components, fun row hrow => (h.saved row hrow).imp fun _ hsaved => hsaved.later rfl⟩

/-- A call keeps the streams. -/
theorem Writes.reached {calls : List (Environment × Call)} {call : Call} (hwrites : Writes env db call db')
    (h : Reached calls db) : Reached (calls ++ [(env, call)]) db' := by
  cases hwrites with
  | repeats call stored => exact h.later _
  | published config publishedAt row occurred new =>
      obtain ⟨hstreams, hcomponents, hsaved⟩ := h.later (env, .publishStrategyConfig config publishedAt)
      exact ⟨⟨hstreams.increasing, hstreams.heads⟩, ⟨hcomponents.attempts, hcomponents.accepted,
        hcomponents.markets, hcomponents.technicals, hcomponents.contexts, hcomponents.legs⟩, hsaved⟩
  | recorded provenance records batch rows occurred new =>
      obtain ⟨hstreams, hcomponents, hsaved⟩ := h.later (env, .recordInstrumentMaster provenance records)
      exact ⟨⟨hstreams.increasing, hstreams.heads⟩, ⟨hcomponents.attempts, hcomponents.accepted,
        hcomponents.markets, hcomponents.technicals, hcomponents.contexts, hcomponents.legs⟩, hsaved⟩
  | overridden baseSnapshotId manual row occurred =>
      obtain ⟨hstreams, hcomponents, hsaved⟩ := h.later (env, .addManualOverride baseSnapshotId manual)
      exact ⟨⟨hstreams.increasing, hstreams.heads⟩, ⟨hcomponents.attempts, hcomponents.accepted,
        hcomponents.markets, hcomponents.technicals, hcomponents.contexts, hcomponents.legs⟩, hsaved⟩
  | saved snapshot report status db' outcome effect =>
      exact ⟨effect.streams h.streams, effect.components h.components, effect.allSaved h.components h.saved⟩

theorem runs_concat (calls : List (Environment × Call)) (call : Environment × Call) (db : Database) :
    runs (calls ++ [call]) db = (call.2.session call.1 (runs calls db)).2 := by
  rw [runs, List.foldl_concat]
  rfl

/-- Every reachable database keeps the streams. -/
theorem runs_reached (calls : List (Environment × Call)) : Reached calls (runs calls .empty) := by
  induction calls using List.reverseRecOn with
  | nil =>
      have hempty : ∀ row : AcceptedSnapshotRow, row ∉ Database.empty.acceptedSnapshots := fun _ => List.not_mem_nil
      exact ⟨⟨fun _ _ => List.Pairwise.nil, fun _ _ => rfl⟩, ⟨List.nodup_nil, rfl, rfl, rfl, rfl, fun leg hleg =>
        absurd hleg List.not_mem_nil⟩, fun row hrow => absurd hrow (hempty row)⟩
  | append_singleton calls call ih =>
      rw [runs_concat]
      rcases session_step call.1 call.2 (runs calls .empty) with hsame | hwrites
      · rw [hsame]
        exact ih.later call
      · exact hwrites.reached ih

end Steps

/-! ### Lookups -/

section Lookup

variable {calls : List (Environment × Call)} {db : Database}

/-- What `latest_previous_option_snapshot` is to find before a sequence and a moment. -/
def LatestBefore (calls : List (Environment × Call)) (db : Database) (contractKey : String) (source : DataSource)
    (sequence us : Int) : Option PreviousOptionSnapshot → Prop
  | none => ∀ row ∈ db.stream contractKey source, ¬(row.sequence < sequence ∧ row.sourceTimestamp.us < us)
  | some previous => ∃ row ∈ db.stream contractKey source,
      (row.sequence < sequence ∧ row.sourceTimestamp.us < us) ∧
      (∀ other ∈ db.stream contractKey source, other.sequence < sequence → other.sourceTimestamp.us < us →
        other.sequence ≤ row.sequence ∧ other.sourceTimestamp.us ≤ row.sourceTimestamp.us) ∧
      (previous.snapshotId, previous.sequence, previous.source, previous.contractKey) =
        (row.snapshotId, row.sequence, source, contractKey) ∧
      previous.sourceTimestamp = datetimeFromUs row.sourceTimestamp.us ∧
      ∃ snapshot legs, (∃ env report, (env, Call.saveIngestion snapshot report) ∈ calls) ∧
        snapshot.snapshotId = row.snapshotId ∧ snapshot.optionChain.mapM (optionRow snapshot) = .ok legs ∧
        previous.optionChain.Perm (legs.map optionFromRow)

/-- Within a stream the two orders agree. -/
theorem Streams.lockstep (h : Streams db) {contractKey : String} {source : DataSource} {a b : AcceptedSnapshotRow}
    (ha : a ∈ db.stream contractKey source) (hb : b ∈ db.stream contractKey source) :
    a.sourceTimestamp.us ≤ b.sourceTimestamp.us ↔ a.sequence ≤ b.sequence := by
  have hagree := (h.increasing contractKey source).imp (S := fun a b =>
    (a.sourceTimestamp.us ≤ b.sourceTimestamp.us ↔ a.sequence ≤ b.sequence) ∧
      (b.sourceTimestamp.us ≤ a.sourceTimestamp.us ↔ b.sequence ≤ a.sequence)) fun {a b} hprecedes => by
    obtain ⟨hsequence, hus⟩ := hprecedes
    omega
  exact (hagree.forall_of_forall_of_flip (fun a _ => by simp) (hagree.imp fun hab => ⟨hab.2, hab.1⟩) ha hb).1

theorem mem_precedingRows {contractKey : String} {source : DataSource} {sequence us : Int}
    {row : AcceptedSnapshotRow} :
    row ∈ db.precedingRows contractKey source (some sequence) (some us) ↔
      row ∈ db.stream contractKey source ∧ row.sequence < sequence ∧ row.sourceTimestamp.us < us := by
  simp only [Database.precedingRows, Database.stream, List.mem_filter, decide_eq_true_eq, Option.mem_some_iff,
    forall_eq', and_assoc]

theorem optionalTimestamp_reads {value : Datetime} (h : value.HasUtc) (path : String) :
    optionalTimestamp (some value) path = .ok (some ⟨value.toUtc.isoformat, value.instant⟩) :=
  congrArg (Except.map some) (timestamp_eq_ok.mpr ⟨h, rfl⟩)

theorem optionalTimestamp_raises {value : Datetime} (h : ¬value.HasUtc) (path : String) :
    ∃ fault, optionalTimestamp (some value) path = .error fault := by
  obtain ⟨fault, hfault⟩ := timestamp_raises h path
  exact ⟨fault, congrArg (Except.map some) hfault⟩

theorem optionalInteger_fits {value : Int} (h : -2 ^ 63 ≤ value ∧ value < 2 ^ 63) :
    optionalInteger (some value) = .ok (some value) :=
  congrArg (Except.map some) (if_pos h)

theorem optionalInteger_overflows {value : Int} (h : ¬(-2 ^ 63 ≤ value ∧ value < 2 ^ 63)) :
    optionalInteger (some value) = .error .overflow :=
  congrArg (Except.map some) (if_neg h)

/-- The lookup finds the greatest of the preceding snapshots. -/
theorem latestPrevious_eq (h : Reached calls db) (contractKey : String) (source : DataSource) {sequence : Int}
    {before : Datetime} (hsequence : -2 ^ 63 ≤ sequence ∧ sequence < 2 ^ 63) (hbefore : before.HasUtc) :
    ∃ found, latestPreviousOptionSnapshot db contractKey source (some sequence) (some before) = .ok found ∧
      LatestBefore calls db contractKey source sequence before.instant found := by
  have hok : latestPreviousOptionSnapshot db contractKey source (some sequence) (some before) =
      .ok (((db.precedingRows contractKey source (some sequence) (some before.instant)).argmax fun row =>
        toLex (row.sourceTimestamp.us, row.sequence)).map db.previousSnapshot) := by
    unfold latestPreviousOptionSnapshot
    rw [optionalTimestamp_reads hbefore, optionalInteger_fits hsequence]
    rfl
  refine ⟨_, hok, ?_⟩
  cases hmax : (db.precedingRows contractKey source (some sequence) (some before.instant)).argmax fun row =>
      toLex (row.sourceTimestamp.us, row.sequence) with
  | none =>
      intro row hrow hearlier
      have hmem := mem_precedingRows.mpr ⟨hrow, hearlier⟩
      rw [List.argmax_eq_none.mp hmax] at hmem
      cases hmem
  | some row =>
      obtain ⟨hrow, hearlier⟩ := mem_precedingRows.mp (List.argmax_mem hmax)
      obtain ⟨hstored, hkey⟩ := List.mem_filter.mp hrow
      obtain ⟨hcontract, hsource⟩ := of_decide_eq_true hkey
      obtain ⟨snapshot, hcall, hid, hchain⟩ := h.saved row hstored
      refine ⟨row, hrow, hearlier, fun other hother hless hbeforeOther => ?_, ?_, rfl, snapshot,
        db.legs row.snapshotId, hcall, hid.symm, hchain, ?_⟩
      · have hle := List.le_of_mem_argmax (mem_precedingRows.mpr ⟨hother, hless, hbeforeOther⟩) hmax
        have hus : other.sourceTimestamp.us ≤ row.sourceTimestamp.us := by
          rcases Prod.Lex.toLex_le_toLex.mp hle with hlt | ⟨heq, -⟩
          · exact hlt.le
          · exact heq.le
        exact ⟨(h.streams.lockstep hother hrow).mp hus, hus⟩
      · rw [← hcontract, ← hsource]
        rfl
      · exact List.perm_insertionSort _ _

/-- Outside SQLite's integers, or before a moment without a reading in UTC, the lookup raises. -/
theorem latestPrevious_raises (contractKey : String) (source : DataSource) {sequence : Int} {before : Datetime}
    (h : ¬((-2 ^ 63 ≤ sequence ∧ sequence < 2 ^ 63) ∧ before.HasUtc)) :
    ∃ fault, latestPreviousOptionSnapshot db contractKey source (some sequence) (some before) = .error fault := by
  unfold latestPreviousOptionSnapshot
  by_cases hbefore : before.HasUtc
  · rw [optionalTimestamp_reads hbefore, optionalInteger_overflows fun hsequence => h ⟨hsequence, hbefore⟩]
    exact ⟨_, rfl⟩
  · obtain ⟨fault, hfault⟩ := optionalTimestamp_raises hbefore "before_source_timestamp"
    rw [hfault]
    exact ⟨_, rfl⟩

end Lookup

/-! ### The invariant -/

/-- One element of a list without repetition has a key that occurs. -/
theorem filter_length_eq_one {α : Type} {key : α → String} {l : List α} (h : (l.map key).Nodup) {id : String}
    (hmem : id ∈ l.map key) : (l.filter fun a => key a == id).length = 1 := by
  have hcount : (l.map key).count id = l.countP fun a => key a == id := by
    rw [List.count, List.countP_map]
    rfl
  rw [← List.countP_eq_length_filter, ← hcount]
  exact List.count_eq_one_of_mem h hmem

/-- Every accepted snapshot has one attempt and one row of each component. -/
def HasComponents (db : Database) (snapshotId : String) : Prop :=
  (db.ingestionAttempts.filter fun row => row.snapshotId == snapshotId).length = 1 ∧
    (db.marketSnapshots.filter fun row => row.snapshotId == snapshotId).length = 1 ∧
    (db.technicalSnapshots.filter fun row => row.snapshotId == snapshotId).length = 1 ∧
    (db.strategyContextSnapshots.filter fun row => row.snapshotId == snapshotId).length = 1

/-- No component of a snapshot is stored. -/
def NoComponents (db : Database) (snapshotId : String) : Prop :=
  (∀ row ∈ db.acceptedSnapshots, row.snapshotId ≠ snapshotId) ∧
    (∀ row ∈ db.marketSnapshots, row.snapshotId ≠ snapshotId) ∧
    (∀ row ∈ db.technicalSnapshots, row.snapshotId ≠ snapshotId) ∧
    (∀ row ∈ db.strategyContextSnapshots, row.snapshotId ≠ snapshotId) ∧
    ∀ row ∈ db.optionSnapshots, row.snapshotId ≠ snapshotId

section Invariant

variable {db : Database}

theorem Components.distinct (h : Components db) :
    (db.acceptedSnapshots.map AcceptedSnapshotRow.snapshotId).Nodup := by
  rw [h.accepted]
  exact h.attempts.sublist (List.filter_sublist.map _)

theorem Components.hasComponents (h : Components db) {row : AcceptedSnapshotRow} (hrow : row ∈ db.acceptedSnapshots) :
    HasComponents db row.snapshotId := by
  have hid : row.snapshotId ∈ db.acceptedSnapshots.map AcceptedSnapshotRow.snapshotId := List.mem_map_of_mem hrow
  obtain ⟨attempt, hattempt, hsame, -⟩ := h.attempted hrow
  refine ⟨filter_length_eq_one h.attempts (hsame ▸ List.mem_map_of_mem hattempt), ?_, ?_, ?_⟩
  · exact filter_length_eq_one (h.markets ▸ h.distinct) (h.markets ▸ hid)
  · exact filter_length_eq_one (h.technicals ▸ h.distinct) (h.technicals ▸ hid)
  · exact filter_length_eq_one (h.contexts ▸ h.distinct) (h.contexts ▸ hid)

/-- An identifier occurs in one attempt, so a rejected one has no accepted snapshot. -/
theorem Components.noComponents (h : Components db) {attempt : IngestionAttemptRow}
    (hattempt : attempt ∈ db.ingestionAttempts) (hrejected : attempt.status = .rejected) :
    NoComponents db attempt.snapshotId := by
  have hnone : attempt.snapshotId ∉ db.acceptedSnapshots.map AcceptedSnapshotRow.snapshotId := by
    intro hmem
    obtain ⟨row, hrow, hid⟩ := List.mem_map.mp hmem
    obtain ⟨stored, hstored, hsame, haccepted⟩ := h.attempted hrow
    have heq := List.inj_on_of_nodup_map h.attempts hattempt hstored (hid.symm.trans hsame.symm)
    rw [heq, haccepted] at hrejected
    cases hrejected
  refine ⟨fun row hrow hid => hnone (hid ▸ List.mem_map_of_mem hrow), fun row hrow hid => hnone ?_,
    fun row hrow hid => hnone ?_, fun row hrow hid => hnone ?_, fun row hrow hid => hnone (hid ▸ h.legs row hrow)⟩
  · rw [← h.markets, ← hid]
    exact List.mem_map_of_mem hrow
  · rw [← h.technicals, ← hid]
    exact List.mem_map_of_mem hrow
  · rw [← h.contexts, ← hid]
    exact List.mem_map_of_mem hrow

end Invariant

/-- In every reachable state the accepted streams advance, their heads and components are in step with
them, and the lookup finds the greatest preceding snapshot. -/
theorem accepted_streams (calls : List (Environment × Call)) :
    let db := runs calls .empty
    (∀ contractKey source, (db.stream contractKey source).Pairwise Precedes) ∧
      (∀ contractKey source, db.heads contractKey source =
        ((db.stream contractKey source).getLast?.map AcceptedSnapshotRow.head).toList) ∧
      (∀ row ∈ db.acceptedSnapshots, HasComponents db row.snapshotId) ∧
      (∀ attempt ∈ db.ingestionAttempts, attempt.status = .rejected → NoComponents db attempt.snapshotId) ∧
      ∀ (contractKey : String) (source : DataSource) (sequence : Int) (before : Datetime),
        if (-2 ^ 63 ≤ sequence ∧ sequence < 2 ^ 63) ∧ before.HasUtc then
          ∃ found, latestPreviousOptionSnapshot db contractKey source (some sequence) (some before) = .ok found ∧
            LatestBefore calls db contractKey source sequence before.instant found
        else ∃ fault, latestPreviousOptionSnapshot db contractKey source (some sequence) (some before) = .error fault := by
  intro db
  have hreached := runs_reached calls
  refine ⟨hreached.streams.increasing, hreached.streams.heads, fun row hrow => hreached.components.hasComponents hrow,
    fun attempt hattempt hrejected => hreached.components.noComponents hattempt hrejected,
    fun contractKey source sequence before => ?_⟩
  split
  · rename_i h
    exact latestPrevious_eq hreached contractKey source h.1 h.2
  · rename_i h
    exact latestPrevious_raises contractKey source h

/-- The lookup does not return before a sequence of 64 bits. -/
theorem latestPrevious_overflows :
    ¬∀ (calls : List (Environment × Call)) (contractKey : String) (source : DataSource) (sequence : Int)
      (before : Datetime), ∃ found, latestPreviousOptionSnapshot (runs calls .empty) contractKey source
        (some sequence) (some before) = .ok found ∧
          LatestBefore calls (runs calls .empty) contractKey source sequence before.instant found := by
  intro hclaim
  obtain ⟨found, hfound, -⟩ := hclaim [] "contract" .dhanRest (2 ^ 63) (.utc 0)
  cases hfound

end TecoQuant.Persistence
