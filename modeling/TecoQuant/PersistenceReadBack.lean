import TecoQuant.BaseDecimalNormalize
import TecoQuant.BaseStableOrder
import TecoQuant.PersistenceStreams

/-! Reading a stored chain back. A leg comes back with the numbers it was saved with exactly when its decimals
fit the context they are normalized in and its floats are numbers. -/

namespace TecoQuant.Persistence

open Domain Ingestion Strategy Transactional Session

/-! ### Columns -/

/-- A stored decimal has the value it was given exactly when that is a normal number. -/
theorem decimal_some {d : Decimal} {column : Option Decimal} (h : decimal (some d) = .ok column) :
    ∃ stored, column = some stored ∧ d.IsFinite ∧ stored.IsFinite ∧
      (stored.value = d.value ↔ Decimal.Normal d.value) := by
  obtain ⟨hfinite, h⟩ := Except.ite_error_eq_ok.mp h
  rw [not_not] at hfinite
  by_cases hzero : d.IsZero
  · rw [if_pos hzero] at h
    refine ⟨0, (Except.ok.inj h).symm, hfinite, trivial, ?_⟩
    have hvalue : d.value = 0 := by
      cases d with
      | finite negative coefficient exponent =>
          have hcoefficient : coefficient = 0 := hzero
          simp [Decimal.value, hcoefficient]
      | infinity negative => exact hzero.elim
      | nan => exact hzero.elim
    rw [hvalue, Decimal.value_zero]
    exact iff_of_true rfl Decimal.normal_zero
  · rw [if_neg hzero] at h
    obtain ⟨normal, hnormalized, hcolumn⟩ := Except.map_eq_ok.mp h
    obtain ⟨hnormal, hkept⟩ := Decimal.normalize_kept_iff hfinite (Except.mapError_eq_ok.mp hnormalized)
    refine ⟨normal.plain, hcolumn.symm, hfinite, Decimal.plain_isFinite.mpr hnormal, ?_⟩
    rw [Decimal.plain_value]
    exact hkept

/-- A decimal column holds the number it was given exactly when that is a normal number. -/
theorem decimal_kept_iff {value column : Option Decimal} (h : decimal value = .ok column) :
    Option.Rel Decimal.Same value column ↔ ∀ d ∈ value, Decimal.Normal d.value := by
  cases value with
  | none =>
      have hcolumn : column = none := (Except.ok.inj h).symm
      rw [hcolumn]
      exact ⟨fun _ => nofun, fun _ => .none⟩
  | some d =>
      obtain ⟨stored, rfl, hfinite, hstored, hkept⟩ := decimal_some h
      constructor
      · rintro (hsame | _) given hgiven
        cases hgiven
        exact hkept.mp hsame.2.2.symm
      · intro hfits
        exact .some ⟨hfinite, hstored, (hkept.mpr (hfits d rfl)).symm⟩

/-- A float column holds the number it was given; a NaN becomes NULL. -/
theorem real_kept_iff {value : Option Binary64} :
    Option.Rel Binary64.Equal value (real value) ↔ ∀ x ∈ value, x ≠ .nan := by
  cases value with
  | none => exact ⟨fun _ => nofun, fun _ => .none⟩
  | some x =>
      by_cases hx : x = .nan
      · subst hx
        constructor
        · intro h
          cases h
        · intro h
          exact absurd rfl (h .nan rfl)
      · have hreal : real (some x) = some x := Option.filter_some_pos (decide_eq_true hx)
        rw [hreal]
        constructor
        · rintro - y hy
          cases hy
          exact hx
        · intro _
          refine .some ?_
          cases x with
          | finite negative value => exact ⟨le_refl value, le_refl value⟩
          | infinity negative => exact ⟨by cases negative <;> decide, by cases negative <;> decide⟩
          | nan => exact absurd rfl hx

theorem timestamp_us {moment : Datetime} {path : String} {stamp : Timestamp} (h : timestamp moment path = .ok stamp) :
    (datetimeFromUs stamp.us).instant = moment.instant := by
  obtain ⟨-, rfl⟩ := timestamp_eq_ok.mp h
  show moment.instant - 0 = moment.instant
  omega

/-! ### Legs -/

/-- A leg with the numbers and the moments of another. -/
structure SameLeg (quote stored : OptionQuote) : Prop where
  securityId : stored.securityId = quote.securityId
  strike : Decimal.Same quote.strike stored.strike
  optionType : stored.optionType = quote.optionType
  expiry : stored.expiry.instant = quote.expiry.instant
  observedAt : stored.observedAt.instant = quote.observedAt.instant
  bid : Option.Rel Decimal.Same quote.bid stored.bid
  ask : Option.Rel Decimal.Same quote.ask stored.ask
  ltp : Option.Rel Decimal.Same quote.ltp stored.ltp
  previousClose : Option.Rel Decimal.Same quote.previousClose stored.previousClose
  bidQuantity : stored.bidQuantity = quote.bidQuantity
  askQuantity : stored.askQuantity = quote.askQuantity
  volume : stored.volume = quote.volume
  openInterest : stored.openInterest = quote.openInterest
  previousOpenInterest : stored.previousOpenInterest = quote.previousOpenInterest
  changeOpenInterest : stored.changeOpenInterest = quote.changeOpenInterest
  changeOiSourceSnapshotId : stored.changeOiSourceSnapshotId = quote.changeOiSourceSnapshotId
  changeOiIntervalSeconds : Option.Rel Binary64.Equal quote.changeOiIntervalSeconds stored.changeOiIntervalSeconds
  impliedVolatility : Option.Rel Binary64.Equal quote.impliedVolatility stored.impliedVolatility
  delta : Option.Rel Binary64.Equal quote.greeks.delta stored.greeks.delta
  gamma : Option.Rel Binary64.Equal quote.greeks.gamma stored.greeks.gamma
  theta : Option.Rel Binary64.Equal quote.greeks.theta stored.greeks.theta
  vega : Option.Rel Binary64.Equal quote.greeks.vega stored.greeks.vega
  theoreticalPrice : Option.Rel Decimal.Same quote.greeks.theoreticalPrice stored.greeks.theoreticalPrice

/-- The decimals of a leg. -/
def decimalsOf (quote : OptionQuote) : List (Option Decimal) :=
  [some quote.strike, quote.bid, quote.ask, quote.ltp, quote.previousClose, quote.greeks.theoreticalPrice]

/-- The floats of a leg. -/
def floatsOf (quote : OptionQuote) : List (Option Binary64) :=
  [quote.changeOiIntervalSeconds, quote.impliedVolatility, quote.greeks.delta, quote.greeks.gamma,
    quote.greeks.theta, quote.greeks.vega]

/-- A leg whose columns hold it: its decimals have at most 28 significant digits, none below the last place of a
subnormal number, and no float is a NaN. -/
def Storable (quote : OptionQuote) : Prop :=
  (∀ column ∈ decimalsOf quote, ∀ d ∈ column, Decimal.Normal d.value) ∧
    ∀ column ∈ floatsOf quote, ∀ x ∈ column, x ≠ .nan

/-- What each column of a stored leg was given. -/
structure StoredColumns (quote : OptionQuote) (row : OptionSnapshotRow) : Prop where
  bid : decimal quote.bid = .ok row.bid
  ask : decimal quote.ask = .ok row.ask
  ltp : decimal quote.ltp = .ok row.ltp
  previousClose : decimal quote.previousClose = .ok row.previousClose
  theoreticalPrice : decimal quote.greeks.theoreticalPrice = .ok row.theoreticalPrice
  bidQuantity : row.bidQuantity = quote.bidQuantity
  askQuantity : row.askQuantity = quote.askQuantity
  volume : row.volume = quote.volume
  previousOpenInterest : row.previousOpenInterest = quote.previousOpenInterest
  changeOiSourceSnapshotId : row.changeOiSourceSnapshotId = quote.changeOiSourceSnapshotId
  changeOiIntervalSeconds : row.changeOiIntervalSeconds = real quote.changeOiIntervalSeconds
  impliedVolatility : row.impliedVolatility = real quote.impliedVolatility
  delta : row.delta = real quote.greeks.delta
  gamma : row.gamma = real quote.greeks.gamma
  theta : row.theta = real quote.greeks.theta
  vega : row.vega = real quote.greeks.vega

section Legs

variable {snapshot : AtomicSnapshot} {quote : OptionQuote} {row : OptionSnapshotRow}

theorem optionRow_columns (h : optionRow snapshot quote = .ok row) : StoredColumns quote row := by
  unfold optionRow at h
  obtain ⟨mapped, -, h⟩ := Except.bind_eq_ok.mp h
  obtain ⟨expiry, -, h⟩ := Except.bind_eq_ok.mp h
  obtain ⟨observedAt, -, h⟩ := Except.bind_eq_ok.mp h
  obtain ⟨strike, -, h⟩ := Except.bind_eq_ok.mp h
  obtain ⟨bid, hbid, h⟩ := Except.bind_eq_ok.mp h
  obtain ⟨ask, hask, h⟩ := Except.bind_eq_ok.mp h
  obtain ⟨ltp, hltp, h⟩ := Except.bind_eq_ok.mp h
  obtain ⟨previousClose, hclose, h⟩ := Except.bind_eq_ok.mp h
  obtain ⟨theoreticalPrice, htheoretical, h⟩ := Except.bind_eq_ok.mp h
  obtain ⟨bidQuantity, hbidQuantity, h⟩ := Except.bind_eq_ok.mp h
  obtain ⟨askQuantity, haskQuantity, h⟩ := Except.bind_eq_ok.mp h
  obtain ⟨volume, hvolume, h⟩ := Except.bind_eq_ok.mp h
  obtain ⟨openInterest, -, h⟩ := Except.bind_eq_ok.mp h
  obtain ⟨previousOpenInterest, hprevious, h⟩ := Except.bind_eq_ok.mp h
  obtain ⟨changeOpenInterest, -, h⟩ := Except.bind_eq_ok.mp h
  cases h
  exact ⟨hbid, hask, hltp, hclose, htheoretical, optionalInteger_eq_ok hbidQuantity,
    optionalInteger_eq_ok haskQuantity, optionalInteger_eq_ok hvolume, optionalInteger_eq_ok hprevious,
    rfl, rfl, rfl, rfl, rfl, rfl, rfl⟩

/-- A leg comes back as it was saved exactly when its columns hold it. -/
theorem sameLeg_iff (h : optionRow snapshot quote = .ok row) : SameLeg quote (optionFromRow row) ↔ Storable quote := by
  have hleg := optionRow_eq_ok h
  have hcolumns := optionRow_columns h
  obtain ⟨strike, hstrike, -⟩ := decimal_some hleg.strike
  have hkept := decimal_kept_iff hleg.strike
  have hreal : ∀ {value column : Option Binary64}, column = real value →
      (Option.Rel Binary64.Equal value column ↔ ∀ x ∈ value, x ≠ .nan) := by
    rintro value column rfl
    exact real_kept_iff
  constructor
  · intro hsame
    have hstrikeKept : Option.Rel Decimal.Same (some quote.strike) row.strike := by
      have hgiven := hsame.strike
      rw [hstrike]
      refine .some ?_
      simpa [optionFromRow, hstrike] using hgiven
    constructor
    · simp only [decimalsOf, List.forall_mem_cons]
      exact ⟨hkept.mp hstrikeKept, (decimal_kept_iff hcolumns.bid).mp hsame.bid,
        (decimal_kept_iff hcolumns.ask).mp hsame.ask, (decimal_kept_iff hcolumns.ltp).mp hsame.ltp,
        (decimal_kept_iff hcolumns.previousClose).mp hsame.previousClose,
        (decimal_kept_iff hcolumns.theoreticalPrice).mp hsame.theoreticalPrice, nofun⟩
    · simp only [floatsOf, List.forall_mem_cons]
      exact ⟨(hreal hcolumns.changeOiIntervalSeconds).mp hsame.changeOiIntervalSeconds,
        (hreal hcolumns.impliedVolatility).mp hsame.impliedVolatility, (hreal hcolumns.delta).mp hsame.delta,
        (hreal hcolumns.gamma).mp hsame.gamma, (hreal hcolumns.theta).mp hsame.theta,
        (hreal hcolumns.vega).mp hsame.vega, nofun⟩
  · rintro ⟨hdecimals, hfloats⟩
    simp only [decimalsOf, List.forall_mem_cons] at hdecimals
    simp only [floatsOf, List.forall_mem_cons] at hfloats
    obtain ⟨hstrikeFits, hbid, hask, hltp, hclose, htheoretical, -⟩ := hdecimals
    obtain ⟨hinterval, hvolatility, hdelta, hgamma, htheta, hvega, -⟩ := hfloats
    have hstrikeKept := hkept.mpr hstrikeFits
    rw [hstrike] at hstrikeKept
    exact {
      securityId := hleg.securityId
      strike := by
        cases hstrikeKept with
        | some hsame => simpa [optionFromRow, hstrike] using hsame
      optionType := hleg.optionType
      expiry := timestamp_us hleg.expiry
      observedAt := timestamp_us hleg.observedAt
      bid := (decimal_kept_iff hcolumns.bid).mpr hbid
      ask := (decimal_kept_iff hcolumns.ask).mpr hask
      ltp := (decimal_kept_iff hcolumns.ltp).mpr hltp
      previousClose := (decimal_kept_iff hcolumns.previousClose).mpr hclose
      bidQuantity := hcolumns.bidQuantity
      askQuantity := hcolumns.askQuantity
      volume := hcolumns.volume
      openInterest := hleg.openInterest
      previousOpenInterest := hcolumns.previousOpenInterest
      changeOpenInterest := hleg.changeOpenInterest
      changeOiSourceSnapshotId := hcolumns.changeOiSourceSnapshotId
      changeOiIntervalSeconds := (hreal hcolumns.changeOiIntervalSeconds).mpr hinterval
      impliedVolatility := (hreal hcolumns.impliedVolatility).mpr hvolatility
      delta := (hreal hcolumns.delta).mpr hdelta
      gamma := (hreal hcolumns.gamma).mpr hgamma
      theta := (hreal hcolumns.theta).mpr htheta
      vega := (hreal hcolumns.vega).mpr hvega
      theoreticalPrice := (decimal_kept_iff hcolumns.theoreticalPrice).mpr htheoretical }

end Legs

/-! ### Distinct legs -/

/-- No security occurs twice among the stored legs of a snapshot. -/
def DistinctSecurities (snapshotId : String) (db : Database) : Prop :=
  (db.legs snapshotId).Pairwise fun a b => a.instrument.securityId ≠ b.instrument.securityId

section Distinct

variable {env : Environment} {id : String}

/-- A computation that leaves the stored legs alone. -/
theorem keeps_distinct {α : Type} {x : Write α}
    (h : ∀ c value c', x.Returns c value c' → c'.store.optionSnapshots = c.store.optionSnapshots) :
    Keeps (DistinctSecurities id) x := by
  intro c value c' hx hdistinct
  unfold DistinctSecurities Database.legs
  rw [h c value c' hx]
  exact hdistinct

theorem keeps_distinct_insert {table : String} {Admits : Database → Prop} [DecidablePred Admits]
    {store : Database → Database} (h : ∀ db, (store db).optionSnapshots = db.optionSnapshots) :
    Keeps (DistinctSecurities id) (insert env table Admits store) := by
  apply keeps_distinct
  intro c value c' hinsert
  rw [(returns_insert hinsert).2]
  exact h c.store

/-- `UNIQUE (snapshot_id, security_id)`. -/
theorem keeps_distinct_option (snapshot : AtomicSnapshot) (quote : OptionQuote) :
    Keeps (DistinctSecurities id) (insertOption env snapshot quote) := by
  intro c value c' h hdistinct
  obtain ⟨row, c₁, hrow, h⟩ := returns_bind.mp h
  obtain ⟨-, hc₁⟩ := returns_ofExcept.mp hrow
  subst hc₁
  obtain ⟨hadmits, hstore⟩ := returns_insert h
  rw [hstore]
  show (List.filter _ (c.store.optionSnapshots ++ [row])).Pairwise _
  rw [List.filter_append]
  refine List.pairwise_append.mpr ⟨hdistinct, ?_, ?_⟩
  · exact (List.pairwise_singleton _ row).filter _
  · intro other hother new hnew
    obtain ⟨hmem, hother⟩ := List.mem_filter.mp hother
    obtain ⟨hrow, hid⟩ := List.mem_filter.mp hnew
    rw [List.mem_singleton.mp hrow] at hid ⊢
    have hsame : other.snapshotId = row.snapshotId := (beq_iff_eq.mp hother).trans (beq_iff_eq.mp hid).symm
    exact (hadmits.2.2.2.2.2.1 other hmem hsame).2

theorem keeps_distinct_components (snapshot : AtomicSnapshot) (source : Timestamp) :
    Keeps (DistinctSecurities id) (insertAcceptedComponents env snapshot source) := by
  refine keeps_bind (keeps_of_reads (reads_ofExcept _)) fun sequence => ?_
  refine keeps_bind (keeps_distinct_insert fun _ => rfl) fun _ => ?_
  refine keeps_bind (keeps_bind (keeps_of_reads (reads_ofExcept _)) fun _ => keeps_distinct_insert fun _ => rfl) fun _ => ?_
  refine keeps_bind (keeps_bind (keeps_of_reads (reads_ofExcept _)) fun _ => keeps_distinct_insert fun _ => rfl) fun _ => ?_
  refine keeps_bind (keeps_distinct_insert fun _ => rfl) fun _ => ?_
  exact keeps_forM (keeps_distinct_option snapshot) _

theorem keeps_distinct_save (snapshot : AtomicSnapshot) (report : ValidationReport) (stamps : Stamps)
    (recordedAt : Timestamp) :
    Keeps (DistinctSecurities id) (saveTransaction env snapshot report .accepted stamps recordedAt) := by
  refine keeps_bind (keeps_distinct fun c u c' h => ?_) fun _ => ?_
  · obtain ⟨⟨revisions, mappings, hstore⟩, -⟩ := admitSnapshot_returns h
    rw [hstore]
    rfl
  refine keeps_bind (keeps_distinct fun c u c' h => ?_) fun _ => ?_
  · obtain ⟨row, issues, -, -, hstore⟩ := storeAttempt_returns h
    rw [hstore]
    rfl
  refine keeps_bind (keeps_distinct_components snapshot stamps.source) fun _ => ?_
  refine keeps_bind (keeps_distinct fun c u c' h => ?_) fun _ => ?_
  · rw [storeHead_returns h]
    rfl
  refine keeps_bind (keeps_distinct fun c u c' h => ?_) fun _ => keeps_of_reads (reads_pure _)
  obtain ⟨occurred, -, -, hstore⟩ := appendAudit_returns h
  rw [hstore]
  rfl

/-- The securities of an accepted chain are distinct. -/
theorem saveIngestion_distinct {db db' : Database} {snapshot : AtomicSnapshot} {report : ValidationReport}
    (hcomponents : Components db) (h : (saveIngestion env snapshot report).Returns db .accepted db') :
    DistinctSecurities snapshot.snapshotId db' := by
  obtain ⟨hstatus, hsaved⟩ := saveIngestion_returns h
  have hnone := (hsaved.legs_saved hcomponents).1
  obtain ⟨_, d₁, hbinding, h⟩ := returns_bind.mp h
  obtain ⟨-, hd₁⟩ := returns_ofExcept.mp hbinding
  obtain ⟨recordedAt, d₂, hrecorded, h⟩ := returns_bind.mp h
  obtain ⟨-, hd₂⟩ := returns_ofExcept.mp hrecorded
  obtain ⟨stamped, d₃, hstamps, h⟩ := returns_bind.mp h
  obtain ⟨-, hd₃⟩ := returns_ofExcept.mp hstamps
  subst hd₁ hd₂ hd₃
  obtain ⟨c', hbody, hstore⟩ := returns_transaction h
  subst hstore
  rw [← hstatus] at hbody
  refine keeps_distinct_save snapshot report stamped recordedAt _ _ _ hbody ?_
  show (db.legs snapshot.snapshotId).Pairwise _
  rw [hnone]
  exact List.Pairwise.nil

end Distinct

/-! ### Later states -/

section Later

variable {env : Environment} {db db' : Database} {row : AcceptedSnapshotRow}

/-- Accepted snapshots and their legs outlive every further call. -/
theorem Writes.accepted_kept {call : Call} (h : Writes env db call db') (hcomponents : Components db)
    (hrow : row ∈ db.acceptedSnapshots) :
    row ∈ db'.acceptedSnapshots ∧ db'.legs row.snapshotId = db.legs row.snapshotId := by
  cases h with
  | repeats call stored => exact ⟨hrow, rfl⟩
  | published config publishedAt row occurred new => exact ⟨hrow, rfl⟩
  | recorded provenance records batch rows occurred new => exact ⟨hrow, rfl⟩
  | overridden baseSnapshotId manual row occurred => exact ⟨hrow, rfl⟩
  | saved snapshot report status db' outcome effect =>
      refine ⟨?_, effect.legs_kept hcomponents hrow⟩
      cases effect with
      | rejected => exact hrow
      | accepted => exact List.mem_append.mpr (.inl hrow)

theorem Writes.components {call : Call} (h : Writes env db call db') (hcomponents : Components db) :
    Components db' := by
  obtain ⟨hattempts, haccepted, hmarkets, htechnicals, hcontexts, hlegs⟩ := id hcomponents
  cases h with
  | repeats call stored => exact hcomponents
  | published config publishedAt row occurred new =>
      exact ⟨hattempts, haccepted, hmarkets, htechnicals, hcontexts, hlegs⟩
  | recorded provenance records batch rows occurred new =>
      exact ⟨hattempts, haccepted, hmarkets, htechnicals, hcontexts, hlegs⟩
  | overridden baseSnapshotId manual row occurred =>
      exact ⟨hattempts, haccepted, hmarkets, htechnicals, hcontexts, hlegs⟩
  | saved snapshot report status db' outcome effect => exact effect.components hcomponents

theorem runs_accepted_kept (later : List (Environment × Call)) (hcomponents : Components db)
    (hrow : row ∈ db.acceptedSnapshots) :
    Components (runs later db) ∧ row ∈ (runs later db).acceptedSnapshots ∧
      (runs later db).legs row.snapshotId = db.legs row.snapshotId := by
  induction later using List.reverseRecOn with
  | nil => exact ⟨hcomponents, hrow, rfl⟩
  | append_singleton later call ih =>
      obtain ⟨hbefore, hstored, hlegs⟩ := ih
      rw [runs_concat]
      rcases session_step call.1 call.2 (runs later db) with hsame | hwrites
      · rw [hsame]
        exact ⟨hbefore, hstored, hlegs⟩
      · obtain ⟨hkept, hsame⟩ := hwrites.accepted_kept hbefore hstored
        exact ⟨hwrites.components hbefore, hkept, hsame.trans hlegs⟩

/-- Identifiers of accepted snapshots are distinct, so the lookup finds the snapshot itself. -/
theorem acceptedOptionSnapshot_eq (hcomponents : Components db) (hrow : row ∈ db.acceptedSnapshots) :
    acceptedOptionSnapshot db row.snapshotId = some (db.previousSnapshot row) := by
  have hsome : (db.acceptedSnapshots.find? fun other => other.snapshotId == row.snapshotId).isSome :=
    List.find?_isSome.mpr ⟨row, hrow, beq_iff_eq.mpr rfl⟩
  obtain ⟨found, hfound⟩ := Option.isSome_iff_exists.mp hsome
  have hid := List.find?_some hfound
  have hsame : found = row :=
    List.inj_on_of_nodup_map hcomponents.distinct (List.mem_of_find?_eq_some hfound) hrow (beq_iff_eq.mp hid)
  rw [acceptedOptionSnapshot, hfound, hsame, Option.map_some]

end Later

/-! ### Reading back -/

/-- What `accepted_option_snapshot` is to return of a saved snapshot. -/
structure ReadsBack (snapshot : AtomicSnapshot) (previous : PreviousOptionSnapshot) : Prop where
  snapshotId : previous.snapshotId = snapshot.snapshotId
  sequence : previous.sequence = snapshot.sequence
  source : previous.source = snapshot.source
  contractKey : previous.contractKey = snapshot.contract.contractKey
  sourceTimestamp : previous.sourceTimestamp.instant = snapshot.sourceTimestamp.instant
  chain : List.Forall₂ SameLeg (snapshot.optionChain.insertionSort chainOrder) previous.optionChain

/-- Different strikes of a snapshot are stored as different texts. -/
def StrikesApart (snapshot : AtomicSnapshot) : Prop :=
  ∀ a ∈ snapshot.optionChain, ∀ b ∈ snapshot.optionChain, a.strike.value ≠ b.strike.value →
    decimal (some a.strike) ≠ decimal (some b.strike)

section ReadBack

variable {snapshot : AtomicSnapshot} {rows : List OptionSnapshotRow}

theorem chainOrder_agrees (a a' b b' : OptionQuote) (ha : SameLeg a a') (hb : SameLeg b b') :
    chainOrder a b ↔ chainOrder a' b' := by
  unfold chainOrder
  rw [Decimal.lt_iff, Decimal.lt_iff, Decimal.lt_iff, Decimal.lt_iff, ha.strike.2.2, hb.strike.2.2, ha.optionType,
    hb.optionType]

/-- A chain whose columns hold it comes back in the order of its strikes and sides. -/
theorem chain_of_storable (hrows : snapshot.optionChain.mapM (optionRow snapshot) = .ok rows)
    (h : ∀ quote ∈ snapshot.optionChain, Storable quote) :
    List.Forall₂ SameLeg (snapshot.optionChain.insertionSort chainOrder)
      ((rows.map optionFromRow).insertionSort chainOrder) := by
  apply StableOrder.forall₂_insertionSort chainOrder_agrees
  rw [List.forall₂_map_right_iff]
  refine (List.forall₂_and_left _ _).mpr ⟨h, Except.mapM_forall₂ hrows⟩ |>.imp ?_
  rintro quote row ⟨hstorable, hrow⟩
  exact (sameLeg_iff hrow).mpr hstorable

/-- A chain that has come back is held by its columns: its securities are distinct, so each leg has come back
from its own row. -/
theorem storable_of_chain (hrows : snapshot.optionChain.mapM (optionRow snapshot) = .ok rows)
    (hdistinct : rows.Pairwise fun a b => a.instrument.securityId ≠ b.instrument.securityId)
    (h : List.Forall₂ SameLeg (snapshot.optionChain.insertionSort chainOrder)
      ((rows.map optionFromRow).insertionSort chainOrder)) :
    ∀ quote ∈ snapshot.optionChain, Storable quote := by
  intro quote hquote
  obtain ⟨row, hrow, hok⟩ := Except.mapM_all hrows hquote
  have hsorted : quote ∈ snapshot.optionChain.insertionSort chainOrder := (List.mem_insertionSort _).mpr hquote
  obtain ⟨stored, hstored, hsame⟩ := StableOrder.exists_of_forall₂ h hsorted
  obtain ⟨other, hother, rfl⟩ := List.mem_map.mp ((List.mem_insertionSort _).mp hstored)
  have hsecurity : other.instrument.securityId = row.instrument.securityId :=
    hsame.securityId.trans (optionRow_eq_ok hok).securityId.symm
  have hnodup : (rows.map fun row => row.instrument.securityId).Nodup := List.pairwise_map.mpr hdistinct
  have hown : other = row := List.inj_on_of_nodup_map hnodup hother hrow hsecurity
  rw [hown] at hsame
  exact (sameLeg_iff hok).mp hsame

theorem strikesApart_of_storable (hrows : snapshot.optionChain.mapM (optionRow snapshot) = .ok rows)
    (h : ∀ quote ∈ snapshot.optionChain, Storable quote) : StrikesApart snapshot := by
  have hexact : ∀ quote ∈ snapshot.optionChain, ∃ stored : Decimal, decimal (some quote.strike) = .ok (some stored) ∧
      stored.value = quote.strike.value := by
    intro quote hquote
    obtain ⟨row, -, hok⟩ := Except.mapM_all hrows hquote
    have hstrike := (optionRow_eq_ok hok).strike
    obtain ⟨stored, hcolumn, -, -, hkept⟩ := decimal_some hstrike
    refine ⟨stored, by rw [hstrike, hcolumn], ?_⟩
    exact hkept.mpr ((h quote hquote).1 _ List.mem_cons_self _ rfl)
  intro a ha b hb hne hsame
  obtain ⟨left, hleft, hleftValue⟩ := hexact a ha
  obtain ⟨right, hright, hrightValue⟩ := hexact b hb
  rw [hleft, hright] at hsame
  have heq : left = right := Option.some.inj (Except.ok.inj hsame)
  exact hne (by rw [← hleftValue, ← hrightValue, heq])

/-- The stored snapshot is read back unchanged, with no two of its strikes under one text. -/
def ReadBackUnchanged (db : Database) (snapshot : AtomicSnapshot) : Prop :=
  (∃ previous, acceptedOptionSnapshot db snapshot.snapshotId = some previous ∧ ReadsBack snapshot previous) ∧
    StrikesApart snapshot

theorem readBackUnchanged_iff {db : Database} {source : Timestamp} (hcomponents : Components db)
    (hstamp : timestamp snapshot.sourceTimestamp "source_timestamp" = .ok source)
    (hrow : acceptedRow snapshot source ∈ db.acceptedSnapshots)
    (hlegs : snapshot.optionChain.mapM (optionRow snapshot) = .ok (db.legs snapshot.snapshotId))
    (hdistinct : DistinctSecurities snapshot.snapshotId db) :
    ReadBackUnchanged db snapshot ↔ ∀ quote ∈ snapshot.optionChain, Storable quote := by
  have hfound := acceptedOptionSnapshot_eq hcomponents hrow
  constructor
  · rintro ⟨⟨previous, hprevious, hreads⟩, -⟩
    have hsame : db.previousSnapshot (acceptedRow snapshot source) = previous :=
      Option.some.inj (hfound.symm.trans hprevious)
    subst hsame
    exact storable_of_chain hlegs hdistinct hreads.chain
  · intro h
    refine ⟨⟨_, hfound, ⟨rfl, rfl, rfl, rfl, timestamp_us hstamp, chain_of_storable hlegs h⟩⟩, ?_⟩
    exact strikesApart_of_storable hlegs h

/-- In every later state. -/
theorem readBackUnchanged_later {env : Environment} {report : ValidationReport} {db db' : Database}
    (hcomponents : Components db) (hsave : (saveIngestion env snapshot report).Returns db .accepted db')
    (later : List (Environment × Call)) :
    ReadBackUnchanged (runs later db') snapshot ↔ ∀ quote ∈ snapshot.optionChain, Storable quote := by
  obtain ⟨-, hsaved⟩ := saveIngestion_returns hsave
  obtain ⟨-, hlegs, source, hstamp, haccepted⟩ := hsaved.legs_saved hcomponents
  have hrow : acceptedRow snapshot source ∈ db'.acceptedSnapshots := by
    rw [haccepted]
    exact List.mem_append.mpr (.inr (List.mem_singleton_self _))
  obtain ⟨hlater, hstored, hsame⟩ := runs_accepted_kept later (hsaved.components hcomponents) hrow
  change (runs later db').legs snapshot.snapshotId = db'.legs snapshot.snapshotId at hsame
  refine readBackUnchanged_iff hlater hstamp hstored (by rw [hsame]; exact hlegs) ?_
  unfold DistinctSecurities
  rw [hsame]
  exact saveIngestion_distinct hcomponents hsave

end ReadBack

/-- A snapshot that `save_ingestion` accepts is read back unchanged, in every later state, exactly when every leg
of its chain fits its columns. The tables it is saved in are any in which attempts, accepted snapshots and
components belong together, as they do in every reachable state. -/
theorem acceptedOptionSnapshot_unchanged_iff {env : Environment} {snapshot : AtomicSnapshot}
    {report : ValidationReport} {db db' : Database} (hcomponents : Components db)
    (hsave : (saveIngestion env snapshot report).Returns db .accepted db') (later : List (Environment × Call)) :
    ReadBackUnchanged (runs later db') snapshot ↔ ∀ quote ∈ snapshot.optionChain, Storable quote :=
  readBackUnchanged_later hcomponents hsave later

/-! ### A stored chain -/

/-- SQLite reads the texts below to the nearest float. -/
def deskEnvironment : Environment where
  now := 1000000000
  uuid := "override"
  refused := fun _ => none
  castReal := fun d => Binary64.round false d.value

def deskTime : Datetime := .utc 1000000000

def deskExpiry : Datetime := .utc 900000000000

def deskInstrument (securityId : String) : InstrumentId := ⟨.nse, "NSE_FNO", securityId, "NIFTY"⟩

def indexRecord : InstrumentMasterRecord :=
  ⟨deskInstrument "13", "NIFTY", "INDEX", none, none, none, none, none, none⟩

def optionRecord (securityId : String) (strike : Decimal) (side : OptionType) : InstrumentMasterRecord :=
  ⟨deskInstrument securityId, "NIFTY", "OPTIDX", some "13", deskExpiry, some strike, some side, some 1, some 1⟩

def callRecord : InstrumentMasterRecord := optionRecord "1" 100 .call

def putRecord : InstrumentMasterRecord := optionRecord "2" 105 .put

def deskContract : ContractSpec where
  underlying := deskInstrument "13"
  marketKind := .index
  pricingModel := .blackScholes
  optionExpiry := deskExpiry
  lotSize := 1
  strikeInterval := 5
  tickSize := 1
  master := ⟨"batch", "DHAN", "url", "hash", "v1", deskTime, 3⟩
  optionContracts := [callRecord, putRecord]
  futures := none

def deskMarket : MarketState :=
  ⟨deskTime, some 100, some 100, some 100, some 100, some 101, some 99, some 100, none⟩

def deskTechnicals : TechnicalState :=
  ⟨deskTime, some 99, some 101, some 100, some 101, some 50, some 20, some 1, "15m", true⟩

def deskContext : StrategyContext := ⟨.pro, .intraday, 10000, 0.02, 1, some false, none, 99, 98, 1⟩

/-- An option with a previous close. -/
def deskQuote (securityId : String) (strike : Decimal) (side : OptionType) (previousClose : Decimal) : OptionQuote where
  securityId
  strike
  optionType := side
  expiry := deskExpiry
  bid := some 100
  ask := some 100
  ltp := some 100
  volume := some 1000
  openInterest := some 1000
  previousOpenInterest := none
  changeOpenInterest := none
  impliedVolatility := some 0.5
  greeks := ⟨some 0.5, none, none, none, none⟩
  observedAt := deskTime
  bidQuantity := none
  askQuantity := none
  previousClose := previousClose
  changeOiSourceSnapshotId := none
  changeOiIntervalSeconds := none

/-- The put comes before the call, which has the smaller strike. -/
def deskChain (previousClose : Decimal) : List OptionQuote :=
  [deskQuote "2" 105 .put 95, deskQuote "1" 100 .call previousClose]

def deskSnapshot (previousClose : Decimal) : AtomicSnapshot where
  snapshotId := "snapshot"
  sequence := 1
  source := .dhanRest
  sourceTimestamp := deskTime
  receivedAt := deskTime
  contract := deskContract
  market := deskMarket
  technicals := deskTechnicals
  context := deskContext
  optionChain := deskChain previousClose
  strategyVersion := STRATEGY_VERSION
  metadata := [("normalized_component_hashes", stringDict (normalizedComponentHashes deskContract deskMarket
    deskTechnicals deskContext (deskChain previousClose)))]
  hashed := rfl

def deskReport (previousClose : Decimal) : ValidationReport :=
  ⟨[], some "snapshot", some (contentHash (deskSnapshot previousClose))⟩

def masterRow (record : InstrumentMasterRecord) (expiry : Option Timestamp) : MasterRecordRow where
  batchId := "batch"
  exchange := record.instrument.exchange
  segment := record.instrument.segment
  securityId := record.instrument.securityId
  canonicalKey := record.instrument.canonicalKey
  symbol := record.instrument.symbol
  displayName := record.displayName
  instrumentType := record.instrumentType
  underlyingSecurityId := record.underlyingSecurityId
  expiry
  strike := record.strike
  optionType := record.optionType
  lotSize := record.lotSize
  tickSize := record.tickSize
  recordJson := canonicalJson record

def stamp (moment : Datetime) : Timestamp := ⟨moment.toUtc.isoformat, moment.instant⟩

/-- The tables with a configuration and a master. -/
def deskTables : Database := { Database.empty with
  strategyConfigs := [⟨STRATEGY_VERSION, contentHash DEFAULT_STRATEGY_CONFIG, canonicalJson DEFAULT_STRATEGY_CONFIG,
    stamp deskTime⟩]
  masterBatches := [masterBatchRow deskContract.master (stamp deskTime) 3]
  masterRecords := [masterRow indexRecord none, masterRow callRecord (some (stamp deskExpiry)),
    masterRow putRecord (some (stamp deskExpiry))] }

theorem masterRecord_call :
    deskTables.masterRecord "batch" callRecord.instrument = some (masterRow callRecord (some (stamp deskExpiry))) := by
  show List.find? _ [_, _, _] = _
  rw [List.find?_cons_of_neg (by decide), List.find?_cons_of_pos (by decide)]

theorem masterRecord_put :
    deskTables.masterRecord "batch" putRecord.instrument = some (masterRow putRecord (some (stamp deskExpiry))) := by
  show List.find? _ [_, _, _] = _
  rw [List.find?_cons_of_neg (by decide), List.find?_cons_of_neg (by decide), List.find?_cons_of_pos (by decide)]

theorem masterRecord_index :
    deskTables.masterRecord "batch" (deskInstrument "13") = some (masterRow indexRecord none) := by
  show List.find? _ [_, _, _] = _
  rw [List.find?_cons_of_pos (by decide)]

theorem masterBatch_desk : (deskTables.masterBatches.find? fun row => row.batchId == "batch") =
    some (masterBatchRow deskContract.master (stamp deskTime) 3) := by
  show List.find? _ [_] = _
  rw [List.find?_cons_of_pos (by decide)]

theorem masterCount_desk : (deskTables.masterRecords.filter fun row => row.batchId == "batch").length = 3 := by
  decide

/-- An option of the master fits the contract when none before it has its key. -/
theorem checkMapping_desk {seen : List InstrumentMasterRecord} {securityId : String} {strike : Decimal}
    {side : OptionType}
    (hnew : ¬(SeenKey seen (optionRecord securityId strike side) ∨
      ∃ other ∈ seen, other.instrument.securityId = securityId))
    (hstored : deskTables.masterRecord "batch" (deskInstrument securityId) =
      some (masterRow (optionRecord securityId strike side) (some (stamp deskExpiry)))) (n : Nat) :
    (checkMapping deskEnvironment deskContract seen (optionRecord securityId strike side)).Returns ⟨deskTables, n⟩ ()
      ⟨deskTables, n + 1⟩ := by
  refine bind_returns (rejectIf_returns ?_) ?_
  · rintro (h | h | h) <;> cases h
  refine bind_returns (rejectIf_returns hnew) ?_
  refine bind_returns (rejectIf_returns (not_not.mpr ⟨deskExpiry, rfl, by decide⟩)) ?_
  refine bind_returns (rejectIf_returns ?_) ?_
  · rw [not_or, not_not, not_not]
    exact ⟨rfl, 1, rfl, by decide +kernel⟩
  refine bind_returns (query_returns rfl _) (rejectIf_returns (not_not.mpr ?_))
  exact ⟨_, hstored, rfl⟩

theorem checkMappings_desk (n : Nat) :
    (checkMappings deskEnvironment deskContract [] [callRecord, putRecord]).Returns ⟨deskTables, n⟩ ()
      ⟨deskTables, n + 2⟩ := by
  refine bind_returns (checkMapping_desk (by decide) masterRecord_call n) ?_
  refine bind_returns (checkMapping_desk (by decide) masterRecord_put (n + 1)) ?_
  exact returns_pure.mpr ⟨rfl, rfl⟩

theorem checkContract_desk : (checkContract deskEnvironment deskContract).Returns ⟨deskTables, 3⟩ () ⟨deskTables, 8⟩ := by
  refine bind_returns (query_returns rfl _) ?_
  refine bind_returns (rejectIf_returns fun h => ?_) ?_
  · exact absurd (masterBatch_desk.symm.trans h) (Option.some_ne_none _)
  refine bind_returns (rejectIf_returns (not_not.mpr ⟨_, masterBatch_desk, rfl⟩)) ?_
  refine bind_returns (query_returns rfl _) ?_
  refine bind_returns (rejectIf_returns (not_not.mpr ⟨_, masterBatch_desk, ?_⟩)) ?_
  · exact congrArg Int.ofNat masterCount_desk.symm
  refine bind_returns (bind_returns (query_returns rfl _) (rejectIf_returns (not_not.mpr
    ⟨_, masterRecord_index, rfl, rfl⟩))) ?_
  refine bind_returns (returns_pure.mpr ⟨rfl, rfl⟩) ?_
  refine bind_returns (rejectIf_returns (List.cons_ne_nil _ _)) ?_
  exact checkMappings_desk 6

def deskRevision : ContractRevisionRow where
  contractKey := deskContract.contractKey
  contractHash := contentHash deskContract
  contractJson := canonicalJson deskContract
  masterBatchId := "batch"
  underlying := .of (deskInstrument "13")
  marketKind := .index
  pricingModel := .blackScholes
  optionExpiry := stamp deskExpiry
  lotSize := 1
  strikeInterval := "5"
  tickSize := "1"
  futures := none
  createdAt := stamp deskTime

def deskMapping (securityId : String) (strike : Decimal) (side : OptionType) : ContractOptionMappingRow :=
  ⟨deskContract.contractKey, "batch", .of (deskInstrument securityId), some strike, side, (stamp deskExpiry).utc,
    some 1, some 1⟩

def callMapping : ContractOptionMappingRow := deskMapping "1" 100 .call

def putMapping : ContractOptionMappingRow := deskMapping "2" 105 .put

/-- The tables with the contract. -/
def contractTables : Database := deskTables.addContracts [deskRevision] [callMapping, putMapping]

theorem admits_revision : deskTables.AdmitsContractRevision deskRevision := by
  refine ⟨fun other hother => ?_, by decide, ⟨_, List.mem_singleton_self _, rfl⟩, ?_, fun future hfuture => ?_⟩
  · cases hother
  · exact ⟨masterRow indexRecord none, List.mem_cons_self, rfl, rfl, rfl, rfl⟩
  · cases hfuture

theorem admits_call : (deskTables.addContracts [deskRevision] []).AdmitsContractOptionMapping callMapping := by
  refine ⟨⟨rfl, rfl, rfl⟩, fun other hother => ?_, ⟨deskRevision, List.mem_singleton_self _, rfl⟩, ?_⟩
  · cases hother
  · exact ⟨masterRow callRecord (some (stamp deskExpiry)), List.mem_cons_of_mem _ List.mem_cons_self,
      rfl, rfl, rfl, rfl, rfl, rfl, rfl⟩

theorem admits_put :
    (deskTables.addContracts [deskRevision] [callMapping]).AdmitsContractOptionMapping putMapping := by
  refine ⟨⟨rfl, rfl, rfl⟩, fun other hother _ => ?_, ⟨deskRevision, List.mem_singleton_self _, rfl⟩, ?_⟩
  · rw [List.mem_singleton.mp hother]
    decide
  · exact ⟨masterRow putRecord (some (stamp deskExpiry)),
      List.mem_cons_of_mem _ (List.mem_cons_of_mem _ List.mem_cons_self), rfl, rfl, rfl, rfl, rfl, rfl, rfl⟩

theorem ensureContract_desk :
    (ensureContract deskEnvironment deskContract deskTime).Returns ⟨deskTables, 2⟩ () ⟨contractTables, 11⟩ := by
  refine bind_returns (query_returns rfl _) ?_
  refine bind_returns checkContract_desk ?_
  refine bind_returns (ofExcept_returns (a := deskRevision) rfl) ?_
  refine bind_returns (insert_returns rfl admits_revision) ?_
  refine bind_returns (bind_returns (ofExcept_returns (a := callMapping) rfl) (insert_returns rfl admits_call)) ?_
  refine bind_returns (a := ()) (t := ⟨contractTables, 11⟩) ?_ (returns_pure.mpr ⟨rfl, rfl⟩)
  exact bind_returns (ofExcept_returns (a := putMapping) rfl) (insert_returns rfl admits_put)

theorem knownStrategy_desk :
    ¬(deskTables.strategyConfigs.any fun row => row.version == STRATEGY_VERSION) = false := by
  decide

theorem noChange_desk : ¬((none : Option String).isSome ∨ (none : Option Binary64).isSome) := by
  decide

theorem admitSnapshot_desk (d : Decimal) :
    (admitSnapshot deskEnvironment (deskSnapshot d) deskTime deskTime.instant).Returns ⟨deskTables, 1⟩ ()
      ⟨contractTables, 12⟩ := by
  refine bind_returns (bind_returns (query_returns rfl _) (rejectIf_returns knownStrategy_desk)) ?_
  refine bind_returns ensureContract_desk ?_
  refine bind_returns (bind_returns (query_returns rfl _) (returns_pure.mpr ⟨rfl, rfl⟩)) ?_
  refine bind_returns (ofExcept_returns (a := stamp deskTime) rfl) ?_
  refine bind_returns (a := ()) (t := ⟨contractTables, 12⟩) ?_ (returns_pure.mpr ⟨rfl, rfl⟩)
  exact rejectIf_returns noChange_desk

def deskStamps : Stamps := ⟨stamp deskTime, true, stamp deskTime, true⟩

def deskAttempt (d : Decimal) : IngestionAttemptRow where
  snapshotId := "snapshot"
  snapshotHash := contentHash (deskSnapshot d)
  contractKey := deskContract.contractKey
  source := .dhanRest
  sequence := 1
  sourceTimestamp := stamp deskTime
  sourceTimestampValid := true
  receivedAt := stamp deskTime
  receivedAtValid := true
  strategyVersion := STRATEGY_VERSION
  metadataJson := canonicalJson (indexedMetadata (deskSnapshot d).metadata)
  snapshotJson := canonicalJson (deskSnapshot d)
  status := .accepted
  reportHash := contentHash (reportPayload (deskReport d))
  reportJson := canonicalJson (reportPayload (deskReport d))
  recordedAt := stamp deskTime

def attemptTables (d : Decimal) : Database := contractTables.addAttempt (deskAttempt d) []

theorem storeAttempt_desk (d : Decimal) :
    (storeAttempt deskEnvironment (deskSnapshot d) (deskReport d) .accepted deskStamps (stamp deskTime)).Returns
      ⟨contractTables, 12⟩ () ⟨attemptTables d, 13⟩ := by
  refine bind_returns (ofExcept_returns (a := deskAttempt d) rfl) ?_
  refine bind_returns (insert_returns rfl fun other hother => ?_) (returns_pure.mpr ⟨rfl, rfl⟩)
  cases hother

def deskMarketRow : MarketSnapshotRow :=
  ⟨"snapshot", stamp deskTime, some 100, some 100, some 100, some 100, some 101, some 99, some 100, none⟩

def deskTechnicalRow : TechnicalSnapshotRow :=
  ⟨"snapshot", stamp deskTime, some 99, some 101, some 100, some 101, some 50, some 20, some 1, "15m", true⟩

def deskLeg (securityId : String) (strike : Decimal) (side : OptionType) (column : Option Decimal) :
    OptionSnapshotRow where
  snapshotId := "snapshot"
  contractKey := deskContract.contractKey
  strike := some strike
  optionType := side
  instrument := .of (deskInstrument securityId)
  expiry := stamp deskExpiry
  observedAt := stamp deskTime
  bid := some 100
  ask := some 100
  ltp := some 100
  bidQuantity := none
  askQuantity := none
  volume := some 1000
  openInterest := some 1000
  previousOpenInterest := none
  changeOpenInterest := none
  changeOiSourceSnapshotId := none
  changeOiIntervalSeconds := none
  impliedVolatility := real (some 0.5)
  previousClose := column
  delta := real (some 0.5)
  gamma := none
  theta := none
  vega := none
  theoreticalPrice := none

def putLeg : OptionSnapshotRow := deskLeg "2" 105 .put (some 95)

/-- The tables with the components of the snapshot and some of its legs. -/
def componentTables (d : Decimal) (legs : List OptionSnapshotRow) : Database :=
  (attemptTables d).addComponents (acceptedRow (deskSnapshot d) (stamp deskTime)) deskMarketRow deskTechnicalRow
    (contextRow "snapshot" deskContext) legs

theorem admits_accepted (d : Decimal) :
    (attemptTables d).AdmitsAcceptedSnapshot (acceptedRow (deskSnapshot d) (stamp deskTime)) := by
  refine ⟨Int.one_nonneg, fun other hother => ?_, ⟨deskAttempt d, List.mem_singleton_self _, rfl⟩,
    deskRevision, List.mem_singleton_self _, rfl⟩
  cases hother

theorem decimal_hundred : decimal (some 100) = .ok (some 100) := by decide

theorem mappedRecord_put : mappedRecord deskContract (deskQuote "2" 105 .put 95) = .ok putRecord := by
  have hfound : (deskContract.optionContracts.reverse.find? fun record => record.instrument.securityId == "2") =
      some putRecord := by
    show List.find? _ [putRecord, callRecord] = _
    exact List.find?_cons_of_pos rfl
  have hmaps : (∃ strike ∈ putRecord.strike, Decimal.Equal strike 105) ∧ putRecord.optionType = some .put := by
    decide +kernel
  unfold mappedRecord
  rw [deskQuote, hfound]
  exact if_pos hmaps

theorem mappedRecord_call (d : Decimal) : mappedRecord deskContract (deskQuote "1" 100 .call d) = .ok callRecord := by
  have hfound : (deskContract.optionContracts.reverse.find? fun record => record.instrument.securityId == "1") =
      some callRecord := by
    show List.find? _ [putRecord, callRecord] = _
    rw [List.find?_cons_of_neg (by decide), List.find?_cons_of_pos rfl]
  have hmaps : (∃ strike ∈ callRecord.strike, Decimal.Equal strike 100) ∧ callRecord.optionType = some .call := by
    decide +kernel
  unfold mappedRecord
  rw [deskQuote, hfound]
  exact if_pos hmaps

theorem optionRow_desk {securityId : String} {strike d close : Decimal} {side : OptionType} {column : Option Decimal}
    (hmapped : mappedRecord deskContract (deskQuote securityId strike side close) =
      .ok (optionRecord securityId strike side))
    (hstrike : decimal (some strike) = .ok (some strike)) (h : decimal (some close) = .ok column) :
    optionRow (deskSnapshot d) (deskQuote securityId strike side close) =
      .ok (deskLeg securityId strike side column) := by
  refine Except.bind_eq_ok.mpr ⟨_, hmapped, ?_⟩
  refine Except.bind_eq_ok.mpr ⟨stamp deskExpiry, rfl, ?_⟩
  refine Except.bind_eq_ok.mpr ⟨stamp deskTime, rfl, ?_⟩
  refine Except.bind_eq_ok.mpr ⟨some strike, hstrike, ?_⟩
  iterate 3 refine Except.bind_eq_ok.mpr ⟨some 100, decimal_hundred, ?_⟩
  refine Except.bind_eq_ok.mpr ⟨column, h, ?_⟩
  iterate 3 refine Except.bind_eq_ok.mpr ⟨none, rfl, ?_⟩
  iterate 2 refine Except.bind_eq_ok.mpr ⟨some 1000, rfl, ?_⟩
  iterate 2 refine Except.bind_eq_ok.mpr ⟨none, rfl, ?_⟩
  rfl

/-- The checks of the market, the technical, the context and both legs' columns. -/
theorem checks_desk :
    ((∀ column ∈ [deskMarketRow.futuresPrice, deskMarketRow.previousClose, deskMarketRow.dayOpen,
        deskMarketRow.dayHigh, deskMarketRow.dayLow, deskMarketRow.vwap], column.isSome ∧
          CastPositive deskEnvironment column) ∧ CastPositive deskEnvironment deskMarketRow.spotPrice ∧
      CastOrdered deskEnvironment deskMarketRow.dayHigh deskMarketRow.dayLow) ∧
    ((∀ column ∈ [deskTechnicalRow.ema9, deskTechnicalRow.ema21, deskTechnicalRow.wma44,
        deskTechnicalRow.previousWma44, deskTechnicalRow.atr14], column.isSome ∧ CastPositive deskEnvironment column) ∧
      (∃ rsi ∈ deskTechnicalRow.rsi14, 0 ≤ rsi ∧ rsi ≤ 100) ∧ PositiveReal deskTechnicalRow.referenceVolatility ∧
      Trimmed deskTechnicalRow.timeframe) ∧
    ((∀ column ∈ [deskContext.accountCapital, deskContext.signalCandleHigh, deskContext.signalCandleLow],
        0 < deskEnvironment.castReal column) ∧
      (∃ risk ∈ real deskContext.riskPerTrade, 0 < risk ∧ risk ≤ 0.02) ∧
      (∃ allocation ∈ real deskContext.maximumPremiumAllocation, 0 < allocation ∧ allocation ≤ 1) ∧
      PositiveReal (real deskContext.expectedHoldingHours) ∧
      deskEnvironment.castReal deskContext.signalCandleLow ≤ deskEnvironment.castReal deskContext.signalCandleHigh) ∧
    (∀ strike ∈ [(100 : Decimal), 105], ∀ column ∈ [some strike, some 100, some 100, some 100], column.isSome ∧
        CastPositive deskEnvironment column) ∧ (∀ column ∈ [some (1000 : Int), some 1000], ∃ n ∈ column, 0 ≤ n) ∧
      PositiveReal (real (some 0.5)) ∧ CastOrdered deskEnvironment (some 100) (some 100) := by
  decide +kernel

theorem components_desk {d : Decimal} {column : Option Decimal} (h : decimal (some d) = .ok column) :
    (insertAcceptedComponents deskEnvironment (deskSnapshot d) (stamp deskTime)).Returns ⟨attemptTables d, 13⟩ ()
      ⟨componentTables d [putLeg, deskLeg "1" 100 .call column], 19⟩ := by
  obtain ⟨hmarket, htechnical, hcontext, hpositive, hcounts, hvolatility, hordered⟩ := checks_desk
  have hput : decimal (some 95) = .ok (some 95) := by decide
  have hstrike : decimal (some 105) = .ok (some 105) := by decide
  refine bind_returns (ofExcept_returns (a := 1) rfl) ?_
  refine bind_returns (insert_returns rfl (admits_accepted d)) ?_
  refine bind_returns (bind_returns (ofExcept_returns (a := deskMarketRow) rfl) (insert_returns rfl ?_)) ?_
  · obtain ⟨hpositive, hspot, hordered⟩ := hmarket
    exact ⟨hpositive, hspot, hordered, ⟨_, List.mem_singleton_self _, rfl⟩, (fun _ hother => by cases hother)⟩
  refine bind_returns (bind_returns (ofExcept_returns (a := deskTechnicalRow) rfl) (insert_returns rfl ?_)) ?_
  · obtain ⟨hpositive, hrsi, hvolatility, htimeframe⟩ := htechnical
    exact ⟨hpositive, hrsi, hvolatility, htimeframe, rfl, ⟨_, List.mem_singleton_self _, rfl⟩,
      (fun _ hother => by cases hother)⟩
  refine bind_returns (insert_returns rfl ?_) ?_
  · obtain ⟨hpositive, hrisk, hallocation, hholding, hcandle⟩ := hcontext
    exact ⟨hpositive, hrisk, hallocation, hholding, hcandle, ⟨_, List.mem_singleton_self _, rfl⟩,
      (fun _ hother => by cases hother)⟩
  -- The put is the first of the chain.
  refine bind_returns (bind_returns (ofExcept_returns (optionRow_desk mappedRecord_put hstrike hput))
    (insert_returns rfl ?_)) ?_
  · exact ⟨hpositive 105 (by simp), hcounts, hvolatility, hordered, .inl ⟨rfl, rfl, rfl⟩,
      (fun _ hother => by cases hother), ⟨_, List.mem_singleton_self _, rfl⟩, (fun _ hsource => by cases hsource),
      putMapping, List.mem_cons_of_mem _ List.mem_cons_self, rfl, rfl, rfl, rfl⟩
  refine bind_returns (a := ()) (t := ⟨componentTables d [putLeg, deskLeg "1" 100 .call column], 19⟩) ?_
    (returns_pure.mpr ⟨rfl, rfl⟩)
  refine bind_returns (ofExcept_returns (optionRow_desk (mappedRecord_call d) decimal_hundred h)) (insert_returns rfl ?_)
  refine ⟨hpositive 100 (by simp), hcounts, hvolatility, hordered, .inl ⟨rfl, rfl, rfl⟩, fun other hother _ => ?_,
    ⟨_, List.mem_singleton_self _, rfl⟩, (fun _ hsource => by cases hsource), callMapping, List.mem_cons_self,
    rfl, rfl, rfl, rfl⟩
  have hsame : other = putLeg := List.mem_singleton.mp hother
  rw [hsame]
  have hkeys : ((some 105 : Option Decimal), OptionType.put) ≠ (some 100, .call) ∧ "2" ≠ "1" := by decide
  exact hkeys

/-- The tables with the saved snapshot. -/
def savedTables (d : Decimal) (column : Option Decimal) : Database :=
  ((componentTables d [putLeg, deskLeg "1" 100 .call column]).setHead
    (headRow (deskSnapshot d) (stamp deskTime))).closeIngestion (stamp deskTime)
    (deskSnapshot d) .accepted

theorem saveTransaction_desk {d : Decimal} {column : Option Decimal} (h : decimal (some d) = .ok column) :
    (saveTransaction deskEnvironment (deskSnapshot d) (deskReport d) .accepted deskStamps (stamp deskTime)).Returns
      ⟨deskTables, 1⟩ .accepted ⟨savedTables d column, 22⟩ := by
  refine bind_returns (admitSnapshot_desk d) ?_
  refine bind_returns (storeAttempt_desk d) ?_
  refine bind_returns (components_desk h) ?_
  refine bind_returns (insert_returns rfl ⟨deskRevision, List.mem_singleton_self _, rfl⟩) ?_
  refine bind_returns (a := ()) ?_ (returns_pure.mpr ⟨rfl, rfl⟩)
  refine bind_returns (ofExcept_returns (a := stamp deskTime) rfl) ?_
  refine bind_returns (query_returns rfl _) (insert_returns rfl ?_)
  intro other hother
  cases hother

theorem binding_desk (d : Decimal) :
    verifyReportBinding (deskSnapshot d) (contentHash (deskSnapshot d)) (deskReport d) = .ok () := by
  have hid : ¬"snapshot" ≠ (deskSnapshot d).snapshotId := not_not.mpr rfl
  unfold verifyReportBinding deskReport
  simp only [if_neg hid, ne_eq, not_true_eq_false, if_false]

theorem accepted_desk (d : Decimal) :
    (if (deskReport d).Accepted then SnapshotStatus.accepted else .rejected) = .accepted := by
  refine if_pos fun issue hissue => ?_
  cases hissue

theorem saveIngestion_desk {d : Decimal} {column : Option Decimal} (h : decimal (some d) = .ok column) :
    (saveIngestion deskEnvironment (deskSnapshot d) (deskReport d)).Returns deskTables .accepted (savedTables d column) := by
  have hstamps : stamps (deskSnapshot d) .accepted (.utc deskEnvironment.now) = .ok deskStamps := rfl
  unfold saveIngestion
  rw [accepted_desk]
  refine bind_returns (ofExcept_returns (binding_desk d)) ?_
  refine bind_returns (ofExcept_returns (a := stamp deskTime) rfl) ?_
  refine bind_returns (ofExcept_returns hstamps) ?_
  exact transaction_returns (fun _ => rfl) (saveTransaction_desk h)

theorem components_deskTables : Components deskTables := by
  refine ⟨List.nodup_nil, rfl, rfl, rfl, rfl, fun leg hleg => ?_⟩
  cases hleg

theorem normal_natCast {d : Decimal} (n : Nat) (hdigits : n < 10 ^ 28) (h : d.value = n) : Decimal.Normal d.value := by
  rw [h]
  refine ⟨⟨n, 0, by rw [Nat.abs_cast]; exact_mod_cast hdigits, by simp⟩, ?_⟩
  exact multiple_of_le (b := 0) (by norm_num) ⟨n, by simp⟩

theorem storable_desk {securityId : String} {strike d : Decimal} (side : OptionType)
    (hstrike : Decimal.Normal strike.value)
    (hd : Decimal.Normal d.value) : Storable (deskQuote securityId strike side d) := by
  have hhundred : Decimal.Normal (100 : Decimal).value := normal_natCast 100 (by norm_num) (by decide +kernel)
  have hhalf : (0.5 : Binary64) ≠ .nan := by decide +kernel
  constructor
  · simp only [decimalsOf, deskQuote, List.forall_mem_cons, Option.mem_some_iff, forall_eq']
    exact ⟨hstrike, hhundred, hhundred, hhundred, hd, nofun, nofun⟩
  · simp only [floatsOf, deskQuote, List.forall_mem_cons, Option.mem_some_iff, forall_eq']
    exact ⟨nofun, hhalf, hhalf, nofun, nofun, nofun, nofun⟩

/-- The snapshot is offered once more, and another configuration is published. -/
def laterCalls : List (Environment × Call) := [
  (deskEnvironment, .saveIngestion (deskSnapshot 90) (deskReport 90)),
  (deskEnvironment, .publishStrategyConfig { DEFAULT_STRATEGY_CONFIG with version := "later" } none)]

theorem acceptedOptionSnapshot_unchanged_iff_sample :
    ReadBackUnchanged (runs laterCalls (savedTables 90 (some 90))) (deskSnapshot 90) := by
  have hstored : decimal (some 90) = .ok (some 90) := by decide
  have hvalues : (90 : Decimal).value = (90 : Nat) ∧ (95 : Decimal).value = (95 : Nat) ∧
      (100 : Decimal).value = (100 : Nat) ∧ (105 : Decimal).value = (105 : Nat) := by decide +kernel
  obtain ⟨h90, h95, h100, h105⟩ := hvalues
  refine (acceptedOptionSnapshot_unchanged_iff components_deskTables (saveIngestion_desk hstored) laterCalls).mpr ?_
  intro quote hquote
  rcases List.mem_cons.mp hquote with rfl | hquote
  · exact storable_desk .put (normal_natCast 105 (by norm_num) h105) (normal_natCast 95 (by norm_num) h95)
  · rw [List.mem_singleton.mp hquote]
    exact storable_desk .call (normal_natCast 100 (by norm_num) h100) (normal_natCast 90 (by norm_num) h90)

/-- A previous close of 29 digits. -/
def longClose : Decimal := .finite false 10000000000000000000000000001 (-26)

/-- It is stored as 100. -/
theorem acceptedOptionSnapshot_changed :
    ¬∀ (env : Environment) (snapshot : AtomicSnapshot) (report : ValidationReport) (db db' : Database),
      Components db → (saveIngestion env snapshot report).Returns db .accepted db' →
        ReadBackUnchanged db' snapshot := by
  intro hclaim
  have hstored : decimal (some longClose) = .ok (some 100) := by decide
  have hsave := saveIngestion_desk hstored
  have hunchanged := hclaim _ _ _ _ _ components_deskTables hsave
  have hstorable := (readBackUnchanged_later components_deskTables hsave []).mp hunchanged
  have hclose := (hstorable (deskQuote "1" 100 .call longClose) (List.mem_cons_of_mem _ List.mem_cons_self)).1
    (some longClose) (by simp [decimalsOf, deskQuote]) longClose rfl
  obtain ⟨stored, hcolumn, -, -, hkept⟩ := decimal_some hstored
  have hhundred : stored = 100 := (Option.some.inj hcolumn).symm
  have hdiffers : (100 : Decimal).value ≠ longClose.value := by decide +kernel
  exact hdiffers (by rw [← hkept.mpr hclose, hhundred])

end TecoQuant.Persistence
