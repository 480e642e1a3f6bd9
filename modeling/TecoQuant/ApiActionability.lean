import TecoQuant.ApiConvergence
import TecoQuant.ApiReadStatus
import TecoQuant.BaseBinary64Rounding

/-! Actionability over the read times. What the publication itself must have does not change with the clock;
every bound on an age holds up to some time, or from some time on. So the actionable times are an interval. -/

namespace TecoQuant.Api

open Domain Ingestion Strategy Signal

theorem eraseDups_eq_nil {codes : List String} : codes.eraseDups = [] ↔ codes = [] := by
  cases codes with
  | nil => simp
  | cons code codes => simp [List.eraseDups_cons]

@[simp] theorem blocker_eq_nil {condition : Prop} [Decidable condition] {code : String} :
    blocker condition code = [] ↔ ¬condition := by
  unfold blocker
  split <;> simp_all

/-! ### The conditions of an actionable read -/

/-- What the publication itself must have. -/
structure Ready (publication : PublishedSnapshot) : Prop where
  source : LiveSource publication.snapshot.source
  static : staticBlockers publication = []
  decision : decisionBlockers publication = []
  trades : Trades publication.analysis

/-- What the clock must be, for the components, the expiry and the instrument master. -/
structure Fresh (zone : Int → Int) (strategy : StrategyConfig) (snapshot : AtomicSnapshot) (now : Datetime) :
    Prop where
  components : ∀ t ∈ componentTimes snapshot, (moment zone t).InCalendar
  clock : (moment zone now).InCalendar
  expiry : snapshot.contract.optionExpiry.Aware
  master : snapshot.contract.master.fetchedAt.Aware
  notStale : ∀ t ∈ componentTimes snapshot,
    ¬strategy.liveMaxAgeSeconds < elapsedSeconds (moment zone now) (moment zone t)
  notFuture : ∀ t ∈ componentTimes snapshot,
    ¬elapsedSeconds (moment zone now) (moment zone t) < -strategy.futureClockSkewSeconds
  notExpired : now.instant < snapshot.contract.optionExpiry.instant
  masterFresh : ¬strategy.instrumentMasterMaxAgeSeconds < elapsedSeconds now snapshot.contract.master.fetchedAt

section

variable {zone : Int → Int} {strategy : StrategyConfig} {snapshot : AtomicSnapshot} {p : PublishedSnapshot}
  {now : Datetime}

/-- Nothing dynamic blocks exactly when the clock is as it must be. -/
theorem dynamicBlockers_clear_iff :
    (∃ dynamic, dynamicBlockers zone strategy snapshot now = .ok dynamic ∧ dynamic.blockers = []) ↔
      Fresh zone strategy snapshot now := by
  constructor
  · rintro ⟨dynamic, hdynamic, hclear⟩
    obtain ⟨normalized, hnormalized, hdynamic⟩ := Except.bind_eq_ok.mp hdynamic
    obtain ⟨hcomponents, rfl⟩ := Except.mapM_ite_eq_ok.mp hnormalized
    obtain ⟨current, hcurrent, hdynamic⟩ := Except.bind_eq_ok.mp hdynamic
    obtain ⟨hclock, rfl⟩ := Except.ite_ok_eq_ok.mp hcurrent
    obtain ⟨hexpiry, hdynamic⟩ := Except.ite_error_eq_ok.mp hdynamic
    obtain ⟨hmaster, hdynamic⟩ := Except.ite_error_eq_ok.mp hdynamic
    cases hdynamic
    simp only [List.append_eq_nil_iff, blocker_eq_nil] at hclear
    obtain ⟨⟨⟨hstale, hfuture⟩, hexpired⟩, hold⟩ := hclear
    refine ⟨hcomponents, hclock, not_not.mp hexpiry, not_not.mp hmaster, fun t ht hlt => ?_, fun t ht hlt => ?_,
      not_le.mp hexpired, hold⟩
    · exact hstale ⟨_, List.mem_map_of_mem (List.mem_map_of_mem ht), hlt⟩
    · exact hfuture ⟨_, List.mem_map_of_mem (List.mem_map_of_mem ht), hlt⟩
  · intro h
    have hnormalized : (componentTimes snapshot).mapM (astimezoneUtc zone) =
        .ok ((componentTimes snapshot).map (moment zone)) := Except.mapM_ite_eq_ok.mpr ⟨h.components, rfl⟩
    have hcurrent : astimezoneUtc zone now = .ok (moment zone now) := Except.ite_ok_eq_ok.mpr ⟨h.clock, rfl⟩
    refine ⟨_, Except.bind_eq_ok.mpr ⟨_, hnormalized, Except.bind_eq_ok.mpr ⟨_, hcurrent,
      Except.ite_error_eq_ok.mpr ⟨not_not.mpr h.expiry, Except.ite_error_eq_ok.mpr ⟨not_not.mpr h.master, rfl⟩⟩⟩⟩,
      ?_⟩
    simp only [List.append_eq_nil_iff, blocker_eq_nil]
    refine ⟨⟨⟨?_, ?_⟩, not_le.mpr h.notExpired⟩, h.masterFresh⟩
    · rintro ⟨age, hage, hlt⟩
      obtain ⟨t', ht', rfl⟩ := List.mem_map.mp hage
      obtain ⟨t, ht, rfl⟩ := List.mem_map.mp ht'
      exact h.notStale t ht hlt
    · rintro ⟨age, hage, hlt⟩
      obtain ⟨t', ht', rfl⟩ := List.mem_map.mp hage
      obtain ⟨t, ht, rfl⟩ := List.mem_map.mp ht'
      exact h.notFuture t ht hlt

/-- A read at this time reports the workspace as actionable. -/
def Actionable (zone : Int → Int) (strategy : StrategyConfig) (p : PublishedSnapshot) (now : Datetime) : Prop :=
  ∃ status, readAt zone strategy p now = .ok status ∧ status.actionable = true

theorem actionable_iff :
    Actionable zone strategy p now ↔ now.Aware ∧ Ready p ∧ Fresh zone strategy p.snapshot now := by
  rw [← dynamicBlockers_clear_iff]
  constructor
  · rintro ⟨status, hstatus, hactionable⟩
    obtain ⟨_, hnow, hstatus⟩ := Except.bind_eq_ok.mp hstatus
    obtain ⟨haware, rfl⟩ := Except.ite_ok_eq_ok.mp hnow
    obtain ⟨dynamic, hdynamic, hstatus⟩ := Except.bind_eq_ok.mp hstatus
    cases hstatus
    obtain ⟨⟨hsource, hstatic, hclear⟩, hdecision, htrades⟩ := of_decide_eq_true hactionable
    exact ⟨haware, ⟨hsource, hstatic, hdecision, htrades⟩, dynamic, hdynamic, hclear⟩
  · rintro ⟨haware, hready, dynamic, hdynamic, hclear⟩
    refine ⟨_, Except.bind_eq_ok.mpr ⟨now, Except.ite_ok_eq_ok.mpr ⟨haware, rfl⟩,
      Except.bind_eq_ok.mpr ⟨dynamic, hdynamic, rfl⟩⟩, ?_⟩
    exact decide_eq_true ⟨⟨hready.source, hready.static, hclear⟩, hready.decision, hready.trades⟩

/-! ### The interval -/

theorem moment_aware (h : now.Aware) : moment zone now = .utc now.instant := by
  obtain ⟨offset, hoffset⟩ := Option.isSome_iff_exists.mp h
  simp [moment, localized, Datetime.toUtc, Datetime.instant, hoffset]

theorem elapsedSeconds_mono {a b t : Datetime} (h : a.instant ≤ b.instant) :
    elapsedSeconds a t ≤ elapsedSeconds b t := by
  refine Binary64.round_mono false (div_le_div_of_nonneg_right (Int.cast_le.mpr ?_) (by norm_num))
  omega

/-- Between two times that are as they must be lies no other. -/
theorem Fresh.between {a b c : Datetime} (haware : a.Aware) (hbaware : b.Aware) (hcaware : c.Aware)
    (hab : a.instant ≤ b.instant) (hbc : b.instant ≤ c.instant) (ha : Fresh zone strategy snapshot a)
    (hc : Fresh zone strategy snapshot c) : Fresh zone strategy snapshot b := by
  have hfirst : (moment zone a).instant ≤ (moment zone b).instant := by
    rwa [moment_aware haware, moment_aware hbaware, Datetime.instant_utc, Datetime.instant_utc]
  have hlast : (moment zone b).instant ≤ (moment zone c).instant := by
    rwa [moment_aware hbaware, moment_aware hcaware, Datetime.instant_utc, Datetime.instant_utc]
  have hfrom := ha.clock.1
  have hto := hc.clock.2
  rw [moment_aware haware] at hfrom
  rw [moment_aware hcaware] at hto
  refine ⟨ha.components, ?_, ha.expiry, ha.master, fun t ht hlt => ?_, fun t ht hlt => ?_,
    hbc.trans_lt hc.notExpired, fun hlt => ?_⟩
  · rw [moment_aware hbaware]
    exact ⟨hfrom.trans hab, hbc.trans hto⟩
  · exact hc.notStale t ht (Binary64.lt_of_lt_of_le hlt (elapsedSeconds_mono hlast))
  · exact ha.notFuture t ht (Binary64.lt_of_le_of_lt (elapsedSeconds_mono hfirst) hlt)
  · exact hc.masterFresh (Binary64.lt_of_lt_of_le hlt (elapsedSeconds_mono hbc))

/-! ### The window -/

/-- Microseconds as seconds. -/
def seconds (microseconds : Int) : ℚ := microseconds / 1000000

/-- What `total_seconds` may hide of an age. -/
def slack : ℚ := 1 + 1 / 2 ^ 52

theorem normal_of_pos {n : Int} (h : 0 < n) : 2 ^ (-1022 : ℤ) ≤ seconds n := by
  have hone : (1 : ℚ) ≤ n := by exact_mod_cast h
  have hsmall : (2 : ℚ) ^ (-1022 : ℤ) ≤ 2 ^ (-20 : ℤ) := zpow_le_zpow_right₀ (by norm_num) (by norm_num)
  have hstep : (2 : ℚ) ^ (-20 : ℤ) ≤ 1 / 1000000 := by norm_num
  exact hsmall.trans (hstep.trans (div_le_div_of_nonneg_right hone (by norm_num)))

theorem seconds_le_of_not_lt {limit : Binary64} (hlimit : limit.IsFinite) (hnonneg : 0 ≤ limit.toRat)
    {later earlier : Datetime} (h : ¬limit < elapsedSeconds later earlier) :
    seconds (later.instant - earlier.instant) ≤ limit.toRat * slack := by
  rcases le_or_gt (later.instant - earlier.instant) 0 with hnonpos | hpos
  · have : seconds (later.instant - earlier.instant) ≤ 0 :=
      div_nonpos_of_nonpos_of_nonneg (by exact_mod_cast hnonpos) (by norm_num)
    exact this.trans (mul_nonneg hnonneg (by norm_num [slack]))
  · exact Binary64.le_of_round_le false (normal_of_pos hpos) hlimit
      (Binary64.le_of_not_gt (Binary64.round_ne_nan _ _) hlimit h)

theorem seconds_neg (n : Int) : seconds (-n) = -seconds n := by
  rw [seconds, seconds, Int.cast_neg, neg_div]

theorem seconds_le_of_not_lt_neg {limit : Binary64} (hlimit : limit.IsFinite) (hnonneg : 0 ≤ limit.toRat)
    {later earlier : Datetime} (h : ¬elapsedSeconds later earlier < -limit) :
    seconds (earlier.instant - later.instant) ≤ limit.toRat * slack := by
  have hflip : earlier.instant - later.instant = -(later.instant - earlier.instant) := (neg_sub _ _).symm
  rw [hflip]
  rcases le_or_gt 0 (later.instant - earlier.instant) with hpos | hneg
  · have hnonpos : seconds (-(later.instant - earlier.instant)) ≤ 0 :=
      div_nonpos_of_nonpos_of_nonneg (by exact_mod_cast neg_nonpos.mpr hpos) (by norm_num)
    exact hnonpos.trans (mul_nonneg hnonneg (by norm_num [slack]))
  · have hnormal : seconds (later.instant - earlier.instant) ≤ -2 ^ (-1022 : ℤ) := by
      have := normal_of_pos (neg_pos.mpr hneg)
      rw [seconds_neg] at this
      exact le_neg_of_le_neg this
    rw [seconds_neg]
    exact Binary64.le_of_neg_le_round false hnormal hlimit
      (Binary64.le_of_not_lt (Binary64.round_ne_nan _ _) (Binary64.neg_isFinite hlimit) h)

/-- A limit of whole microseconds hides nothing. -/
theorem le_of_seconds_le {n : Int} {m : Nat} (h : seconds n ≤ seconds m * slack) (hm : m < 2 ^ 52) : n ≤ m := by
  have hm : (m : ℚ) < 2 ^ 52 := by exact_mod_cast hm
  have hle : (n : ℚ) ≤ m * slack := by
    simp only [seconds, Int.cast_natCast] at h
    linarith
  have hlt : (n : ℚ) < (m + 1 : Int) := by
    push_cast
    simp only [slack] at hle
    linarith
  exact Int.lt_add_one_iff.mp (by exact_mod_cast hlt)

/-- An age in microseconds within a limit in seconds: up to one part in `2 ^ 52`, and exactly for a limit of
whole microseconds. -/
structure Within (age : Int) (limit : Binary64) : Prop where
  near : seconds age ≤ limit.toRat * slack
  whole : ∀ m : Nat, m < 2 ^ 52 → limit.toRat = seconds m → age ≤ m

theorem Within.of_near {age : Int} {limit : Binary64} (h : seconds age ≤ limit.toRat * slack) : Within age limit where
  near := h
  whole _ hm hlimit := le_of_seconds_le (hlimit ▸ h) hm

/-! ### What an actionable read rests on -/

/-- The legs around the strike nearest to the underlying are all quoted, with positive two-sided prices. -/
def CompleteAround (snapshot : AtomicSnapshot) : Prop :=
  ∃ underlying atm, snapshot.market.pricingUnderlying snapshot.contract.marketKind = some underlying ∧
    nearestAtm underlying (listedStrikes snapshot) = .ok atm ∧
      ∀ offset ∈ [-2, -1, 0, 1, 2], ∀ side, ∃ quote ∈ snapshot.optionChain,
        SameKey quote.key (ladderStrike atm snapshot.contract.strikeInterval offset, side) ∧ QuoteComplete quote

theorem completeAround (h : fiveStrikeChainComplete snapshot = true) : CompleteAround snapshot := by
  unfold fiveStrikeChainComplete at h
  dsimp only at h
  split at h
  · cases h
  · rename_i underlying hunderlying
    split at h
    · split at h
      · cases h
      · split at h
        · cases h
        · rename_i atm hatm
          obtain ⟨hquoted, hcomplete⟩ := of_decide_eq_true h
          refine ⟨underlying, atm, hunderlying, hatm, fun offset hoffset side => ?_⟩
          have hrequired : (ladderStrike atm snapshot.contract.strikeInterval offset, side) ∈
              requiredKeys atm snapshot.contract.strikeInterval := by
            refine List.mem_flatMap.mpr ⟨offset, hoffset, ?_⟩
            cases side <;> simp
          obtain ⟨quote, hquote, hkey⟩ := hquoted _ hrequired
          exact ⟨quote, hquote, hkey, hcomplete quote hquote ⟨_, hrequired, hkey⟩⟩
    · cases h

/-- The publication justifies a trade. -/
structure Justified (p : PublishedSnapshot) : Prop where
  accepted : p.report.Accepted
  reportId : p.report.snapshotId = some p.snapshot.snapshotId
  reportHash : p.report.snapshotHash = some (contentHash p.snapshot)
  source : p.snapshot.source = .dhanRest ∨ p.snapshot.source = .dhanLive
  chain : CompleteAround p.snapshot
  changeOpenInterest : ∀ quote ∈ p.snapshot.optionChain, quote.changeOpenInterest.isSome
  analysis : ∃ result ∈ p.analysis, result.snapshotId = p.snapshot.snapshotId ∧ result.decision.Buys ∧
    ∃ plan ∈ result.tradePlan, plan.snapshotId = p.snapshot.snapshotId ∧ plan.actionable = true

theorem Ready.justified (h : Ready p) (hbound : p.Bound) : Justified p := by
  obtain ⟨⟨⟨herrors, -⟩, hchain⟩, -⟩ : ((p.report.errors.map ValidationIssue.code = [] ∧ _) ∧ _) ∧ _ := by
    simpa only [staticBlockers, eraseDups_eq_nil, List.append_eq_nil_iff] using h.static
  obtain ⟨hchange, -⟩ : _ ∧ _ := by
    simpa only [decisionBlockers, eraseDups_eq_nil, List.append_eq_nil_iff] using h.decision
  obtain ⟨result, hresult, hbuys, plan, hplan, hactionable⟩ := h.trades
  refine ⟨fun issue hissue hsevere => ?_, hbound.snapshotId, hbound.snapshotHash, h.source, ?_,
    fun quote hquote => ?_, result, hresult, hbound.analysis result hresult, hbuys, plan, hplan,
      hbound.tradePlan result hresult plan hplan, hactionable⟩
  · have hmem : issue ∈ p.report.errors := List.mem_filter.mpr ⟨hissue, decide_eq_true hsevere⟩
    rw [List.map_eq_nil_iff.mp herrors] at hmem
    cases hmem
  · exact completeAround (eq_true_of_ne_false (blocker_eq_nil.mp hchain))
  · by_contra hnone
    exact blocker_eq_nil.mp hchange ⟨quote, hquote, Option.not_isSome_iff_eq_none.mp hnone⟩

/-- The actionable read times of a publication. -/
structure Actionability (zone : Int → Int) (strategy : StrategyConfig) (p : PublishedSnapshot) : Prop where
  interval : ∀ a b c : Datetime, b.Aware → a.instant ≤ b.instant → b.instant ≤ c.instant →
    Actionable zone strategy p a → Actionable zone strategy p c → Actionable zone strategy p b
  notExpired : ∀ now, Actionable zone strategy p now → now.instant < p.snapshot.contract.optionExpiry.instant
  notFuture : ∀ now, Actionable zone strategy p now → ∀ t ∈ componentTimes p.snapshot,
    Within ((moment zone t).instant - now.instant) strategy.futureClockSkewSeconds
  notStale : ∀ now, Actionable zone strategy p now → ∀ t ∈ componentTimes p.snapshot,
    Within (now.instant - (moment zone t).instant) strategy.liveMaxAgeSeconds
  masterFresh : ∀ now, Actionable zone strategy p now →
    Within (now.instant - p.snapshot.contract.master.fetchedAt.instant) strategy.instrumentMasterMaxAgeSeconds
  justified : ∀ now, Actionable zone strategy p now → Justified p

end

/-- The actionable reads of a published workspace. -/
theorem readAt_actionability (zone : Int → Int) (strategy : StrategyConfig) (tables : CharTables)
    (snapshot : AtomicSnapshot) (report : ValidationReport) (analysis : Option SignalPipelineResult)
    (p : PublishedSnapshot) (h : publication tables snapshot report analysis = .ok p) :
    Actionability zone strategy p := by
  have hbound := (publication_eq_ok h).2.2.2
  have hmax : strategy.liveMaxAgeSeconds.IsFinite := strategy.finite _ (by simp)
  have hskew : strategy.futureClockSkewSeconds.IsFinite := strategy.finite _ (by simp)
  have hmaster : strategy.instrumentMasterMaxAgeSeconds.IsFinite := strategy.finite _ (by simp)
  have hzero : (0 : Binary64).IsFinite := trivial
  have hmaxpos : (0 : Binary64).toRat < strategy.liveMaxAgeSeconds.toRat :=
    (Binary64.lt_iff hzero hmax).mp strategy.maxAge_pos
  have hskewnonneg : (0 : Binary64).toRat ≤ strategy.futureClockSkewSeconds.toRat :=
    (Binary64.le_iff hzero hskew).mp strategy.skews_nonneg.2
  have hmasterpos : (0 : Binary64).toRat < strategy.instrumentMasterMaxAgeSeconds.toRat :=
    (Binary64.lt_iff hzero hmaster).mp strategy.masterAge_pos
  rw [Binary64.toRat_zero] at hmaxpos hskewnonneg hmasterpos
  refine ⟨fun a b c hb hab hbc ha hc => ?_, fun now hnow => (actionable_iff.mp hnow).2.2.notExpired,
    fun now hnow t ht => ?_, fun now hnow t ht => ?_, fun now hnow => ?_,
    fun now hnow => (actionable_iff.mp hnow).2.1.justified hbound⟩
  · obtain ⟨ha, hready, hfirst⟩ := actionable_iff.mp ha
    obtain ⟨hc, -, hlast⟩ := actionable_iff.mp hc
    exact actionable_iff.mpr ⟨hb, hready, hfirst.between ha hb hc hab hbc hlast⟩
  · obtain ⟨haware, -, hfresh⟩ := actionable_iff.mp hnow
    have hage := seconds_le_of_not_lt_neg hskew hskewnonneg (hfresh.notFuture t ht)
    rw [moment_aware haware, Datetime.instant_utc] at hage
    exact .of_near hage
  · obtain ⟨haware, -, hfresh⟩ := actionable_iff.mp hnow
    have hage := seconds_le_of_not_lt hmax hmaxpos.le (hfresh.notStale t ht)
    rw [moment_aware haware, Datetime.instant_utc] at hage
    exact .of_near hage
  · obtain ⟨-, -, hfresh⟩ := actionable_iff.mp hnow
    exact .of_near (seconds_le_of_not_lt hmaster hmasterpos.le hfresh.masterFresh)

/-! ### An age of centuries -/

/-- Ages up to some 634 years. -/
def patientConfig : StrategyConfig := { DEFAULT_STRATEGY_CONFIG with
  liveMaxAgeSeconds := 20000000000
  instrumentMasterMaxAgeSeconds := 20000000000
  finite := by decide +kernel
  maxAge_pos := by decide +kernel
  masterAge_pos := by decide }

def ladderContract : ContractSpec := { SignalPipeline.tieContract with
  optionExpiry := .utc 30000000000000000
  strikeInterval := 10 }

def ladderQuote (securityId : String) (strike : Decimal) (side : OptionType) : OptionQuote :=
  { SignalPipeline.tieQuote securityId side 100 0.575 with strike }

/-- Both sides of the five strikes around 100. -/
def ladderChain : List OptionQuote := [80, 90, 100, 110, 120].flatMap fun strike =>
  [ladderQuote "1" strike .call, ladderQuote "2" strike .put]

def ladderSnapshot : AtomicSnapshot := { SignalPipeline.tieSnapshot with
  contract := ladderContract
  optionChain := ladderChain
  metadata := [("normalized_component_hashes", stringDict (normalizedComponentHashes ladderContract
    SignalPipeline.tieMarket SignalPipeline.tieTechnicals SignalPipeline.tieContext ladderChain))]
  hashed := rfl }

def ladderReport : ValidationReport := ⟨[], ladderSnapshot.snapshotId, contentHash ladderSnapshot⟩

def ladderRanked : RankedStrike := ⟨1, "1", 100, .call, some 100, 90, none, 100, true, []⟩

def ladderPlan : TradePlan where
  signalId := "signal"
  snapshotId := ladderSnapshot.snapshotId
  contractKey := "contract"
  strategyVersion := STRATEGY_VERSION
  evidenceVersion := "evidence"
  generatedAt := SignalPipeline.tieTime
  decision := .buyCall
  actionable := true
  symbol := "NIFTY"
  securityId := "1"
  optionType := .call
  strike := 100
  expiry := ladderContract.optionExpiry
  score := 90
  scoreGap := 20
  entry := 100
  stop := 80
  targets := [120, 140, 160]
  lotSize := 1
  lots := 1
  quantity := 1
  maximumRisk := 200
  riskPerLot := 20
  premiumRequired := 100

def ladderAnalysis : SignalPipelineResult where
  snapshotId := ladderSnapshot.snapshotId
  generatedAt := SignalPipeline.tieTime
  decision := .buyCall
  reason := .bullishConfirmed
  callScore := 90
  putScore := 70
  scoreGap := 20
  rankedStrikes := List.replicate 10 ladderRanked
  tradePlan := some ladderPlan
  warnings := []

def ladderPublication : PublishedSnapshot :=
  published asciiTables ladderSnapshot ladderReport (some ladderAnalysis)

theorem publication_ladder :
    publication asciiTables ladderSnapshot ladderReport (some ladderAnalysis) = .ok ladderPublication := by
  have hsource : ladderSnapshot.sourceTimestamp.Aware := tieTime_aware
  have hreceived : ladderSnapshot.receivedAt.Aware := tieTime_aware
  have hid : ladderReport.snapshotId = some ladderSnapshot.snapshotId := by
    rw [ladderReport]
  have hhash : ladderReport.snapshotHash = some (contentHash ladderSnapshot) := by
    rw [ladderReport]
  have hanalysis : publication.checkAnalysis ladderSnapshot (some ladderAnalysis) = .ok () := by
    simp [publication.checkAnalysis, ladderAnalysis, ladderPlan, requireAware, tieTime_aware, bind, Except.bind]
  have hnamed : ¬PyText.Blank (selectionSymbol ladderSnapshot) := by
    have hsymbol : selectionSymbol ladderSnapshot = "NIFTY 13" := by
      rw [selectionSymbol, ladderSnapshot]
      simp only [List.lookup_cons]
      rfl
    rw [hsymbol]
    decide
  exact publication_published asciiTables _ _ _ hsource hreceived hid hhash hanalysis hnamed

/-- One microsecond past the age allowed. -/
def lateTime : Datetime := .utc (SignalPipeline.tieTime.instant + 20000000000000001)

theorem ladder_ready : Ready ladderPublication where
  source := .inl rfl
  static := by decide +kernel
  decision := by decide +kernel
  trades := by decide

theorem ladder_fresh : Fresh (fun _ => 0) patientConfig ladderSnapshot lateTime where
  components := by decide
  clock := by decide
  expiry := rfl
  master := rfl
  notStale := by decide +kernel
  notFuture := by decide +kernel
  notExpired := by decide +kernel
  masterFresh := by decide +kernel

/-- The workspace is still actionable, past the age allowed. -/
theorem readAt_actionable_late :
    publication asciiTables ladderSnapshot ladderReport (some ladderAnalysis) = .ok ladderPublication ∧
    Actionable (fun _ => 0) patientConfig ladderPublication lateTime ∧
    patientConfig.liveMaxAgeSeconds.toRat < seconds (lateTime.instant - ladderSnapshot.sourceTimestamp.instant) := by
  refine ⟨publication_ladder, actionable_iff.mpr ⟨rfl, ladder_ready, ladder_fresh⟩, ?_⟩
  have hlimit : patientConfig.liveMaxAgeSeconds.toRat = 20000000000 := Nat.cast_ofNat
  have hage : lateTime.instant - ladderSnapshot.sourceTimestamp.instant = 20000000000000001 := by decide
  rw [hlimit, hage, seconds]
  norm_num

theorem readAt_actionability_ladder : Actionability (fun _ => 0) patientConfig ladderPublication :=
  readAt_actionability (fun _ => 0) patientConfig asciiTables ladderSnapshot ladderReport (some ladderAnalysis)
    ladderPublication publication_ladder

end TecoQuant.Api
