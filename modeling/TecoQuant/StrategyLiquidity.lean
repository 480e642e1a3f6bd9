import TecoQuant.BaseBinary64Shortest
import TecoQuant.BaseDecimalQuotient
import TecoQuant.StrategyDecision

/-! Liquidity on values. In exact arithmetic a better quote never scores less, nor loses its eligibility; with the
roundings of the code the values are those of its score. -/

namespace TecoQuant.Strategy

/-- The roundings of decimals and floats. -/
structure Arithmetic where
  decimal : DecimalContext
  float : ℚ → ℚ

namespace Arithmetic

def exact : Arithmetic := ⟨.exact, id⟩

/-- The arithmetic of the code; floats have no largest exponent, as an infinity only ever loses a comparison. -/
def code : Arithmetic := ⟨.default, Binary64.nearest⟩

@[simp] theorem exact_float (q : ℚ) : exact.float q = q := rfl

@[simp] theorem exact_round (q : ℚ) : exact.decimal.round q = q := rfl

@[simp] theorem exact_sub (x y : ℚ) : exact.decimal.sub x y = x - y := rfl

end Arithmetic

/-- The market of a leg. -/
structure LegMarket where
  bid : Option ℚ
  ask : Option ℚ
  volume : Option Int
  openInterest : Option Int
  deriving DecidableEq, Repr

structure LiquidityValues where
  score : ℚ
  eligible : Bool
  rejectionReasons : List String
  deriving DecidableEq, Repr

namespace LegMarket

variable (market : LegMarket) (arithmetic : Arithmetic) (config : StrategyConfig)

/-- Whether the market is missing or crossed. -/
def quoteReasons : List String :=
  match market.bid, market.ask with
  | some bid, some ask =>
      if bid ≤ 0 ∨ ask ≤ 0 then ["MISSING_OR_NON_POSITIVE_MARKET"] else if ask < bid then ["ASK_BELOW_BID"] else []
  | _, _ => ["MISSING_OR_NON_POSITIVE_MARKET"]

/-- The spread relative to a positive ask; a crossed market and one without quotes count as the widest. -/
def spreadRatio : ℚ :=
  match market.bid, market.ask with
  | some bid, some ask =>
      if 0 < ask then
        let ratio := arithmetic.float (arithmetic.decimal.round (arithmetic.decimal.sub ask bid / ask))
        if ratio < 0 then 1 else ratio
      else 1
  | _, _ => 1

/-- A spread is wide only when there is a positive ask to relate it to. -/
def spreadReasons : List String :=
  match market.bid, market.ask with
  | some _, some ask =>
      if 0 < ask ∧ config.maximumSpreadRatio.toRat < market.spreadRatio arithmetic then ["WIDE_SPREAD"] else []
  | _, _ => []

/-- The hard thresholds a market misses. -/
def reasons : List String :=
  market.quoteReasons ++ market.spreadReasons arithmetic config ++
    (if ∃ v ∈ market.volume, config.minimumVolume ≤ v then [] else ["LOW_VOLUME"]) ++
    (if ∃ v ∈ market.openInterest, config.minimumOpenInterest ≤ v then [] else ["LOW_OPEN_INTEREST"])

/-- `min(1.0, max(0, value or 0) / minimum)`. -/
def share (value : Option Int) (minimum : Int) : ℚ :=
  min 1 (arithmetic.float (max 0 (value.getD 0) / minimum))

/-- The points of the spread, the volume and the open interest. -/
def score : ℚ :=
  let relative := arithmetic.float (market.spreadRatio arithmetic / config.maximumSpreadRatio.toRat)
  let spreadPoints := arithmetic.float (50 * max 0 (arithmetic.float (1 - relative)))
  let volumePoints := arithmetic.float (25 * share arithmetic market.volume config.minimumVolume)
  let oiPoints := arithmetic.float (25 * share arithmetic market.openInterest config.minimumOpenInterest)
  max 0 (min 100 (arithmetic.float (arithmetic.float (spreadPoints + volumePoints) + oiPoints)))

/-- `liquidity_score`. -/
def liquidityScore : LiquidityValues :=
  let reasons := market.reasons arithmetic config
  let score := market.score arithmetic config
  let eligible : Bool := decide (reasons = [] ∧ config.minimumLiquidityScore.toRat ≤ score)
  ⟨score, eligible, if reasons = [] ∧ eligible = false then ["LIQUIDITY_SCORE_BELOW_MINIMUM"] else reasons⟩

/-! ### Better markets -/

/-- A quoted market that is at least as good: no lower bid, no higher ask and no less volume or open interest. -/
structure ImprovedBy (first second : LegMarket) : Prop where
  quoted : ∃ bid ask, second.bid = some bid ∧ second.ask = some ask ∧ 0 < bid ∧ bid ≤ ask ∧
    (∀ b ∈ first.bid, b ≤ bid) ∧ ∀ a ∈ first.ask, ask ≤ a
  volume : ∀ v ∈ first.volume, ∃ w ∈ second.volume, v ≤ w
  openInterest : ∀ v ∈ first.openInterest, ∃ w ∈ second.openInterest, v ≤ w

variable {config} {market first second : LegMarket}

theorem maximumSpread_pos (config : StrategyConfig) : 0 < config.maximumSpreadRatio.toRat := by
  have hrate := config.rates config.maximumSpreadRatio List.mem_cons_self
  have hfinite := config.finite config.maximumSpreadRatio (by simp)
  have hzero : (0 : Binary64).IsFinite := trivial
  have hpos := not_or.mp hrate
  rw [Binary64.le_iff hfinite hzero, Binary64.toRat_zero, not_le] at hpos
  exact hpos.1

/-- The spread ratio of a quoted market. -/
theorem spreadRatio_of_quoted {bid ask : ℚ} (hbid : market.bid = some bid) (hask : market.ask = some ask)
    (hpos : 0 < bid)
    (hle : bid ≤ ask) : market.spreadRatio .exact = (ask - bid) / ask ∧ 0 ≤ market.spreadRatio .exact := by
  have hask' : 0 < ask := hpos.trans_le hle
  have hnonneg : 0 ≤ (ask - bid) / ask := div_nonneg (sub_nonneg.mpr hle) hask'.le
  have hratio : market.spreadRatio .exact = (ask - bid) / ask := by
    rw [spreadRatio, hbid, hask]
    dsimp only [Arithmetic.exact_float, Arithmetic.exact_round, Arithmetic.exact_sub]
    rw [if_pos hask', if_neg (not_lt.mpr hnonneg)]
  exact ⟨hratio, hratio ▸ hnonneg⟩

theorem spreadRatio_anti (h : first.ImprovedBy second) : second.spreadRatio .exact ≤ first.spreadRatio .exact := by
  obtain ⟨bid, ask, hbid, hask, hpos, hle, hbids, hasks⟩ := h.quoted
  have hask' : 0 < ask := hpos.trans_le hle
  have hratio := (spreadRatio_of_quoted hbid hask hpos hle).1
  have hone : (ask - bid) / ask ≤ 1 := by
    rw [div_le_one hask']
    exact sub_le_self _ hpos.le
  rw [hratio]
  unfold spreadRatio
  split
  · rename_i b a hb ha
    dsimp only [Arithmetic.exact_float, Arithmetic.exact_round, Arithmetic.exact_sub]
    split_ifs with ha'
    · exact hone
    · -- The first spread is `1 - b / a`, and `b / a` is at most `bid / ask`.
      have hb : b ≤ bid := hbids b hb
      have ha : ask ≤ a := hasks a ha
      rw [div_le_div_iff₀ hask' ha']
      rcases le_or_gt b 0 with hneg | hpos'
      · nlinarith
      · nlinarith
    · exact hone
  · exact hone

theorem share_mono {value value' : Option Int} {minimum : Int} (hminimum : 0 < minimum)
    (h : ∀ v ∈ value, ∃ w ∈ value', v ≤ w) : share .exact value minimum ≤ share .exact value' minimum := by
  have hcast : (0 : ℚ) < minimum := Int.cast_pos.mpr hminimum
  unfold share
  refine min_le_min le_rfl (div_le_div_of_nonneg_right (Int.cast_le.mpr ?_) hcast.le)
  cases value with
  | none => exact max_le (le_max_left _ _) (le_max_left _ _)
  | some v =>
      obtain ⟨w, hw, hle⟩ := h v rfl
      rw [Option.mem_def.mp hw]
      exact max_le_max le_rfl hle

theorem score_mono (h : first.ImprovedBy second) : first.score .exact config ≤ second.score .exact config := by
  have hspread : second.spreadRatio .exact / config.maximumSpreadRatio.toRat ≤
      first.spreadRatio .exact / config.maximumSpreadRatio.toRat :=
    div_le_div_of_nonneg_right (spreadRatio_anti h) (maximumSpread_pos config).le
  have hvolume := share_mono config.counts_pos.1 h.volume
  have hopenInterest := share_mono config.counts_pos.2 h.openInterest
  have hpoints := max_le_max (le_refl (0 : ℚ)) (sub_le_sub_left hspread 1)
  unfold score
  dsimp only [Arithmetic.exact_float]
  refine max_le_max le_rfl (min_le_min le_rfl ?_)
  linarith

theorem threshold_of_nil {condition : Prop} [Decidable condition] {reason : String}
    (h : (if condition then [] else [reason]) = []) : condition := by
  by_contra hnot
  rw [if_neg hnot] at h
  cases h

theorem reasons_nil_iff : market.reasons .exact config = [] ↔
    market.quoteReasons = [] ∧ market.spreadReasons .exact config = [] ∧
      (∃ v ∈ market.volume, config.minimumVolume ≤ v) ∧ ∃ v ∈ market.openInterest, config.minimumOpenInterest ≤ v := by
  rw [reasons, List.append_eq_nil_iff, List.append_eq_nil_iff, List.append_eq_nil_iff, and_assoc, and_assoc]
  refine and_congr_right' (and_congr_right' (and_congr ?_ ?_)) <;>
    exact ⟨threshold_of_nil, fun h => if_pos h⟩

theorem exists_mono {value value' : Option Int} {minimum : Int} (h : ∀ v ∈ value, ∃ w ∈ value', v ≤ w)
    (hvalue : ∃ v ∈ value, minimum ≤ v) : ∃ v ∈ value', minimum ≤ v := by
  obtain ⟨v, hv, hle⟩ := hvalue
  obtain ⟨w, hw, hle'⟩ := h v hv
  exact ⟨w, hw, hle.trans hle'⟩

/-- A better market misses no threshold that the other one meets. -/
theorem reasons_mono (h : first.ImprovedBy second) (hreasons : first.reasons .exact config = []) :
    second.reasons .exact config = [] := by
  obtain ⟨hquote, hspread, hvolume, hopenInterest⟩ := reasons_nil_iff.mp hreasons
  obtain ⟨bid, ask, hbid, hask, hpos, hle, -, -⟩ := h.quoted
  refine reasons_nil_iff.mpr ⟨?_, ?_, exists_mono h.volume hvolume, exists_mono h.openInterest hopenInterest⟩
  · rw [quoteReasons, hbid, hask]
    dsimp only
    rw [if_neg (not_or.mpr ⟨not_le.mpr hpos, not_le.mpr (hpos.trans_le hle)⟩), if_neg (not_lt.mpr hle)]
  · -- The first market is quoted, and its spread is not wide.
    have hnarrow : first.spreadRatio .exact ≤ config.maximumSpreadRatio.toRat := by
      unfold quoteReasons at hquote
      unfold spreadReasons at hspread
      split at hquote
      · rename_i b a hb ha
        rw [hb, ha] at hspread
        dsimp only at hspread
        split_ifs at hquote hspread with hmissing _ hwide
        exact not_lt.mp fun hlt => hwide ⟨not_le.mp (not_or.mp hmissing).2, hlt⟩
      · cases hquote
    rw [spreadReasons, hbid, hask]
    exact if_neg fun hwide => absurd ((spreadRatio_anti h).trans hnarrow) (not_le.mpr hwide.2)

theorem eligible_iff : (market.liquidityScore .exact config).eligible = true ↔
    market.reasons .exact config = [] ∧ config.minimumLiquidityScore.toRat ≤ market.score .exact config :=
  decide_eq_true_iff

/-! ### Scores -/

/-- What holds of the score of any market. -/
structure WellScored (market : LegMarket) (config : StrategyConfig) : Prop where
  range : 0 ≤ (market.liquidityScore .exact config).score ∧ (market.liquidityScore .exact config).score ≤ 100
  eligible : (market.liquidityScore .exact config).eligible = true ↔
    (market.liquidityScore .exact config).rejectionReasons = []
  quoted : (∀ bid ∈ market.bid, ∀ ask ∈ market.ask, bid ≤ 0 ∨ ask ≤ 0 ∨ ask < bid) →
    (market.liquidityScore .exact config).eligible = false

theorem wellScored (market : LegMarket) (config : StrategyConfig) : market.WellScored config := by
  constructor
  case range => exact ⟨le_max_left _ _, max_le (by norm_num) (min_le_left _ _)⟩
  case eligible =>
    rw [eligible_iff]
    by_cases heligible : market.reasons .exact config = [] ∧
      config.minimumLiquidityScore.toRat ≤ market.score .exact config
    · refine iff_of_true heligible ?_
      show (if market.reasons .exact config = [] ∧ decide _ = false then _ else _) = []
      rw [decide_eq_true heligible, if_neg fun h => Bool.noConfusion h.2]
      exact heligible.1
    · refine iff_of_false heligible ?_
      show (if market.reasons .exact config = [] ∧ decide _ = false then _ else _) ≠ []
      rw [decide_eq_false heligible]
      split
      · exact List.cons_ne_nil _ _
      · rename_i hreasons
        exact fun hnil => hreasons ⟨hnil, rfl⟩
  case quoted =>
    intro hmarket
    refine Bool.eq_false_iff.mpr fun heligible => ?_
    have hquote := (reasons_nil_iff.mp (eligible_iff.mp heligible).1).1
    unfold quoteReasons at hquote
    split at hquote
    · rename_i bid ask hbid hask
      split_ifs at hquote with hmissing hcrossed
      rcases hmarket bid hbid ask hask with h | h | h
      · exact hmissing (.inl h)
      · exact hmissing (.inr h)
      · exact hcrossed h
    · cases hquote

end LegMarket

/-- **Liquidity is monotone**: every market is scored within its range and eligible only without a reason against it,
and one that improves it scores no less and stays eligible. -/
theorem liquidityScore_mono (config : StrategyConfig) (first second : LegMarket) :
    (first.WellScored config ∧ second.WellScored config) ∧ (first.ImprovedBy second →
      (first.liquidityScore .exact config).score ≤ (second.liquidityScore .exact config).score ∧
        ((first.liquidityScore .exact config).eligible = true →
          (second.liquidityScore .exact config).eligible = true)) := by
  refine ⟨⟨LegMarket.wellScored first config, LegMarket.wellScored second config⟩, fun himproved => ?_⟩
  have hscore := @LegMarket.score_mono config _ _ himproved
  refine ⟨hscore, fun heligible => ?_⟩
  obtain ⟨hreasons, hminimum⟩ := LegMarket.eligible_iff.mp heligible
  exact LegMarket.eligible_iff.mpr ⟨LegMarket.reasons_mono himproved hreasons, hminimum.trans hscore⟩

/-- A leg quoted at 100 by 102, and one at 101 by 102 with more volume and open interest. -/
def wideMarket : LegMarket := ⟨some 100, some 102, some 1500, some 1000⟩

def narrowMarket : LegMarket := ⟨some 101, some 102, some 2000, some 1500⟩

theorem liquidityScore_mono_sample :
    (wideMarket.liquidityScore .exact DEFAULT_STRATEGY_CONFIG).score ≤
        (narrowMarket.liquidityScore .exact DEFAULT_STRATEGY_CONFIG).score ∧
      (narrowMarket.liquidityScore .exact DEFAULT_STRATEGY_CONFIG).eligible = true := by
  have himproved : wideMarket.ImprovedBy narrowMarket := by
    refine ⟨⟨101, 102, rfl, rfl, by norm_num, by norm_num, ?_, ?_⟩, ?_, ?_⟩ <;>
      rintro value hvalue <;> cases hvalue
    · norm_num
    · norm_num
    · exact ⟨2000, rfl, by norm_num⟩
    · exact ⟨1500, rfl, by norm_num⟩
  have h := (liquidityScore_mono DEFAULT_STRATEGY_CONFIG wideMarket narrowMarket).2 himproved
  exact ⟨h.1, h.2 (by decide +kernel)⟩

/-! ### The score of the code -/

theorem ofDecimal_stands {d : Decimal} (h : d.IsFinite) : (Binary64.ofDecimal d).Stands (Binary64.nearest d.value) := by
  cases d with
  | finite negative coefficient exponent => exact Binary64.round_stands _ _
  | _ => exact h.elim

section Code

variable {bid ask : Decimal} {config : StrategyConfig} (volume openInterest : Option Int)

/-- The market of finite quotes. -/
def LegMarket.of (bid ask : Option Decimal) (volume openInterest : Option Int) : LegMarket :=
  ⟨bid.map Decimal.value, ask.map Decimal.value, volume, openInterest⟩

theorem marketReasons_values {reasons : List String} (hbid : bid.IsFinite) (hask : ask.IsFinite)
    (h : marketReasons bid ask = .ok reasons) :
    reasons = (LegMarket.of (some bid) (some ask) volume openInterest).quoteReasons := by
  have hzero : (0 : Decimal).IsFinite := trivial
  have hvalue : (0 : Decimal).value = 0 := by simp [Decimal.value]
  unfold marketReasons at h
  rw [Decimal.lessEqual_of_finite hbid hzero, Decimal.lessEqual_of_finite hask hzero,
    Decimal.less_of_finite hask hbid] at h
  have hquote : (LegMarket.of (some bid) (some ask) volume openInterest).quoteReasons =
      if bid ≤ 0 ∨ ask ≤ 0 then ["MISSING_OR_NON_POSITIVE_MARKET"]
      else if ask < bid then ["ASK_BELOW_BID"] else [] := by
    change (if bid.value ≤ 0 ∨ ask.value ≤ 0 then _ else _) =
      if bid.value ≤ Decimal.value 0 ∨ ask.value ≤ Decimal.value 0 then _ else _
    rw [hvalue]
    rfl
  rw [hquote]
  by_cases hnoBid : bid ≤ 0
  · rw [if_pos (.inl hnoBid)]
    rw [decide_eq_true hnoBid] at h
    exact (Except.ok.inj h).symm
  · rw [decide_eq_false hnoBid] at h
    by_cases hnoAsk : ask ≤ 0
    · rw [if_pos (.inr hnoAsk)]
      rw [decide_eq_true hnoAsk] at h
      exact (Except.ok.inj h).symm
    · rw [if_neg (not_or.mpr ⟨hnoBid, hnoAsk⟩)]
      rw [decide_eq_false hnoAsk] at h
      by_cases hcrossed : ask < bid
      · rw [if_pos hcrossed]
        rw [decide_eq_true hcrossed] at h
        exact (Except.ok.inj h).symm
      · rw [if_neg hcrossed]
        rw [decide_eq_false hcrossed] at h
        exact (Except.ok.inj h).symm

theorem spreadRatio_values {ratio : Binary64} (hbid : bid.IsFinite) (hask : ask.IsFinite) (hpos : 0 < ask.value)
    (h : spreadRatio bid ask = .ok ratio) :
    let value := (LegMarket.of (some bid) (some ask) volume openInterest).spreadRatio .code
    ratio.Stands value ∧ 0 ≤ value := by
  unfold spreadRatio at h
  obtain ⟨spread, hspread, h⟩ := Except.bind_eq_ok.mp h
  obtain ⟨quotient, hquotient, h⟩ := Except.bind_eq_ok.mp h
  obtain ⟨hspreadFinite, hspreadValue⟩ := Decimal.minus_value hask hbid (arith_eq_ok.mp hspread)
  obtain ⟨hfinite, hvalue⟩ := Decimal.divide_value hspreadFinite hask (arith_eq_ok.mp hquotient)
  have hstands := ofDecimal_stands hfinite
  have hsign : Binary64.ofDecimal quotient < 0 ↔ Binary64.nearest quotient.value < 0 := by
    have hlt := (hstands.lt_iff (y := 0) trivial (by rw [Binary64.toRat_zero, abs_zero]; exact pow_pos (by norm_num) _)).2
    rwa [Binary64.toRat_zero] at hlt
  have hratio : (LegMarket.of (some bid) (some ask) volume openInterest).spreadRatio .code =
      if Binary64.nearest quotient.value < 0 then 1 else Binary64.nearest quotient.value := by
    rw [hvalue, hspreadValue]
    exact if_pos hpos
  dsimp only
  rw [hratio]
  rw [← Except.ok.inj h]
  by_cases hnegative : Binary64.nearest quotient.value < 0
  · rw [if_pos hnegative, if_pos (hsign.mpr hnegative)]
    exact ⟨Nat.cast_one, zero_le_one⟩
  · rw [if_neg hnegative, if_neg (mt hsign.mp hnegative)]
    exact ⟨hstands, not_lt.mp hnegative⟩

/-- What is known of the maximum spread. -/
theorem maximumSpread_cases (config : StrategyConfig) (hfloat : config.maximumSpreadRatio.Representable) :
    ∃ limit, config.maximumSpreadRatio = .finite false limit ∧ 0 < limit ∧ limit ≤ 1 := by
  have hpos := LegMarket.maximumSpread_pos config
  have hfinite := config.finite config.maximumSpreadRatio (by simp)
  have hrate := (not_or.mp (config.rates config.maximumSpreadRatio List.mem_cons_self)).2
  cases hmaximum : config.maximumSpreadRatio with
  | finite negative limit =>
      rw [hmaximum] at hfloat hpos hrate
      obtain rfl := hfloat.unsigned hpos
      refine ⟨limit, rfl, hpos, ?_⟩
      have hle : limit ≤ ((1 : Nat) : ℚ) := not_lt.mp hrate
      rwa [Nat.cast_one] at hle
  | infinity negative => rw [hmaximum] at hfinite; exact hfinite.elim
  | nan => rw [hmaximum] at hfinite; exact hfinite.elim

theorem spreadChecks_quoted {reasons : List String} {ratio : Binary64}
    (hfloat : config.maximumSpreadRatio.Representable) (hbid : bid.IsFinite) (hask : ask.IsFinite)
    (h : spreadChecks (some bid) (some ask) config = .ok (reasons, ratio)) :
    let market := LegMarket.of (some bid) (some ask) volume openInterest
    reasons = market.quoteReasons ++ market.spreadReasons .code config ∧
      ratio.Stands (market.spreadRatio .code) ∧ 0 ≤ market.spreadRatio .code := by
  obtain ⟨missing, hmissing, h⟩ := Except.bind_eq_ok.mp h
  obtain ⟨quoted, hquoted, h⟩ := Except.bind_eq_ok.mp h
  rw [Decimal.less_of_finite (show (0 : Decimal).IsFinite from trivial) hask] at hquoted
  obtain rfl := Except.ok.inj (arith_eq_ok.mp hquoted)
  have hreasons := marketReasons_values volume openInterest hbid hask hmissing
  have hpositive : (0 : Decimal) < ask ↔ 0 < ask.value := by
    change Decimal.value 0 < _ ↔ _
    rw [show Decimal.value 0 = 0 by simp [Decimal.value]]
  have hspread : (LegMarket.of (some bid) (some ask) volume openInterest).spreadReasons .code config =
      if 0 < ask.value ∧ config.maximumSpreadRatio.toRat <
        (LegMarket.of (some bid) (some ask) volume openInterest).spreadRatio .code then ["WIDE_SPREAD"] else [] := rfl
  dsimp only
  rw [hspread, ← hreasons]
  by_cases hpos : 0 < ask.value
  · rw [decide_eq_true (hpositive.mpr hpos)] at h
    obtain ⟨ratio', hratio, h⟩ := Except.bind_eq_ok.mp h
    cases h
    obtain ⟨hstands, hnonneg⟩ := spreadRatio_values volume openInterest hbid hask hpos hratio
    obtain ⟨limit, hlimit, hlimitPos, hlimitOne⟩ := maximumSpread_cases config hfloat
    have hwide := (hstands.lt_iff (y := config.maximumSpreadRatio) (by rw [hlimit]; trivial) (by
      rw [hlimit, Binary64.toRat, abs_of_pos hlimitPos]
      exact hlimitOne.trans_lt (one_lt_pow₀ (by norm_num) (by norm_num)))).1
    refine ⟨?_, hstands, hnonneg⟩
    by_cases hlt : config.maximumSpreadRatio < ratio
    · rw [if_pos hlt, if_pos ⟨hpos, hwide.mp hlt⟩]
    · rw [if_neg hlt, if_neg fun hboth => hlt (hwide.mpr hboth.2), List.append_nil]
  · rw [decide_eq_false (mt hpositive.mp hpos)] at h
    cases h
    have hone : (LegMarket.of (some bid) (some ask) volume openInterest).spreadRatio .code = 1 := if_neg hpos
    rw [if_neg fun hboth => hpos hboth.1, List.append_nil, hone]
    exact ⟨rfl, Nat.cast_one, zero_le_one⟩

theorem spreadChecks_values {bid ask : Option Decimal} {reasons : List String} {ratio : Binary64}
    (hfloat : config.maximumSpreadRatio.Representable) (hbid : ∀ d ∈ bid, d.IsFinite) (hask : ∀ d ∈ ask, d.IsFinite)
    (h : spreadChecks bid ask config = .ok (reasons, ratio)) :
    let market := LegMarket.of bid ask volume openInterest
    reasons = market.quoteReasons ++ market.spreadReasons .code config ∧
      ratio.Stands (market.spreadRatio .code) ∧ 0 ≤ market.spreadRatio .code := by
  cases bid with
  | none =>
      cases h
      exact ⟨rfl, Nat.cast_one, zero_le_one⟩
  | some bid =>
      cases ask with
      | none =>
          cases h
          exact ⟨rfl, Nat.cast_one, zero_le_one⟩
      | some ask => exact spreadChecks_quoted volume openInterest hfloat (hbid bid rfl) (hask ask rfl) h

/-- The points of the spread: an infinite relation to the maximum leaves none. -/
theorem remaining_values {relative : Binary64} {q : ℚ} (h : relative.Stands q) (hq : 0 ≤ q) :
    (Binary64.max 0 ((1 : Binary64).sub relative)).IsFinite ∧
      (Binary64.max 0 ((1 : Binary64).sub relative)).toRat = max 0 (Binary64.nearest (1 - q)) ∧
      max 0 (Binary64.nearest (1 - q)) ≤ 1 := by
  have hnone (hle : Binary64.nearest (1 - q) ≤ 0) : (0 : Binary64).IsFinite ∧
      (0 : Binary64).toRat = max 0 (Binary64.nearest (1 - q)) ∧ max 0 (Binary64.nearest (1 - q)) ≤ 1 := by
    rw [max_eq_left hle]
    exact ⟨trivial, Binary64.toRat_zero, zero_le_one⟩
  cases relative with
  | finite negative value =>
      obtain rfl : value = q := h
      have hdifference : ((1 : Nat) : ℚ) + -value = 1 - value := by rw [Nat.cast_one, sub_eq_add_neg]
      obtain ⟨zeroSign, hsub⟩ : ∃ zeroSign, (1 : Binary64).sub (.finite negative value) = .round zeroSign (1 - value) :=
        ⟨_, congrArg (Binary64.round _) hdifference⟩
      have hsign := ((Binary64.round_stands zeroSign (1 - value)).lt_iff (y := 0) trivial (by
        rw [Binary64.toRat_zero, abs_zero]; exact pow_pos (by norm_num) _)).1
      rw [Binary64.toRat_zero] at hsign
      rw [hsub, Binary64.max]
      by_cases hpos : 0 < Binary64.nearest (1 - value)
      · have hnonneg : 0 ≤ 1 - value := le_of_not_gt fun hneg => (Binary64.nearest_nonpos hneg.le).not_gt hpos
        have hround := Binary64.round_nearest zeroSign (e := 0) (by norm_num) hnonneg (by rw [zpow_zero]; linarith)
        rw [if_pos (hsign.mpr hpos), max_eq_right hpos.le]
        exact ⟨hround.1, hround.2.1, hround.2.2.2⟩
      · rw [if_neg (mt hsign.mp hpos)]
        exact hnone (not_lt.mp hpos)
  | infinity negative =>
      cases negative with
      | false =>
          have hlarge : 1 ≤ q := (one_le_pow₀ (by norm_num)).trans (show (2 : ℚ) ^ 1024 ≤ q from h)
          exact hnone (Binary64.nearest_nonpos (by linarith))
      | true => exact absurd (hq.trans h) (not_le.mpr (neg_neg_of_pos (pow_pos (by norm_num) _)))
  | nan => exact h.elim

theorem depthShare_values {value : Option Int} {minimum : Int} {share : Binary64} (hminimum : 0 < minimum)
    (h : depthShare value minimum = .ok share) :
    share.IsFinite ∧ share.toRat = LegMarket.share .code value minimum ∧
      0 ≤ LegMarket.share .code value minimum ∧ LegMarket.share .code value minimum ≤ 1 := by
  unfold depthShare at h
  obtain ⟨ratio, hratio, h⟩ := Except.bind_eq_ok.mp h
  have hvalues := Binary64.ofQuotient_nearest hminimum.ne' (arith_eq_ok.mp hratio)
  have hnonneg : (0 : ℚ) ≤ (max 0 (value.getD 0) : Int) / minimum :=
    div_nonneg (Int.cast_nonneg (le_max_left _ _)) (Int.cast_pos.mpr hminimum).le
  have hone : (1 : Binary64).toRat = 1 := Nat.cast_one
  have hleast := Binary64.min_toRat (x := 1) trivial hvalues.1
  rw [← Except.ok.inj h]
  rw [hone, hvalues.2] at hleast
  exact ⟨hleast.1, hleast.2, le_min zero_le_one (Binary64.nearest_nonneg hnonneg), min_le_left _ _⟩

/-- A share of `[0, 1]` earns at most its points. -/
theorem points_values (points : Nat) {share : Binary64} {e : ℤ} (he : -1074 ≤ e ∧ e ≤ 1023)
    (hpoints : (points : ℚ) ≤ 2 ^ e)
    (hfinite : share.IsFinite) (hshare : 0 ≤ share.toRat ∧ share.toRat ≤ 1) :
    ((Binary64.ofRat points).mul share).IsFinite ∧
      ((Binary64.ofRat points).mul share).toRat = Binary64.nearest (points * share.toRat) ∧
      0 ≤ Binary64.nearest (points * share.toRat) ∧ Binary64.nearest (points * share.toRat) ≤ 2 ^ e :=
  Binary64.mul_nearest (x := .ofRat points) he trivial hfinite (mul_nonneg points.cast_nonneg hshare.1)
    ((mul_le_of_le_one_right points.cast_nonneg hshare.2).trans hpoints)

theorem total_values {relative volumeShare openInterestShare : Binary64} {r v o : ℚ} (hrelative : relative.Stands r)
    (hr : 0 ≤ r) (hvolume : volumeShare.IsFinite ∧ volumeShare.toRat = v ∧ 0 ≤ v ∧ v ≤ 1)
    (hopenInterest : openInterestShare.IsFinite ∧ openInterestShare.toRat = o ∧ 0 ≤ o ∧ o ≤ 1) :
    let spreadPoints := (50 : Binary64).mul (Binary64.max 0 ((1 : Binary64).sub relative))
    let score := Binary64.max 0 (Binary64.min 100
      ((spreadPoints.add ((25 : Binary64).mul volumeShare)).add ((25 : Binary64).mul openInterestShare)))
    score.IsFinite ∧ score.toRat = max 0 (min 100 (Binary64.nearest (Binary64.nearest (Binary64.nearest
      (50 * max 0 (Binary64.nearest (1 - r))) + Binary64.nearest (25 * v)) + Binary64.nearest (25 * o)))) := by
  obtain ⟨hvolumeFinite, rfl, hvolumeRange⟩ := hvolume
  obtain ⟨hopenInterestFinite, rfl, hopenInterestRange⟩ := hopenInterest
  obtain ⟨hremaining, hremainingValue, hremainingLe⟩ := remaining_values hrelative hr
  have hspread := points_values 50 (e := 6) (by norm_num) (by norm_num) hremaining
    (by rw [hremainingValue]; exact ⟨le_max_left _ _, hremainingLe⟩)
  have hvolumePoints := points_values 25 (e := 5) (by norm_num) (by norm_num) hvolumeFinite hvolumeRange
  have hopenInterestPoints := points_values 25 (e := 5) (by norm_num) (by norm_num) hopenInterestFinite hopenInterestRange
  rw [hremainingValue] at hspread
  obtain ⟨hspreadFinite, hspreadValue, hspreadLow, hspreadHigh⟩ := hspread
  obtain ⟨hvolumeFinite, hvolumeValue, hvolumeLow, hvolumeHigh⟩ := hvolumePoints
  obtain ⟨hopenInterestFinite, hopenInterestValue, hopenInterestLow, hopenInterestHigh⟩ := hopenInterestPoints
  have hfirst := Binary64.add_nearest (e := 7) (by norm_num) hspreadFinite hvolumeFinite
    (by rw [hspreadValue, hvolumeValue]; exact add_nonneg hspreadLow hvolumeLow)
    (by rw [hspreadValue, hvolumeValue]; exact (add_le_add hspreadHigh hvolumeHigh).trans (by norm_num))
  rw [hspreadValue, hvolumeValue] at hfirst
  obtain ⟨hfirstFinite, hfirstValue, hfirstLow, hfirstHigh⟩ := hfirst
  have hsecond := Binary64.add_nearest (e := 8) (by norm_num) hfirstFinite hopenInterestFinite
    (by rw [hfirstValue, hopenInterestValue]; exact add_nonneg hfirstLow hopenInterestLow)
    (by rw [hfirstValue, hopenInterestValue]; exact (add_le_add hfirstHigh hopenInterestHigh).trans (by norm_num))
  rw [hfirstValue, hopenInterestValue] at hsecond
  have hleast := Binary64.min_toRat (x := 100) trivial hsecond.1
  have hmost := Binary64.max_toRat (x := 0) trivial hleast.1
  refine ⟨hmost.1, hmost.2.trans ?_⟩
  rw [hleast.2, hsecond.2.1, Binary64.toRat_zero]
  norm_cast

/-- The score of the code, for finite quotes, is that of the values in its arithmetic. -/
theorem liquidityScore_values {bid ask : Option Decimal} {result : LiquidityResult}
    (hfloat : config.maximumSpreadRatio.Representable) (hbid : ∀ d ∈ bid, d.IsFinite) (hask : ∀ d ∈ ask, d.IsFinite)
    (h : liquidityScore bid ask volume openInterest config = .ok result) :
    result.score.IsFinite ∧ (LegMarket.of bid ask volume openInterest).liquidityScore .code config =
      ⟨result.score.toRat, result.eligible, result.rejectionReasons⟩ := by
  unfold liquidityScore at h
  obtain ⟨⟨spreadReasons, ratio⟩, hchecks, h⟩ := Except.bind_eq_ok.mp h
  obtain ⟨relative, hrelative, h⟩ := Except.bind_eq_ok.mp h
  obtain ⟨volumeShare, hvolume, h⟩ := Except.bind_eq_ok.mp h
  obtain ⟨openInterestShare, hopenInterest, h⟩ := Except.bind_eq_ok.mp h
  obtain ⟨hreasons, hstands, hnonneg⟩ := spreadChecks_values volume openInterest hfloat hbid hask hchecks
  obtain ⟨limit, hlimit, hlimitPos, hlimitOne⟩ := maximumSpread_cases config hfloat
  have hdivided := arith_eq_ok.mp hrelative
  rw [hlimit] at hdivided
  have htotal := total_values (hstands.div hnonneg hlimitPos hlimitOne hdivided)
    (Binary64.nearest_nonneg (div_nonneg hnonneg hlimitPos.le)) (depthShare_values config.counts_pos.1 hvolume)
    (depthShare_values config.counts_pos.2 hopenInterest)
  have hscore : (LegMarket.of bid ask volume openInterest).score .code config = max 0 (min 100 (Binary64.nearest
      (Binary64.nearest (Binary64.nearest (50 * max 0 (Binary64.nearest (1 - Binary64.nearest
        ((LegMarket.of bid ask volume openInterest).spreadRatio .code / limit)))) +
          Binary64.nearest (25 * LegMarket.share .code volume config.minimumVolume)) +
        Binary64.nearest (25 * LegMarket.share .code openInterest config.minimumOpenInterest)))) := by
    rw [LegMarket.score, hlimit]
    rfl
  have hall : (LegMarket.of bid ask volume openInterest).reasons .code config = spreadReasons ++
      (if ∃ v ∈ volume, config.minimumVolume ≤ v then [] else ["LOW_VOLUME"]) ++
      (if ∃ v ∈ openInterest, config.minimumOpenInterest ≤ v then [] else ["LOW_OPEN_INTEREST"]) := by
    rw [hreasons]
    rfl
  rw [← hscore] at htotal
  have hminimum := config.finite config.minimumLiquidityScore (by simp)
  have heligible := Binary64.le_iff hminimum htotal.1
  rw [htotal.2] at heligible
  cases h
  refine ⟨htotal.1, ?_⟩
  rw [LegMarket.liquidityScore, hall]
  dsimp only
  rw [htotal.2]
  simp only [heligible]

end Code

end TecoQuant.Strategy
