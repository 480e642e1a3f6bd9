import TecoQuant.SignalSides

/-! Calls and puts over mirrored prices: the trend factor of a put on the mirrored snapshot is that of the call, except
that prices that tie speak for the put only. -/

namespace TecoQuant.Signal.SignalPipeline

open Domain Strategy

/-! ### Comparisons -/

/-- Whether a comparison of the trend chain supports a side: the put has what the call has not. -/
def supports (bullish : Bool) (pair : Decimal × Decimal) : Bool :=
  if bullish then decide (pair.1 < pair.2) else !decide (pair.1 < pair.2)

/-- Whether the two prices of a comparison are equal. -/
def ties (pair : Decimal × Decimal) : Bool := decide (pair.1.value = pair.2.value)

/-- A finite price and its reflection. -/
def MirroredPrice (c : ℚ) (price price' : Decimal) : Prop :=
  price.IsFinite ∧ price'.IsFinite ∧ price'.value = 2 * c - price.value

theorem MirroredPrice.symm {c : ℚ} {price price' : Decimal} (h : MirroredPrice c price price') :
    MirroredPrice c price' price := by
  obtain ⟨hfinite, hfinite', hvalue⟩ := h
  exact ⟨hfinite', hfinite, by rw [hvalue, sub_sub_cancel]⟩

instance mirroredPriceDecidable (c : ℚ) (price price' : Decimal) : Decidable (MirroredPrice c price price') :=
  inferInstanceAs (Decidable (_ ∧ _))

/-- The comparisons of reflected prices are the reflected comparisons. -/
def MirroredPair (c : ℚ) (pair pair' : Decimal × Decimal) : Prop :=
  MirroredPrice c pair.1 pair'.1 ∧ MirroredPrice c pair.2 pair'.2

section

variable {c : ℚ} {pairs pairs' : List (Decimal × Decimal)}

theorem countP_ties_eq (h : List.Forall₂ (MirroredPair c) pairs pairs') : pairs'.countP ties = pairs.countP ties := by
  induction h with
  | nil => rfl
  | @cons pair pair' rest rest' hpair _ ih =>
      have hsame : ties pair' = ties pair := by
        rw [ties, ties, hpair.1.2.2, hpair.2.2.2]
        exact decide_eq_decide.mpr (sub_right_inj)
      rw [List.countP_cons, List.countP_cons, ih, hsame]

/-- What the put counts on the mirrored prices is what the call counts, and the ties. -/
theorem countP_mirrored (h : List.Forall₂ (MirroredPair c) pairs pairs') :
    pairs'.countP (supports false) = pairs.countP (supports true) + pairs.countP ties := by
  induction h with
  | nil => rfl
  | @cons pair pair' rest rest' hpair _ ih =>
      have hless : pair'.1 < pair'.2 ↔ pair.2.value < pair.1.value := by
        rw [Decimal.lt_iff, hpair.1.2.2, hpair.2.2.2, sub_lt_sub_iff_left]
      rw [List.countP_cons, List.countP_cons, List.countP_cons, ih]
      rcases lt_trichotomy pair.1.value pair.2.value with hlt | heq | hgt
      · simp [supports, ties, hless, Decimal.lt_iff, hlt, hlt.ne, hlt.not_gt]
        omega
      · simp [supports, ties, hless, Decimal.lt_iff, heq]
        omega
      · simp [supports, ties, hless, Decimal.lt_iff, hgt, hgt.ne', hgt.not_gt]

end

/-! ### Mirrored snapshots -/

/-- Two snapshots that mirror each other's prices and RSI. -/
structure Mirrored (c : ℚ) (s s' : AtomicSnapshot) : Prop where
  contract : s'.contract = s.contract
  spot : Option.Rel (MirroredPrice c) s.market.spotPrice s'.market.spotPrice
  futures : Option.Rel (MirroredPrice c) s.market.futuresPrice s'.market.futuresPrice
  ema9 : Option.Rel (MirroredPrice c) s.technicals.ema9 s'.technicals.ema9
  ema21 : Option.Rel (MirroredPrice c) s.technicals.ema21 s'.technicals.ema21
  wma44 : Option.Rel (MirroredPrice c) s.technicals.wma44 s'.technicals.wma44
  previousWma44 : Option.Rel (MirroredPrice c) s.technicals.previousWma44 s'.technicals.previousWma44
  rsi : Option.Rel (fun rsi rsi' => rsi.IsFinite ∧ rsi'.IsFinite ∧ rsi'.toRat = 100 - rsi.toRat) s.technicals.rsi14
    s'.technicals.rsi14

/-- The comparisons of the trend chain, each for its smaller price first. -/
def Indicators.chain (i : Indicators) : List (Decimal × Decimal) :=
  [(i.ema9, i.underlying), (i.ema21, i.ema9), (i.wma44, i.ema21), (i.previousWma44, i.wma44)]

/-- No two neighbouring prices of the trend chain are equal. -/
def Untied (s : AtomicSnapshot) : Prop := ∀ i ∈ indicators s, ∀ pair ∈ i.chain, pair.1.value ≠ pair.2.value

section

variable {c : ℚ} {s s' : AtomicSnapshot} {i i' : Indicators}

theorem rel_symm {α : Type} {r : α → α → Prop} (hr : ∀ {a b}, r a b → r b a) {x y : Option α} (h : Option.Rel r x y) :
    Option.Rel r y x := by
  cases h with
  | some h => exact .some (hr h)
  | none => exact .none

theorem Mirrored.symm (h : Mirrored c s s') : Mirrored c s' s where
  contract := h.contract.symm
  spot := rel_symm .symm h.spot
  futures := rel_symm .symm h.futures
  ema9 := rel_symm .symm h.ema9
  ema21 := rel_symm .symm h.ema21
  wma44 := rel_symm .symm h.wma44
  previousWma44 := rel_symm .symm h.previousWma44
  rsi := rel_symm (fun hrsi => ⟨hrsi.2.1, hrsi.1, by rw [hrsi.2.2, sub_sub_cancel]⟩) h.rsi

theorem rel_of_some {α : Type} {r : α → α → Prop} {x y : Option α} (h : Option.Rel r x y) {a b : α} (hx : x = some a)
    (hy : y = some b) : r a b := by
  subst hx hy
  cases h
  assumption

theorem indicators_eq_some (h : indicators s = some i) :
    s.market.pricingUnderlying s.contract.marketKind = some i.underlying ∧ s.technicals.ema9 = some i.ema9 ∧
      s.technicals.ema21 = some i.ema21 ∧ s.technicals.wma44 = some i.wma44 ∧
      s.technicals.previousWma44 = some i.previousWma44 := by
  unfold indicators at h
  obtain ⟨underlying, hunderlying, h⟩ := Option.bind_eq_some_iff.mp h
  obtain ⟨ema9, hema9, h⟩ := Option.bind_eq_some_iff.mp h
  obtain ⟨ema21, hema21, h⟩ := Option.bind_eq_some_iff.mp h
  obtain ⟨wma44, hwma44, h⟩ := Option.bind_eq_some_iff.mp h
  obtain ⟨previousWma44, hprevious, h⟩ := Option.bind_eq_some_iff.mp h
  obtain ⟨_, -, h⟩ := Option.bind_eq_some_iff.mp h
  cases h
  exact ⟨hunderlying, hema9, hema21, hwma44, hprevious⟩

theorem Mirrored.underlying (h : Mirrored c s s') : Option.Rel (MirroredPrice c)
    (s.market.pricingUnderlying s.contract.marketKind) (s'.market.pricingUnderlying s'.contract.marketKind) := by
  rw [h.contract, MarketState.pricingUnderlying, MarketState.pricingUnderlying]
  split
  · exact h.futures
  · exact h.spot

/-- The trend chains of mirrored snapshots. -/
theorem Mirrored.chain (h : Mirrored c s s') (hi : indicators s = some i) (hi' : indicators s' = some i') :
    List.Forall₂ (MirroredPair c) i.chain i'.chain := by
  obtain ⟨hunderlying, hema9, hema21, hwma44, hprevious⟩ := indicators_eq_some hi
  obtain ⟨hunderlying', hema9', hema21', hwma44', hprevious'⟩ := indicators_eq_some hi'
  have hunderlying := rel_of_some h.underlying hunderlying hunderlying'
  have hema9 := rel_of_some h.ema9 hema9 hema9'
  have hema21 := rel_of_some h.ema21 hema21 hema21'
  have hwma44 := rel_of_some h.wma44 hwma44 hwma44'
  have hprevious := rel_of_some h.previousWma44 hprevious hprevious'
  exact .cons ⟨hema9, hunderlying⟩ (.cons ⟨hema21, hema9⟩ (.cons ⟨hwma44, hema21⟩ (.cons ⟨hprevious, hwma44⟩ .nil)))

theorem untied_iff (hi : indicators s = some i) : Untied s ↔ i.chain.countP ties = 0 := by
  rw [List.countP_eq_zero]
  constructor
  · intro h pair hpair htie
    exact h i hi pair hpair (of_decide_eq_true htie)
  · intro h j hj pair hpair heq
    obtain rfl : i = j := Option.some.inj (hi.symm.trans hj)
    exact h pair hpair (decide_eq_true heq)

end

/-! ### The other evidence -/

/-- Whether the RSI supports a side. -/
def rsiSupports (technicals : TechnicalState) (bullish : Bool) : Bool :=
  match technicals.rsi14 with
  | some rsi => if bullish then decide (50 ≤ rsi ∧ rsi ≤ 75) else decide (25 ≤ rsi ∧ rsi ≤ 50)
  | none => false

section

variable {c : ℚ} {s s' : AtomicSnapshot}

theorem Mirrored.rsiSupports_eq (h : Mirrored c s s') :
    rsiSupports s'.technicals false = rsiSupports s.technicals true := by
  have hrsi := h.rsi
  unfold rsiSupports
  generalize s.technicals.rsi14 = rsi, s'.technicals.rsi14 = rsi' at hrsi
  cases hrsi with
  | none => rfl
  | @some rsi rsi' h =>
      obtain ⟨hfinite, hfinite', hvalue⟩ := h
      have hfinite25 : (25 : Binary64).IsFinite := trivial
      have hfinite50 : (50 : Binary64).IsFinite := trivial
      have hfinite75 : (75 : Binary64).IsFinite := trivial
      dsimp only
      rw [if_neg Bool.false_ne_true, if_pos rfl]
      refine decide_eq_decide.mpr ?_
      rw [Binary64.le_iff hfinite25 hfinite', Binary64.le_iff hfinite' hfinite50, hvalue,
        Binary64.le_iff hfinite50 hfinite, Binary64.le_iff hfinite hfinite75]
      show (25 : ℚ) ≤ 100 - rsi.toRat ∧ 100 - rsi.toRat ≤ 50 ↔ 50 ≤ rsi.toRat ∧ rsi.toRat ≤ 75
      constructor <;> rintro ⟨hlow, hhigh⟩ <;> constructor <;> linarith

theorem Mirrored.futuresSupports_eq (h : Mirrored c s s') :
    futuresSupports s'.market false = futuresSupports s.market true := by
  have hspot := h.spot
  have hfutures := h.futures
  unfold futuresSupports
  generalize s.market.spotPrice = spot, s'.market.spotPrice = spot' at hspot
  generalize s.market.futuresPrice = future, s'.market.futuresPrice = future' at hfutures
  cases hspot with
  | none => rfl
  | some hspot =>
      cases hfutures with
      | none => rfl
      | some hfutures =>
          obtain ⟨hspot, hspot', hspotValue⟩ := hspot
          obtain ⟨hfuture, hfuture', hfutureValue⟩ := hfutures
          dsimp only
          rw [if_neg Bool.false_ne_true, if_pos rfl, Decimal.lessEqual_of_finite hfuture' hspot',
            Decimal.lessEqual_of_finite hspot hfuture]
          refine congrArg (fun b => arith (.ok b)) (decide_eq_decide.mpr ?_)
          rw [Decimal.le_iff, Decimal.le_iff, hspotValue, hfutureValue]
          exact sub_le_sub_iff_left _

end

/-! ### Trend factors -/

/-- A number of conditions over six. -/
def sixths (count : ℕ) : Except ArithmeticError Binary64 := (Binary64.ofRat count).div 6

/-- Different numbers of conditions give different factors. -/
theorem sixths_injective {m n : ℕ} (hm : m ≤ 6) (hn : n ≤ 6) {x y : Binary64} (hx : sixths m = .ok x)
    (hy : sixths n = .ok y) : clamp x = clamp y ↔ m = n := by
  have hall : ∀ m n : Fin 7, (sixths m).toOption.map clamp = (sixths n).toOption.map clamp → m = n := by decide +kernel
  constructor
  · intro hsame
    have hfin := hall ⟨m, by omega⟩ ⟨n, by omega⟩
    rw [hx, hy] at hfin
    exact congrArg Fin.val (hfin (congrArg some hsame))
  · rintro rfl
    rw [Except.ok.inj (hx.symm.trans hy)]

/-- What a trend factor counts. -/
theorem trendFactor_eq_ok {market : MarketState} {technicals : TechnicalState} {bullish : Bool} {i : Indicators}
    {trend : Binary64} (hfinite : ∀ pair ∈ i.chain, pair.1.IsFinite ∧ pair.2.IsFinite)
    (h : trendFactor market technicals bullish i.underlying i.ema9 i.ema21 i.wma44 i.previousWma44 = .ok trend) :
    ∃ futures, futuresSupports market bullish = .ok futures ∧
      sixths (i.chain.countP (supports bullish) + [rsiSupports technicals bullish, futures].count true) = .ok trend := by
  have hcomparisons : (i.chain.mapM fun pair => arith (Decimal.less pair.1 pair.2)) =
      .ok (i.chain.map fun pair => decide (pair.1 < pair.2)) := by
    refine Except.mapM_ok fun pair hpair => ?_
    rw [Decimal.less_of_finite (hfinite pair hpair).1 (hfinite pair hpair).2]
    rfl
  rw [Indicators.chain] at hcomparisons
  unfold trendFactor at h
  rw [hcomparisons] at h
  obtain ⟨comparisons, hlist, h⟩ := Except.bind_eq_ok.mp h
  cases hlist
  obtain ⟨futures, hfutures, h⟩ := Except.bind_eq_ok.mp h
  refine ⟨futures, hfutures, ?_⟩
  have hcount : ((if bullish = true then i.chain.map fun pair => decide (pair.1 < pair.2) else
      (i.chain.map fun pair => decide (pair.1 < pair.2)).map not).count true) = i.chain.countP (supports bullish) := by
    cases bullish
    · rw [if_neg Bool.false_ne_true, List.map_map, List.count, List.countP_map]
      refine List.countP_congr fun pair _ => ?_
      simp [supports]
    · rw [if_pos rfl, List.count, List.countP_map]
      refine List.countP_congr fun pair _ => ?_
      simp [supports]
  rw [← hcount, ← List.count_append]
  exact arith_eq_ok.mp h

/-- The trend factor of a result. -/
theorem factors_trend {p : SignalPipeline} {s : AtomicSnapshot} {quote : OptionQuote} {previous : Option OptionQuote}
    {points : Binary64} {fs : List (String × Binary64)} (h : p.factors s quote previous points = .ok (some fs)) :
    ∃ i trend, indicators s = some i ∧
      trendFactor s.market s.technicals (decide (quote.optionType = .call)) i.underlying i.ema9 i.ema21 i.wma44
        i.previousWma44 = .ok trend ∧ fs.lookup "trend" = some (clamp trend) := by
  unfold factors at h
  split at h
  · rename_i i _ _ _ hi _ _
    split at h
    · cases h
    obtain ⟨worthless, -, h⟩ := Except.bind_eq_ok.mp h
    split at h
    · cases h
    split at h
    · split at h
      · cases h
      obtain ⟨trend, htrend, h⟩ := Except.bind_eq_ok.mp h
      obtain ⟨momentum, -, h⟩ := Except.bind_eq_ok.mp h
      obtain ⟨relative, -, h⟩ := Except.bind_eq_ok.mp h
      split at h
      · cases h
      obtain ⟨greeks, -, h⟩ := Except.bind_eq_ok.mp h
      obtain ⟨volatility, -, h⟩ := Except.bind_eq_ok.mp h
      obtain ⟨riskReward, -, h⟩ := Except.bind_eq_ok.mp h
      obtain ⟨liquidity, -, h⟩ := Except.bind_eq_ok.mp h
      cases h
      exact ⟨i, trend, hi, htrend, rfl⟩
    · cases h
  · cases h

/-! ### Both sides -/

section

variable {c : ℚ} {s s' : AtomicSnapshot} {i i' : Indicators}

theorem finite_of_mirrored {pairs pairs' : List (Decimal × Decimal)} (h : List.Forall₂ (MirroredPair c) pairs pairs') :
    (∀ pair ∈ pairs, pair.1.IsFinite ∧ pair.2.IsFinite) ∧ ∀ pair ∈ pairs', pair.1.IsFinite ∧ pair.2.IsFinite := by
  induction h with
  | nil => simp
  | cons hpair _ ih =>
      obtain ⟨⟨hfirst, hfirst', -⟩, ⟨hsecond, hsecond', -⟩⟩ := hpair
      exact ⟨List.forall_mem_cons.mpr ⟨⟨hfirst, hsecond⟩, ih.1⟩, List.forall_mem_cons.mpr ⟨⟨hfirst', hsecond'⟩, ih.2⟩⟩

/-- A put on the mirrored snapshot counts every tie that the call does not. -/
theorem Mirrored.trend_iff (h : Mirrored c s s') (hi : indicators s = some i) (hi' : indicators s' = some i')
    {call put : Binary64}
    (hcall : trendFactor s.market s.technicals true i.underlying i.ema9 i.ema21 i.wma44 i.previousWma44 = .ok call)
    (hput : trendFactor s'.market s'.technicals false i'.underlying i'.ema9 i'.ema21 i'.wma44 i'.previousWma44 = .ok put) :
    clamp call = clamp put ↔ Untied s := by
  have hchain := h.chain hi hi'
  obtain ⟨hfinite, hfinite'⟩ := finite_of_mirrored hchain
  obtain ⟨futures, hfutures, hcall⟩ := trendFactor_eq_ok hfinite hcall
  obtain ⟨futures', hfutures', hput⟩ := trendFactor_eq_ok hfinite' hput
  rw [h.futuresSupports_eq, hfutures] at hfutures'
  cases hfutures'
  rw [h.rsiSupports_eq, countP_mirrored hchain] at hput
  have hothers : [rsiSupports s.technicals true, futures].count true ≤ 2 := List.count_le_length
  have hcomparisons : i.chain.countP (supports true) + i.chain.countP ties ≤ 4 := by
    rw [← countP_mirrored hchain]
    exact List.countP_le_length
  rw [sixths_injective (by omega) (by omega) hcall hput, untied_iff hi]
  omega

theorem Mirrored.untied_iff (h : Mirrored c s s') (hi : indicators s = some i) (hi' : indicators s' = some i') :
    Untied s' ↔ Untied s := by
  rw [SignalPipeline.untied_iff hi, SignalPipeline.untied_iff hi', countP_ties_eq (h.chain hi hi')]

end

/-- **When a call and a put are judged by mirrored rules**: over mirrored snapshots the trend factors of opposite sides
are equal exactly when no two neighbouring prices of the trend chain tie. -/
theorem factors_mirrored_iff {p : SignalPipeline} {c : ℚ} {s s' : AtomicSnapshot} (hmirrored : Mirrored c s s')
    {quote quote' : OptionQuote} (hsides : quote.optionType ≠ quote'.optionType)
    {previous previous' : Option OptionQuote} {points points' : Binary64} {fs fs' : List (String × Binary64)}
    (h : p.factors s quote previous points = .ok (some fs))
    (h' : p.factors s' quote' previous' points' = .ok (some fs')) :
    fs.lookup "trend" = fs'.lookup "trend" ↔ Untied s := by
  obtain ⟨i, trend, hi, htrend, hlookup⟩ := factors_trend h
  obtain ⟨i', trend', hi', htrend', hlookup'⟩ := factors_trend h'
  rw [hlookup, hlookup', Option.some.injEq]
  cases hside : quote.optionType <;> cases hside' : quote'.optionType
  case call.call => exact absurd (hside.trans hside'.symm) hsides
  case put.put => exact absurd (hside.trans hside'.symm) hsides
  case call.put =>
    rw [hside] at htrend
    rw [hside'] at htrend'
    exact hmirrored.trend_iff hi hi' htrend htrend'
  case put.call =>
    rw [hside] at htrend
    rw [hside'] at htrend'
    rw [eq_comm, hmirrored.symm.trend_iff hi' hi htrend' htrend]
    exact hmirrored.untied_iff hi hi'

/-- A snapshot with the indicators. -/
def trendSnapshot (technicals : TechnicalState) : AtomicSnapshot where
  snapshotId := "snapshot"
  sequence := 2
  source := .dhanRest
  sourceTimestamp := tieTime
  receivedAt := tieTime
  contract := tieContract
  market := tieMarket
  technicals := technicals
  context := tieContext
  optionChain := tieChain
  strategyVersion := STRATEGY_VERSION
  metadata := [("normalized_component_hashes",
    stringDict (normalizedComponentHashes tieContract tieMarket technicals tieContext tieChain))]
  hashed := rfl

/-- The indicators around an underlying of a hundred, and their reflection. -/
def mirroredTechnicals : TechnicalState :=
  { tieTechnicals with ema9 := some 101, ema21 := some 99, previousWma44 := some 99 }

/-- The average ties with the underlying. -/
def tiedTechnicals : TechnicalState := { tieTechnicals with ema9 := some 100 }

def mirroredTied : TechnicalState := { mirroredTechnicals with ema9 := some 100 }

theorem mirrored_hundred {technicals technicals' : TechnicalState}
    (hema9 : Option.Rel (MirroredPrice 100) technicals.ema9 technicals'.ema9)
    (hrest : technicals.ema21 = some 101 ∧ technicals'.ema21 = some 99 ∧ technicals.wma44 = some 100 ∧
      technicals'.wma44 = some 100 ∧ technicals.previousWma44 = some 101 ∧ technicals'.previousWma44 = some 99 ∧
      technicals.rsi14 = some 50 ∧ technicals'.rsi14 = some 50) :
    Mirrored 100 (trendSnapshot technicals) (trendSnapshot technicals') := by
  obtain ⟨hema21, hema21', hwma44, hwma44', hprevious, hprevious', hrsi, hrsi'⟩ := hrest
  have hself : MirroredPrice 100 100 100 := by decide +kernel
  have hreflected : MirroredPrice 100 101 99 := by decide +kernel
  refine ⟨rfl, .some hself, .some hself, hema9, ?_, ?_, ?_, ?_⟩
  · show Option.Rel _ technicals.ema21 technicals'.ema21
    rw [hema21, hema21']
    exact .some hreflected
  · show Option.Rel _ technicals.wma44 technicals'.wma44
    rw [hwma44, hwma44']
    exact .some hself
  · show Option.Rel _ technicals.previousWma44 technicals'.previousWma44
    rw [hprevious, hprevious']
    exact .some hreflected
  · show Option.Rel _ technicals.rsi14 technicals'.rsi14
    rw [hrsi, hrsi']
    exact .some (by decide +kernel)

/-- The factors of a leg whose premium did not move. -/
def legFactors (technicals : TechnicalState) (quote : OptionQuote) : Except Fault (Option (List (String × Binary64))) :=
  gaplessPipeline.factors (trendSnapshot technicals) quote (some quote) 100

theorem exists_of_isSome {α : Type} {x : Except Fault (Option α)} (h : x.toOption.join.isSome = true) :
    ∃ a, x = .ok (some a) := by
  rcases x with error | _ | a
  · cases h
  · cases h
  · exact ⟨a, rfl⟩

theorem factors_mirrored_iff_sample : ∃ fs fs', legFactors tieTechnicals (tieQuote "1" .call 100 0.575) = .ok (some fs) ∧
    legFactors mirroredTechnicals (tieQuote "2" .put 100 (-0.575)) = .ok (some fs') ∧
    (fs.lookup "trend" = fs'.lookup "trend" ↔ Untied (trendSnapshot tieTechnicals)) := by
  obtain ⟨fs, hfs⟩ := exists_of_isSome (x := legFactors tieTechnicals (tieQuote "1" .call 100 0.575)) (by decide +kernel)
  obtain ⟨fs', hfs'⟩ := exists_of_isSome (x := legFactors mirroredTechnicals (tieQuote "2" .put 100 (-0.575)))
    (by decide +kernel)
  have hmirrored : Mirrored 100 (trendSnapshot tieTechnicals) (trendSnapshot mirroredTechnicals) :=
    mirrored_hundred (.some (by decide +kernel)) ⟨rfl, rfl, rfl, rfl, rfl, rfl, rfl, rfl⟩
  exact ⟨fs, fs', hfs, hfs', factors_mirrored_iff hmirrored (by decide) hfs hfs'⟩

/-- With an average equal to the underlying, the put counts the comparison that the call does not. -/
theorem factors_not_mirrored : ¬∀ (c : ℚ) (s s' : AtomicSnapshot) (quote quote' : OptionQuote)
    (fs fs' : List (String × Binary64)), Mirrored c s s' → quote.optionType ≠ quote'.optionType →
      gaplessPipeline.factors s quote (some quote) 100 = .ok (some fs) →
      gaplessPipeline.factors s' quote' (some quote') 100 = .ok (some fs') →
      fs.lookup "trend" = fs'.lookup "trend" := by
  intro h
  obtain ⟨fs, hfs⟩ := exists_of_isSome (x := legFactors tiedTechnicals (tieQuote "1" .call 100 0.575)) (by decide +kernel)
  obtain ⟨fs', hfs'⟩ := exists_of_isSome (x := legFactors mirroredTied (tieQuote "2" .put 100 (-0.575)))
    (by decide +kernel)
  have hmirrored : Mirrored 100 (trendSnapshot tiedTechnicals) (trendSnapshot mirroredTied) :=
    mirrored_hundred (.some (by decide +kernel)) ⟨rfl, rfl, rfl, rfl, rfl, rfl, rfl, rfl⟩
  have hsame := h 100 _ _ _ _ fs fs' hmirrored (by decide) hfs hfs'
  have hdiffer : ((legFactors tiedTechnicals (tieQuote "1" .call 100 0.575)).toOption.join.bind (·.lookup "trend")) ≠
      (legFactors mirroredTied (tieQuote "2" .put 100 (-0.575))).toOption.join.bind (·.lookup "trend") := by
    decide +kernel
  rw [hfs, hfs'] at hdiffer
  exact hdiffer hsame

end TecoQuant.Signal.SignalPipeline
