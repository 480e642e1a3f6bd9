import Mathlib.Data.Set.Finite.Lemmas
import TecoQuant.ApiConvergence
import TecoQuant.BaseDecimalNormalize
import TecoQuant.IngestionValidation
import TecoQuant.StrategyStrikes

/-! The five strikes around the money: what the catalogue selects is what the validator and the read model find
again in a chain of the selected legs, as long as the search ends before its arithmetic or rounds nowhere. -/

theorem Representable.neg {digits : ℕ} {x : ℚ} (h : Representable digits x) : Representable digits (-x) := by
  obtain ⟨coefficient, exponent, hcoefficient, rfl⟩ := h
  exact ⟨-coefficient, exponent, by rwa [abs_neg], by push_cast; ring⟩

theorem Representable.zero (digits : ℕ) : Representable digits 0 :=
  ⟨0, 0, by simp, by simp⟩

namespace TecoQuant.Ingestion

open Domain Strategy Api

/-! ### The ladder by values -/

/-- A side of a strike is listed. -/
def Listed (records : List InstrumentMasterRecord) (strike : ℚ) (side : OptionType) : Prop :=
  ∃ record ∈ records, ∃ key ∈ optionKey record, key.1.value = strike ∧ key.2 = side

/-- The strikes listed on both sides. -/
def completeStrikes (records : List InstrumentMasterRecord) : Set ℚ := {strike | ∀ side, Listed records strike side}

/-- Two strikes with none between them. -/
def Adjacent (strikes : Set ℚ) (lower upper : ℚ) : Prop :=
  lower ∈ strikes ∧ upper ∈ strikes ∧ lower < upper ∧ ∀ strike ∈ strikes, strike ≤ lower ∨ upper ≤ strike

/-- From two intervals below the money to two above. -/
def offsets : List Int := [-2, -1, 0, 1, 2]

/-- Both sides of the five strikes at an interval around the money are listed. -/
def LadderListed (records : List InstrumentMasterRecord) (atm interval : ℚ) : Prop :=
  ∀ offset ∈ offsets, ∀ side, Listed records (atm + offset * interval) side

/-- The differences of adjacent complete strikes at which the ladder is listed. -/
def ladderIntervals (records : List InstrumentMasterRecord) (atm : ℚ) : Set ℚ :=
  {interval | (∃ lower upper, Adjacent (completeStrikes records) lower upper ∧ interval = upper - lower) ∧
    LadderListed records atm interval}

/-- The arithmetic of the ladder at an interval fits the context. -/
def ExactAt (atm interval : ℚ) : Prop :=
  Decimal.Normal interval ∧ Decimal.Normal (2 * interval) ∧
    ∀ offset ∈ offsets, Decimal.Normal (atm + offset * interval)

/-- The option records of a family. -/
def optionRecordsOf (records : List InstrumentMasterRecord) : List InstrumentMasterRecord :=
  records.filter fun record => (optionKey record).isSome

/-- No two records have one strike and side. -/
def DistinctKeys (records : List InstrumentMasterRecord) : Prop :=
  records.Pairwise fun left right => ∀ key ∈ optionKey left, ∀ other ∈ optionKey right, ¬SameKey key other

/-- The search is entered: a positive price, no key twice, and five strikes listed on both sides. -/
structure Searches (records : List InstrumentMasterRecord) (pricingUnderlying : Decimal) : Prop where
  price_finite : pricingUnderlying.IsFinite
  price_pos : 0 < pricingUnderlying
  distinct : DistinctKeys (optionRecordsOf records)
  five : 5 ≤ (strikesWithBoth (optionRecordsOf records)).length

/-- The arithmetic fits at every difference up to the least one at which the ladder is listed. -/
def ExactSearch (records : List InstrumentMasterRecord) (pricingUnderlying : Decimal) : Prop :=
  ∀ atm, nearestAtm pricingUnderlying (strikesWithBoth (optionRecordsOf records)) = .ok atm →
    ∀ lower upper, Adjacent (completeStrikes records) lower upper →
      (∀ interval ∈ ladderIntervals records atm.value, ¬interval < upper - lower) → ExactAt atm.value (upper - lower)

/-- The strikes are positive numbers. -/
def PositiveStrikes (records : List InstrumentMasterRecord) : Prop :=
  ∀ record ∈ records, ∀ strike ∈ record.strike, strike.IsFinite ∧ 0 < strike

/-! ### Records by key -/

section Keys

variable {records byKey : List InstrumentMasterRecord}

theorem optionKey_eq_some {record : InstrumentMasterRecord} {key : Decimal × OptionType}
    (h : optionKey record = some key) : record.strike = some key.1 ∧ record.optionType = some key.2 := by
  unfold optionKey at h
  split at h
  · cases h
    exact ⟨‹_›, ‹_›⟩
  · cases h

theorem PositiveStrikes.key (hpositive : PositiveStrikes records) {record : InstrumentMasterRecord}
    (hrecord : record ∈ records) {key : Decimal × OptionType} (h : key ∈ optionKey record) :
    key.1.IsFinite ∧ 0 < key.1 :=
  hpositive record hrecord key.1 (optionKey_eq_some h).1

theorem PositiveStrikes.optionRecordsOf (hpositive : PositiveStrikes records) :
    PositiveStrikes (optionRecordsOf records) := fun record hrecord =>
  hpositive record (List.mem_of_mem_filter hrecord)

/-- The index holds the records with a key, in order. -/
theorem foldlM_indexRecord {indexed : List InstrumentMasterRecord}
    (h : records.foldlM indexRecord indexed = .ok byKey) : byKey = indexed ++ optionRecordsOf records := by
  induction records generalizing indexed with
  | nil =>
      cases h
      simp [optionRecordsOf]
  | cons record records ih =>
      rw [List.foldlM_cons] at h
      obtain ⟨next, hnext, h⟩ := Except.bind_eq_ok.mp h
      rw [ih h]
      unfold indexRecord at hnext
      split at hnext
      · rename_i hkey
        cases hnext
        simp [optionRecordsOf, hkey]
      · rename_i key hkey
        obtain ⟨-, hnext⟩ := Except.ite_error_eq_ok.mp hnext
        cases hnext
        simp [optionRecordsOf, hkey]

/-- A record enters the index only with a new key. -/
theorem indexRecord_distinct {indexed next : List InstrumentMasterRecord} {record : InstrumentMasterRecord}
    (h : indexRecord indexed record = .ok next) (hdistinct : DistinctKeys indexed) : DistinctKeys next := by
  unfold indexRecord at h
  split at h
  · cases h
    exact hdistinct
  · rename_i key hkey
    obtain ⟨hnew, h⟩ := Except.ite_error_eq_ok.mp h
    cases h
    refine List.pairwise_append.mpr ⟨hdistinct, List.pairwise_singleton _ _, ?_⟩
    intro known hknown last hlast other hother key' hkey' hsame
    obtain rfl := List.mem_singleton.mp hlast
    obtain rfl : key = key' := Option.some.inj (hkey.symm.trans hkey')
    rw [atKey, List.find?_isSome] at hnew
    exact hnew ⟨known, hknown, decide_eq_true ⟨other, hother, hsame⟩⟩

/-- Records that are indexed have distinct keys. -/
theorem foldlM_indexRecord_distinct {indexed : List InstrumentMasterRecord}
    (h : records.foldlM indexRecord indexed = .ok byKey) (hdistinct : DistinctKeys indexed) : DistinctKeys byKey := by
  induction records generalizing indexed with
  | nil =>
      cases h
      exact hdistinct
  | cons record records ih =>
      rw [List.foldlM_cons] at h
      obtain ⟨next, hnext, h⟩ := Except.bind_eq_ok.mp h
      exact ih h (indexRecord_distinct hnext hdistinct)

theorem listed_optionRecordsOf {strike : ℚ} {side : OptionType} :
    Listed (optionRecordsOf records) strike side ↔ Listed records strike side := by
  constructor
  · rintro ⟨record, hrecord, hkey⟩
    exact ⟨record, List.mem_of_mem_filter hrecord, hkey⟩
  · rintro ⟨record, hrecord, key, hkey, hsame⟩
    exact ⟨record, List.mem_filter.mpr ⟨hrecord, by simp [Option.mem_def.mp hkey]⟩, key, hkey, hsame⟩

theorem sameKey_iff {left right : Decimal × OptionType} (hleft : left.1.IsFinite) (hright : right.1.IsFinite) :
    SameKey left right ↔ left.1.value = right.1.value ∧ left.2 = right.2 := by
  rw [SameKey, Decimal.equal_of_finite hleft hright]

theorem atKey_eq_some {key : Decimal × OptionType} {record : InstrumentMasterRecord}
    (h : atKey records key = some record) : record ∈ records ∧ ∃ known ∈ optionKey record, SameKey known key := by
  refine ⟨List.mem_of_find?_eq_some h, ?_⟩
  have hfound := List.find?_some h
  exact of_decide_eq_true hfound

theorem atKey_isSome (hpositive : PositiveStrikes records) {key : Decimal × OptionType} (hkey : key.1.IsFinite) :
    (atKey records key).isSome ↔ Listed records key.1.value key.2 := by
  rw [atKey, List.find?_isSome]
  constructor
  · rintro ⟨record, hrecord, hfound⟩
    obtain ⟨known, hknown, hsame⟩ := of_decide_eq_true hfound
    exact ⟨record, hrecord, known, hknown, (sameKey_iff (hpositive.key hrecord hknown).1 hkey).mp hsame⟩
  · rintro ⟨record, hrecord, known, hknown, hsame⟩
    exact ⟨record, hrecord, decide_eq_true
      ⟨known, hknown, (sameKey_iff (hpositive.key hrecord hknown).1 hkey).mpr hsame⟩⟩

/-- The strikes with both sides, by their values. -/
theorem mem_strikesWithBoth (hpositive : PositiveStrikes records) {strike : Decimal}
    (h : strike ∈ strikesWithBoth (optionRecordsOf records)) :
    strike.IsFinite ∧ strike.value ∈ completeStrikes records := by
  obtain ⟨hmem, hboth⟩ := List.mem_filter.mp h
  obtain ⟨record, hrecord, hstrike⟩ := List.mem_filterMap.mp (mem_of_mem_distinctStrikes hmem)
  have hfinite := (hpositive.optionRecordsOf record hrecord strike hstrike).1
  rw [Bool.and_eq_true, atKey_isSome hpositive.optionRecordsOf hfinite,
    atKey_isSome hpositive.optionRecordsOf hfinite, listed_optionRecordsOf, listed_optionRecordsOf] at hboth
  exact ⟨hfinite, fun side => by cases side; exacts [hboth.1, hboth.2]⟩

theorem exists_strikesWithBoth (hpositive : PositiveStrikes records) {strike : ℚ}
    (h : strike ∈ completeStrikes records) :
    ∃ listed ∈ strikesWithBoth (optionRecordsOf records), listed.value = strike := by
  obtain ⟨record, hrecord, key, hkey, hvalue, -⟩ := listed_optionRecordsOf.mpr (h .call)
  have hmem : key.1 ∈ (optionRecordsOf records).filterMap InstrumentMasterRecord.strike :=
    List.mem_filterMap.mpr ⟨record, hrecord, (optionKey_eq_some hkey).1⟩
  obtain ⟨kept, hkept, hsame⟩ := exists_mem_distinctStrikes hmem
  obtain ⟨record', hrecord', hstrike'⟩ := List.mem_filterMap.mp (mem_of_mem_distinctStrikes hkept)
  have hfinite := (hpositive.optionRecordsOf record' hrecord' kept hstrike').1
  have hboth : ∀ side, (atKey (optionRecordsOf records) (kept, side)).isSome := fun side => by
    rw [atKey_isSome hpositive.optionRecordsOf hfinite, listed_optionRecordsOf, hsame, hvalue]
    exact h side
  exact ⟨kept, List.mem_filter.mpr ⟨hkept, by rw [hboth, hboth]; rfl⟩, hsame.trans hvalue⟩

theorem strikesWithBoth_increasing (byKey : List InstrumentMasterRecord) :
    (strikesWithBoth byKey).Pairwise fun left right => left.value < right.value :=
  (distinctStrikes_increasing _).filter _

end Keys

/-! ### The selected interval -/

section Search

variable {records byKey selected : List InstrumentMasterRecord}

/-- A computed interval is the rounded difference of adjacent complete strikes. -/
theorem mem_strikeIntervals (hpositive : PositiveStrikes records) {interval : Decimal}
    (h : interval ∈ strikeIntervals (strikesWithBoth (optionRecordsOf records))) :
    interval.IsFinite ∧ ∃ lower upper, Adjacent (completeStrikes records) lower upper ∧
      interval.value = roundDigits 28 (upper - lower) := by
  obtain ⟨⟨left, right⟩, hpair, rfl⟩ := List.mem_map.mp (mem_of_mem_distinctStrikes h)
  obtain ⟨hleft, hright, hlt, hbetween⟩ :=
    Distinct.adjacent_of_mem_zip (strikesWithBoth_increasing _) (List.mem_of_mem_filter hpair)
  obtain ⟨hfinite, hcomplete⟩ := mem_strikesWithBoth hpositive hleft
  obtain ⟨hfinite', hcomplete'⟩ := mem_strikesWithBoth hpositive hright
  refine ⟨Decimal.sub_isFinite hfinite' hfinite, left.value, right.value,
    ⟨hcomplete, hcomplete', hlt, fun strike hstrike => ?_⟩, Decimal.sub_value hfinite' hfinite⟩
  obtain ⟨listed, hlisted, rfl⟩ := exists_strikesWithBoth hpositive hstrike
  exact hbetween listed hlisted

theorem exists_strikeInterval (hpositive : PositiveStrikes records) {lower upper : ℚ}
    (h : Adjacent (completeStrikes records) lower upper) :
    ∃ interval ∈ strikeIntervals (strikesWithBoth (optionRecordsOf records)),
      interval.value = roundDigits 28 (upper - lower) := by
  obtain ⟨hlower, hupper, hlt, hbetween⟩ := h
  obtain ⟨left, hleft, rfl⟩ := exists_strikesWithBoth hpositive hlower
  obtain ⟨right, hright, rfl⟩ := exists_strikesWithBoth hpositive hupper
  have hzip := Distinct.mem_zip_of_adjacent (strikesWithBoth_increasing _) hleft hright hlt fun strike hstrike =>
    hbetween strike.value (mem_strikesWithBoth hpositive hstrike).2
  have hmem : Decimal.sub .default right left ∈ ((strikesWithBoth (optionRecordsOf records)).zip
      (strikesWithBoth (optionRecordsOf records)).tail |>.filter fun pair => pair.1 < pair.2).map
        fun pair => Decimal.sub .default pair.2 pair.1 :=
    List.mem_map.mpr ⟨(left, right), List.mem_filter.mpr ⟨hzip, decide_eq_true hlt⟩, rfl⟩
  obtain ⟨kept, hkept, hvalue⟩ := exists_mem_distinctStrikes hmem
  exact ⟨kept, hkept, hvalue.trans (Decimal.sub_value (mem_strikesWithBoth hpositive hright).1
    (mem_strikesWithBoth hpositive hleft).1)⟩

theorem ladderStrike_isFinite {atm interval : Decimal} (hatm : atm.IsFinite) (hinterval : interval.IsFinite)
    (offset : Int) : (ladderStrike atm interval offset).IsFinite :=
  Decimal.add_isFinite hatm (Decimal.mul_isFinite (by exact trivial) hinterval)

/-- Where the arithmetic fits, the ladder is exact. -/
theorem ladderStrike_value {atm interval : Decimal} (hatm : atm.IsFinite) (hinterval : interval.IsFinite)
    (hexact : ExactAt atm.value interval.value) {offset : Int} (hoffset : offset ∈ offsets) :
    (ladderStrike atm interval offset).value = atm.value + offset * interval.value := by
  obtain ⟨hone, htwo, hsum⟩ := hexact
  have hproduct : Representable 28 (offset * interval.value) := by
    simp only [offsets, List.mem_cons, List.not_mem_nil, or_false] at hoffset
    rcases hoffset with rfl | rfl | rfl | rfl | rfl
    · simpa using htwo.1.neg
    · simpa using hone.1.neg
    · simpa using Representable.zero 28
    · simpa using hone.1
    · simpa using htwo.1
  rw [ladderStrike, Decimal.add_value hatm (Decimal.mul_isFinite (by exact trivial) hinterval),
    Decimal.mul_value (by exact trivial) hinterval, Decimal.ofInt_value, roundDigits_of_representable hproduct,
    roundDigits_of_representable (hsum offset hoffset).1]

theorem mem_requiredKeys {atm interval : Decimal} {key : Decimal × OptionType} :
    key ∈ requiredKeys atm interval ↔ ∃ offset ∈ offsets, key.1 = ladderStrike atm interval offset := by
  simp only [requiredKeys, offsets, List.mem_flatMap, List.mem_cons, List.not_mem_nil, or_false]
  constructor
  · rintro ⟨offset, hoffset, rfl | rfl⟩
    · exact ⟨offset, hoffset, rfl⟩
    · exact ⟨offset, hoffset, rfl⟩
  · rintro ⟨offset, hoffset, hstrike⟩
    obtain ⟨strike, side⟩ := key
    obtain rfl := hstrike
    exact ⟨offset, hoffset, by cases side <;> simp⟩

/-- The ladder is found where it is listed. -/
theorem ladder_isSome (hpositive : PositiveStrikes records) {atm interval : Decimal} (hatm : atm.IsFinite)
    (hinterval : interval.IsFinite) (hexact : ExactAt atm.value interval.value) :
    (∃ legs, ladder (optionRecordsOf records) atm interval = some legs) ↔
      LadderListed records atm.value interval.value := by
  have hkey : ∀ offset ∈ offsets, ∀ side,
      (atKey (optionRecordsOf records) (ladderStrike atm interval offset, side)).isSome ↔
        Listed records (atm.value + offset * interval.value) side := fun offset hoffset side => by
    rw [atKey_isSome hpositive.optionRecordsOf (ladderStrike_isFinite hatm hinterval offset),
      listed_optionRecordsOf, ladderStrike_value hatm hinterval hexact hoffset]
  constructor
  · rintro ⟨legs, hlegs⟩ offset hoffset side
    obtain ⟨leg, -, hleg⟩ := (Option.mem_mapM hlegs).1 (ladderStrike atm interval offset, side)
      (mem_requiredKeys.mpr ⟨offset, hoffset, rfl⟩)
    exact (hkey offset hoffset side).mp (by rw [hleg]; rfl)
  · intro hlisted
    refine Option.mapM_succeeds fun key hmem => ?_
    obtain ⟨offset, hoffset, hstrike⟩ := mem_requiredKeys.mp hmem
    obtain ⟨strike, side⟩ := key
    obtain rfl := hstrike
    exact (hkey offset hoffset side).mpr (hlisted offset hoffset side)

/-- Of finitely many intervals there is a least one. -/
theorem exists_least_ladderInterval (hpositive : PositiveStrikes records) {atm interval : ℚ}
    (h : interval ∈ ladderIntervals records atm) :
    ∃ least ∈ ladderIntervals records atm, ∀ other ∈ ladderIntervals records atm, least ≤ other := by
  have hfinite : (ladderIntervals records atm).Finite := by
    refine Set.Finite.subset (List.finite_toSet (((strikesWithBoth (optionRecordsOf records)).product
      (strikesWithBoth (optionRecordsOf records))).map fun pair => pair.2.value - pair.1.value)) ?_
    rintro interval ⟨⟨lower, upper, ⟨hlower, hupper, -⟩, rfl⟩, -⟩
    obtain ⟨left, hleft, rfl⟩ := exists_strikesWithBoth hpositive hlower
    obtain ⟨right, hright, rfl⟩ := exists_strikesWithBoth hpositive hupper
    exact List.mem_map.mpr ⟨(left, right), List.pair_mem_product.mpr ⟨hleft, hright⟩, rfl⟩
  obtain ⟨least, hleast, hmin⟩ := Set.exists_min_image _ id hfinite ⟨interval, h⟩
  exact ⟨least, hleast, hmin⟩

/-- What a selection rests on. -/
structure Selected (records : List InstrumentMasterRecord) (pricingUnderlying : Decimal)
    (selected : List InstrumentMasterRecord) (interval atm : Decimal) : Prop where
  nearest : nearestAtm pricingUnderlying (strikesWithBoth (optionRecordsOf records)) = .ok atm
  atm_finite : atm.IsFinite
  interval_finite : interval.IsFinite
  exact : ExactAt atm.value interval.value
  least : IsLeast (ladderIntervals records atm.value) interval.value
  legs : ladder (optionRecordsOf records) atm interval = some selected

theorem selectFiveStrikes_selected (hpositive : PositiveStrikes records) {pricingUnderlying interval : Decimal}
    (hunderlying : pricingUnderlying.IsFinite ∧ 0 < pricingUnderlying)
    (hexact : Searches records pricingUnderlying → ExactSearch records pricingUnderlying)
    (h : selectFiveStrikes records pricingUnderlying = .ok (selected, interval)) :
    ∃ atm, Selected records pricingUnderlying selected interval atm := by
  obtain ⟨byKey, atm, hbyKey, hfive, hnearest, hfound⟩ := selectFiveStrikes_eq_ok h
  obtain rfl : byKey = optionRecordsOf records := by simpa using foldlM_indexRecord hbyKey
  have hdistinct := foldlM_indexRecord_distinct hbyKey List.Pairwise.nil
  have hsearch := hexact ⟨hunderlying.1, hunderlying.2, hdistinct, hfive⟩ atm hnearest
  have hatm : atm.IsFinite := (mem_strikesWithBoth hpositive (nearestAtm_nearest hunderlying.1
    (fun strike hstrike => (mem_strikesWithBoth hpositive hstrike).1) hnearest).listed).1
  obtain ⟨found, hmem, hladder, hsmaller⟩ :=
    Distinct.findSome?_least (distinctStrikes_increasing _) hfound
  obtain ⟨legs, hlegs, hpair⟩ := Option.map_eq_some_iff.mp hladder
  obtain ⟨rfl, rfl⟩ := Prod.mk.inj hpair
  obtain ⟨hfinite, lower, upper, hadjacent, hvalue⟩ := mem_strikeIntervals hpositive hmem
  have hdifference : 0 < upper - lower := sub_pos.mpr hadjacent.2.2.1
  -- The found interval is a difference that the exact search reaches.
  obtain ⟨lower', upper', hadjacent', hdifference', hunreached⟩ : ∃ lower' upper',
      Adjacent (completeStrikes records) lower' upper' ∧ found.value = upper' - lower' ∧
        ∀ interval ∈ ladderIntervals records atm.value, ¬interval < upper' - lower' := by
    by_cases hbelow : ∃ interval ∈ ladderIntervals records atm.value, interval < upper - lower
    · obtain ⟨interval, hinterval, hlt⟩ := hbelow
      obtain ⟨least, hleast, hmin⟩ := exists_least_ladderInterval hpositive hinterval
      obtain ⟨⟨lower', upper', hadjacent', rfl⟩, hlisted⟩ := hleast
      have hreached : ∀ interval ∈ ladderIntervals records atm.value, ¬interval < upper' - lower' :=
        fun other hother => not_lt.mpr (hmin other hother)
      have hexact' := hsearch lower' upper' hadjacent' hreached
      obtain ⟨computed, hcomputed, hcomputedValue⟩ := exists_strikeInterval hpositive hadjacent'
      rw [roundDigits_of_representable hexact'.1.1] at hcomputedValue
      obtain ⟨legs', hlegs'⟩ := (ladder_isSome hpositive hatm (mem_strikeIntervals hpositive hcomputed).1
        (by rwa [hcomputedValue])).mpr (by rwa [hcomputedValue])
      have hfound : found.value ≤ upper' - lower' := by
        rw [← hcomputedValue]
        refine not_lt.mp fun hless => ?_
        have hnone := hsmaller computed hcomputed hless
        rw [hlegs'] at hnone
        cases hnone
      have hrounded : upper' - lower' ≤ found.value := by
        rw [hvalue]
        exact le_roundDigits (by norm_num) hexact'.1.1 hdifference ((hmin _ hinterval).trans hlt.le)
      exact ⟨lower', upper', hadjacent', le_antisymm hfound hrounded, hreached⟩
    · have hreached : ∀ interval ∈ ladderIntervals records atm.value, ¬interval < upper - lower :=
        fun interval hinterval hlt => hbelow ⟨interval, hinterval, hlt⟩
      have hrepresentable := (hsearch lower upper hadjacent hreached).1.1
      exact ⟨lower, upper, hadjacent, hvalue.trans (roundDigits_of_representable hrepresentable), hreached⟩
  have hexact' : ExactAt atm.value found.value := by
    rw [hdifference']
    exact hsearch lower' upper' hadjacent' hunreached
  have hlisted := (ladder_isSome hpositive hatm hfinite hexact').mp ⟨_, hlegs⟩
  refine ⟨atm, hnearest, hatm, hfinite, hexact', ⟨⟨⟨lower', upper', hadjacent', hdifference'⟩, hlisted⟩, ?_⟩, hlegs⟩
  intro interval hinterval
  rw [hdifference']
  exact not_lt.mp (hunreached interval hinterval)

end Search

/-! ### The legs of a selection -/

section Legs

variable {records selected : List InstrumentMasterRecord} {pricingUnderlying interval atm : Decimal}

/-- A number equal to a finite one is finite and has its value. -/
theorem finite_of_equal {left right : Decimal} (hleft : left.IsFinite) (h : Decimal.Equal left right) :
    right.IsFinite ∧ left.value = right.value := by
  cases left with
  | finite n₁ c₁ e₁ =>
      cases right with
      | finite n₂ c₂ e₂ => exact ⟨trivial, (Decimal.equal_of_finite hleft (by exact trivial)).mp h⟩
      | infinity negative =>
          obtain ⟨hbelow, habove⟩ := h
          cases negative
          · exact absurd rfl hbelow
          · exact absurd rfl habove
      | nan => exact h.elim
  | _ => exact hleft.elim

/-- A leg has a strike of the ladder. -/
theorem Selected.leg (h : Selected records pricingUnderlying selected interval atm)
    (hpositive : PositiveStrikes records)
    {leg : InstrumentMasterRecord} (hleg : leg ∈ selected) : leg ∈ records ∧ ∀ key ∈ optionKey leg,
      key.1.IsFinite ∧ 0 < key.1 ∧ ∃ offset ∈ offsets, key.1.value = atm.value + offset * interval.value := by
  obtain ⟨required, hrequired, hfound⟩ := (Option.mem_mapM h.legs).2 leg hleg
  obtain ⟨hmem, known, hknown, hsame⟩ := atKey_eq_some hfound
  have hrecord := List.mem_of_mem_filter hmem
  refine ⟨hrecord, fun key hkey => ?_⟩
  obtain rfl : known = key := Option.some.inj (hknown.symm.trans hkey)
  obtain ⟨hfinite, hpos⟩ := hpositive.key hrecord hkey
  obtain ⟨offset, hoffset, hstrike⟩ := mem_requiredKeys.mp hrequired
  obtain ⟨-, hvalue⟩ := finite_of_equal hfinite hsame.1
  rw [hstrike, ladderStrike_value h.atm_finite h.interval_finite h.exact hoffset] at hvalue
  exact ⟨hfinite, hpos, offset, hoffset, hvalue⟩

/-- Every place of the ladder has a leg. -/
theorem Selected.exists_leg (h : Selected records pricingUnderlying selected interval atm)
    (hpositive : PositiveStrikes records) {offset : Int} (hoffset : offset ∈ offsets) (side : OptionType) :
    ∃ leg ∈ selected, ∃ key ∈ optionKey leg, key.1.IsFinite ∧
      key.1.value = atm.value + offset * interval.value ∧ key.2 = side := by
  obtain ⟨leg, hleg, hfound⟩ := (Option.mem_mapM h.legs).1 (ladderStrike atm interval offset, side)
    (mem_requiredKeys.mpr ⟨offset, hoffset, rfl⟩)
  obtain ⟨hmem, key, hkey, hsame, hside⟩ := atKey_eq_some hfound
  have hfinite := (hpositive.key (List.mem_of_mem_filter hmem) hkey).1
  obtain ⟨-, hvalue⟩ := finite_of_equal hfinite hsame
  exact ⟨leg, hleg, key, hkey, hfinite,
    hvalue.trans (ladderStrike_value h.atm_finite h.interval_finite h.exact hoffset), hside⟩

theorem Selected.interval_pos (h : Selected records pricingUnderlying selected interval atm) : 0 < interval.value := by
  obtain ⟨lower, upper, hadjacent, hvalue⟩ := h.least.1.1
  rw [hvalue]
  exact sub_pos.mpr hadjacent.2.2.1

end Legs

/-! ### The chain of the selected legs -/

/-- A complete chain of exactly the legs of a contract, at a price of the underlying. -/
structure ChainOf (contract : ContractSpec) (pricingUnderlying : Decimal) (snapshot : AtomicSnapshot) : Prop where
  contract_eq : snapshot.contract = contract
  price : snapshot.market.pricingUnderlying contract.marketKind = some pricingUnderlying
  quoted : ∀ record ∈ contract.optionContracts, ∀ key ∈ optionKey record,
    ∃ quote ∈ snapshot.optionChain, SameKey key quote.key
  legs : ∀ quote ∈ snapshot.optionChain, ∃ record ∈ contract.optionContracts, ∃ key ∈ optionKey record,
    SameKey key quote.key
  complete : ∀ quote ∈ snapshot.optionChain, QuoteComplete quote

section Chain

variable {records : List InstrumentMasterRecord} {contract : ContractSpec} {pricingUnderlying atm : Decimal}
  {snapshot : AtomicSnapshot}

/-- A quote of the chain has a strike of the ladder. -/
theorem ChainOf.strike (hchain : ChainOf contract pricingUnderlying snapshot) (hpositive : PositiveStrikes records)
    (h : Selected records pricingUnderlying contract.optionContracts contract.strikeInterval atm)
    {quote : OptionQuote} (hquote : quote ∈ snapshot.optionChain) :
    quote.strike.IsFinite ∧ 0 < quote.strike ∧
      ∃ offset ∈ offsets, quote.strike.value = atm.value + offset * contract.strikeInterval.value := by
  obtain ⟨leg, hleg, key, hkey, hsame, -⟩ := hchain.legs quote hquote
  obtain ⟨hfinite, hpos, offset, hoffset, hvalue⟩ := (h.leg hpositive hleg).2 key hkey
  obtain ⟨hquoteFinite, hquoteValue⟩ := finite_of_equal hfinite hsame
  have hstrike : quote.strike.value = key.1.value := hquoteValue.symm
  refine ⟨hquoteFinite, ?_, offset, hoffset, hstrike.trans hvalue⟩
  rw [Decimal.lt_iff, hstrike]
  exact hpos

theorem ChainOf.mem_listedStrikes (hchain : ChainOf contract pricingUnderlying snapshot)
    (hpositive : PositiveStrikes records)
    (h : Selected records pricingUnderlying contract.optionContracts contract.strikeInterval atm) {strike : Decimal}
    (hstrike : strike ∈ listedStrikes snapshot) :
    strike.IsFinite ∧ ∃ offset ∈ offsets, strike.value = atm.value + offset * contract.strikeInterval.value := by
  obtain ⟨hmem, -⟩ := List.mem_filter.mp (mem_of_mem_distinctStrikes hstrike)
  obtain ⟨quote, hquote, rfl⟩ := List.mem_map.mp hmem
  obtain ⟨hfinite, -, hplace⟩ := hchain.strike hpositive h hquote
  exact ⟨hfinite, hplace⟩

theorem ChainOf.exists_quote (hchain : ChainOf contract pricingUnderlying snapshot)
    (hpositive : PositiveStrikes records)
    (h : Selected records pricingUnderlying contract.optionContracts contract.strikeInterval atm) {offset : Int}
    (hoffset : offset ∈ offsets) (side : OptionType) : ∃ quote ∈ snapshot.optionChain,
      quote.strike.value = atm.value + offset * contract.strikeInterval.value ∧ quote.optionType = side := by
  obtain ⟨leg, hleg, key, hkey, hfinite, hvalue, hside⟩ := h.exists_leg hpositive hoffset side
  obtain ⟨quote, hquote, hsame, hsame'⟩ := hchain.quoted leg hleg key hkey
  exact ⟨quote, hquote, (finite_of_equal hfinite hsame).2.symm.trans hvalue, hsame'.symm.trans hside⟩

theorem ChainOf.exists_listedStrike (hchain : ChainOf contract pricingUnderlying snapshot)
    (hpositive : PositiveStrikes records)
    (h : Selected records pricingUnderlying contract.optionContracts contract.strikeInterval atm) {offset : Int}
    (hoffset : offset ∈ offsets) : ∃ strike ∈ listedStrikes snapshot,
      strike.value = atm.value + offset * contract.strikeInterval.value := by
  obtain ⟨quote, hquote, hvalue, -⟩ := hchain.exists_quote hpositive h hoffset .call
  obtain ⟨hfinite, hpos, -⟩ := hchain.strike hpositive h hquote
  have hmem : quote.strike ∈ (snapshot.optionChain.map OptionQuote.strike).filter fun strike =>
      strike.IsFinite ∧ 0 < strike :=
    List.mem_filter.mpr ⟨List.mem_map.mpr ⟨quote, hquote, rfl⟩, decide_eq_true ⟨hfinite, hpos⟩⟩
  obtain ⟨kept, hkept, hsame⟩ := exists_mem_distinctStrikes hmem
  exact ⟨kept, hkept, hsame.trans hvalue⟩

/-- The five strikes of the ladder differ. -/
theorem ChainOf.five (hchain : ChainOf contract pricingUnderlying snapshot) (hpositive : PositiveStrikes records)
    (h : Selected records pricingUnderlying contract.optionContracts contract.strikeInterval atm) :
    5 ≤ (listedStrikes snapshot).length := by
  have hsubset : offsets.map (fun offset : ℤ => atm.value + offset * contract.strikeInterval.value) ⊆
      (listedStrikes snapshot).map Decimal.value := by
    intro value hvalue
    obtain ⟨offset, hoffset, rfl⟩ := List.mem_map.mp hvalue
    obtain ⟨strike, hstrike, hsame⟩ := hchain.exists_listedStrike hpositive h hoffset
    exact List.mem_map.mpr ⟨strike, hstrike, hsame⟩
  have hnodup : (offsets.map fun offset : ℤ => atm.value + offset * contract.strikeInterval.value).Nodup := by
    refine List.Nodup.map (fun left right hsame => ?_) (by decide)
    have hscaled := add_left_cancel hsame
    exact_mod_cast mul_right_cancel₀ h.interval_pos.ne' hscaled
  have hlength := (List.subperm_of_subset hnodup hsubset).length_le
  rwa [List.length_map, List.length_map] at hlength

/-- Among the strikes of the chain the same one is at the money. -/
theorem ChainOf.nearest (hchain : ChainOf contract pricingUnderlying snapshot) (hpositive : PositiveStrikes records)
    (h : Selected records pricingUnderlying contract.optionContracts contract.strikeInterval atm)
    (hunderlying : pricingUnderlying.IsFinite ∧ 0 < pricingUnderlying) :
    ∃ again, nearestAtm pricingUnderlying (listedStrikes snapshot) = .ok again ∧ again.IsFinite ∧
      again.value = atm.value := by
  have hfive := hchain.five hpositive h
  have hnonempty : listedStrikes snapshot ≠ [] := fun hnil => by simp [hnil] at hfive
  obtain ⟨again, hagain⟩ := nearestAtm_returns hunderlying.2 hnonempty
  have hlisted : ∀ strike ∈ strikesWithBoth (optionRecordsOf records), strike.IsFinite := fun strike hstrike =>
    (mem_strikesWithBoth hpositive hstrike).1
  have hchosen : ∀ strike ∈ listedStrikes snapshot, strike.IsFinite := fun strike hstrike =>
    (hchain.mem_listedStrikes hpositive h hstrike).1
  have hnearest := nearestAtm_nearest hunderlying.1 hchosen hagain
  refine ⟨again, hagain, hchosen again hnearest.listed,
    Nearest.value_eq hunderlying.1 hlisted hchosen (nearestAtm_nearest hunderlying.1 hlisted h.nearest) hnearest
      (fun strike hstrike => ?_) ?_⟩
  · obtain ⟨-, offset, hoffset, hvalue⟩ := hchain.mem_listedStrikes hpositive h hstrike
    rw [hvalue]
    exact exists_strikesWithBoth hpositive (h.least.1.2 offset hoffset)
  · have hcentre : (0 : Int) ∈ offsets := by decide
    obtain ⟨strike, hstrike, hvalue⟩ := hchain.exists_listedStrike hpositive h hcentre
    exact ⟨strike, hstrike, by simpa using hvalue⟩

/-- Everything the ladder of the chain requires is there: the leg, its master record and its strike. -/
theorem ChainOf.required (hchain : ChainOf contract pricingUnderlying snapshot) (hpositive : PositiveStrikes records)
    (h : Selected records pricingUnderlying contract.optionContracts contract.strikeInterval atm) {again : Decimal}
    (hagain : again.IsFinite) (hsame : again.value = atm.value) {key : Decimal × OptionType}
    (hkey : key ∈ requiredKeys again contract.strikeInterval) :
    (∃ quote ∈ snapshot.optionChain, SameKey quote.key key) ∧ (masterAt snapshot key).isSome ∧
      ∃ listed ∈ listedStrikes snapshot, Decimal.Equal listed key.1 := by
  obtain ⟨offset, hoffset, hstrike⟩ := mem_requiredKeys.mp hkey
  have hfinite : key.1.IsFinite := hstrike ▸ ladderStrike_isFinite hagain h.interval_finite offset
  have hvalue : key.1.value = atm.value + offset * contract.strikeInterval.value := by
    rw [hstrike, ladderStrike_value hagain h.interval_finite (by rw [hsame]; exact h.exact) hoffset, hsame]
  refine ⟨?_, ?_, ?_⟩
  · obtain ⟨quote, hquote, hquoteValue, hside⟩ := hchain.exists_quote hpositive h hoffset key.2
    have hquoteFinite := (hchain.strike hpositive h hquote).1
    exact ⟨quote, hquote, (sameKey_iff hquoteFinite hfinite).mpr ⟨hquoteValue.trans hvalue.symm, hside⟩⟩
  · obtain ⟨leg, hleg, known, hknown, -, hknownValue, hside⟩ := h.exists_leg hpositive hoffset key.2
    have hlegs : PositiveStrikes contract.optionContracts.reverse := fun record hrecord =>
      hpositive record (h.leg hpositive (List.mem_reverse.mp hrecord)).1
    rw [masterAt, hchain.contract_eq, atKey_isSome hlegs hfinite]
    exact ⟨leg, List.mem_reverse.mpr hleg, known, hknown, hknownValue.trans hvalue.symm, hside⟩
  · obtain ⟨listed, hlisted, hlistedValue⟩ := hchain.exists_listedStrike hpositive h hoffset
    exact ⟨listed, hlisted, (Decimal.equal_of_finite (hchain.mem_listedStrikes hpositive h hlisted).1 hfinite).mpr
      (hlistedValue.trans hvalue.symm)⟩

theorem ChainOf.topologyIssues_eq_nil (hchain : ChainOf contract pricingUnderlying snapshot)
    (hpositive : PositiveStrikes records)
    (h : Selected records pricingUnderlying contract.optionContracts contract.strikeInterval atm) {again : Decimal}
    (hagain : again.IsFinite) (hsame : again.value = atm.value) :
    topologyIssues snapshot (listedStrikes snapshot) again contract.strikeInterval = [] := by
  have hrequired : ∀ key ∈ requiredKeys again contract.strikeInterval, _ := fun key hkey =>
    hchain.required hpositive h hagain hsame hkey
  have hmissing : ∀ (known : Decimal × OptionType → Prop) [DecidablePred known],
      (∀ key ∈ requiredKeys again contract.strikeInterval, known key) →
        missingKeys known again contract.strikeInterval = [] := by
    intro known _ hknown
    refine List.filter_eq_nil_iff.mpr fun key hkey => ?_
    simpa using hknown key (Distinct.mem_of_mem_eraseDupsBy hkey)
  have hstrikes : ([-2, -1, 0, 1, 2].map (ladderStrike again contract.strikeInterval)).filter
      (fun strike => ¬∃ listed ∈ listedStrikes snapshot, Decimal.Equal listed strike) = [] := by
    refine List.filter_eq_nil_iff.mpr fun strike hstrike => ?_
    obtain ⟨offset, hoffset, rfl⟩ := List.mem_map.mp hstrike
    simpa using (hrequired (ladderStrike again contract.strikeInterval offset, .call)
      (mem_requiredKeys.mpr ⟨offset, hoffset, rfl⟩)).2.2
  have hmaster := hmissing (fun key => (masterAt snapshot key).isSome = true) fun key hkey => (hrequired key hkey).2.1
  have hlegs := hmissing (fun key => ∃ quote ∈ snapshot.optionChain, SameKey quote.key key)
    fun key hkey => (hrequired key hkey).1
  simp only [topologyIssues, hstrikes, hmaster, hlegs, errorIf, ne_eq, not_true, if_false, List.append_nil]

theorem Selected.positive_interval {records selected : List InstrumentMasterRecord} {interval : Decimal}
    (h : Selected records pricingUnderlying selected interval atm) : Positive (some interval) :=
  ⟨interval, rfl, h.interval_finite, by rw [Decimal.lt_iff, Decimal.value_zero]; exact h.interval_pos⟩

/-- The validator finds the five strikes. -/
theorem ChainOf.fiveStrikeIssues_eq_nil (hchain : ChainOf contract pricingUnderlying snapshot)
    (hpositive : PositiveStrikes records)
    (h : Selected records pricingUnderlying contract.optionContracts contract.strikeInterval atm)
    (hunderlying : pricingUnderlying.IsFinite ∧ 0 < pricingUnderlying) : fiveStrikeIssues snapshot = [] := by
  obtain ⟨again, hagain, hfinite, hsame⟩ := hchain.nearest hpositive h hunderlying
  have hprice := hchain.price
  rw [← hchain.contract_eq] at hprice
  have hpositivePrice : Positive (some pricingUnderlying) := ⟨_, rfl, hunderlying⟩
  unfold fiveStrikeIssues
  rw [hprice]
  simp only [hpositivePrice, not_true, if_false, not_lt.mpr (hchain.five hpositive h), hagain, hchain.contract_eq,
    h.positive_interval]
  exact hchain.topologyIssues_eq_nil hpositive h hfinite hsame

/-- The read model finds the chain complete. -/
theorem ChainOf.fiveStrikeChainComplete (hchain : ChainOf contract pricingUnderlying snapshot)
    (hpositive : PositiveStrikes records)
    (h : Selected records pricingUnderlying contract.optionContracts contract.strikeInterval atm)
    (hunderlying : pricingUnderlying.IsFinite ∧ 0 < pricingUnderlying) : fiveStrikeChainComplete snapshot = true := by
  obtain ⟨again, hagain, hfinite, hsame⟩ := hchain.nearest hpositive h hunderlying
  have hprice := hchain.price
  rw [← hchain.contract_eq] at hprice
  have hboth : Positive (some pricingUnderlying) ∧ Positive (some contract.strikeInterval) :=
    ⟨⟨_, rfl, hunderlying⟩, h.positive_interval⟩
  unfold Api.fiveStrikeChainComplete
  rw [hprice]
  simp only [hchain.contract_eq, if_pos hboth, not_lt.mpr (hchain.five hpositive h), if_false, hagain]
  exact decide_eq_true ⟨fun key hkey => (hchain.required hpositive h hfinite hsame hkey).1,
    fun quote hquote _ => hchain.complete quote hquote⟩

end Chain

/-! ### The report of the validator -/

/-- What the validator reports about the five strikes. -/
def fiveStrikeCodes : List String := ["FIVE_STRIKES_UNAVAILABLE", "FIVE_STRIKE_TOPOLOGY_INVALID",
  "FIVE_STRIKE_MASTER_MAPPING_MISSING", "FIVE_STRIKE_LEG_MISSING"]

/-- No issue is about the five strikes. -/
def Unrelated (issues : List ValidationIssue) : Prop := AllIssues (fun issue => issue.code ∉ fiveStrikeCodes) issues

section Unrelated

variable (config : StrategyConfig) (tables : CharTables) (snapshot : AtomicSnapshot) (now : Datetime)

theorem validateEnvelope_unrelated : Unrelated (validateEnvelope config snapshot now) := by
  simp [Unrelated, validateEnvelope, sourceAgeIssues, latencyIssues, provenanceIssues, requireAware, fiveStrikeCodes]

theorem validateFutureRecord_unrelated (contract : ContractSpec) (future : InstrumentMasterRecord) :
    Unrelated (validateFutureRecord tables contract future) := by
  have hexpiry : Unrelated (futureExpiryIssues contract future) := by
    unfold futureExpiryIssues
    split <;> simp [Unrelated, requireAware, fiveStrikeCodes]
  simp only [Unrelated, validateFutureRecord, allIssues_append, allIssues_errorIf]
  exact ⟨⟨by simp [fiveStrikeCodes], hexpiry⟩, by simp [fiveStrikeCodes]⟩

theorem optionRecordIssues_unrelated (contract : ContractSpec) (seen : List InstrumentMasterRecord)
    (record : InstrumentMasterRecord) (path : String) :
    Unrelated (optionRecordIssues tables contract seen record path) := by
  unfold optionRecordIssues
  split <;> simp [Unrelated, fiveStrikeCodes]

theorem validateContract_unrelated (contract : ContractSpec) :
    Unrelated (validateContract config tables contract now) := by
  have hpricing : Unrelated (pricingIssues contract) := by
    simp [Unrelated, pricingIssues, fiveStrikeCodes]
  have hmaster : Unrelated (masterIssues config contract now) := by
    simp [Unrelated, masterIssues, masterAgeIssues, requireAware, fiveStrikeCodes]
  simp only [Unrelated, validateContract, allIssues_append, eachWithSeen, allIssues_flatMap]
  refine ⟨⟨⟨⟨by simp [requireAware, expiryIssues, contractNumberIssue, fiveStrikeCodes], hmaster⟩, hpricing⟩, ?_⟩,
    fun record _ => optionRecordIssues_unrelated tables contract _ record.1 _⟩
  split
  · simp [fiveStrikeCodes]
  · exact validateFutureRecord_unrelated tables contract _

theorem validateComponents_unrelated :
    Unrelated (validateMarket snapshot ++ validateTechnicals snapshot ++ validateContext config snapshot) := by
  simp [Unrelated, validateMarket, validateTechnicals, validateContext, priceIssue, requireAware, fiveStrikeCodes]

theorem validateComponentCoherence_unrelated : Unrelated (validateComponentCoherence config snapshot now) := by
  simp only [Unrelated, validateComponentCoherence, allIssues_append, allIssues_flatMap]
  refine ⟨fun component _ => by simp [componentAgeIssues, fiveStrikeCodes], ?_⟩
  unfold skewIssues
  split <;> simp [fiveStrikeCodes]

theorem changeOiIssues_unrelated (source : DataSource) (quote : OptionQuote) (path : String) :
    Unrelated (changeOiIssues config source quote path) := by
  unfold changeOiIssues
  split <;> simp [Unrelated, fiveStrikeCodes]

theorem validateQuote_unrelated {source : DataSource} {quote : OptionQuote} {path : String}
    {issues : List ValidationIssue} (h : validateQuote config source quote path = .ok issues) : Unrelated issues := by
  obtain ⟨ratio, -, h⟩ := Except.bind_eq_ok.mp h
  cases h
  have hchange := changeOiIssues_unrelated config source quote path
  simp only [Unrelated, allIssues_append]
  refine ⟨⟨?_, hchange⟩, by simp [fiveStrikeCodes]⟩
  simp [requireAware, priceIssue, countIssue, fiveStrikeCodes]

theorem previousIssues_unrelated (quote : OptionQuote) (path referenceId : String) (previous : PreviousOptionSnapshot) :
    Unrelated (previousIssues snapshot quote path referenceId previous) := by
  unfold previousIssues
  split
  · simp [Unrelated, fiveStrikeCodes]
  · split <;> simp [Unrelated, priorLegIssues, fiveStrikeCodes]

theorem validateChangeOiReference_unrelated (quote : OptionQuote) (path : String)
    (loader : Option (String → Except String (Option PreviousOptionSnapshot))) (seen : List OptionQuote) :
    Unrelated (validateChangeOiReference snapshot quote path loader seen) := by
  unfold validateChangeOiReference
  split
  · exact allIssues_nil
  · split
    · simp [Unrelated, fiveStrikeCodes]
    · split
      · simp [Unrelated, fiveStrikeCodes]
      · simp [Unrelated, fiveStrikeCodes]
      · exact previousIssues_unrelated snapshot quote path _ _

theorem mappingIssues_unrelated (seen : List OptionQuote) (quote : OptionQuote) (path : String) :
    Unrelated (mappingIssues snapshot seen quote path) := by
  simp only [Unrelated, mappingIssues, allIssues_append]
  refine ⟨⟨by simp [fiveStrikeCodes], ?_⟩, by simp [fiveStrikeCodes]⟩
  split <;> simp [fiveStrikeCodes]

variable (validator : SnapshotValidator)

theorem quoteIssues_unrelated {seen : List OptionQuote} {quote : OptionQuote} {path : String}
    {issues : List ValidationIssue} (h : quoteIssues snapshot validator seen quote path = .ok issues) :
    Unrelated issues := by
  obtain ⟨quoted, hquoted, h⟩ := Except.bind_eq_ok.mp h
  cases h
  simp only [Unrelated, allIssues_append]
  exact ⟨⟨⟨mappingIssues_unrelated snapshot seen quote path, validateQuote_unrelated _ hquoted⟩,
    validateChangeOiReference_unrelated snapshot quote path _ seen⟩, by simp [selfReferenceIssues, fiveStrikeCodes]⟩

/-- A quote with a positive bid and ask has a spread ratio. -/
theorem spreadRatio_returns {quote : OptionQuote} (hbid : Positive quote.bid) (hask : Positive quote.ask) :
    ∃ ratio, quote.spreadRatio = .ok ratio := by
  obtain ⟨bid, hbid, hbidFinite, -⟩ := hbid
  obtain ⟨ask, hask, haskFinite, haskPos⟩ := hask
  have hspread := Decimal.sub_isFinite haskFinite hbidFinite
  have hminus : Decimal.minus .default ask bid = .ok (Decimal.sub .default ask bid) := by
    rw [Decimal.minus, Decimal.plus_of_finite haskFinite (Decimal.flip_isFinite hbidFinite),
      Decimal.sub_eq_add_flip .default ask hbidFinite]
  have hpositive : decide (ask ≤ 0) = false := decide_eq_false (not_le.mpr (Decimal.lt_iff.mp haskPos))
  have hcompare : Decimal.lessEqual ask 0 = .ok false := by
    rw [Decimal.lessEqual_of_finite haskFinite (by exact trivial), hpositive]
  have haskValue : 0 < ask.value := by simpa using Decimal.lt_iff.mp haskPos
  obtain ⟨quotient, hdivide⟩ := Decimal.divide_returns hspread haskFinite haskValue.ne'
  refine ⟨some (Binary64.ofDecimal quotient), ?_⟩
  rw [OptionQuote.spreadRatio, Option.mem_def.mp hbid, Option.mem_def.mp hask]
  show (Decimal.minus .default ask bid >>= _) = _
  rw [hminus]
  show (Decimal.lessEqual ask 0 >>= _) = _
  rw [hcompare]
  show (Decimal.divide _ ask >>= _) = _
  rw [hdivide]
  rfl

/-- A chain of complete quotes is validated, and only its end is about the five strikes. -/
theorem validateChain_returns (hcomplete : ∀ quote ∈ snapshot.optionChain, QuoteComplete quote) :
    ∃ issues, validateChain snapshot validator = .ok issues ∧
      (Unrelated (fiveStrikeIssues snapshot) → Unrelated issues) := by
  unfold validateChain
  split
  · exact ⟨_, rfl, fun _ => by simp [Unrelated, fiveStrikeCodes]⟩
  have hquotes : ∀ item ∈ snapshot.optionChain.zipIdx, ∃ issues, quoteIssues snapshot validator
      (snapshot.optionChain.take item.2) item.1 (indexedPath "option_chain" item.2) = .ok issues := by
    intro item hitem
    have hquote := hcomplete item.1 (List.fst_mem_of_mem_zipIdx hitem)
    obtain ⟨ratio, hratio⟩ := spreadRatio_returns hquote.1.1 hquote.1.2.1
    unfold quoteIssues validateQuote
    rw [hratio]
    exact ⟨_, rfl⟩
  obtain ⟨quoted, hquoted⟩ := Except.mapM_succeeds hquotes
  refine ⟨quoted.flatten ++ fiveStrikeIssues snapshot, ?_, fun hfive => ?_⟩
  · show (List.mapM _ _ >>= _) = _
    rw [hquoted]
    rfl
  · simp only [Unrelated, allIssues_append, allIssues_flatten]
    refine ⟨fun issues hissues => ?_, hfive⟩
    obtain ⟨item, -, hitem⟩ := Except.mapM_mem hquoted hissues
    exact quoteIssues_unrelated snapshot validator hitem

/-- A snapshot with a complete chain is validated, and only the end of the chain's rules is about the five strikes. -/
theorem validate_returns (hcomplete : ∀ quote ∈ snapshot.optionChain, QuoteComplete quote)
    (hfive : Unrelated (fiveStrikeIssues snapshot)) :
    ∃ report, validator.validate snapshot now = .ok report ∧ ∀ code ∈ fiveStrikeCodes, ¬report.HasCode code := by
  obtain ⟨issues, hissues, hunrelated⟩ : ∃ issues, (if now.Aware then validator.issues snapshot now
      else .ok (requireAware now "evaluation_time")) = .ok issues ∧ Unrelated issues := by
    split
    · obtain ⟨chain, hchain, hrest⟩ := validateChain_returns snapshot validator hcomplete
      unfold SnapshotValidator.issues
      rw [hchain]
      refine ⟨_, rfl, ?_⟩
      have hcomponents := validateComponents_unrelated validator.config snapshot
      simp only [Unrelated, allIssues_append] at hcomponents ⊢
      exact ⟨⟨⟨⟨⟨⟨validateEnvelope_unrelated _ _ _, validateContract_unrelated _ _ _ _⟩, hcomponents.1.1⟩,
        hcomponents.1.2⟩, hcomponents.2⟩, hrest hfive⟩, validateComponentCoherence_unrelated _ _ _⟩
    · exact ⟨_, rfl, by simp [Unrelated, requireAware, fiveStrikeCodes]⟩
  refine ⟨⟨issues, some snapshot.snapshotId, some (contentHash snapshot)⟩, ?_, ?_⟩
  · unfold SnapshotValidator.validate
    rw [hissues]
    rfl
  · rintro code hcode ⟨issue, hissue, rfl⟩
    exact hunrelated issue hissue hcode

end Unrelated

/-! ### Agreement -/

/-- What a resolution at a price comes to: the selected interval is the least one at which the ladder is listed, and
both the validator and the read model find the five strikes in every complete chain of the selected legs. -/
def TopologyAgrees (tables : CharTables) (family : DhanContractFamily) (pricingUnderlying : Decimal) : Prop :=
  ∀ resolved, family.contractAt tables pricingUnderlying = .ok resolved →
    (∀ atm, nearestAtm pricingUnderlying (strikesWithBoth (optionRecordsOf family.optionRecords)) = .ok atm →
      IsLeast (ladderIntervals family.optionRecords atm.value) resolved.contract.strikeInterval.value) ∧
    ∀ snapshot, ChainOf resolved.contract pricingUnderlying snapshot → fiveStrikeChainComplete snapshot = true ∧
      ∀ validator now, ∃ report, SnapshotValidator.validate validator snapshot now = .ok report ∧
        ∀ code ∈ fiveStrikeCodes, ¬report.HasCode code

/-- The three places agree where a search that is entered needs no rounding. -/
theorem contractAt_topologyAgrees (tables : CharTables) (family : DhanContractFamily) (pricingUnderlying : Decimal)
    (hpositive : PositiveStrikes family.optionRecords)
    (hexact : Searches family.optionRecords pricingUnderlying → ExactSearch family.optionRecords pricingUnderlying) :
    TopologyAgrees tables family pricingUnderlying := by
  intro resolved hresolved
  obtain ⟨hunderlying, hselect⟩ := contractAt_eq_ok hresolved
  obtain ⟨atm, hselected⟩ := selectFiveStrikes_selected hpositive hunderlying hexact hselect
  refine ⟨fun nearest hnearest => ?_, fun snapshot hchain => ⟨?_, fun validator now => ?_⟩⟩
  · obtain rfl : atm = nearest := Except.ok.inj (hselected.nearest.symm.trans hnearest)
    exact hselected.least
  · exact hchain.fiveStrikeChainComplete hpositive hselected hunderlying
  · refine validate_returns snapshot now validator hchain.complete ?_
    rw [hchain.fiveStrikeIssues_eq_nil hpositive hselected hunderlying]
    exact allIssues_nil

theorem normal_intCast {n : ℤ} (h : |n| < 10 ^ 28) : Decimal.Normal n := by
  refine ⟨⟨n, 0, h, by simp⟩, n * 10 ^ 1000026, ?_⟩
  have hunit : (10 : ℚ) ^ 1000026 * 10 ^ (-1000026 : ℤ) = 1 := by
    rw [← zpow_natCast, ← zpow_add₀ (by norm_num)]
    exact zpow_zero 10
  rw [Int.cast_mul, Int.cast_pow, Int.cast_ofNat, mul_assoc, hunit, mul_one]

/-- Whole strikes of ordinary size need no rounding. -/
theorem exactAt_intCast {atm interval : ℤ} (hatm : |atm| < 10 ^ 9) (hinterval : |interval| < 10 ^ 9) :
    ExactAt atm interval := by
  rw [abs_lt] at hatm hinterval
  refine ⟨normal_intCast ?_, ?_, fun offset hoffset => ?_⟩
  · rw [abs_lt]
    omega
  · have h : Decimal.Normal ((2 * interval : ℤ) : ℚ) := normal_intCast (by rw [abs_lt]; omega)
    push_cast at h
    exact h
  · have h : Decimal.Normal ((atm + offset * interval : ℤ) : ℚ) := by
      refine normal_intCast ?_
      simp only [offsets, List.mem_cons, List.not_mem_nil, or_false] at hoffset
      rcases hoffset with rfl | rfl | rfl | rfl | rfl <;> rw [abs_lt] <;> omega
    push_cast at h
    exact h

/-- A crude-oil family at a price of 6512. -/
theorem contractAt_topologyAgrees_crude :
    (crudeFamily ("CRUDEOIL-" ++ ·)).contractAt asciiTables 6512 = .ok (crudeContract ("CRUDEOIL-" ++ ·)) ∧
      TopologyAgrees asciiTables (crudeFamily ("CRUDEOIL-" ++ ·)) 6512 := by
  have hpositive : PositiveStrikes (crudeFamily ("CRUDEOIL-" ++ ·)).optionRecords := by
    unfold PositiveStrikes
    decide +kernel
  have hstrikes : strikesWithBoth (optionRecordsOf (crudeFamily ("CRUDEOIL-" ++ ·)).optionRecords) =
      [.finite false 6400 0, .finite false 6450 0, .finite false 6500 0, .finite false 6550 0, .finite false 6600 0] := by
    decide +kernel
  have hwhole : ∀ strike ∈ strikesWithBoth (optionRecordsOf (crudeFamily ("CRUDEOIL-" ++ ·)).optionRecords),
      ∃ n : ℤ, 0 ≤ n ∧ n < 10 ^ 8 ∧ strike.value = n := by
    rw [hstrikes]
    simp only [List.forall_mem_cons, List.not_mem_nil, false_implies, implies_true, and_true]
    exact ⟨⟨6400, by norm_num [Decimal.value]⟩, ⟨6450, by norm_num [Decimal.value]⟩,
      ⟨6500, by norm_num [Decimal.value]⟩, ⟨6550, by norm_num [Decimal.value]⟩, ⟨6600, by norm_num [Decimal.value]⟩⟩
  refine ⟨by decide +kernel, contractAt_topologyAgrees _ _ _ hpositive ?_⟩
  intro _ atm hatm lower upper hadjacent _
  have hlisted := (nearestAtm_nearest (by exact trivial)
    (fun strike hstrike => (mem_strikesWithBoth hpositive hstrike).1) hatm).listed
  obtain ⟨money, hmoney, hmoney', hvalue⟩ := hwhole atm hlisted
  obtain ⟨left, hleft, rfl⟩ := exists_strikesWithBoth hpositive hadjacent.1
  obtain ⟨right, hright, rfl⟩ := exists_strikesWithBoth hpositive hadjacent.2.1
  obtain ⟨low, hlow, hlow', hlowValue⟩ := hwhole left hleft
  obtain ⟨high, hhigh, hhigh', hhighValue⟩ := hwhole right hright
  have hexact : ExactAt money ((high - low : ℤ) : ℚ) :=
    exactAt_intCast (by rw [abs_lt]; omega) (by rw [abs_lt]; omega)
  push_cast at hexact
  rwa [hvalue, hlowValue, hhighValue]

/-- Four strikes far below the price, a unit in the thirtieth place apart, and one at the price. -/
def fineFamily : DhanContractFamily :=
  { crudeFamily fun _ => "CRUDEOIL" with
    optionRecords := [Decimal.finite false 1 (-30), .finite false 2 (-30), .finite false 3 (-30),
      .finite false 4 (-30), 100000].flatMap fun strike =>
        [{ crudeLeg "CRUDEOIL" 0 .call "1" with strike := some strike },
          { crudeLeg "CRUDEOIL" 0 .put "2" with strike := some strike }] }

/-- Added to the price, the fine interval is rounded away: all ten legs of the contract are the two at the price. -/
theorem contractAt_topology_rounded : PositiveStrikes fineFamily.optionRecords ∧
    (fineFamily.contractAt asciiTables 100000).toOption.map
      (fun resolved => (resolved.contract.optionContracts.map (·.strike)).eraseDups) = some [some 100000] ∧
    ¬TopologyAgrees asciiTables fineFamily 100000 := by
  refine ⟨by unfold PositiveStrikes; decide +kernel, by decide +kernel, fun hagrees => ?_⟩
  have hinterval : (fineFamily.contractAt asciiTables 100000).toOption.map
      (fun resolved => resolved.contract.strikeInterval) = some (.finite false 1 (-30)) := by decide +kernel
  cases hresult : fineFamily.contractAt asciiTables 100000 with
  | error fault => simp [hresult, Except.toOption] at hinterval
  | ok resolved =>
      rw [hresult] at hinterval
      have hleast := (hagrees resolved hresult).1 100000 (by decide +kernel)
      rw [show resolved.contract.strikeInterval = .finite false 1 (-30) from Option.some.inj hinterval] at hleast
      have hlisted := hleast.1.2 1 (by decide) .call
      have hunlisted : ∀ record ∈ fineFamily.optionRecords, ∀ key ∈ optionKey record,
          key.1.value ≠ (100000 : Decimal).value + (1 : ℤ) * (Decimal.finite false 1 (-30)).value := by decide +kernel
      obtain ⟨record, hrecord, key, hkey, hvalue, -⟩ := hlisted
      exact hunlisted record hrecord key hkey hvalue

end TecoQuant.Ingestion
