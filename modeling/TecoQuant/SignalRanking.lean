import Mathlib.Data.List.MinMax
import Mathlib.Data.Prod.Lex
import Mathlib.Data.String.Basic
import TecoQuant.BaseDecimalOrder
import TecoQuant.SignalGates

/-! The ranking of the legs and the leg of the plan. The ranking orders the legs by eligibility, score,
distance, strike and side; the plan buys the first listed leg of the leading side with the best score.
They agree unless an equally scored leg of another security ranks before those of the planned one. -/

namespace TecoQuant.Signal.SignalPipeline

open Domain Ingestion Strategy

variable {p : SignalPipeline} {snapshot : AtomicSnapshot} {report : ValidationReport}
  {cs : List Candidate} {now : Datetime} {result : SignalPipelineResult}

/-! ### The order of the ranking -/

/-- Distance, strike and side, in the order they are compared. -/
def place (key : RankKey) : WithBot (WithTop ℚ) ×ₗ WithBot (WithTop ℚ) ×ₗ String :=
  toLex (key.distance.extended, toLex (key.strike.extended, key.side))

/-- All that the ranking compares: eligible legs first, then the greater scores. -/
def rankOrder (entry : Candidate × RankKey) :
    Bool ×ₗ ℚᵒᵈ ×ₗ WithBot (WithTop ℚ) ×ₗ WithBot (WithTop ℚ) ×ₗ String :=
  toLex (!entry.1.eligible, toLex (OrderDual.toDual entry.1.score.toRat, place entry.2))

/-- A comparison of keys that does not raise follows their places. -/
theorem place_le_iff {left right : RankKey} {b : Bool}
    (h : (if ¬Decimal.Equal left.distance right.distance then arith (Decimal.less left.distance right.distance)
      else if ¬Decimal.Equal left.strike right.strike then arith (Decimal.less left.strike right.strike)
      else .ok (decide (left.side ≤ right.side))) = Except.ok (ε := Fault) b) :
    b = decide (place left ≤ place right) := by
  have hplace : place left ≤ place right ↔ left.distance.extended < right.distance.extended ∨
      left.distance.extended = right.distance.extended ∧ (left.strike.extended < right.strike.extended ∨
        left.strike.extended = right.strike.extended ∧ left.side ≤ right.side) := by
    rw [place, place, Prod.Lex.toLex_le_toLex, Prod.Lex.toLex_le_toLex]
  split at h
  · rename_i hdistance
    have hless := arith_eq_ok.mp h
    have hne : left.distance.extended ≠ right.distance.extended := fun heq =>
      hdistance (Decimal.equal_iff.mpr ⟨Decimal.less_ne_nan hless, heq⟩)
    rw [Decimal.less_eq_ok hless]
    exact decide_eq_decide.mpr (hplace.trans ⟨fun h => h.resolve_right fun h => hne h.1, .inl⟩).symm
  · rename_i hdistance
    have hdistance := (Decimal.equal_iff.mp (not_not.mp hdistance)).2
    split at h
    · rename_i hstrike
      have hless := arith_eq_ok.mp h
      have hne : left.strike.extended ≠ right.strike.extended := fun heq =>
        hstrike (Decimal.equal_iff.mpr ⟨Decimal.less_ne_nan hless, heq⟩)
      rw [Decimal.less_eq_ok hless]
      refine decide_eq_decide.mpr (hplace.trans ⟨fun h => ?_, fun h => .inr ⟨hdistance, .inl h⟩⟩).symm
      exact ((h.resolve_left hdistance.not_lt).2).resolve_right fun h => hne h.1
    · rename_i hstrike
      have hstrike := (Decimal.equal_iff.mp (not_not.mp hstrike)).2
      rw [← Except.ok.inj h]
      refine decide_eq_decide.mpr (hplace.trans ⟨fun h => ?_, fun h => .inr ⟨hdistance, .inr ⟨hstrike, h⟩⟩⟩).symm
      exact ((h.resolve_left hdistance.not_lt).2.resolve_left hstrike.not_lt).2

/-- A comparison of entries that does not raise follows their orders. -/
theorem ranksBefore_eq_ok {left right : Candidate × RankKey} {b : Bool} (h : ranksBefore left right = .ok b)
    (hleft : left.1.score.IsFinite) (hright : right.1.score.IsFinite) :
    b = decide (rankOrder left ≤ rankOrder right) := by
  have horder : rankOrder left ≤ rankOrder right ↔ (!left.1.eligible) < (!right.1.eligible) ∨
      (!left.1.eligible) = (!right.1.eligible) ∧ (right.1.score.toRat < left.1.score.toRat ∨
        right.1.score.toRat = left.1.score.toRat ∧ place left.2 ≤ place right.2) := by
    rw [rankOrder, rankOrder, Prod.Lex.toLex_le_toLex, Prod.Lex.toLex_le_toLex]
    simp only [OrderDual.toDual_lt_toDual, OrderDual.toDual_inj, eq_comm]
  unfold ranksBefore at h
  split at h
  · rename_i heligible
    rw [← Except.ok.inj h]
    have hne : (!left.1.eligible) ≠ (!right.1.eligible) := fun heq => heligible (Bool.not_inj heq)
    refine (Bool.eq_iff_iff.mpr ?_)
    rw [decide_eq_true_iff, horder]
    cases hl : left.1.eligible <;> cases hr : right.1.eligible <;> simp_all
  · rename_i heligible
    have heligible : (!left.1.eligible) = (!right.1.eligible) := by rw [not_not.mp heligible]
    have hsame : rankOrder left ≤ rankOrder right ↔ right.1.score.toRat < left.1.score.toRat ∨
        right.1.score.toRat = left.1.score.toRat ∧ place left.2 ≤ place right.2 := by
      rw [horder]
      exact ⟨fun h => (h.resolve_left heligible.not_lt).2, fun h => .inr ⟨heligible, h⟩⟩
    split at h
    · rename_i hless
      have hless := (Binary64.lt_iff hleft hright).mp hless
      rw [← Except.ok.inj h]
      refine (decide_eq_false fun hle => ?_).symm
      rcases hsame.mp hle with hgt | ⟨heq, -⟩
      · exact absurd hless hgt.not_gt
      · exact absurd heq hless.ne'
    · split at h
      · rename_i hgreater
        rw [← Except.ok.inj h]
        exact (decide_eq_true (hsame.mpr (.inl ((Binary64.lt_iff hright hleft).mp hgreater)))).symm
      · rename_i hless hgreater
        have heq : right.1.score.toRat = left.1.score.toRat :=
          le_antisymm (not_lt.mp fun hlt => hless ((Binary64.lt_iff hleft hright).mpr hlt))
            (not_lt.mp fun hlt => hgreater ((Binary64.lt_iff hright hleft).mpr hlt))
        rw [place_le_iff h]
        exact decide_eq_decide.mpr (hsame.trans ⟨fun h => (h.resolve_left heq.not_lt).2, fun h => .inr ⟨heq, h⟩⟩).symm

/-- The key a leg is ranked by. -/
def legKey (snapshot : AtomicSnapshot) (c : Candidate) : RankKey where
  distance :=
    ((underlyingDistance (snapshot.market.pricingUnderlying snapshot.contract.marketKind) c.quote.strike).toOption).getD 0
  strike := c.quote.strike
  side := c.quote.optionType.value

/-- The order of a leg in the ranking. -/
def legOrder (snapshot : AtomicSnapshot) (c : Candidate) :
    Bool ×ₗ ℚᵒᵈ ×ₗ WithBot (WithTop ℚ) ×ₗ WithBot (WithTop ℚ) ×ₗ String :=
  rankOrder (c, legKey snapshot c)

theorem rankKey_eq_ok {c : Candidate} {key : RankKey}
    (h : rankKey (snapshot.market.pricingUnderlying snapshot.contract.marketKind) c = .ok key) :
    key = legKey snapshot c := by
  unfold rankKey at h
  obtain ⟨distance, hdistance, h⟩ := Except.bind_eq_ok.mp h
  rw [← Except.ok.inj h, legKey, hdistance]
  rfl

/-- Inserting a leg puts it first exactly when it does not come after the first one. -/
theorem insertRanked_head {entry next : Candidate × RankKey} {rest ordered : List (Candidate × RankKey)}
    (h : insertRanked entry (next :: rest) = .ok ordered) (hentry : entry.1.score.IsFinite)
    (hnext : next.1.score.IsFinite) :
    ordered.head? = some (if rankOrder next < rankOrder entry then next else entry) := by
  rw [insertRanked] at h
  obtain ⟨before, hbefore, h⟩ := Except.bind_eq_ok.mp h
  have horder := ranksBefore_eq_ok hbefore hentry hnext
  cases before with
  | true =>
      rw [if_neg (not_lt.mpr (of_decide_eq_true horder.symm))]
      cases h
      rfl
  | false =>
      rw [if_pos (not_le.mp (of_decide_eq_false horder.symm))]
      obtain ⟨tail, -, h⟩ := Except.bind_eq_ok.mp h
      cases h
      rfl

/-- The ranking starts with the first listed of the legs that order least. -/
theorem keyed_head (hfinite : ∀ c ∈ cs, c.score.IsFinite) {keyed ordered : List (Candidate × RankKey)}
    (hkeyed : cs.mapM (fun candidate => do return (candidate,
      ← rankKey (snapshot.market.pricingUnderlying snapshot.contract.marketKind) candidate)) = .ok keyed)
    (h : keyed.foldrM insertRanked [] = .ok ordered) :
    ordered.head? = (cs.argmin (legOrder snapshot)).map fun c => (c, legKey snapshot c) := by
  induction cs generalizing keyed ordered with
  | nil =>
      cases hkeyed
      cases h
      rfl
  | cons c cs ih =>
      rw [List.mapM_cons] at hkeyed
      obtain ⟨entry, hentry, hkeyed⟩ := Except.bind_eq_ok.mp hkeyed
      obtain ⟨entries, hentries, hkeyed⟩ := Except.bind_eq_ok.mp hkeyed
      obtain ⟨key, hkey, hentry⟩ := Except.bind_eq_ok.mp hentry
      cases hkeyed
      cases hentry
      rw [rankKey_eq_ok hkey, List.foldrM_cons] at h
      obtain ⟨sorted, hsorted, h⟩ := Except.bind_eq_ok.mp h
      have hhead := ih (fun c hc => hfinite c (List.mem_cons_of_mem _ hc)) hentries hsorted
      rw [List.argmin_cons]
      cases hleast : cs.argmin (legOrder snapshot) with
      | none =>
          rw [hleast] at hhead
          obtain rfl := List.head?_eq_none_iff.mp hhead
          cases h
          rfl
      | some least =>
          rw [hleast] at hhead
          obtain ⟨rest, rfl⟩ := List.head?_eq_some_iff.mp hhead
          rw [insertRanked_head h (hfinite c List.mem_cons_self)
            (hfinite least (List.mem_cons_of_mem _ (List.argmin_mem hleast)))]
          dsimp only
          change some (if legOrder snapshot least < legOrder snapshot c then _ else _) = _
          by_cases hless : legOrder snapshot least < legOrder snapshot c
          · rw [if_pos hless, if_pos hless]
            rfl
          · rw [if_neg hless, if_neg hless]
            rfl

/-- What the first entry of a ranking shows of its leg. -/
theorem rank_head (hfinite : ∀ c ∈ cs, c.score.IsFinite) {ranked : List RankedStrike}
    (h : rank snapshot cs = .ok ranked) {first : Candidate} (hfirst : cs.argmin (legOrder snapshot) = some first) :
    ∃ entry, ranked.head? = some entry ∧ entry.rank = 1 ∧ entry.securityId = first.quote.securityId ∧
      entry.eligible = first.eligible := by
  unfold rank at h
  obtain ⟨keyed, hkeyed, h⟩ := Except.bind_eq_ok.mp h
  obtain ⟨ordered, hordered, h⟩ := Except.bind_eq_ok.mp h
  have hhead := keyed_head hfinite hkeyed hordered
  rw [hfirst] at hhead
  obtain ⟨rest, rfl⟩ := List.head?_eq_some_iff.mp hhead
  cases h
  exact ⟨_, rfl, rfl, rfl, rfl⟩

theorem conclude_ranked (h : p.conclude snapshot report cs now = .ok result) :
    rank snapshot cs = .ok result.rankedStrikes := by
  unfold conclude at h
  obtain ⟨ranked, hranked, h⟩ := Except.bind_eq_ok.mp h
  obtain ⟨confirmed, -, h⟩ := Except.bind_eq_ok.mp h
  obtain ⟨drafted, -, h⟩ := Except.bind_eq_ok.mp h
  obtain ⟨age, -, h⟩ := Except.bind_eq_ok.mp h
  obtain ⟨expirySeconds, -, h⟩ := Except.bind_eq_ok.mp h
  obtain ⟨outcome, -, h⟩ := Except.bind_eq_ok.mp h
  cases h
  exact hranked

/-! ### Scores -/

/-- A total lies within `0..100`. -/
theorem clamped_isFinite (x : Binary64) : (Binary64.min 100 (Binary64.max 0 x)).IsFinite := by
  unfold Binary64.min Binary64.max
  cases x with
  | finite negative value =>
      split
      · split <;> trivial
      · trivial
  | infinity negative => cases negative <;> decide
  | nan => decide

theorem scoreCandidate_finite {quote : OptionQuote} {previous : Option OptionQuote} {c : Candidate}
    (h : p.scoreCandidate snapshot quote previous = .ok c) : c.score.IsFinite := by
  unfold scoreCandidate at h
  obtain ⟨_, -, h⟩ := Except.bind_eq_ok.mp h
  obtain ⟨_, -, h⟩ := Except.bind_eq_ok.mp h
  obtain ⟨factors, -, h⟩ := Except.bind_eq_ok.mp h
  obtain ⟨_, -, h⟩ := Except.bind_eq_ok.mp h
  obtain ⟨evidence, hevidence, h⟩ := Except.bind_eq_ok.mp h
  cases h
  unfold evidenceOf at hevidence
  split at hevidence
  · cases hevidence
    trivial
  · obtain ⟨scored, hscored, hevidence⟩ := Except.map_eq_ok.mp hevidence
    subst hevidence
    unfold weightedScore at hscored
    obtain ⟨_, -, hscored⟩ := Except.bind_eq_ok.mp hscored
    obtain ⟨points, -, hscored⟩ := Except.bind_eq_ok.mp hscored
    cases hscored
    exact clamped_isFinite _

theorem candidates_finite {previous : List OptionQuote} {modeledGreeks : Option (List (String × Greeks))}
    (h : p.candidates snapshot previous modeledGreeks = .ok cs) : ∀ c ∈ cs, c.score.IsFinite := by
  intro c hc
  obtain ⟨quote, -, hscore⟩ := Except.mapM_mem h hc
  exact scoreCandidate_finite hscore

/-- No leg of the list scores more than the greatest. -/
theorem foldl_greatest_max (first : Candidate) (rest : List Candidate)
    (hfinite : ∀ c ∈ first :: rest, c.score.IsFinite) :
    ∀ c ∈ first :: rest, c.score.toRat ≤ (rest.foldl (fun greatest candidate =>
      if greatest.score < candidate.score then candidate else greatest) first).score.toRat := by
  induction rest generalizing first with
  | nil =>
      intro c hc
      rw [List.mem_singleton.mp hc]
      exact le_rfl
  | cons next rest ih =>
      have hfirst := hfinite first List.mem_cons_self
      have hnext := hfinite next (List.mem_cons_of_mem _ List.mem_cons_self)
      intro c hc
      rw [List.foldl_cons]
      by_cases hless : first.score < next.score
      · rw [if_pos hless]
        have hmax := ih next fun c hc => hfinite c (List.mem_cons_of_mem _ hc)
        rcases List.mem_cons.mp hc with rfl | hc
        · exact ((Binary64.lt_iff hfirst hnext).mp hless).le.trans (hmax next List.mem_cons_self)
        · exact hmax c hc
      · rw [if_neg hless]
        have hle := (Binary64.le_iff hnext hfirst).mp ((Binary64.not_lt_iff hfirst hnext).mp hless)
        have hmax := ih first fun c hc => by
          rcases List.mem_cons.mp hc with rfl | hc
          · exact hfirst
          · exact hfinite c (List.mem_cons_of_mem _ (List.mem_cons_of_mem _ hc))
        rcases List.mem_cons.mp hc with rfl | hc
        · exact hmax c List.mem_cons_self
        · rcases List.mem_cons.mp hc with rfl | hc
          · exact hle.trans (hmax first List.mem_cons_self)
          · exact hmax c (List.mem_cons_of_mem _ hc)

/-- No eligible leg of a side scores more than the best one. -/
theorem best_max (hfinite : ∀ c ∈ cs, c.score.IsFinite) {side : OptionType} {leader : Candidate}
    (h : best cs side = some leader) {c : Candidate} (hc : c ∈ cs) (hside : c.quote.optionType = side)
    (heligible : c.eligible = true) : c.score.toRat ≤ leader.score.toRat := by
  have hmem : c ∈ cs.filter fun candidate =>
      decide (candidate.quote.optionType = side) && candidate.eligible :=
    List.mem_filter.mpr ⟨hc, by rw [hside, heligible]; simp⟩
  unfold best at h
  dsimp only at h
  split at h
  · cases h
  · rename_i first rest hfilter
    cases h
    refine foldl_greatest_max first rest (fun d hd => ?_) c (hfilter ▸ hmem)
    rw [← hfilter] at hd
    exact hfinite d (List.mem_filter.mp hd).1

/-! ### The leg of the plan -/

/-- The plan buys the security of the first ranked leg. -/
def PlansRanked (result : SignalPipelineResult) : Prop :=
  ∃ plan first, result.tradePlan = some plan ∧ result.rankedStrikes.head? = some first ∧ first.rank = 1 ∧
    first.eligible = true ∧ plan.securityId = first.securityId

/-- An eligible leg with the score of the leader. -/
def Rivals (leader c : Candidate) : Prop := c.eligible = true ∧ Binary64.Equal c.score leader.score

/-- A leg comes before another: by distance, strike and side, and on a full tie by the listing. -/
def ComesBefore (snapshot : AtomicSnapshot) (cs : List Candidate) (c d : Candidate) : Prop :=
  place (legKey snapshot c) < place (legKey snapshot d) ∨
    place (legKey snapshot c) = place (legKey snapshot d) ∧ cs.idxOf c < cs.idxOf d

/-- Of the legs with the score of the leader, one of its security comes before all of other securities. -/
def LeaderFirst (p : SignalPipeline) (snapshot : AtomicSnapshot) (previousSnapshot : Option PreviousOptionSnapshot)
    (modeledGreeks : Option (List (String × Greeks))) : Prop :=
  ∃ previous cs leader, p.previousBySecurity snapshot previousSnapshot = .ok previous ∧
    p.candidates snapshot previous modeledGreeks = .ok cs ∧
    leading (best cs .call) (best cs .put) = some leader ∧
    ∃ c ∈ cs, Rivals leader c ∧ c.quote.securityId = leader.quote.securityId ∧
      ∀ d ∈ cs, Rivals leader d → d.quote.securityId ≠ leader.quote.securityId → ComesBefore snapshot cs c d

namespace Conclusion

/-- Behind open gates the leader is eligible, and no eligible leg scores more. -/
theorem opens_leader (c : Conclusion p snapshot report cs now) (h : c.Opens)
    (hfinite : ∀ c ∈ cs, c.score.IsFinite) {leader : Candidate}
    (hleader : leading (best cs .call) (best cs .put) = some leader) :
    leader ∈ cs ∧ leader.eligible = true ∧
      ∀ d ∈ cs, d.eligible = true → d.score.toRat ≤ leader.score.toRat := by
  obtain ⟨call, hcall⟩ := c.opens_best h .call
  obtain ⟨put, hput⟩ := c.opens_best h .put
  obtain ⟨hcallMem, -, hcallEligible⟩ := best_eq_some hcall
  obtain ⟨hputMem, -, hputEligible⟩ := best_eq_some hput
  have hcallScore : sideScore cs .call = call.score := by rw [sideScore, hcall]; rfl
  have hputScore : sideScore cs .put = put.score := by rw [sideScore, hput]; rfl
  have hmax : ∀ d ∈ cs, d.eligible = true →
      d.score.toRat ≤ call.score.toRat ∨ d.score.toRat ≤ put.score.toRat := by
    intro d hd heligible
    cases hside : d.quote.optionType with
    | call => exact .inl (best_max hfinite hcall hd hside heligible)
    | put => exact .inr (best_max hfinite hput hd hside heligible)
  rw [leading_eq, hcallScore, hputScore] at hleader
  by_cases hle : put.score ≤ call.score
  · rw [if_pos hle] at hleader
    obtain rfl := Option.some.inj (hcall.symm.trans hleader)
    have hle := (Binary64.le_iff (hfinite put hputMem) (hfinite call hcallMem)).mp hle
    exact ⟨hcallMem, hcallEligible, fun d hd heligible => (hmax d hd heligible).elim id fun h => h.trans hle⟩
  · rw [if_neg hle] at hleader
    obtain rfl := Option.some.inj (hput.symm.trans hleader)
    have hlt : call.score.toRat < put.score.toRat := not_le.mp fun h =>
      hle ((Binary64.le_iff (hfinite put hputMem) (hfinite call hcallMem)).mpr h)
    exact ⟨hputMem, hputEligible, fun d hd heligible => (hmax d hd heligible).elim (fun h => h.trans hlt.le) id⟩

end Conclusion

/-- The legs that rank first are the rivals of a best leg that come first. -/
theorem first_rivals {leader first : Candidate} (hfinite : ∀ c ∈ cs, c.score.IsFinite) (hmem : leader ∈ cs)
    (heligible : leader.eligible = true)
    (hmax : ∀ d ∈ cs, d.eligible = true → d.score.toRat ≤ leader.score.toRat)
    (hfirst : cs.argmin (legOrder snapshot) = some first) :
    Rivals leader first ∧ ∀ d ∈ cs, Rivals leader d → d ≠ first → ComesBefore snapshot cs first d := by
  obtain ⟨hin, hleast, hearliest⟩ := List.mem_argmin_iff.mp hfirst
  -- The order of the first leg is at most that of the leader, so it is eligible and scores as much.
  have hle := hleast leader hmem
  simp only [legOrder, rankOrder, Prod.Lex.toLex_le_toLex, heligible, Bool.not_true,
    OrderDual.toDual_lt_toDual, OrderDual.toDual_inj] at hle
  have hineligible : ¬(!first.eligible) < false := by cases first.eligible <;> decide
  obtain ⟨hsame, hscore⟩ := hle.resolve_left hineligible
  have hfirstEligible : first.eligible = true := by simpa using hsame
  have hfirstScore : first.score.toRat = leader.score.toRat :=
    le_antisymm (hmax first hin hfirstEligible) (hscore.elim le_of_lt fun h => h.1.ge)
  have hrival : ∀ d ∈ cs, Rivals leader d ↔ d.eligible = true ∧ d.score.toRat = leader.score.toRat := by
    intro d hd
    have hd := hfinite d hd
    have hleader := hfinite leader hmem
    unfold Rivals Binary64.Equal
    rw [Binary64.le_iff hd hleader, Binary64.le_iff hleader hd, ← le_antisymm_iff]
  refine ⟨(hrival first hin).mpr ⟨hfirstEligible, hfirstScore⟩, fun d hd hrivals hne => ?_⟩
  obtain ⟨hdEligible, hdScore⟩ := (hrival d hd).mp hrivals
  have hplaces : ∀ left right : Candidate, left.eligible = right.eligible →
      left.score.toRat = right.score.toRat →
      (legOrder snapshot left ≤ legOrder snapshot right ↔ place (legKey snapshot left) ≤ place (legKey snapshot right)) := by
    intro left right he hs
    simp [legOrder, rankOrder, Prod.Lex.toLex_le_toLex, he, hs]
  have hfd := hplaces first d (hfirstEligible.trans hdEligible.symm) (hfirstScore.trans hdScore.symm)
  have hdf := hplaces d first (hdEligible.trans hfirstEligible.symm) (hdScore.trans hfirstScore.symm)
  rcases lt_or_eq_of_le (hfd.mp (hleast d hd)) with hlt | heq
  · exact .inl hlt
  · have hindex := hearliest d hd (hdf.mpr heq.ge)
    refine .inr ⟨heq, lt_of_le_of_ne hindex fun hsame => hne ?_⟩
    exact ((List.idxOf_inj hin).mp hsame).symm

theorem comesBefore_asymm {c d : Candidate} (h : ComesBefore snapshot cs c d) : ¬ComesBefore snapshot cs d c := by
  rintro (hlt | ⟨heq, hindex⟩)
  · rcases h with hlt' | ⟨heq', -⟩
    · exact lt_asymm hlt hlt'
    · exact absurd heq' hlt.ne'
  · rcases h with hlt' | ⟨-, hindex'⟩
    · exact absurd heq hlt'.ne'
    · exact absurd hindex hindex'.not_gt

/-- A BUY plans the best ranked leg exactly when the leader's security comes first among its rivals. -/
theorem evaluate_plansRanked_iff (p : SignalPipeline) (snapshot : AtomicSnapshot) (report : ValidationReport)
    (previousSnapshot : Option PreviousOptionSnapshot) (modeledGreeks : Option (List (String × Greeks)))
    (now : Datetime) (result : SignalPipelineResult)
    (h : p.evaluate snapshot report previousSnapshot modeledGreeks now = .ok result)
    (hbuys : result.decision.Buys) :
    PlansRanked result ↔ LeaderFirst p snapshot previousSnapshot modeledGreeks := by
  obtain ⟨-, -, -, previous, cs, hprevious, hcandidates, hconclude⟩ := evaluate_eq_ok h
  obtain ⟨c, hdecision, hplan, -⟩ := conclude_eq_ok hconclude
  have hfinite := candidates_finite hcandidates
  have hopen : c.Opens := buys_iff.mp (hdecision ▸ hbuys)
  obtain ⟨d, position, leader, ask, riskDistance, hdrafted, -, hleader, -, -, hdraft⟩ := c.opens_drafted hopen
  obtain ⟨hmem, heligible, hmax⟩ := c.opens_leader hopen hfinite hleader
  obtain ⟨first, hfirst⟩ : ∃ first, cs.argmin (legOrder snapshot) = some first := by
    cases hleast : cs.argmin (legOrder snapshot) with
    | none =>
        rw [List.argmin_eq_none.mp hleast] at hmem
        cases hmem
    | some first => exact ⟨first, rfl⟩
  obtain ⟨hrival, hbefore⟩ := first_rivals hfinite hmem heligible hmax hfirst
  have hin := List.argmin_mem hfirst
  obtain ⟨entry, hentry, hrank, hsecurity, hentryEligible⟩ := rank_head hfinite (conclude_ranked hconclude) hfirst
  obtain ⟨_, _, -, -, hplanSecurity, -⟩ := draftPlan_eq_ok hdraft
  rw [hdrafted] at hplan
  have hplans : PlansRanked result ↔ first.quote.securityId = leader.quote.securityId := by
    constructor
    · rintro ⟨plan, entry', hplan', hentry', -, -, hsame⟩
      obtain rfl := Option.some.inj (hplan.symm.trans hplan')
      obtain rfl := Option.some.inj (hentry.symm.trans hentry')
      exact hsecurity.symm.trans (hsame.symm.trans hplanSecurity)
    · intro hsame
      exact ⟨_, entry, hplan, hentry, hrank, hentryEligible.trans hrival.1,
        hplanSecurity.trans (hsame.symm.trans hsecurity.symm)⟩
  rw [hplans]
  constructor
  · intro hsame
    refine ⟨previous, cs, leader, hprevious, hcandidates, hleader, first, hin, hrival, hsame,
      fun d hd hrivals hother => hbefore d hd hrivals ?_⟩
    rintro rfl
    exact hother hsame
  · rintro ⟨previous', cs', leader', hprevious', hcandidates', hleader', e, he, hrivals, hsame, hfirsts⟩
    obtain rfl := Except.ok.inj (hprevious.symm.trans hprevious')
    obtain rfl := Except.ok.inj (hcandidates.symm.trans hcandidates')
    obtain rfl := Option.some.inj (hleader.symm.trans hleader')
    by_contra hother
    have hne : e ≠ first := by
      rintro rfl
      exact hother hsame
    exact comesBefore_asymm (hfirsts first hin hrival hother) (hbefore e he hrivals hne)

section EqualCalls

/-- A call further from the underlying, with the same quotes as the one at it. -/
def farQuote (ltp : Decimal) : OptionQuote := { tieQuote "3" .call ltp 0.575 with strike := 110 }

def equalContract : ContractSpec := { tieContract with
  optionContracts := { tieRecord "3" .call with strike := some 110 } :: tieContract.optionContracts }

/-- The further call is listed first. -/
def equalChain : List OptionQuote := farQuote 100 :: tieChain

def equalSnapshot : AtomicSnapshot := { tieSnapshot with
  contract := equalContract
  technicals := bullishTechnicals
  optionChain := equalChain
  metadata := [("normalized_component_hashes",
    stringDict (normalizedComponentHashes equalContract tieMarket bullishTechnicals tieContext equalChain))]
  hashed := rfl }

def equalReport : ValidationReport := ⟨[], equalSnapshot.snapshotId, contentHash equalSnapshot⟩

def equalPrevious : PreviousOptionSnapshot := { tiePrevious with
  contractKey := equalContract.contractKey
  optionChain := farQuote 98 :: tiePrevious.optionChain }

theorem equal_previous :
    costlessPipeline.previousBySecurity equalSnapshot (some equalPrevious) = .ok equalPrevious.optionChain :=
  (previousBySecurity_compatible rfl rfl (by decide)).trans (by decide +kernel)

/-- The plan buys the call listed first, the ranking starts with the nearer one. -/
theorem equal_evaluates :
    ∃ result, costlessPipeline.evaluate equalSnapshot equalReport (some equalPrevious) none tieTime = .ok result ∧
      result.decision = .buyCall ∧ result.tradePlan.map TradePlan.securityId = some "3" ∧
      result.rankedStrikes.head?.map RankedStrike.securityId = some "1" := by
  have hconclude : (costlessPipeline.candidates equalSnapshot equalPrevious.optionChain none >>= fun cs =>
      costlessPipeline.conclude equalSnapshot equalReport cs tieTime).map (fun result =>
        (result.decision, result.tradePlan.map TradePlan.securityId,
          result.rankedStrikes.head?.map RankedStrike.securityId)) = .ok (.buyCall, some "3", some "1") := by
    decide +kernel
  obtain ⟨result, hresult, hview⟩ := Except.map_eq_ok.mp hconclude
  obtain ⟨hdecision, hview⟩ := Prod.mk.inj hview
  refine ⟨result, ?_, hdecision, (Prod.mk.inj hview).1, (Prod.mk.inj hview).2⟩
  unfold evaluate requireBoundReport
  rw [require_bind (by decide), require_bind ⟨rfl, rfl⟩, equal_previous]
  exact hresult

theorem evaluate_plans_second_leg :
    ¬∀ (p : SignalPipeline) (snapshot : AtomicSnapshot) (report : ValidationReport)
      (previousSnapshot : Option PreviousOptionSnapshot) (modeledGreeks : Option (List (String × Greeks)))
      (now : Datetime) (result : SignalPipelineResult),
      p.evaluate snapshot report previousSnapshot modeledGreeks now = .ok result → result.decision.Buys →
        PlansRanked result := by
  intro hclaim
  obtain ⟨result, hresult, hdecision, hplanned, hranked⟩ := equal_evaluates
  obtain ⟨plan, first, hplan, hfirst, -, -, hsame⟩ := hclaim _ _ _ _ _ _ _ hresult (.inl hdecision)
  rw [hplan] at hplanned
  rw [hfirst] at hranked
  exact absurd ((Option.some.inj hplanned).symm.trans (hsame.trans (Option.some.inj hranked))) (by decide)

/-- The theorem at the equal calls. -/
theorem evaluate_plansRanked_iff_equal :
    ∃ result, costlessPipeline.evaluate equalSnapshot equalReport (some equalPrevious) none tieTime = .ok result ∧
      result.decision.Buys ∧
      (PlansRanked result ↔ LeaderFirst costlessPipeline equalSnapshot (some equalPrevious) none) := by
  obtain ⟨result, hresult, hdecision, -⟩ := equal_evaluates
  exact ⟨result, hresult, .inl hdecision, evaluate_plansRanked_iff _ _ _ _ _ _ result hresult (.inl hdecision)⟩

end EqualCalls

end TecoQuant.Signal.SignalPipeline
