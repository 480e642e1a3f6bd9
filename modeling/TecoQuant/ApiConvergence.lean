import Mathlib.Data.List.Pairwise
import TecoQuant.ApiReadModel
import TecoQuant.BaseRunningMax
import TecoQuant.SignalSides

/-! Convergence of the read model. Whatever the order and the interleaving of publications and feed ticks,
each selection ends at its latest publication, the revision counts what was taken, and a reader sees one
publication at a time. -/

namespace TecoQuant.Api

open Domain Ingestion Signal

/-- A call of a writer. -/
inductive Call where
  | publish (snapshot : AtomicSnapshot) (report : ValidationReport) (analysis : Option SignalPipelineResult)
  | publishFeedTick (packet : DhanFeedPacket) (receivedAt : Option Datetime) (clock : Datetime)

section

variable (tables : CharTables)

/-- What a call returns and the store it leaves; a call that raises leaves it unchanged. -/
def perform (store : MarketReadModelStore) (call : Call) : Except Fault Bool × MarketReadModelStore :=
  let outcome := match call with
    | .publish snapshot report analysis => store.publish tables snapshot report analysis
    | .publishFeedTick packet receivedAt clock => store.publishFeedTick packet receivedAt clock
  match outcome with
  | .ok (taken, store) => (.ok taken, store)
  | .error error => (.error error, store)

/-- A store after a run of calls. -/
def runCalls (store : MarketReadModelStore) (calls : List Call) : MarketReadModelStore :=
  calls.foldl (fun store call => (perform tables store call).2) store

/-- What the calls of a run return. -/
def results : MarketReadModelStore → List Call → List (Except Fault Bool)
  | _, [] => []
  | store, call :: calls => (perform tables store call).1 :: results (perform tables store call).2 calls

/-- The publication a call offers, unless it is a feed tick or fails the checks before the lock. -/
def offer : Call → Option PublishedSnapshot
  | .publish snapshot report analysis => (publication tables snapshot report analysis).toOption
  | .publishFeedTick .. => none

def offers (calls : List Call) : List PublishedSnapshot := calls.filterMap (offer tables)

end

/-! ### What a call does -/

/-- The latest publications are filed under their keys, one under each. -/
structure Filed (store : MarketReadModelStore) : Prop where
  distinct : (store.latest.map Prod.fst).Nodup
  keyed : ∀ item ∈ store.latest, item.2.key = item.1

/-- A step that counts: the revision goes up by one, and the latest event tells of it. -/
structure Counted (store store' : MarketReadModelStore) : Prop where
  revision : store'.revision = store.revision + 1
  closed : store'.closed = store.closed
  event : ∃ event, store'.latestEvent = some event ∧ event.revision = store'.revision

/-- A publication leads those offered before it under its key. -/
def Leads (before : List PublishedSnapshot) (publication : PublishedSnapshot) : Prop :=
  RunningMax.Leads PublishedSnapshot.key PublishedSnapshot.order before publication

section

variable {tables : CharTables} {store store' : MarketReadModelStore} {taken : Bool}

/-- A published workspace is bound to its report and analysis. -/
theorem publication_eq_ok {snapshot : AtomicSnapshot} {report : ValidationReport}
    {analysis : Option SignalPipelineResult} {p : PublishedSnapshot}
    (h : publication tables snapshot report analysis = .ok p) :
    p.snapshot = snapshot ∧ p.report = report ∧ p.analysis = analysis ∧ p.Bound := by
  obtain ⟨_, -, h⟩ := Except.bind_eq_ok.mp h
  obtain ⟨_, -, h⟩ := Except.bind_eq_ok.mp h
  obtain ⟨hbound, h⟩ := Except.ite_error_eq_ok.mp h
  obtain ⟨_, hanalysis, h⟩ := Except.bind_eq_ok.mp h
  obtain ⟨key, -, h⟩ := Except.bind_eq_ok.mp h
  cases h
  obtain ⟨hid, hhash⟩ := not_or.mp hbound
  refine ⟨rfl, rfl, rfl, not_not.mp hid, not_not.mp hhash, ?_, ?_⟩
  all_goals
    rintro result (hresult : analysis = some result)
    subst hresult
    obtain ⟨hsame, hchecked⟩ := Except.ite_error_eq_ok.mp hanalysis
  · exact not_not.mp hsame
  · obtain ⟨_, -, hchecked⟩ := Except.bind_eq_ok.mp hchecked
    intro plan hplan
    by_contra hother
    exact (Except.ite_error_eq_ok.mp hchecked).1 ⟨plan, hplan, hother⟩

/-- The ways the comparison with the current publication ends. -/
theorem delayed_cases (store : MarketReadModelStore) (p : PublishedSnapshot) :
    (∃ fault, store.delayed p = .error fault) ∨
    (∃ current, store.latest.lookup p.key = some current ∧ p.order ≤ current.order ∧ store.delayed p = .ok true) ∨
    (∀ current ∈ store.latest.lookup p.key, current.order < p.order) ∧ store.delayed p = .ok false := by
  unfold MarketReadModelStore.delayed
  cases hlookup : store.latest.lookup p.key with
  | none => exact .inr (.inr ⟨by simp, rfl⟩)
  | some current =>
      dsimp only
      cases hoffered : p.orderingKey with
      | error fault => exact .inl ⟨fault, rfl⟩
      | ok key =>
          cases hkept : current.orderingKey with
          | error fault => exact .inl ⟨fault, rfl⟩
          | ok key' =>
              obtain ⟨-, rfl⟩ := PublishedSnapshot.orderingKey_eq_ok.mp hoffered
              obtain ⟨-, rfl⟩ := PublishedSnapshot.orderingKey_eq_ok.mp hkept
              by_cases hle : p.order ≤ current.order
              · exact .inr (.inl ⟨current, rfl, hle, congrArg Except.ok (decide_eq_true hle)⟩)
              · refine .inr (.inr ⟨fun other hother => ?_, congrArg Except.ok (decide_eq_false hle)⟩)
                exact Option.some.inj hother ▸ not_le.mp hle

/-- Publications that the calendar holds in UTC are compared. -/
theorem delayed_dated {p : PublishedSnapshot} (hp : p.Dated)
    (hcurrent : ∀ current ∈ store.latest.lookup p.key, current.Dated) : ∃ late, store.delayed p = .ok late := by
  unfold MarketReadModelStore.delayed
  cases hlookup : store.latest.lookup p.key with
  | none => exact ⟨false, rfl⟩
  | some current =>
      have hoffered := PublishedSnapshot.orderingKey_eq_ok.mpr ⟨hp, rfl⟩
      have hkept := PublishedSnapshot.orderingKey_eq_ok.mpr ⟨hcurrent current hlookup, rfl⟩
      exact ⟨_, Except.bind_eq_ok.mpr ⟨_, hoffered, Except.bind_eq_ok.mpr ⟨_, hkept, rfl⟩⟩⟩

/-- The ways a promotion under the lock of an open store ends. -/
theorem promote_cases (hopen : store.closed = false) (p : PublishedSnapshot) :
    (∃ fault, store.delayed p = .error fault ∧ store.promote p = .error fault) ∨
    (∃ current, store.latest.lookup p.key = some current ∧ p.order ≤ current.order ∧
      store.promote p = .ok (false, store)) ∨
    (∀ current ∈ store.latest.lookup p.key, current.order < p.order) ∧
      ∃ store', store.promote p = .ok (true, store') ∧ Counted store store' ∧
        store'.latest = Dict.assign p.key p store.latest := by
  unfold MarketReadModelStore.promote
  rw [if_neg (by simp [hopen])]
  rcases delayed_cases store p with ⟨fault, hfault⟩ | ⟨current, hcurrent, hle, hlate⟩ | ⟨hnewer, hlate⟩
  · rw [hfault]
    exact .inl ⟨fault, rfl, rfl⟩
  · rw [hlate]
    exact .inr (.inl ⟨current, hcurrent, hle, rfl⟩)
  · rw [hlate]
    exact .inr (.inr ⟨hnewer, _, rfl, ⟨rfl, rfl, _, rfl, rfl⟩, rfl⟩)

/-- The ways a merge of a tick ends; the workspaces are left alone. -/
theorem mergeTick_cases (store : MarketReadModelStore) (checked : CheckedPacket) :
    store.mergeTick checked = (false, store) ∨
      ∃ store', store.mergeTick checked = (true, store') ∧ Counted store store' ∧
        store'.latest = store.latest := by
  unfold MarketReadModelStore.mergeTick
  dsimp only
  by_cases hclosed : store.closed = true
  · exact .inl (if_pos hclosed)
  by_cases hknown : checked.packet.securityId ∈ store.knownSecurityIds
  · rw [if_neg hclosed, if_neg (not_not.mpr hknown)]
    cases MarketReadModelStore.selectedObservedAt (store.ticks.lookup checked.packet.securityId) checked with
    | none => exact .inl rfl
    | some observedAt =>
        dsimp only
        split
        · exact .inl rfl
        · exact .inr ⟨_, rfl, ⟨rfl, rfl, _, rfl, rfl⟩, rfl⟩
  · rw [if_neg hclosed, if_pos hknown]
    exact .inl rfl

theorem publishFeedTick_cases {packet : DhanFeedPacket} {receivedAt : Option Datetime} {clock : Datetime}
    (h : store.publishFeedTick packet receivedAt clock = .ok (taken, store')) :
    taken = false ∧ store' = store ∨ taken = true ∧ Counted store store' ∧ store'.latest = store.latest := by
  obtain ⟨checked, -, h⟩ := Except.bind_eq_ok.mp h
  cases checked with
  | none =>
      cases h
      exact .inl ⟨rfl, rfl⟩
  | some checked =>
      rcases mergeTick_cases store checked with hrefused | ⟨merged, hmerged, hcounted, hlatest⟩
      · cases hrefused.symm.trans (Except.ok.inj h)
        exact .inl ⟨rfl, rfl⟩
      · cases hmerged.symm.trans (Except.ok.inj h)
        exact .inr ⟨rfl, hcounted, hlatest⟩

theorem promote_counted {publication : PublishedSnapshot} (h : store.promote publication = .ok (taken, store')) :
    taken = false ∧ store' = store ∨ taken = true ∧ Counted store store' := by
  cases hclosed : store.closed with
  | true => simp [MarketReadModelStore.promote, hclosed] at h
  | false =>
      rcases promote_cases hclosed publication with ⟨_, _, hfault⟩ | ⟨_, _, _, hsame⟩ | ⟨_, counted, hnew, hcounted, _⟩
      · cases hfault.symm.trans h
      · cases hsame.symm.trans h
        exact .inl ⟨rfl, rfl⟩
      · cases hnew.symm.trans h
        exact .inr ⟨rfl, hcounted⟩

/-- A call counts and returns `True`, or leaves the store as it is. -/
theorem perform_counted (tables : CharTables) (store : MarketReadModelStore) (call : Call) :
    (perform tables store call).1 ≠ .ok true ∧ (perform tables store call).2 = store ∨
      (perform tables store call).1 = .ok true ∧ Counted store (perform tables store call).2 := by
  unfold perform
  dsimp only
  split
  · rename_i taken store' houtcome
    have hcounted : taken = false ∧ store' = store ∨ taken = true ∧ Counted store store' := by
      cases call with
      | publish snapshot report analysis =>
          obtain ⟨p, -, hpromoted⟩ := Except.bind_eq_ok.mp houtcome
          exact promote_counted hpromoted
      | publishFeedTick =>
          exact (publishFeedTick_cases houtcome).imp_right fun h => ⟨h.1, h.2.1⟩
    rcases hcounted with ⟨rfl, rfl⟩ | ⟨rfl, hcounted⟩
    · exact .inl ⟨by simp, rfl⟩
    · exact .inr ⟨rfl, hcounted⟩
  · exact .inl ⟨by simp, rfl⟩

theorem perform_closed (tables : CharTables) (store : MarketReadModelStore) (call : Call) :
    (perform tables store call).2.closed = store.closed := by
  rcases perform_counted tables store call with ⟨-, hsame⟩ | ⟨-, hcounted⟩
  · rw [hsame]
  · exact hcounted.closed

theorem runCalls_closed (tables : CharTables) (store : MarketReadModelStore) (calls : List Call) :
    (runCalls tables store calls).closed = store.closed := by
  induction calls generalizing store with
  | nil => rfl
  | cons call calls ih => exact (ih _).trans (perform_closed tables store call)

end

/-! ### Runs of calls -/

/-- An open store whose latest publications are the greatest of those offered, which the calendar holds in
UTC. -/
structure Converged (offered : List PublishedSnapshot) (store : MarketReadModelStore) : Prop where
  opened : store.closed = false
  filed : Filed store
  dated : ∀ p ∈ offered, p.Dated
  holds : RunningMax.Holds PublishedSnapshot.key PublishedSnapshot.order offered
    fun key => store.latest.lookup key

instance (before : List PublishedSnapshot) (publication : PublishedSnapshot) :
    Decidable (Leads before publication) :=
  inferInstanceAs (Decidable (∀ b ∈ before, _ → _))

section

variable {tables : CharTables} {store : MarketReadModelStore} {offered : List PublishedSnapshot}
  {call : Call} {calls before rest : List Call}

theorem Converged.start (maximum : Nat) : Converged [] (.new maximum) where
  opened := rfl
  filed := ⟨List.nodup_nil, by simp [MarketReadModelStore.new]⟩
  dated _ h := absurd h List.not_mem_nil
  holds := .nil

theorem Converged.lookup_dated (h : Converged offered store) {key : SelectionKey} :
    ∀ current ∈ store.latest.lookup key, current.Dated :=
  fun _ hcurrent => h.dated _ (h.holds.offered hcurrent).1

/-- A promotion answers whether the publication leads, and keeps the greatest. -/
theorem Converged.promote (h : Converged offered store) {p : PublishedSnapshot} (hp : p.Dated) :
    ∃ store', store.promote p = .ok (decide (Leads offered p), store') ∧ Converged (offered ++ [p]) store' ∧
      store'.revision = store.revision + if Leads offered p then 1 else 0 := by
  have hdated : ∀ q ∈ offered ++ [p], q.Dated := by
    intro q hq
    rcases List.mem_append.mp hq with hq | hq
    · exact h.dated q hq
    · exact List.mem_singleton.mp hq ▸ hp
  rcases promote_cases h.opened p with ⟨fault, hfault, -⟩ | ⟨current, hcurrent, hle, hpromoted⟩ |
    ⟨hnewer, store', hpromoted, hcounted, hlatest⟩
  · obtain ⟨late, hlate⟩ := delayed_dated hp h.lookup_dated
    cases hlate.symm.trans hfault
  · have hbehind : ¬Leads offered p := fun hleads =>
      absurd (h.holds.leads_iff.mp hleads current hcurrent) (not_lt.mpr hle)
    rw [hpromoted]
    simp only [hbehind, decide_false, if_false]
    exact ⟨store, rfl, ⟨h.opened, h.filed, hdated, h.holds.pass hbehind⟩, rfl⟩
  · have hleads : Leads offered p := h.holds.leads_iff.mpr hnewer
    rw [hpromoted]
    simp only [hleads, decide_true, if_true]
    refine ⟨store', rfl, ⟨hcounted.closed.trans h.opened, ⟨?_, fun item hitem => ?_⟩, hdated, ?_⟩,
      hcounted.revision⟩
    · rw [hlatest]
      exact Dict.assign_nodup h.filed.distinct
    · rw [hlatest] at hitem
      rcases Dict.mem_assign hitem with rfl | hitem
      · rfl
      · exact h.filed.keyed item hitem
    · refine h.holds.take hleads ?_ fun key hne => ?_
      · rw [hlatest, Dict.lookup_assign_self]
      · rw [hlatest, Dict.lookup_assign_ne hne]

/-- What one call does to a converged store. -/
theorem Converged.perform (tables : CharTables) (h : Converged offered store) (call : Call)
    (hdated : ∀ p ∈ offer tables call, p.Dated) :
    Converged (offered ++ (offer tables call).toList) (perform tables store call).2 ∧
    (∀ p ∈ offer tables call, (perform tables store call).1 = .ok (decide (Leads offered p))) ∧
    (perform tables store call).2.revision =
      store.revision + if (perform tables store call).1 = .ok true then 1 else 0 := by
  cases call with
  | publish snapshot report analysis =>
      cases hpublication : publication tables snapshot report analysis with
      | error error =>
          simp [Api.perform, MarketReadModelStore.publish, offer, hpublication, Except.toOption, bind,
            Except.bind, h]
      | ok p =>
          have hoffer : offer tables (.publish snapshot report analysis) = some p := by
            simp [offer, hpublication, Except.toOption]
          obtain ⟨store', hpromoted, hconverged, hrevision⟩ := h.promote (hdated p hoffer)
          have hperformed : Api.perform tables store (.publish snapshot report analysis) =
              (.ok (decide (Leads offered p)), store') := by
            simp [Api.perform, MarketReadModelStore.publish, hpublication, bind, Except.bind, hpromoted]
          rw [hperformed, hoffer]
          simp [hconverged, hrevision]
  | publishFeedTick packet receivedAt clock =>
      cases htick : store.publishFeedTick packet receivedAt clock with
      | error error => simp [Api.perform, offer, htick, h]
      | ok outcome =>
          obtain ⟨taken, store'⟩ := outcome
          simp only [Api.perform, offer, htick, Option.toList_none, List.append_nil]
          rcases publishFeedTick_cases htick with ⟨rfl, rfl⟩ | ⟨rfl, hcounted, hlatest⟩
          · simp [h]
          · refine ⟨⟨hcounted.closed.trans h.opened, ?_, h.dated, ?_⟩, by simp, by simp [hcounted.revision]⟩
            · exact ⟨hlatest ▸ h.filed.distinct, hlatest ▸ h.filed.keyed⟩
            · rw [hlatest]
              exact h.holds

/-- A run of calls converges, and its revision counts the calls that returned `True`. -/
theorem Converged.runCalls (tables : CharTables) (h : Converged offered store) (calls : List Call)
    (hdated : ∀ p ∈ offers tables calls, p.Dated) :
    Converged (offered ++ offers tables calls) (runCalls tables store calls) ∧
      (runCalls tables store calls).revision =
        store.revision + (results tables store calls).count (.ok true) := by
  induction calls generalizing offered store with
  | nil => simpa [Api.runCalls, results, offers] using h
  | cons call calls ih =>
      have hoffers : offers tables (call :: calls) = (offer tables call).toList ++ offers tables calls := by
        cases hoffer : offer tables call <;> simp [offers, hoffer]
      rw [hoffers] at hdated
      obtain ⟨hcall, -, hcounts⟩ := h.perform tables call fun p hp =>
        hdated p (List.mem_append_left _ (Option.mem_toList.mpr hp))
      obtain ⟨hrun, hrevision⟩ := ih hcall fun p hp => hdated p (List.mem_append_right _ hp)
      refine ⟨by rwa [hoffers, ← List.append_assoc], ?_⟩
      show (Api.runCalls tables (Api.perform tables store call).2 calls).revision = _
      rw [hrevision, hcounts, results, List.count_cons]
      simp only [beq_iff_eq]
      omega

/-- The publications a market and symbol choose from. -/
theorem Filed.mem_named (h : Filed store) {marketId symbol : String} {p : PublishedSnapshot} :
    p ∈ (store.latest.filter fun (key, _) => key.marketId = marketId ∧ key.symbol = symbol).map Prod.snd ↔
      store.latest.lookup p.key = some p ∧ p.key.marketId = marketId ∧ p.key.symbol = symbol := by
  constructor
  · intro hmem
    obtain ⟨⟨key, q⟩, hitem, hsame⟩ := List.mem_map.mp hmem
    obtain rfl : q = p := hsame
    obtain ⟨hitem, hnames⟩ := List.mem_filter.mp hitem
    have hkey : q.key = key := h.keyed _ hitem
    exact hkey ▸ ⟨Dict.lookup_of_mem h.distinct hitem, of_decide_eq_true hnames⟩
  · rintro ⟨hlookup, hnames⟩
    exact List.mem_map.mpr ⟨_, List.mem_filter.mpr ⟨Dict.mem_of_lookup hlookup, decide_eq_true hnames⟩, rfl⟩

/-- A selection chooses from publications filed under their own keys, with the names asked for. -/
theorem Filed.mem_candidates (h : Filed store) {marketId symbol : String} {expiry : Option String}
    {p : PublishedSnapshot} (hp : p ∈ store.candidates marketId symbol expiry) :
    store.latest.lookup p.key = some p ∧ p.key.marketId = marketId ∧ p.key.symbol = symbol := by
  cases expiry with
  | none => exact h.mem_named.mp hp
  | some expiry => exact h.mem_named.mp (List.mem_filter.mp hp).1

/-- A selection resolves when the calendar holds its candidates in UTC. -/
theorem resolve_eq_ok {marketId symbol : String} {expiry : Option String} {outcome : Option PublishedSnapshot} :
    store.resolve marketId symbol expiry = .ok outcome ↔
      (∀ p ∈ store.candidates marketId symbol expiry, p.Dated) ∧
        (store.candidates marketId symbol expiry).argmax PublishedSnapshot.order = outcome := by
  unfold MarketReadModelStore.resolve
  simp only [Except.bind_eq_ok, pure, Except.pure, Except.ok.injEq]
  constructor
  · rintro ⟨keys, hkeys, houtcome⟩
    refine ⟨fun p hp => ?_, houtcome⟩
    obtain ⟨key, -, hkey⟩ := Except.mapM_all hkeys hp
    exact (PublishedSnapshot.orderingKey_eq_ok.mp hkey).1
  · rintro ⟨hdated, houtcome⟩
    exact ⟨_, Except.mapM_ok fun p hp => PublishedSnapshot.orderingKey_eq_ok.mpr ⟨hdated p hp, rfl⟩, houtcome⟩

/-- A reader sees a publication that is filed under its own key, with the names asked for. -/
theorem Filed.resolve (h : Filed store) {marketId symbol : String} {expiry : Option String}
    {p : PublishedSnapshot} (hp : store.resolve marketId symbol expiry = .ok (some p)) :
    store.latest.lookup p.key = some p ∧ p.key.marketId = marketId ∧ p.key.symbol = symbol :=
  h.mem_candidates (List.argmax_mem (resolve_eq_ok.mp hp).2)

end

/-! ### Convergence -/

/-- The letters and digits of ASCII. -/
def asciiTables : CharTables := ⟨PyText.upperChar, Char.isAlphanum⟩

/-- What a snapshot with aware timestamps and a named selection is published as, with a report and an analysis
of its own. -/
def published (tables : CharTables) (snapshot : AtomicSnapshot) (report : ValidationReport)
    (analysis : Option SignalPipelineResult) : PublishedSnapshot where
  key := ⟨marketId tables snapshot, tables.normalize (selectionSymbol snapshot),
    snapshot.contract.optionExpiry.isoformat⟩
  snapshot := snapshot
  report := report
  analysis := analysis

theorem publication_published (tables : CharTables) (snapshot : AtomicSnapshot) (report : ValidationReport)
    (analysis : Option SignalPipelineResult) (hsource : snapshot.sourceTimestamp.Aware)
    (hreceived : snapshot.receivedAt.Aware)
    (hid : report.snapshotId = some snapshot.snapshotId)
    (hhash : report.snapshotHash = some (contentHash snapshot))
    (hanalysis : publication.checkAnalysis snapshot analysis = .ok ())
    (hnamed : ¬PyText.Blank (selectionSymbol snapshot)) :
    publication tables snapshot report analysis = .ok (published tables snapshot report analysis) := by
  simp [published, publication, requireAware, selectionKey, requiredIdentifier, hsource, hreceived, hid, hhash,
    hanalysis, hnamed, bind, Except.bind, pure, Except.pure]

theorem mem_offer {tables : CharTables} {snapshot : AtomicSnapshot} {report : ValidationReport}
    {analysis : Option SignalPipelineResult}
    {p : PublishedSnapshot} (h : publication tables snapshot report analysis = .ok p) :
    p ∈ offer tables (.publish snapshot report analysis) := by
  simp [offer, h, Except.toOption]

def sampleCall : Call := .publish SignalPipeline.tieSnapshot SignalPipeline.tieReport none

def samplePublication : PublishedSnapshot :=
  published asciiTables SignalPipeline.tieSnapshot SignalPipeline.tieReport none

theorem tieTime_aware : SignalPipeline.tieTime.Aware := by decide

theorem tieSnapshot_named : ¬PyText.Blank (selectionSymbol SignalPipeline.tieSnapshot) := by
  have hsymbol : selectionSymbol SignalPipeline.tieSnapshot = "NIFTY 13" := by
    rw [selectionSymbol, SignalPipeline.tieSnapshot]
    simp only [List.lookup_cons]
    rfl
  rw [hsymbol]
  decide

theorem offer_sample : samplePublication ∈ offer asciiTables sampleCall := by
  have hsource : SignalPipeline.tieSnapshot.sourceTimestamp.Aware := tieTime_aware
  have hreceived : SignalPipeline.tieSnapshot.receivedAt.Aware := tieTime_aware
  have hid : SignalPipeline.tieReport.snapshotId = some SignalPipeline.tieSnapshot.snapshotId := by
    rw [SignalPipeline.tieReport]
  have hhash : SignalPipeline.tieReport.snapshotHash = some (contentHash SignalPipeline.tieSnapshot) := by
    rw [SignalPipeline.tieReport]
  exact mem_offer (publication_published asciiTables _ _ none hsource hreceived hid hhash rfl tieSnapshot_named)

/-- The first publication of a store is taken. -/
theorem perform_first (tables : CharTables) (maximum : Nat) {call : Call} {p : PublishedSnapshot}
    (h : p ∈ offer tables call) (hdated : p.Dated) : (perform tables (.new maximum) call).2.revision = 1 := by
  obtain ⟨-, htaken, hrevision⟩ := (Converged.start maximum).perform tables call fun q hq =>
    Option.some.inj (h.symm.trans hq) ▸ hdated
  have hleads : Leads [] p := fun _ h => nomatch h
  rw [hrevision, htaken p h]
  simp [hleads, MarketReadModelStore.new]

theorem dated_of_snapshot {p : PublishedSnapshot} {snapshot : AtomicSnapshot} (h : p.snapshot = snapshot)
    (hsource : snapshot.sourceTimestamp = SignalPipeline.tieTime)
    (hreceived : snapshot.receivedAt = SignalPipeline.tieTime) : p.Dated := by
  have htie : SignalPipeline.tieTime.toUtc.InCalendar := by decide
  rw [PublishedSnapshot.Dated, h, hsource, hreceived]
  exact ⟨htie, htie⟩

theorem samplePublication_dated : samplePublication.Dated := dated_of_snapshot rfl rfl rfl

end TecoQuant.Api
