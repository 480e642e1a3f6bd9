import TecoQuant.ApiConvergence
import TecoQuant.ApiReadStatus
import TecoQuant.BaseRun

/-! The cache of feed ticks over a run of the store: what it admits, what a reader gets of it, and when its
bound keeps a published instrument out. -/

namespace TecoQuant.Api

open Domain Strategy Signal

/-! ### A read -/

def requiredSecurityId (text : String) : Except Fault String :=
  if PyText.Blank text then .error (.valueError "security_id is required")
  else .ok (String.ofList (PyText.stripChars text.toList))

/-- The exact value of a finite number. -/
def FieldValue.number : FieldValue → ℚ
  | .int n => n
  | .float x => x.toRat
  | .bool _ => 0

def positiveNumber (value : Option FieldValue) : Except Fault Bool :=
  match value with
  | none => .ok false
  | some value => do
      match ← value.finite with
      | none => return false
      | some _ => return decide (0 < value.number)

def nonNegativeNumber (value : Option FieldValue) : Except Fault Bool :=
  match value with
  | none => .ok false
  | some value => do
      match ← value.finite with
      | none => return false
      | some _ => return decide (0 ≤ value.number)

def validTopOfBook (bid ask : Option FieldValue) : Except Fault Bool := do
  if !(← positiveNumber bid) then return false
  else if !(← positiveNumber ask) then return false
  else return decide (∀ b ∈ bid, ∀ a ∈ ask, b.number ≤ a.number)

/-- The payload of `latest_feed_tick`. -/
structure FeedTickView where
  revision : Nat
  securityId : String
  exchangeSegmentCode : Int
  responseCode : Int
  receivedAt : String
  observedAt : String
  ageSeconds : Binary64
  receivedAgeSeconds : Binary64
  observedAgeSeconds : Binary64
  fresh : Bool
  fields : List (String × FieldValue)
  depth : List DhanDepthLevel
  bestBid : Option FieldValue
  bestAsk : Option FieldValue
  completeQuote : Bool
  actionable : Bool
  blockers : List String

/-- What is complete and positive enough to quote. -/
def completeQuote (fresh : Bool) (fields : List (String × FieldValue)) (bestBid bestAsk : Option FieldValue) :
    Except Fault Bool := do
  if !fresh then return false
  else if !(← positiveNumber (fields.lookup "last_price")) then return false
  else if !(← nonNegativeNumber (fields.lookup "volume")) then return false
  else if !(← nonNegativeNumber (fields.lookup "open_interest")) then return false
  else validTopOfBook bestBid bestAsk

def viewTick (strategy : StrategyConfig) (tick : FeedTick) (checkTime : Datetime) : Except Fault FeedTickView := do
  let receivedAge := elapsedSeconds checkTime tick.receivedAt
  let observedAge := elapsedSeconds checkTime tick.observedAt
  let fresh := decide (∀ age ∈ [receivedAge, observedAge],
    strategy.futureClockSkewSeconds.neg ≤ age ∧ age ≤ strategy.liveMaxAgeSeconds)
  let bestBid := tick.depth.head?.map DhanDepthLevel.bidPrice
  let bestAsk := tick.depth.head?.map DhanDepthLevel.askPrice
  let completeQuote ← completeQuote fresh tick.fields bestBid bestAsk
  return {
    revision := tick.revision
    securityId := tick.securityId
    exchangeSegmentCode := tick.exchangeSegmentCode
    responseCode := tick.responseCode
    receivedAt := tick.receivedAt.isoformat
    observedAt := tick.observedAt.isoformat
    ageSeconds := Binary64.max receivedAge observedAge
    receivedAgeSeconds := receivedAge
    observedAgeSeconds := observedAge
    fresh, bestBid, bestAsk, completeQuote
    fields := tick.fields
    depth := tick.depth
    actionable := false
    blockers := ["ATOMIC_SNAPSHOT_REVALIDATION_REQUIRED"] }

def MarketReadModelStore.latestFeedTick (strategy : StrategyConfig) (store : MarketReadModelStore) (securityId : String)
    (now : Option Datetime) (clock : Datetime) : Except Fault (Option FeedTickView) := do
  let normalized ← requiredSecurityId securityId
  let checkTime ← checkTime now clock
  match store.ticks.lookup normalized with
  | none => return none
  | some tick => some <$> viewTick strategy tick checkTime

/-! ### Admission -/

namespace MarketReadModelStore

/-- The tick a packet leaves. -/
def mergedTick (store : MarketReadModelStore) (checked : CheckedPacket) (observedAt : Datetime) : FeedTick :=
  let current := store.ticks.lookup checked.packet.securityId
  { securityId := checked.packet.securityId
    exchangeSegmentCode := checked.packet.exchangeSegmentCode
    responseCode := checked.packet.responseCode
    receivedAt := checked.checkTime
    observedAt := observedAt
    fields := mergeFields current checked.packet
    depth := if checked.depth = [] then (current.map FeedTick.depth).getD [] else checked.depth
    revision := store.revision + 1 }

/-- The checks under the lock let the packet in, as of a moment. -/
structure Admits (store : MarketReadModelStore) (checked : CheckedPacket) (observedAt : Datetime) : Prop where
  opened : store.closed = false
  known : checked.packet.securityId ∈ store.knownSecurityIds
  selected : selectedObservedAt (store.ticks.lookup checked.packet.securityId) checked = some observedAt
  room : (∃ tick, store.ticks.lookup checked.packet.securityId = some tick) ∨
    store.ticks.length < store.maximumTickInstruments

end MarketReadModelStore

/-- A step that leaves everything but the ticks and the count. -/
structure Ticked (store store' : MarketReadModelStore) (ticks : List (String × FeedTick)) : Prop where
  ticks : store'.ticks = ticks
  latest : store'.latest = store.latest
  maximum : store'.maximumTickInstruments = store.maximumTickInstruments
  closed : store'.closed = store.closed

section

variable {tables : CharTables} {store store' : MarketReadModelStore} {checked : CheckedPacket} {observedAt : Datetime}

theorem mergeTick_admits (h : store.Admits checked observedAt) :
    ∃ store', store.mergeTick checked = (true, store') ∧
      Ticked store store' (Dict.assign checked.packet.securityId (store.mergedTick checked observedAt) store.ticks) := by
  have hroom : ¬(store.ticks.lookup checked.packet.securityId = none ∧
      store.maximumTickInstruments ≤ store.ticks.length) := by
    rintro ⟨hnone, hfull⟩
    rcases h.room with ⟨tick, hsome⟩ | hroom
    · cases hnone.symm.trans hsome
    · omega
  unfold MarketReadModelStore.mergeTick
  dsimp only
  rw [if_neg (by simp [h.opened]), if_neg (not_not.mpr h.known), h.selected]
  dsimp only
  rw [if_neg hroom]
  exact ⟨_, rfl, rfl, rfl, rfl, rfl⟩

/-- What is merged was let in. -/
theorem admits_of_mergeTick (h : store.mergeTick checked = (true, store')) :
    ∃ observedAt, store.Admits checked observedAt := by
  unfold MarketReadModelStore.mergeTick at h
  dsimp only at h
  split at h
  · cases h
  · rename_i hopen
    split at h
    · cases h
    · rename_i hknown
      split at h
      · cases h
      · rename_i observedAt hselected
        split at h
        · cases h
        · rename_i hroom
          refine ⟨observedAt, by simpa using hopen, not_not.mp hknown, hselected, ?_⟩
          rcases not_and_or.mp hroom with hcached | hroom
          · exact .inl (Option.ne_none_iff_exists'.mp hcached)
          · exact .inr (by omega)

/-- A publication leaves the ticks and their bound alone. -/
theorem promote_ticks {taken : Bool} {p : PublishedSnapshot} (h : store.promote p = .ok (taken, store')) :
    store'.ticks = store.ticks ∧ store'.maximumTickInstruments = store.maximumTickInstruments := by
  unfold MarketReadModelStore.promote at h
  obtain ⟨-, h⟩ := Except.ite_error_eq_ok.mp h
  obtain ⟨late, -, h⟩ := Except.bind_eq_ok.mp h
  cases late <;> cases h <;> exact ⟨rfl, rfl⟩

theorem perform_tick (tables : CharTables) (store : MarketReadModelStore) {packet : DhanFeedPacket}
    {receivedAt : Option Datetime} {clock : Datetime} (h : checkPacket packet receivedAt clock = .ok (some checked)) :
    perform tables store (.publishFeedTick packet receivedAt clock) =
      (.ok (store.mergeTick checked).1, (store.mergeTick checked).2) := by
  simp [perform, MarketReadModelStore.publishFeedTick, h, bind, Except.bind, pure, Except.pure]

/-- The ways a tick ends: it raises, it is refused, or it is let in and merged. -/
theorem perform_tick_cases (tables : CharTables) (store : MarketReadModelStore) (packet : DhanFeedPacket)
    (receivedAt : Option Datetime) (clock : Datetime) :
    ((perform tables store (.publishFeedTick packet receivedAt clock)).2 = store ∧
      (perform tables store (.publishFeedTick packet receivedAt clock)).1 ≠ .ok true) ∨
    ∃ checked observedAt, checkPacket packet receivedAt clock = .ok (some checked) ∧
      store.Admits checked observedAt ∧
      (perform tables store (.publishFeedTick packet receivedAt clock)).1 = .ok true ∧
      Ticked store (perform tables store (.publishFeedTick packet receivedAt clock)).2
        (Dict.assign checked.packet.securityId (store.mergedTick checked observedAt) store.ticks) := by
  cases hchecked : checkPacket packet receivedAt clock with
  | error fault => simp [perform, MarketReadModelStore.publishFeedTick, hchecked, bind, Except.bind]
  | ok outcome =>
      cases outcome with
      | none =>
          simp [perform, MarketReadModelStore.publishFeedTick, hchecked, bind, Except.bind, pure, Except.pure]
      | some checked =>
          rw [perform_tick tables store hchecked]
          rcases mergeTick_cases store checked with hrefused | ⟨merged, hmerged, -⟩
          · rw [hrefused]
            exact .inl ⟨rfl, by simp⟩
          · obtain ⟨observedAt, hadmits⟩ := admits_of_mergeTick hmerged
            obtain ⟨store', hsame, hticked⟩ := mergeTick_admits hadmits
            rw [hsame]
            exact .inr ⟨checked, observedAt, rfl, hadmits, rfl, hticked⟩

/-- A publication leaves the ticks and their bound alone, whatever it returns. -/
theorem perform_publish_ticks (tables : CharTables) (store : MarketReadModelStore) (snapshot : AtomicSnapshot)
    (report : Ingestion.ValidationReport) (analysis : Option SignalPipelineResult) :
    (perform tables store (.publish snapshot report analysis)).2.ticks = store.ticks ∧
      (perform tables store (.publish snapshot report analysis)).2.maximumTickInstruments =
        store.maximumTickInstruments := by
  unfold perform
  dsimp only
  split
  · rename_i taken store' houtcome
    obtain ⟨p, -, hpromoted⟩ := Except.bind_eq_ok.mp houtcome
    exact promote_ticks hpromoted
  · exact ⟨rfl, rfl⟩

theorem perform_maximum (tables : CharTables) (store : MarketReadModelStore) (call : Call) :
    (perform tables store call).2.maximumTickInstruments = store.maximumTickInstruments := by
  cases call with
  | publish snapshot report analysis => exact (perform_publish_ticks tables store snapshot report analysis).2
  | publishFeedTick packet receivedAt clock =>
      rcases perform_tick_cases tables store packet receivedAt clock with ⟨hsame, -⟩ | ⟨_, _, -, -, -, hticked⟩
      · rw [hsame]
      · exact hticked.maximum

theorem runCalls_maximum (tables : CharTables) (maximum : Nat) (calls : List Call) :
    (runCalls tables (.new maximum) calls).maximumTickInstruments = maximum :=
  Run.invariant_of_forall (fun store : MarketReadModelStore => store.maximumTickInstruments = maximum) rfl
    fun store call h => (perform_maximum tables store call).trans h

end

/-! ### The bound -/

/-- A primary packet whose fields and levels are valid, with a trade time. -/
structure DhanFeedPacket.ValidPrimary (packet : DhanFeedPacket) : Prop where
  code : packet.responseCode ∈ [2, 4, 8]
  identified : packet.securityId ≠ ""
  fields : rejected (packet.fields.map Prod.snd) = .ok false
  traded : ∃ time, feedObservedAt packet = .ok (some time)
  depth : ∃ levels, packet.depth.mapM feedDepthPayload = .ok levels

theorem checkPacket_validPrimary {packet : DhanFeedPacket} {receivedAt : Option Datetime} {clock : Datetime}
    (h : packet.ValidPrimary) (haware : (receivedAt.getD clock).Aware) :
    ∃ levels, packet.depth.mapM feedDepthPayload = .ok levels ∧
      checkPacket packet receivedAt clock = .ok (some ⟨packet, receivedAt.getD clock, true, levels⟩) := by
  obtain ⟨time, htime⟩ := h.traded
  obtain ⟨levels, hlevels⟩ := h.depth
  have hrefused : ¬(packet.responseCode ∈ [7, 50] ∨ packet.securityId = "") := by
    have hcode := h.code
    have hid := h.identified
    simp only [List.mem_cons, List.not_mem_nil, or_false] at hcode ⊢
    rintro ((hstatus | hstatus) | hempty)
    · omega
    · omega
    · exact hid hempty
  refine ⟨levels, hlevels, ?_⟩
  unfold checkPacket
  rw [if_neg hrefused, h.fields]
  simp [bind, Except.bind, checkTime, requireAware, haware, h.code, htime, hlevels, pure, Except.pure, Functor.map,
    Except.map]

/-- The security ids of the contract of a publication. -/
def PublishedSnapshot.securityIds (p : PublishedSnapshot) : List String :=
  let contract := p.snapshot.contract
  contract.underlying.securityId :: (contract.futures.map (·.instrument.securityId)).toList ++
    contract.optionContracts.map (·.instrument.securityId)

section

variable {tables : CharTables} {store : MarketReadModelStore} {calls : List Call}

/-- What a call files is what it offers. -/
theorem perform_latest {call : Call} {item : SelectionKey × PublishedSnapshot}
    (h : item ∈ (perform tables store call).2.latest) : item ∈ store.latest ∨ item.2 ∈ offer tables call := by
  cases call with
  | publishFeedTick packet receivedAt clock =>
      rcases perform_tick_cases tables store packet receivedAt clock with ⟨hsame, -⟩ | ⟨_, _, -, -, -, hticked⟩
      · rw [hsame] at h
        exact .inl h
      · rw [hticked.latest] at h
        exact .inl h
  | publish snapshot report analysis =>
      unfold perform at h
      dsimp only at h
      split at h
      · rename_i taken store' houtcome
        obtain ⟨p, hpublication, hpromoted⟩ := Except.bind_eq_ok.mp houtcome
        unfold MarketReadModelStore.promote at hpromoted
        obtain ⟨-, hpromoted⟩ := Except.ite_error_eq_ok.mp hpromoted
        obtain ⟨late, -, hpromoted⟩ := Except.bind_eq_ok.mp hpromoted
        cases late <;> cases hpromoted
        · rcases Dict.mem_assign h with rfl | hold
          · exact .inr (mem_offer hpublication)
          · exact .inl hold
        · exact .inl h
      · exact .inl h

/-- Published and cached ids are ids of the contracts offered, and each id is cached once. -/
structure Listed (offered : List PublishedSnapshot) (store : MarketReadModelStore) : Prop where
  latest : ∀ item ∈ store.latest, item.2 ∈ offered
  distinct : (store.ticks.map Prod.fst).Nodup
  cached : ∀ item ∈ store.ticks, item.1 ∈ offered.flatMap PublishedSnapshot.securityIds

theorem Listed.known {offered : List PublishedSnapshot} (h : Listed offered store) {securityId : String}
    (hknown : securityId ∈ store.knownSecurityIds) : securityId ∈ offered.flatMap PublishedSnapshot.securityIds := by
  obtain ⟨item, hitem, hid⟩ := List.mem_flatMap.mp hknown
  exact List.mem_flatMap.mpr ⟨item.2, h.latest item hitem, hid⟩

theorem runCalls_listed (tables : CharTables) (maximum : Nat) (calls : List Call) :
    Listed (offers tables calls) (runCalls tables (.new maximum) calls) := by
  refine Run.invariant (Listed (offers tables calls)) ⟨?_, ?_, ?_⟩ (fun before call rest hsplit h => ?_) calls []
    (List.append_nil calls).symm
  · simp [MarketReadModelStore.new]
  · simp [MarketReadModelStore.new]
  · simp [MarketReadModelStore.new]
  have hlatest : ∀ item ∈ (perform tables (runCalls tables (.new maximum) before) call).2.latest,
      item.2 ∈ offers tables calls := by
    intro item hitem
    rcases perform_latest hitem with hold | hnew
    · exact h.latest item hold
    · exact List.mem_filterMap.mpr ⟨call, by simp [hsplit], hnew⟩
  cases call with
  | publish snapshot report analysis =>
      have hticks := (perform_publish_ticks tables (runCalls tables (.new maximum) before) snapshot report analysis).1
      refine ⟨hlatest, ?_, ?_⟩
      · show ((perform tables (runCalls tables (.new maximum) before) _).2.ticks.map Prod.fst).Nodup
        rw [hticks]
        exact h.distinct
      · show ∀ item ∈ (perform tables (runCalls tables (.new maximum) before) _).2.ticks, _
        rw [hticks]
        exact h.cached
  | publishFeedTick packet receivedAt clock =>
      rcases perform_tick_cases tables (runCalls tables (.new maximum) before) packet receivedAt clock with
        ⟨hsame, -⟩ | ⟨checked, _, -, hadmits, -, hticked⟩
      · show Listed _ (perform tables (runCalls tables (.new maximum) before) _).2
        rw [hsame]
        exact h
      · refine ⟨hlatest, ?_, ?_⟩
        · show ((perform tables (runCalls tables (.new maximum) before) _).2.ticks.map Prod.fst).Nodup
          rw [hticked.ticks]
          exact Dict.assign_nodup h.distinct
        · show ∀ item ∈ (perform tables (runCalls tables (.new maximum) before) _).2.ticks, _
          rw [hticked.ticks]
          intro item hitem
          rcases Dict.mem_assign hitem with rfl | hold
          · exact h.known hadmits.known
          · exact h.cached item hold

end

/-- A valid primary packet of a published instrument, later than what is cached for it, is accepted exactly
when the instrument is cached already or the cache has room; so always in a run whose contracts name no more
instruments than the bound. -/
theorem publishFeedTick_accepts_iff (tables : CharTables) (maximum : Nat) (calls : List Call)
    (packet : DhanFeedPacket) (receivedAt : Option Datetime) (clock : Datetime) (hvalid : packet.ValidPrimary)
    (haware : (receivedAt.getD clock).Aware)
    (hknown : packet.securityId ∈ (runCalls tables (.new maximum) calls).knownSecurityIds)
    (hlater : ∀ tick ∈ (runCalls tables (.new maximum) calls).ticks.lookup packet.securityId,
      tick.observedAt.instant < (receivedAt.getD clock).instant) :
    ((perform tables (runCalls tables (.new maximum) calls) (.publishFeedTick packet receivedAt clock)).1 = .ok true ↔
      (∃ tick, (runCalls tables (.new maximum) calls).ticks.lookup packet.securityId = some tick) ∨
        (runCalls tables (.new maximum) calls).ticks.length < maximum) ∧
    (((offers tables calls).flatMap PublishedSnapshot.securityIds).dedup.length ≤ maximum →
      (perform tables (runCalls tables (.new maximum) calls) (.publishFeedTick packet receivedAt clock)).1 =
        .ok true) := by
  obtain ⟨levels, -, hchecked⟩ := checkPacket_validPrimary hvalid haware
  have hopen := runCalls_closed tables (.new maximum) calls
  have hmaximum := runCalls_maximum tables maximum calls
  have hlisted := runCalls_listed tables maximum calls
  generalize runCalls tables (.new maximum) calls = store at *
  have hiff : (perform tables store (.publishFeedTick packet receivedAt clock)).1 = .ok true ↔
      (∃ tick, store.ticks.lookup packet.securityId = some tick) ∨ store.ticks.length < maximum := by
    rw [perform_tick tables store hchecked]
    constructor
    · intro htaken
      obtain ⟨observedAt, hadmits⟩ := admits_of_mergeTick (Prod.ext (Except.ok.inj htaken) rfl)
      exact hmaximum ▸ hadmits.room
    · intro hroom
      have hselected : MarketReadModelStore.selectedObservedAt (store.ticks.lookup packet.securityId)
          ⟨packet, receivedAt.getD clock, true, levels⟩ = some (receivedAt.getD clock) := by
        unfold MarketReadModelStore.selectedObservedAt
        rw [if_pos rfl, if_neg]
        rintro ⟨tick, htick, hle⟩
        exact absurd (hlater tick htick) (not_lt.mpr hle)
      obtain ⟨store', hmerged, -⟩ := mergeTick_admits ⟨hopen, hknown, hselected, hmaximum ▸ hroom⟩
      rw [hmerged]
  refine ⟨hiff, fun hbound => hiff.mpr ?_⟩
  -- The cached ids and a new one are among the ids of the contracts.
  by_contra hlocked
  obtain ⟨hnew, hfull⟩ := not_or.mp hlocked
  have hfresh : packet.securityId ∉ store.ticks.map Prod.fst := by
    intro hmem
    obtain ⟨⟨_, tick⟩, hitem, rfl⟩ := List.mem_map.mp hmem
    exact hnew ⟨tick, Dict.lookup_of_mem hlisted.distinct hitem⟩
  have hsubset : packet.securityId :: store.ticks.map Prod.fst ⊆
      ((offers tables calls).flatMap PublishedSnapshot.securityIds).dedup := by
    intro id hid
    rw [List.mem_dedup]
    rcases List.mem_cons.mp hid with rfl | hid
    · exact hlisted.known hknown
    · obtain ⟨item, hitem, rfl⟩ := List.mem_map.mp hid
      exact hlisted.cached item hitem
  have hlength := ((List.nodup_cons.mpr ⟨hfresh, hlisted.distinct⟩).subperm hsubset).length_le
  rw [List.length_cons, List.length_map] at hlength
  omega

/-! ### A re-centred contract -/

/-- A publication that leads is filed, and the rest stays. -/
theorem perform_publish {tables : CharTables} {store : MarketReadModelStore} {snapshot : AtomicSnapshot}
    {report : Ingestion.ValidationReport} {analysis : Option SignalPipelineResult} {p : PublishedSnapshot}
    (hpublication : publication tables snapshot report analysis = .ok p) (hopen : store.closed = false)
    (hdated : p.Dated)
    (hnewer : ∀ current ∈ store.latest.lookup p.key, current.Dated ∧ current.order < p.order) :
    let store' := (perform tables store (.publish snapshot report analysis)).2
    store'.latest = Dict.assign p.key p store.latest ∧ store'.ticks = store.ticks ∧ store'.closed = false ∧
      store'.maximumTickInstruments = store.maximumTickInstruments := by
  rcases promote_cases hopen p with ⟨fault, hfault, -⟩ | ⟨current, hcurrent, hle, -⟩ |
    ⟨-, store', hpromoted, hcounted, hlatest⟩
  · obtain ⟨late, hlate⟩ := delayed_dated hdated fun current hcurrent => (hnewer current hcurrent).1
    cases hlate.symm.trans hfault
  · exact absurd (hnewer current hcurrent).2 (not_lt.mpr hle)
  · obtain ⟨hticks, hmaximum⟩ := promote_ticks hpromoted
    have hperform : perform tables store (.publish snapshot report analysis) = (.ok true, store') := by
      simp [perform, MarketReadModelStore.publish, hpublication, bind, Except.bind, hpromoted]
    rw [hperform]
    exact ⟨hlatest, hticks, hcounted.closed.trans hopen, hmaximum⟩

/-- A contract of one option. -/
def legContract (securityId : String) : ContractSpec := { SignalPipeline.tieContract with
  optionContracts := [SignalPipeline.tieRecord securityId .call] }

def legSnapshot (sequence : Int) (securityId : String) : AtomicSnapshot := { SignalPipeline.tieSnapshot with
  sequence
  contract := legContract securityId
  metadata := [("normalized_component_hashes",
    stringDict (normalizedComponentHashes (legContract securityId) SignalPipeline.tieMarket SignalPipeline.tieTechnicals
      SignalPipeline.tieContext SignalPipeline.tieChain))]
  hashed := rfl }

def legReport (sequence : Int) (securityId : String) : Ingestion.ValidationReport :=
  ⟨[], (legSnapshot sequence securityId).snapshotId, contentHash (legSnapshot sequence securityId)⟩

def legPublication (sequence : Int) (securityId : String) : PublishedSnapshot :=
  published asciiTables (legSnapshot sequence securityId) (legReport sequence securityId) none

def tickPacket (exchangeSegmentCode : Int) (securityId : String) : DhanFeedPacket where
  responseCode := 2
  exchangeSegmentCode := exchangeSegmentCode
  securityId := securityId
  fields := [("last_price", .int 100), ("last_trade_epoch", .int 1)]
  depth := []

/-- The underlying and the first option tick; then the contract moves to another option. -/
def recentredCalls : List Call := [
  .publish (legSnapshot 2 "1") (legReport 2 "1") none,
  .publishFeedTick (tickPacket 2 "13") none SignalPipeline.tieTime,
  .publishFeedTick (tickPacket 2 "1") none SignalPipeline.tieTime,
  .publish (legSnapshot 3 "3") (legReport 3 "3") none]

theorem publication_leg (sequence : Int) (securityId : String) :
    publication asciiTables (legSnapshot sequence securityId) (legReport sequence securityId) none =
      .ok (legPublication sequence securityId) := by
  have hsource : (legSnapshot sequence securityId).sourceTimestamp.Aware := tieTime_aware
  have hreceived : (legSnapshot sequence securityId).receivedAt.Aware := tieTime_aware
  have hid : (legReport sequence securityId).snapshotId = some (legSnapshot sequence securityId).snapshotId := by
    rw [legReport]
  have hhash : (legReport sequence securityId).snapshotHash = some (contentHash (legSnapshot sequence securityId)) := by
    rw [legReport]
  have hnamed : ¬PyText.Blank (selectionSymbol (legSnapshot sequence securityId)) := by
    have hsame : selectionSymbol (legSnapshot sequence securityId) = selectionSymbol SignalPipeline.tieSnapshot := by
      unfold selectionSymbol legSnapshot
      rfl
    rw [hsame]
    exact tieSnapshot_named
  exact publication_published asciiTables _ _ none hsource hreceived hid hhash rfl hnamed

theorem tickPacket_valid (exchangeSegmentCode : Int) {securityId : String} (h : securityId ≠ "") :
    (tickPacket exchangeSegmentCode securityId).ValidPrimary where
  code := List.mem_cons_self
  identified := h
  fields := by
    show rejected [.int 100, .int 1] = .ok false
    decide +kernel
  traded := by
    have hsame : feedObservedAt (tickPacket exchangeSegmentCode securityId) = feedObservedAt (tickPacket 2 "13") := rfl
    have htime : feedObservedAt (tickPacket 2 "13") = .ok (some (.utc 1000000)) := by decide +kernel
    exact ⟨_, hsame.trans htime⟩
  depth := ⟨[], rfl⟩

/-- The tick of a packet for a known instrument that the cache has not seen. -/
theorem perform_tick_new (store : MarketReadModelStore) (exchangeSegmentCode : Int) {securityId : String}
    (hid : securityId ≠ "") (hopen : store.closed = false) (hknown : securityId ∈ store.knownSecurityIds)
    (hnew : store.ticks.lookup securityId = none) (hroom : store.ticks.length < store.maximumTickInstruments) :
    ∃ tick : FeedTick, tick.exchangeSegmentCode = exchangeSegmentCode ∧
      Ticked store (perform asciiTables store
        (.publishFeedTick (tickPacket exchangeSegmentCode securityId) none SignalPipeline.tieTime)).2
        (Dict.assign securityId tick store.ticks) := by
  obtain ⟨levels, -, hchecked⟩ := checkPacket_validPrimary (tickPacket_valid exchangeSegmentCode hid)
    (show ((none : Option Datetime).getD SignalPipeline.tieTime).Aware from tieTime_aware)
  rw [Option.getD_none] at hchecked
  have hselected : MarketReadModelStore.selectedObservedAt (store.ticks.lookup securityId)
      ⟨tickPacket exchangeSegmentCode securityId, SignalPipeline.tieTime, true, levels⟩ = some SignalPipeline.tieTime := by
    rw [hnew]
    rfl
  obtain ⟨store', hmerged, hticked⟩ := mergeTick_admits ⟨hopen, hknown, hselected, .inr hroom⟩
  rw [perform_tick asciiTables store hchecked, hmerged]
  exact ⟨_, rfl, hticked⟩

theorem legPublication_dated (sequence : Int) (securityId : String) : (legPublication sequence securityId).Dated :=
  dated_of_snapshot rfl rfl rfl

theorem legPublication_lt : (legPublication 2 "1").order < (legPublication 3 "3").order := by
  have hfirst : (legSnapshot 2 "1").sequence = 2 := rfl
  have hnext : (legSnapshot 3 "3").sequence = 3 := rfl
  have hsource : (legSnapshot 2 "1").sourceTimestamp = (legSnapshot 3 "3").sourceTimestamp := rfl
  simp [legPublication, published, PublishedSnapshot.order, Prod.Lex.toLex_lt_toLex, hfirst, hnext, hsource]

theorem legPublication_key : (legPublication 3 "3").key = (legPublication 2 "1").key := by
  have hmarket : marketId asciiTables (legSnapshot 3 "3") = marketId asciiTables (legSnapshot 2 "1") := by
    unfold marketId legSnapshot
    rfl
  have hsymbol : selectionSymbol (legSnapshot 3 "3") = selectionSymbol (legSnapshot 2 "1") := by
    unfold selectionSymbol legSnapshot
    rfl
  simp only [legPublication, published, hmarket, hsymbol]
  rfl

theorem knownSecurityIds_single {store : MarketReadModelStore} {key : SelectionKey} {p : PublishedSnapshot}
    (h : store.latest = [(key, p)]) : store.knownSecurityIds = p.securityIds := by
  show store.latest.flatMap (fun item => item.2.securityIds) = p.securityIds
  rw [h, List.flatMap_singleton]

/-- The two ticks stay cached when the contract has moved on. -/
theorem runCalls_recentred {maximum : Nat} (hroom : 2 ≤ maximum) :
    ∃ underlying option,
      (runCalls asciiTables (.new maximum) recentredCalls).ticks = [("13", underlying), ("1", option)] ∧
        (runCalls asciiTables (.new maximum) recentredCalls).knownSecurityIds = ["13", "3"] := by
  -- The first contract is filed.
  obtain ⟨hlatest, hticks, hopen, hmaximum⟩ :=
    perform_publish (publication_leg 2 "1") (show (MarketReadModelStore.new maximum).closed = false from rfl)
      (legPublication_dated 2 "1") (by simp [MarketReadModelStore.new])
  have hmaximum : _ = maximum := hmaximum
  unfold recentredCalls runCalls
  rw [List.foldl_cons]
  generalize (perform asciiTables (.new maximum) _).2 = first at *
  have hids : first.knownSecurityIds = ["13", "1"] := knownSecurityIds_single hlatest
  -- Both its instruments tick.
  obtain ⟨underlying, -, hunderlying⟩ := perform_tick_new first 2 (show "13" ≠ "" by decide) hopen
    (by rw [hids]; decide) (by rw [hticks]; rfl) (by rw [hticks, hmaximum]; exact Nat.zero_lt_of_lt hroom)
  rw [List.foldl_cons]
  generalize (perform asciiTables first _).2 = second at *
  have hsecond : second.ticks = [("13", underlying)] := by rw [hunderlying.ticks, hticks]; rfl
  have hsecondIds : second.knownSecurityIds = ["13", "1"] :=
    knownSecurityIds_single (hunderlying.latest.trans hlatest)
  obtain ⟨option, -, hoption⟩ := perform_tick_new second 2 (show "1" ≠ "" by decide)
    (hunderlying.closed.trans hopen) (by rw [hsecondIds]; decide) (by rw [hsecond]; rfl)
    (by rw [hsecond, hunderlying.maximum, hmaximum]; exact hroom)
  rw [List.foldl_cons]
  generalize (perform asciiTables second _).2 = third at *
  have hthird : third.latest = [((legPublication 2 "1").key, legPublication 2 "1")] :=
    hoption.latest.trans (hunderlying.latest.trans hlatest)
  -- The re-centred contract replaces it.
  obtain ⟨hrecentred, hkept, -, -⟩ := perform_publish (publication_leg 3 "3")
    (hoption.closed.trans (hunderlying.closed.trans hopen)) (legPublication_dated 3 "3") (fun current hcurrent => by
      rw [hthird, legPublication_key, List.lookup_cons_self] at hcurrent
      exact Option.some.inj hcurrent ▸ ⟨legPublication_dated 2 "1", legPublication_lt⟩)
  rw [List.foldl_cons, List.foldl_nil]
  generalize (perform asciiTables third _).2 = last at *
  rw [hthird, legPublication_key, Dict.assign, if_pos rfl] at hrecentred
  refine ⟨underlying, option, ?_, knownSecurityIds_single hrecentred⟩
  rw [hkept, hoption.ticks, hsecond]
  rfl

/-- The underlying ticks on, the new option is kept out, though the contract names no more instruments than
the bound. -/
theorem publishFeedTick_locked_out :
    ¬∀ (tables : CharTables) (maximum : Nat) (calls : List Call) (packet : DhanFeedPacket)
      (receivedAt : Option Datetime) (clock : Datetime), packet.ValidPrimary → (receivedAt.getD clock).Aware →
      packet.securityId ∈ (runCalls tables (.new maximum) calls).knownSecurityIds →
      (∀ tick ∈ (runCalls tables (.new maximum) calls).ticks.lookup packet.securityId,
        tick.observedAt.instant < (receivedAt.getD clock).instant) →
      (runCalls tables (.new maximum) calls).knownSecurityIds.dedup.length ≤ maximum →
      (perform tables (runCalls tables (.new maximum) calls) (.publishFeedTick packet receivedAt clock)).1 =
        .ok true := by
  intro hall
  obtain ⟨underlying, option, hticks, hids⟩ := runCalls_recentred le_rfl
  have hmaximum := runCalls_maximum asciiTables 2 recentredCalls
  have hnew : (runCalls asciiTables (.new 2) recentredCalls).ticks.lookup "3" = none := by
    rw [hticks]
    rfl
  have htaken := hall asciiTables 2 recentredCalls (tickPacket 2 "3") none SignalPipeline.tieTime
    (tickPacket_valid 2 (by decide)) tieTime_aware (by rw [hids]; decide)
    (fun tick htick => by cases hnew.symm.trans htick) (by rw [hids]; decide)
  obtain ⟨levels, -, hchecked⟩ := checkPacket_validPrimary (tickPacket_valid 2 (show "3" ≠ "" by decide))
    (show ((none : Option Datetime).getD SignalPipeline.tieTime).Aware from tieTime_aware)
  rw [perform_tick asciiTables _ hchecked] at htaken
  obtain ⟨observedAt, hadmits⟩ := admits_of_mergeTick (Prod.ext (Except.ok.inj htaken) rfl)
  rcases hadmits.room with ⟨tick, htick⟩ | hroom
  · cases hnew.symm.trans htick
  · rw [hmaximum, hticks] at hroom
    exact absurd hroom (Nat.lt_irrefl 2)

/-- With one place more the new option finds room after the two ticks. -/
theorem publishFeedTick_accepts_recentred :
    (perform asciiTables (runCalls asciiTables (.new 3) recentredCalls)
      (.publishFeedTick (tickPacket 2 "3") none SignalPipeline.tieTime)).1 = .ok true := by
  obtain ⟨underlying, option, hticks, hids⟩ := runCalls_recentred (show 2 ≤ 3 by decide)
  have hnew : (runCalls asciiTables (.new 3) recentredCalls).ticks.lookup "3" = none := by
    rw [hticks]
    rfl
  refine (publishFeedTick_accepts_iff asciiTables 3 recentredCalls (tickPacket 2 "3") none SignalPipeline.tieTime
    (tickPacket_valid 2 (by decide)) tieTime_aware ?_ ?_).1.mpr ?_
  · rw [hids]
    decide
  · intro tick htick
    cases hnew.symm.trans htick
  · rw [hticks]
    exact .inr (Nat.lt_succ_self 2)

end TecoQuant.Api
